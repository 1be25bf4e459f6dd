import Mathlib.Data.List.Basic

/-! Messages on a stream, one after the other. A reader knows from the head of a message,
and from what it has asked for, how many bytes follow before the next head. -/
namespace Framing

universe u

/-- What comes out of a stream: heads are told apart from the bytes of bodies. -/
inductive Piece (Head : Type u) where
  | head (head : Head)
  | byte (byte : UInt8)

structure Frame (Head : Type u) where
  head : Head
  body : List UInt8

variable {Head : Type u}

def Frame.pieces (frame : Frame Head) : List (Piece Head) :=
  .head frame.head :: frame.body.map .byte

/-- Take so many bytes off the stream. -/
def takeBytes : Nat → List (Piece Head) → Option (List UInt8 × List (Piece Head))
  | 0, rest => some ([], rest)
  | count + 1, .byte byte :: rest =>
      (takeBytes count rest).map fun (body, rest) => (byte :: body, rest)
  | _ + 1, _ => none

/-- Read the messages that are expected, until the stream ends. Each expectation gives the
length of the body for a head. -/
def readAll : List (Head → Nat) → List (Piece Head) → Option (List (Frame Head))
  | [], [] => some []
  | expected :: more, .head head :: rest =>
      (takeBytes (expected head) rest).bind fun (body, rest) =>
        (readAll more rest).map fun frames => ⟨head, body⟩ :: frames
  | _, _ => none

theorem takeBytes_append (body : List UInt8) (rest : List (Piece Head)) :
    takeBytes body.length (body.map .byte ++ rest) = some (body, rest) := by
  induction body with
  | nil => rfl
  | cons byte body ih => simp [takeBytes, ih]

theorem length_of_takeBytes {count : Nat} {stream rest : List (Piece Head)} {body : List UInt8}
    (h : takeBytes count stream = some (body, rest)) : body.length = count := by
  induction count generalizing stream body with
  | zero =>
      obtain ⟨rfl, -⟩ := Prod.mk.inj (Option.some.inj h)
      rfl
  | succ count ih =>
      cases stream with
      | nil => simp [takeBytes] at h
      | cons piece stream =>
          cases piece with
          | head head => simp [takeBytes] at h
          | byte byte =>
              obtain ⟨⟨taken, left⟩, hTaken, hPair⟩ := Option.map_eq_some_iff.mp h
              obtain ⟨rfl, rfl⟩ := Prod.mk.inj hPair
              rw [List.length_cons, ih hTaken]

/-- What was written is read back exactly if each body is as long as the reader expects. -/
theorem readAll_pieces_iff (frames : List ((Head → Nat) × Frame Head)) :
    readAll (frames.map Prod.fst) ((frames.map Prod.snd).flatMap Frame.pieces) =
        some (frames.map Prod.snd) ↔
      ∀ frame ∈ frames, frame.1 frame.2.head = frame.2.body.length := by
  induction frames with
  | nil => simp [readAll]
  | cons first frames ih =>
      obtain ⟨expected, frame⟩ := first
      simp only [List.map_cons, List.flatMap_cons, Frame.pieces, List.cons_append, readAll,
        List.forall_mem_cons]
      rw [← ih]
      constructor
      · intro h
        obtain ⟨⟨body, rest⟩, hTaken, hRest⟩ := Option.bind_eq_some_iff.mp h
        obtain ⟨others, hOthers, hFrames⟩ := Option.map_eq_some_iff.mp hRest
        obtain ⟨hFirst, rfl⟩ := List.cons.inj hFrames
        have hBody : body = frame.body := congrArg Frame.body hFirst
        have hLength : expected frame.head = frame.body.length := by
          rw [← hBody, length_of_takeBytes hTaken]
        refine ⟨hLength, ?_⟩
        rw [hLength, takeBytes_append] at hTaken
        obtain ⟨-, rfl⟩ := Prod.mk.inj (Option.some.inj hTaken)
        exact hOthers
      · rintro ⟨hLength, hOthers⟩
        rw [hLength, takeBytes_append]
        simp [hOthers]

end Framing
