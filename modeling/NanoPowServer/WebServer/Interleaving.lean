import NanoPowServer.WebServer.Delivery

/-! The queue of a session with its operations split where another thread may run.
A pool task calls `write_json_response` without going through the strand, so
between its `push_back` and its test of the size the strand may push, erase or
start a write, and so may other tasks. -/
namespace NanoPowServer.WebServer

open Execution HttpSession

namespace HttpSession

/-- Allocate and store the work. -/
def pushBack (session : HttpSession) (response : Response) : HttpSession :=
  { session with
    items := session.items ++ [response], enqueued := session.enqueued ++ [response.request] }

/-- Call the first work item, which starts to write its message. -/
def startFront (session : HttpSession) : HttpSession :=
  { session with writing := session.writing ++ session.items.take 1 }

/-- If there was no previous work, start this one. -/
def testSize (session : HttpSession) : HttpSession :=
  if session.items.length = 1 then session.startFront else session

def eraseFront (session : HttpSession) : HttpSession :=
  { session with items := session.items.drop 1 }

theorem testSize_pushBack (session : HttpSession) (response : Response) :
    (session.pushBack response).testSize = session.enqueue response := by
  unfold testSize pushBack startFront enqueue
  dsimp only
  split <;> rfl

@[simp] theorem testSize_shutdown (session : HttpSession) :
    session.testSize.shutdown = session.shutdown := by
  unfold testSize
  split <;> rfl

theorem startFront_eraseFront (session : HttpSession) :
    session.queueOnWrite = (session.eraseFront.startFront, session.isFull) := rfl

end HttpSession

/-- Where the strand stands: between two handlers, between the push and the test
of an enqueue, or between the erasure and the next write of `on_write`. -/
inductive Strand where
  | idle
  | pushed
  | erased (wasFull : Bool)
  deriving DecidableEq

/-- `untested` counts the pool tasks that have pushed and not yet tested the
size, and `writeFailed` tells whether a write has failed. -/
structure SplitSession where
  session : HttpSession
  strand : Strand
  untested : Nat
  writeFailed : Bool

/-- `whole` is a handler that leaves the queue alone. The first two parts of an
enqueue on the strand follow the reading of the request that it answers. -/
inductive SplitAction where
  | whole (action : Action)
  | pushAnswer (request : Request) (body : String)
  | testAnswer
  | pushTask (request : Nat) (body : String)
  | testTask
  | erase (write : Nat)
  | startNext

namespace SplitSession

def initial : SplitSession := ⟨HttpSession.initial, .idle, 0, false⟩

/-- The handler neither pushes nor erases. -/
def leavesQueue : Action → Bool
  | .onRead _ .defer => true
  | .onRead request _ => request.isUpgrade
  | .onWrite | .writeJsonResponse _ _ => false
  | _ => true

def isWriteError : Action → Bool
  | .onWriteError _ => true
  | _ => false

/-- The request is handled up to the push of its response. -/
def pushAnswer (session : HttpSession) (request : Request) (body : String) : HttpSession :=
  { session with
    reads := session.reads - 1
    handling := true
    clientVersion := request.version
    clientKeepalive := request.keepAlive
    requests := session.requests ++ [request] }.pushBack
      { request := session.requests.length, version := request.version
        keepAlive := request.keepAlive, body }

/-- A task has built its response and pushes it. -/
def pushTask (session : HttpSession) (request : Nat) (body : String) : HttpSession :=
  { session with deferred := session.deferred.erase request }.pushBack
    { request, version := session.clientVersion, keepAlive := session.clientKeepalive, body }

def step (handlers : List Pattern) (s : SplitSession) : SplitAction → Option SplitSession
  | .whole action =>
      if s.strand = .idle ∧ leavesQueue action = true then
        (s.session.step handlers action).map fun session =>
          { s with session, writeFailed := s.writeFailed || isWriteError action }
      else none
  | .pushAnswer request body =>
      if s.strand = .idle ∧ s.session.handling = false ∧ 0 < s.session.reads ∧
          request.isUpgrade = false then
        some { s with session := pushAnswer s.session request body, strand := .pushed }
      else none
  | .testAnswer =>
      if s.strand = .pushed then some { s with session := s.session.testSize, strand := .idle }
      else none
  | .pushTask request body =>
      if request ∈ s.session.deferred then
        some { s with session := pushTask s.session request body, untested := s.untested + 1 }
      else none
  | .testTask =>
      if 0 < s.untested then
        some { s with session := s.session.testSize, untested := s.untested - 1 }
      else none
  | .erase write =>
      if s.strand = .idle ∧ s.session.handling = false then
        (s.session.writing[write]?).map fun response =>
          let session := { s.session with
            writing := s.session.writing.eraseIdx write
            written := s.session.written ++ [response.request] }
          if response.needEof then { s with session := session.gracefulShutdown }
          else { s with session := session.eraseFront, strand := .erased session.isFull }
      else none
  | .startNext =>
      match s.strand with
      | .erased wasFull =>
          let session := s.session.startFront
          some { s with session := if wasFull then session.read else session, strand := .idle }
      | _ => none

/-- The connection is shut down, or a write has failed. -/
def isDown (s : SplitSession) : Bool := s.session.shutdown || s.writeFailed

end SplitSession

/-- The strand has erased and not yet started the next write. -/
def Strand.unstarted : Strand → Nat
  | .erased _ => 1
  | _ => 0

namespace SplitSession

/-- The enqueues that have pushed and not yet tested the size. -/
def pending (s : SplitSession) : Nat := s.untested + (if s.strand = .pushed then 1 else 0)

/-- No enqueue and no `on_write` is in the middle of executing. -/
def Quiet (s : SplitSession) : Prop := s.strand = .idle ∧ s.untested = 0

/-- One step, with one constructor for each part of an operation. -/
inductive Step (handlers : List Pattern) (s : SplitSession) : SplitAction → SplitSession → Prop where
  | whole {action : Action} {session : HttpSession} (strand : s.strand = .idle)
      (leaves : leavesQueue action = true) (step : WebServer.Step handlers s.session action session) :
      Step handlers s (.whole action)
        { s with session, writeFailed := s.writeFailed || isWriteError action }
  | pushAnswer {request : Request} {body : String} (strand : s.strand = .idle)
      (free : s.session.handling = false) (reading : 0 < s.session.reads)
      (noUpgrade : request.isUpgrade = false) :
      Step handlers s (.pushAnswer request body)
        { s with session := SplitSession.pushAnswer s.session request body, strand := .pushed }
  | testAnswer (strand : s.strand = .pushed) :
      Step handlers s .testAnswer { s with session := s.session.testSize, strand := .idle }
  | pushTask {request : Nat} {body : String} (kept : request ∈ s.session.deferred) :
      Step handlers s (.pushTask request body)
        { s with
          session := SplitSession.pushTask s.session request body, untested := s.untested + 1 }
  | testTask (pushed : 0 < s.untested) :
      Step handlers s .testTask
        { s with session := s.session.testSize, untested := s.untested - 1 }
  | wroteLast {write : Nat} {response : Response} (strand : s.strand = .idle)
      (writing : s.session.writing[write]? = some response) (close : response.needEof = true) :
      Step handlers s (.erase write)
        { s with session := { s.session with
            writing := s.session.writing.eraseIdx write
            written := s.session.written ++ [response.request]
            shutdown := true } }
  | erase {write : Nat} {response : Response} (strand : s.strand = .idle)
      (writing : s.session.writing[write]? = some response) (keep : response.needEof = false) :
      Step handlers s (.erase write)
        { s with
          session := { s.session with
            writing := s.session.writing.eraseIdx write
            written := s.session.written ++ [response.request]
            items := s.session.items.drop 1 }
          strand := .erased s.session.isFull }
  | startNext {wasFull : Bool} (strand : s.strand = .erased wasFull) :
      Step handlers s .startNext
        { s with
          session := { s.session.startFront with
            reads := if wasFull then s.session.reads + 1 else s.session.reads }
          strand := .idle }

theorem step_cases {handlers : List Pattern} {s next : SplitSession} {action : SplitAction}
    (h : s.step handlers action = some next) : Step handlers s action next := by
  cases action with
  | whole action =>
      simp only [step, Option.ite_none_right_eq_some] at h
      obtain ⟨⟨strand, leaves⟩, h⟩ := h
      obtain ⟨session, hSession, rfl⟩ := Option.map_eq_some_iff.mp h
      exact .whole strand leaves (WebServer.step_cases hSession)
  | pushAnswer request body =>
      simp only [step, Option.ite_none_right_eq_some, Option.some.injEq] at h
      obtain ⟨⟨strand, free, reading, noUpgrade⟩, rfl⟩ := h
      exact .pushAnswer strand free reading noUpgrade
  | testAnswer =>
      simp only [step, Option.ite_none_right_eq_some, Option.some.injEq] at h
      obtain ⟨strand, rfl⟩ := h
      exact .testAnswer strand
  | pushTask request body =>
      simp only [step, Option.ite_none_right_eq_some, Option.some.injEq] at h
      obtain ⟨kept, rfl⟩ := h
      exact .pushTask kept
  | testTask =>
      simp only [step, Option.ite_none_right_eq_some, Option.some.injEq] at h
      obtain ⟨pushed, rfl⟩ := h
      exact .testTask pushed
  | erase write =>
      simp only [step, Option.ite_none_right_eq_some] at h
      obtain ⟨⟨strand, -⟩, h⟩ := h
      obtain ⟨response, writing, rfl⟩ := Option.map_eq_some_iff.mp h
      cases hEof : response.needEof with
      | true => exact .wroteLast strand writing hEof
      | false => exact .erase strand writing hEof
  | startNext =>
      simp only [step] at h
      split at h
      · next wasFull strand =>
          obtain rfl := Option.some.inj h
          cases wasFull <;> exact .startNext strand
      · simp at h

/-- The write that a queue needs is outstanding, or exactly one operation is about
to start it. While the queue holds a single response each enqueue that has pushed
is about to. -/
structure OneWriter (s : SplitSession) : Prop where
  front : s.session.writing = [] ∨
    s.session.items ≠ [] ∧ s.session.writing = s.session.items.take 1
  empty : s.session.items = [] → s.pending = 0
  single : s.session.items.length = 1 →
    s.session.writing.length + s.pending + s.strand.unstarted = 1
  several : 2 ≤ s.session.items.length → s.session.writing.length + s.strand.unstarted = 1

/-- At most one write is outstanding, and between operations it is that of the front of the
queue. -/
structure WritesFront (s : SplitSession) : Prop where
  atMostOne : s.session.writing.length ≤ 1
  quiet : s.Quiet → s.session.writing = s.session.items.take 1

namespace OneWriter

variable {s : SplitSession}

theorem writesFront (h : s.OneWriter) : s.WritesFront := by
  constructor
  · rcases h.front with hNone | ⟨-, hFront⟩
    · simp [hNone]
    · rw [hFront]
      exact List.length_take_le 1 _
  · rintro ⟨hStrand, hTested⟩
    rcases h.front with hNone | ⟨-, hFront⟩
    · have hPending : s.pending = 0 := by simp [pending, hStrand, hTested]
      have hStarted : s.strand.unstarted = 0 := by simp [hStrand, Strand.unstarted]
      have hSingle := h.single
      have hSeveral := h.several
      rw [hNone, List.length_nil] at hSingle hSeveral
      have hEmpty : s.session.items = [] := List.length_eq_zero_iff.mp (by omega)
      rw [hNone, hEmpty]
      rfl
    · exact hFront

/-- An operation that changes neither the queue nor its writes. -/
theorem of_same {next : SplitSession} (h : s.OneWriter)
    (items : next.session.items = s.session.items)
    (writing : next.session.writing = s.session.writing)
    (pending : next.pending = s.pending)
    (strand : next.strand.unstarted = s.strand.unstarted) : next.OneWriter := by
  constructor
  · rw [items, writing]
    exact h.front
  · rw [items, pending]
    exact h.empty
  · rw [items, writing, pending, strand]
    exact h.single
  · rw [items, writing, strand]
    exact h.several

theorem of_push {next : SplitSession} (h : s.OneWriter) {response : Response}
    (items : next.session.items = s.session.items ++ [response])
    (writing : next.session.writing = s.session.writing)
    (pending : next.pending = s.pending + 1)
    (strand : next.strand.unstarted = s.strand.unstarted)
    (started : s.session.items = [] → s.strand.unstarted = 0)
    (tested : s.session.items.length = 1 → s.pending = 0) : next.OneWriter := by
  have hLength : next.session.items.length = s.session.items.length + 1 := by simp [items]
  have hFront := h.front
  have hSingle := h.single
  have hSeveral := h.several
  constructor
  · rw [items, writing]
    rcases hFront with hNone | ⟨hSome, hFront⟩
    · exact .inl hNone
    · refine .inr ⟨by simp, ?_⟩
      rw [hFront, List.take_append_of_le_length (List.length_pos_iff.mpr hSome)]
  · simp [items]
  · intro hOne
    have hEmpty : s.session.items = [] := List.length_eq_zero_iff.mp (by omega)
    have hNone : s.session.writing = [] := by
      rcases hFront with hNone | ⟨hSome, -⟩
      · exact hNone
      · exact absurd hEmpty hSome
    rw [writing, pending, strand, hNone, started hEmpty, h.empty hEmpty]
    rfl
  · intro hTwo
    rw [writing, strand]
    by_cases hOne : s.session.items.length = 1
    · have hTested := tested hOne
      have hTotal := hSingle hOne
      omega
    · exact hSeveral (by omega)

theorem of_test {next : SplitSession} (h : s.OneWriter)
    (session : next.session = s.session.testSize) (pending : next.pending + 1 = s.pending)
    (strand : next.strand.unstarted = s.strand.unstarted) : next.OneWriter := by
  have hSingle := h.single
  by_cases hOne : s.session.items.length = 1
  · have hTotal := hSingle hOne
    have hNone : s.session.writing = [] := List.length_eq_zero_iff.mp (by omega)
    have hItems : next.session.items = s.session.items := by
      simp [session, testSize, hOne, startFront]
    have hWriting : next.session.writing = s.session.items.take 1 := by
      simp [session, testSize, hOne, startFront, hNone]
    have hLength : next.session.writing.length = 1 := by simp [hWriting, hOne]
    have hSome : s.session.items ≠ [] := List.length_pos_iff.mp (by omega)
    constructor
    · rw [hItems]
      exact .inr ⟨hSome, hWriting⟩
    · rw [hItems]
      exact fun hEmpty => absurd hEmpty hSome
    · intro _
      omega
    · rw [hItems]
      intro hTwo
      omega
  · have hSame : next.session = s.session := by simp [session, testSize, hOne]
    have hFront := h.front
    have hEmpty := h.empty
    have hSeveral := h.several
    rw [← hSame] at hFront hEmpty hSeveral hOne
    refine ⟨hFront, ?_, fun hLength => absurd hLength hOne, ?_⟩
    · intro hNone
      have hZero := hEmpty hNone
      omega
    · rw [strand]
      exact hSeveral

/-- A message has been written and its item erased. -/
theorem of_erase {next : SplitSession} (h : s.OneWriter) (strand : s.strand = .idle)
    {write : Nat} {response : Response} (written : s.session.writing[write]? = some response)
    (items : next.session.items = s.session.items.drop 1)
    (writing : next.session.writing = s.session.writing.eraseIdx write)
    (pending : next.pending = s.pending) (erased : next.strand.unstarted = 1)
    (tested : s.session.items.length = 2 → s.pending = 0) : next.OneWriter := by
  have hStarted : s.strand.unstarted = 0 := by simp [strand, Strand.unstarted]
  have hLength : next.session.items.length = s.session.items.length - 1 := by simp [items]
  have hSingle := h.single
  have hSeveral := h.several
  have hWrite : write < s.session.writing.length := (List.getElem?_eq_some_iff.mp written).1
  have hOne : s.session.writing.length ≤ 1 := h.writesFront.atMostOne
  have hNone : next.session.writing = [] := by
    apply List.length_eq_zero_iff.mp
    rw [writing, List.length_eraseIdx_of_lt hWrite]
    omega
  have hSome : 0 < s.session.items.length := by
    rcases h.front with hIdle | ⟨hSome, -⟩
    · simp [hIdle] at hWrite
    · exact List.length_pos_iff.mpr hSome
  refine ⟨.inl hNone, ?_, ?_, ?_⟩
  · intro hEmpty
    rw [hEmpty, List.length_nil] at hLength
    omega
  · intro hLast
    have hTested := tested (by omega)
    rw [hNone, List.length_nil]
    omega
  · intro _
    rw [hNone, List.length_nil]
    omega

theorem of_start {next : SplitSession} (h : s.OneWriter) (erased : s.strand.unstarted = 1)
    (items : next.session.items = s.session.items)
    (writing : next.session.writing = s.session.writing ++ s.session.items.take 1)
    (pending : next.pending = s.pending) (strand : next.strand.unstarted = 0) :
    next.OneWriter := by
  have hSingle := h.single
  have hSeveral := h.several
  have hNone : s.session.writing = [] := by
    rcases h.front with hNone | ⟨hSome, -⟩
    · exact hNone
    · have hPos := List.length_pos_iff.mpr hSome
      exact List.length_eq_zero_iff.mp (by omega)
  have hWriting : next.session.writing = s.session.items.take 1 := by simp [writing, hNone]
  have hLength : next.session.writing.length = min 1 s.session.items.length := by
    simp [hWriting]
  rw [hNone, List.length_nil] at hSingle hSeveral
  constructor
  · rw [items]
    by_cases hEmpty : s.session.items = []
    · exact .inl (by simp [hWriting, hEmpty])
    · exact .inr ⟨hEmpty, hWriting⟩
  · rw [items, pending]
    exact h.empty
  · rw [items]
    omega
  · rw [items]
    omega

end OneWriter

/-- While the connection is up, no response is pushed between the erasure of the
last item and the start of the next write, or while the only item has been pushed
and not tested; and no `on_write` leaves a single item while an enqueue has pushed
and not tested. -/
def keepsApart (s : SplitSession) (action : SplitAction) : Prop :=
  s.isDown = false →
    match action with
    | .pushAnswer _ _ | .pushTask _ _ =>
        (s.session.items = [] → s.strand.unstarted = 0) ∧
          (s.session.items.length = 1 → s.pending = 0)
    | .erase write =>
        (s.session.writing[write]?).any (fun response => !response.needEof) = true →
          s.session.items.length = 2 → s.pending = 0
    | _ => True

instance (s : SplitSession) (action : SplitAction) : Decidable (s.keepsApart action) := by
  unfold keepsApart
  cases action <;> infer_instance

/-- A handler that leaves the queue alone. -/
theorem same_of_leavesQueue {handlers : List Pattern} {session next : HttpSession}
    {action : Action} (leaves : leavesQueue action = true)
    (hStep : WebServer.Step handlers session action next) :
    next.items = session.items ∧
      (isWriteError action = false → next.writing = session.writing) ∧
      (session.shutdown = true → next.shutdown = true) := by
  cases hStep with
  | respond request handling response strand reading noUpgrade sends =>
      rcases sends with ⟨body, rfl⟩ | ⟨body, rfl⟩ <;> simp [leavesQueue, noUpgrade] at leaves
  | wroteLast | wroteFull | wrote | taskResponds => simp [leavesQueue] at leaves
  | writeAborted | writeFailed => simp [isWriteError]
  | _ => simp

theorem OneWriter.step {handlers : List Pattern} {s next : SplitSession} {action : SplitAction}
    (h : s.isDown = false → s.OneWriter) (allowed : s.keepsApart action)
    (hStep : Step handlers s action next) : next.isDown = false → next.OneWriter := by
  intro hUp
  cases hStep with
  | whole strand leaves step =>
      obtain ⟨items, writing, shutdown⟩ := same_of_leavesQueue leaves step
      simp only [isDown, Bool.or_eq_false_iff] at hUp
      obtain ⟨hShutdown, hFailed, hError⟩ := hUp
      have hPrior : s.isDown = false := by
        simp only [isDown, hFailed, Bool.or_false]
        by_contra hDown
        simp [shutdown (by simpa using hDown)] at hShutdown
      exact (h hPrior).of_same items (writing hError) rfl rfl
  | pushAnswer strand free reading noUpgrade =>
      obtain ⟨started, tested⟩ := allowed hUp
      refine (h hUp).of_push rfl rfl ?_ ?_ started tested
      · simp [pending, strand]
      · simp [strand, Strand.unstarted]
  | testAnswer strand =>
      have hPrior : s.isDown = false := by simpa [isDown] using hUp
      refine (h hPrior).of_test rfl ?_ ?_
      · simp [pending, strand]
      · simp [strand, Strand.unstarted]
  | pushTask kept =>
      obtain ⟨started, tested⟩ := allowed hUp
      refine (h hUp).of_push rfl rfl ?_ rfl started tested
      simp only [pending]
      omega
  | testTask pushed =>
      have hPrior : s.isDown = false := by simpa [isDown] using hUp
      refine (h hPrior).of_test rfl ?_ rfl
      simp only [pending]
      omega
  | wroteLast strand writing close => simp [isDown] at hUp
  | erase strand writing keep =>
      refine (h hUp).of_erase strand writing rfl rfl ?_ rfl ?_
      · simp [pending, strand]
      · exact allowed hUp (by simp [writing, keep])
  | startNext strand =>
      refine (h hUp).of_start ?_ rfl rfl ?_ rfl
      · simp [strand, Strand.unstarted]
      · simp [pending, strand]

/-- Until a write fails or the connection is shut down, a queue that is not empty
has one write outstanding, and it is for the front, in every run whose enqueues and
completions keep apart. -/
theorem writes_front (handlers : List Pattern) {s : SplitSession}
    (run : Reaches (SplitSession.step handlers) keepsApart initial s) (up : s.isDown = false) :
    s.WritesFront := by
  have hWriter : s.isDown = false → s.OneWriter := by
    apply run.invariant fun s => s.isDown = false → s.OneWriter
    · intro _
      constructor <;> simp [initial, HttpSession.initial, pending]
    · intro s action next _ h allowed hStep
      exact OneWriter.step h allowed (step_cases hStep)
  exact (hWriter up).writesFront

/-- A single item is written twice by the strand and by an enqueue that both find
it waiting. -/
theorem starts_twice {handlers : List Pattern} {s : SplitSession} (up : s.isDown = false)
    (erased : s.strand.unstarted = 1) (pushed : 0 < s.untested)
    (single : s.session.items.length = 1) :
    ∃ later, Reaches (SplitSession.step handlers) anyAction s later ∧ later.isDown = false ∧
      ¬ later.WritesFront := by
  cases hStrand : s.strand with
  | idle | pushed => simp [hStrand, Strand.unstarted] at erased
  | erased wasFull =>
      obtain ⟨first, hItems⟩ := List.length_eq_one_iff.mp single
      have hStart : s.step handlers .startNext = some { s with
          session := if wasFull then s.session.startFront.read else s.session.startFront
          strand := .idle } := by simp [SplitSession.step, hStrand]
      generalize hNext : { s with
        session := if wasFull then s.session.startFront.read else s.session.startFront
        strand := .idle } = next at hStart
      have hTest : next.step handlers .testTask = some { next with
          session := next.session.testSize, untested := next.untested - 1 } := by
        subst hNext
        simp [SplitSession.step, pushed]
      refine ⟨_, (Reaches.tail .refl trivial hStart).tail trivial hTest, ?_, ?_⟩
      · subst hNext
        cases wasFull <;> simpa [isDown, startFront, HttpSession.read] using up
      · intro hFront
        have hOne := hFront.atMostOne
        subst hNext
        cases wasFull <;>
          simp [testSize, startFront, HttpSession.read, hItems] at hOne

/-- With two items or more, a test starts nothing. -/
theorem tests_start_nothing {handlers : List Pattern} {s : SplitSession}
    (several : s.session.items.length ≠ 1) (strand : s.strand.unstarted = 0) :
    Reaches (SplitSession.step handlers) anyAction s { s with strand := .idle, untested := 0 } := by
  have hSame : s.session.testSize = s.session := by simp [testSize, several]
  have hTasks : ∀ count, Reaches (SplitSession.step handlers) anyAction
      { s with untested := count } { s with untested := 0 } := by
    intro count
    induction count with
    | zero => exact .refl
    | succ count ih =>
        have hTest : { s with untested := count + 1 }.step handlers .testTask =
            some { s with untested := count } := by simp [SplitSession.step, hSame]
        exact (Reaches.tail .refl trivial hTest).trans ih
  cases hStrand : s.strand with
  | idle =>
      have hRun := hTasks s.untested
      rwa [← hStrand]
  | pushed =>
      have hTest : { s with untested := 0 }.step handlers .testAnswer =
          some { s with strand := .idle, untested := 0 } := by
        simp [SplitSession.step, hStrand, hSame]
      exact (hTasks s.untested).tail trivial hTest
  | erased wasFull => simp [hStrand, Strand.unstarted] at strand

/-- A push that does not keep apart: the item is started twice, or its own enqueue
finds two items and starts nothing. -/
theorem push_races {handlers : List Pattern} {s next : SplitSession} (h : s.OneWriter)
    (up : next.isDown = false) {response : Response}
    (items : next.session.items = s.session.items ++ [response])
    (writing : next.session.writing = s.session.writing)
    (strand : next.strand.unstarted = s.strand.unstarted)
    (crowded : (s.session.items = [] ∧ s.strand.unstarted = 1 ∧ 0 < next.untested) ∨
      (s.session.items.length = 1 ∧ 0 < s.pending)) :
    ∃ later, Reaches (SplitSession.step handlers) anyAction next later ∧ later.isDown = false ∧
      ¬ later.WritesFront := by
  rcases crowded with ⟨hEmpty, hErased, hPushed⟩ | ⟨hSingle, hPending⟩
  · exact starts_twice up (strand.trans hErased) hPushed (by simp [items, hEmpty])
  · have hTotal := h.single hSingle
    have hIdle : s.session.writing = [] := List.length_eq_zero_iff.mp (by omega)
    refine ⟨_, tests_start_nothing (by simp [items, hSingle]) (by omega), up, ?_⟩
    intro hFront
    have hStalled := hFront.quiet ⟨rfl, rfl⟩
    rw [writing, hIdle, items] at hStalled
    have hLength := congrArg List.length hStalled
    simp at hLength

/-- A step that does not keep apart can be continued to a state in which two writes
are outstanding or none is to come. -/
theorem races_of_crowded {handlers : List Pattern} {s next : SplitSession} {action : SplitAction}
    (h : s.OneWriter) (hStep : Step handlers s action next) (crowded : ¬ s.keepsApart action) :
    ∃ later, Reaches (SplitSession.step handlers) anyAction next later ∧ later.isDown = false ∧
      ¬ later.WritesFront := by
  obtain ⟨up, hCrowded⟩ := Classical.not_imp.mp crowded
  cases hStep with
  | whole | testAnswer | testTask | startNext => exact absurd trivial hCrowded
  | pushAnswer strand free reading noUpgrade =>
      have hStarted : s.strand.unstarted = 0 := by simp [strand, Strand.unstarted]
      refine push_races h up rfl rfl hStarted.symm (.inr ?_)
      by_contra hRoom
      refine hCrowded ⟨fun _ => hStarted, fun hSingle => ?_⟩
      by_contra hPending
      exact hRoom ⟨hSingle, Nat.pos_of_ne_zero hPending⟩
  | pushTask kept =>
      refine push_races h up rfl rfl rfl ?_
      by_contra hRoom
      obtain ⟨hEmpty, hSingle⟩ := not_or.mp hRoom
      refine hCrowded ⟨fun hNone => ?_, fun hOne => ?_⟩
      · by_contra hErased
        refine hEmpty ⟨hNone, ?_, Nat.succ_pos _⟩
        cases hStrand : s.strand <;> simp_all [Strand.unstarted]
      · by_contra hPending
        exact hSingle ⟨hOne, Nat.pos_of_ne_zero hPending⟩
  | wroteLast strand writing close =>
      exact absurd (fun hKeep => by simp [writing, close] at hKeep) hCrowded
  | erase strand writing keep =>
      obtain ⟨-, hCrowded⟩ := Classical.not_imp.mp hCrowded
      obtain ⟨hTwo, hPending⟩ := Classical.not_imp.mp hCrowded
      have hPushed : 0 < s.untested := by
        simp only [pending, strand] at hPending
        simpa [Nat.pos_iff_ne_zero] using hPending
      exact starts_twice up rfl hPushed (by simp [hTwo])

/-- Nothing comes between the parts of an operation. -/
def uninterrupted (s : SplitSession) : SplitAction → Prop
  | .testAnswer | .testTask | .startNext => True
  | .whole _ | .pushAnswer _ _ | .pushTask _ _ | .erase _ => s.Quiet

/-- The session once the operation that is in the middle of executing is through. -/
def completed (s : SplitSession) : HttpSession :=
  match s.strand with
  | .idle => if s.untested = 0 then s.session else s.session.testSize
  | .pushed => s.session.testSize
  | .erased wasFull => if wasFull then s.session.startFront.read else s.session.startFront

/-- An enqueue of the strand that is not interrupted. -/
theorem answer_whole {handlers : List Pattern} {s : SplitSession} {request : Request}
    (body : String) (quiet : s.Quiet) (free : s.session.handling = false)
    (reading : 0 < s.session.reads) (noUpgrade : request.isUpgrade = false) :
    Reaches (SplitSession.step handlers) uninterrupted s
      { s with session := (SplitSession.pushAnswer s.session request body).testSize } := by
  have hPush : s.step handlers (.pushAnswer request body) = some { s with
      session := SplitSession.pushAnswer s.session request body, strand := .pushed } := by
    simp [SplitSession.step, quiet.1, free, reading, noUpgrade]
  have hTest : SplitSession.step handlers { s with
      session := SplitSession.pushAnswer s.session request body, strand := .pushed } .testAnswer =
        some { s with session := (SplitSession.pushAnswer s.session request body).testSize } := by
    simp [SplitSession.step, quiet.1]
  have hPushed : Reaches (SplitSession.step handlers) uninterrupted s _ := .tail .refl (by exact quiet) hPush
  exact hPushed.tail (by trivial) hTest

/-- An enqueue of a pool task that is not interrupted. -/
theorem task_whole {handlers : List Pattern} {s : SplitSession} {request : Nat} (body : String)
    (quiet : s.Quiet) (kept : request ∈ s.session.deferred) :
    Reaches (SplitSession.step handlers) uninterrupted s
      { s with session := (SplitSession.pushTask s.session request body).testSize } := by
  have hPush : s.step handlers (.pushTask request body) = some { s with
      session := SplitSession.pushTask s.session request body, untested := s.untested + 1 } := by
    simp [SplitSession.step, kept]
  have hTest : SplitSession.step handlers { s with
      session := SplitSession.pushTask s.session request body
      untested := s.untested + 1 } .testTask = some { s with
        session := (SplitSession.pushTask s.session request body).testSize } := by
    simp [SplitSession.step]
  have hPushed : Reaches (SplitSession.step handlers) uninterrupted s _ := .tail .refl (by exact quiet) hPush
  exact hPushed.tail (by trivial) hTest

/-- An `on_write` that is not interrupted. -/
theorem onWrite_whole {handlers : List Pattern} {s : SplitSession} {response : Response}
    {rest : List Response} (quiet : s.Quiet) (free : s.session.handling = false)
    (writing : s.session.writing = response :: rest) :
    Reaches (SplitSession.step handlers) uninterrupted s { s with
      session := { s.session with
        writing := rest, written := s.session.written ++ [response.request] }.onWrite response } := by
  unfold HttpSession.onWrite
  cases hEof : response.needEof with
  | true =>
      have hErase : s.step handlers (.erase 0) = some { s with
          session := HttpSession.gracefulShutdown { s.session with
            writing := rest, written := s.session.written ++ [response.request] } } := by
        simp [SplitSession.step, quiet.1, free, writing, hEof]
      exact .tail .refl (by exact quiet) hErase
  | false =>
      have hErase : s.step handlers (.erase 0) = some { s with
          session := HttpSession.eraseFront { s.session with
            writing := rest, written := s.session.written ++ [response.request] }
          strand := .erased s.session.isFull } := by
        simp [SplitSession.step, quiet.1, free, writing, hEof, isFull]
      have hErased : Reaches (SplitSession.step handlers) uninterrupted s _ :=
        .tail .refl (by exact quiet) hErase
      have hStart := hErased.tail (by trivial)
        (show SplitSession.step handlers _ .startNext = some _ from rfl)
      rw [startFront_eraseFront]
      rw [← quiet.1] at hStart
      exact hStart

/-- What the session does with its queue operations as single steps, it does with
their parts one right after the other. -/
theorem reaches_of_session {handlers : List Pattern} {session : HttpSession}
    (run : Reaches (HttpSession.step handlers) anyAction HttpSession.initial session) :
    ∃ s, Reaches (SplitSession.step handlers) uninterrupted initial s ∧ s.session = session ∧
      s.Quiet := by
  induction run with
  | refl => exact ⟨initial, .refl, rfl, rfl, rfl⟩
  | @tail middle finish action _ _ last ih =>
      obtain ⟨s, hRun, rfl, hQuiet⟩ := ih
      by_cases hLeaves : leavesQueue action = true
      · have hStep : s.step handlers (.whole action) = some { s with
            session := finish, writeFailed := s.writeFailed || isWriteError action } := by
          simp [SplitSession.step, hQuiet.1, hLeaves, last]
        exact ⟨_, hRun.tail (by exact hQuiet) hStep, rfl, hQuiet⟩
      · cases action with
        | onRead request handling =>
            obtain ⟨⟨free, reading⟩, rfl⟩ := by simpa [HttpSession.step] using last
            have noUpgrade : request.isUpgrade = false := by
              cases handling with
              | send body => simpa [leavesQueue] using hLeaves
              | respond body => simpa [leavesQueue] using hLeaves
              | defer => simp [leavesQueue] at hLeaves
            unfold HttpSession.onRead
            cases handling with
            | send body =>
                refine ⟨_, hRun.trans (answer_whole body hQuiet free reading noUpgrade), ?_, hQuiet⟩
                simp only [SplitSession.pushAnswer, testSize_pushBack, noUpgrade]
                rfl
            | respond body =>
                refine ⟨_, hRun.trans (answer_whole body hQuiet free reading noUpgrade), ?_, hQuiet⟩
                simp only [SplitSession.pushAnswer, testSize_pushBack, noUpgrade]
                rfl
            | defer => simp [leavesQueue] at hLeaves
        | writeJsonResponse request body =>
            obtain ⟨kept, rfl⟩ := by simpa [HttpSession.step] using last
            refine ⟨_, hRun.trans (task_whole body hQuiet kept), ?_, hQuiet⟩
            simp only [SplitSession.pushTask, testSize_pushBack]
            rfl
        | onWrite =>
            simp only [HttpSession.step] at last
            split at last
            · next response rest free writing =>
                obtain rfl := Option.some.inj last
                exact ⟨_, hRun.trans (onWrite_whole hQuiet free writing), rfl, hQuiet⟩
            · simp at last
        | _ => simp [leavesQueue] at hLeaves

/-- At most one operation is in the middle of executing, and with it completed the
session is one whose operations are single steps. -/
structure OneByOne (handlers : List Pattern) (s : SplitSession) : Prop where
  atMostOne : s.strand = .idle ∧ s.untested ≤ 1 ∨ s.strand ≠ .idle ∧ s.untested = 0
  reached : Reaches (HttpSession.step handlers) anyAction HttpSession.initial s.completed

theorem completed_of_quiet {s : SplitSession} (quiet : s.Quiet) : s.completed = s.session := by
  simp [completed, quiet.1, quiet.2]

/-- An operation begins where none is in the middle of executing. -/
theorem OneByOne.begin {handlers : List Pattern} {s next : SplitSession} {action : Action}
    (h : s.OneByOne handlers) (quiet : s.Quiet)
    (hStep : s.session.step handlers action = some next.completed)
    (atMostOne : next.strand = .idle ∧ next.untested ≤ 1 ∨ next.strand ≠ .idle ∧ next.untested = 0) :
    next.OneByOne handlers := by
  have hReached := h.reached
  rw [completed_of_quiet quiet] at hReached
  exact ⟨atMostOne, hReached.tail trivial hStep⟩

theorem OneByOne.step {handlers : List Pattern} {s next : SplitSession} {action : SplitAction}
    (h : s.OneByOne handlers) (allowed : uninterrupted s action)
    (hStep : s.step handlers action = some next) : next.OneByOne handlers := by
  cases action with
  | whole action =>
      simp only [SplitSession.step, Option.ite_none_right_eq_some] at hStep
      obtain ⟨⟨hStrand, -⟩, hStep⟩ := hStep
      obtain ⟨session, hSession, rfl⟩ := Option.map_eq_some_iff.mp hStep
      refine @OneByOne.begin _ _ _ action h allowed ?_ (.inl ⟨hStrand, by simp [allowed.2]⟩)
      simpa [completed, hStrand, allowed.2] using hSession
  | pushAnswer request body =>
      simp only [SplitSession.step, Option.ite_none_right_eq_some, Option.some.injEq] at hStep
      obtain ⟨⟨hStrand, hFree, hReading, hNoUpgrade⟩, rfl⟩ := hStep
      refine @OneByOne.begin _ _ _ (.onRead request (.send body)) h allowed ?_
        (.inr ⟨by simp, allowed.2⟩)
      simp only [HttpSession.step, hFree, hReading, and_self, if_true, completed,
        SplitSession.pushAnswer, testSize_pushBack, HttpSession.onRead, hNoUpgrade]
      rfl
  | pushTask request body =>
      simp only [SplitSession.step, Option.ite_none_right_eq_some, Option.some.injEq] at hStep
      obtain ⟨hKept, rfl⟩ := hStep
      refine @OneByOne.begin _ _ _ (.writeJsonResponse request body) h allowed ?_
        (.inl ⟨allowed.1, by simp [allowed.2]⟩)
      simp only [HttpSession.step, hKept, if_true, completed, allowed.1, SplitSession.pushTask,
        testSize_pushBack]
      rfl
  | erase write =>
      simp only [SplitSession.step, Option.ite_none_right_eq_some] at hStep
      obtain ⟨⟨hStrand, hFree⟩, hStep⟩ := hStep
      obtain ⟨response, hWriting, rfl⟩ := Option.map_eq_some_iff.mp hStep
      have hReached := h.reached
      rw [completed_of_quiet allowed] at hReached
      -- The write that has ended is the only one that was outstanding.
      obtain ⟨rfl, hOnly⟩ : write = 0 ∧ s.session.writing = [response] := by
        cases hAll : s.session.writing with
        | nil => simp [hAll] at hWriting
        | cons first rest =>
            obtain ⟨-, -, rfl, -⟩ := (Delivery.of_reaches hReached).items_eq hAll
            cases write <;> simp_all
      cases hEof : response.needEof with
      | true =>
          refine @OneByOne.begin _ _ _ .onWrite h allowed ?_ (.inl ⟨?_, ?_⟩)
          · simp [HttpSession.step, hFree, hOnly, completed, hStrand, allowed.2, HttpSession.onWrite,
              hEof]
          · simpa using hStrand
          · simp [allowed.2]
      | false =>
          refine @OneByOne.begin _ _ _ .onWrite h allowed ?_ (.inr ⟨?_, ?_⟩)
          · simp [HttpSession.step, hFree, hOnly, completed, HttpSession.onWrite, hEof,
              startFront_eraseFront, isFull]
          · simp
          · simpa using allowed.2
  | testAnswer =>
      simp only [SplitSession.step, Option.ite_none_right_eq_some, Option.some.injEq] at hStep
      obtain ⟨hStrand, rfl⟩ := hStep
      have hNone : s.untested = 0 := by simpa [hStrand] using h.atMostOne
      have hReached := h.reached
      refine ⟨.inl ⟨rfl, by simp [hNone]⟩, ?_⟩
      simpa [completed, hStrand, hNone] using hReached
  | testTask =>
      simp only [SplitSession.step, Option.ite_none_right_eq_some, Option.some.injEq] at hStep
      obtain ⟨hPushed, rfl⟩ := hStep
      obtain ⟨hStrand, hOne⟩ : s.strand = .idle ∧ s.untested = 1 := by
        rcases h.atMostOne with ⟨hStrand, hOne⟩ | ⟨-, hNone⟩
        · exact ⟨hStrand, by omega⟩
        · omega
      have hReached := h.reached
      refine ⟨.inl ⟨hStrand, by simp [hOne]⟩, ?_⟩
      simpa [completed, hStrand, hOne] using hReached
  | startNext =>
      simp only [SplitSession.step] at hStep
      split at hStep
      · next wasFull hStrand =>
          obtain rfl := Option.some.inj hStep
          have hNone : s.untested = 0 := by simpa [hStrand] using h.atMostOne
          have hReached := h.reached
          refine ⟨.inl ⟨rfl, by simp [hNone]⟩, ?_⟩
          simpa [completed, hStrand, hNone] using hReached
      · cases hStep

/-- The session whose queue operations are single steps is what the code does as long as
nothing comes between the parts of these operations, neither more nor less. -/
theorem uninterrupted_iff (handlers : List Pattern) (session : HttpSession) :
    (∃ s, Reaches (SplitSession.step handlers) uninterrupted initial s ∧ s.session = session ∧
      s.Quiet) ↔
    Reaches (HttpSession.step handlers) anyAction HttpSession.initial session := by
  constructor
  · rintro ⟨s, run, rfl, hQuiet⟩
    have hOneByOne : s.OneByOne handlers := by
      refine run.invariant (OneByOne handlers) ⟨.inl ⟨rfl, Nat.zero_le 1⟩, .refl⟩ ?_
      intro s action next _ h allowed hStep
      exact h.step allowed hStep
    rw [← completed_of_quiet hQuiet]
    exact hOneByOne.reached
  · exact reaches_of_session

/-- The last item has been written and erased; before the strand looks for a next
one, the task of a second request pushes its response. -/
def racingRun : List SplitAction :=
  [.whole (.onRead workRequest .defer), .whole .pipeline, .whole (.onRead workRequest .defer),
    .whole .pipeline, .pushTask 0 "", .testTask, .erase 0, .pushTask 1 "", .startNext, .testTask]

/-- Both the strand and the task start to write it. -/
theorem writes_twice :
    ¬ ∀ (handlers : List Pattern) (s : SplitSession),
      Reaches (SplitSession.step handlers) anyAction initial s → s.isDown = false →
      s.WritesFront := by
  intro hAll
  have hRacing : ∃ h : (runActions (SplitSession.step websocketHandlers) initial
        racingRun).isSome = true,
      let s := (runActions (SplitSession.step websocketHandlers) initial racingRun).get h
      s.isDown = false ∧ s.session.writing.length = 2 := ⟨by decide, by decide, by decide⟩
  obtain ⟨hEnabled, hUp, hTwo⟩ := hRacing
  have hRun := reaches_get hEnabled (allAllowed_anyAction racingRun _)
  have hOne := (hAll websocketHandlers _ hRun hUp).atMostOne
  omega

/-- A second task pushes while the first response is being written. -/
theorem writes_front_two :
    let actions : List SplitAction :=
      [.whole (.onRead workRequest .defer), .whole .pipeline, .whole (.onRead workRequest .defer),
        .whole .pipeline, .pushTask 0 "", .testTask, .pushTask 1 "", .testTask, .erase 0,
        .startNext]
    ∃ h : (runActions (SplitSession.step websocketHandlers) initial actions).isSome = true,
      let s := (runActions (SplitSession.step websocketHandlers) initial actions).get h
      s.session.items.map Response.request = [1] ∧ s.Quiet ∧ s.isDown = false ∧ s.WritesFront :=
  ⟨by decide, by decide, ⟨by decide, by decide⟩, by decide,
    writes_front websocketHandlers (reaches_get (by decide) (by decide)) (by decide)⟩

end SplitSession

end NanoPowServer.WebServer
