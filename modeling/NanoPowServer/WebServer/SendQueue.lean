import NanoPowServer.Library.Execution

/-! The outgoing messages of a WebSocket session. Any thread may call
`write_response`, which only posts a lambda to the strand; the lambdas and the
completion handlers of the writes run on the strand, one after the other. -/
namespace NanoPowServer.WebServer

open Execution

/-- `posted` holds the messages whose lambdas the strand has not run yet, and
`writing` those of the outstanding `async_write` operations. `enqueued` and
`handed` record the messages put on the queue and those handed to `async_write`,
oldest first, and `misused` whether `front` or `pop_front` was applied to an empty
queue. -/
structure SendQueue where
  posted : List String
  sendQueue : List String
  writing : List String
  enqueued : List String
  handed : List String
  misused : Bool
  deriving DecidableEq

namespace SendQueue

inductive Action where
  | writeResponse (message : String)
  | runPosted
  | onWritten (write : Nat) (failed : Bool)

def initial : SendQueue := ⟨[], [], [], [], [], false⟩

/-- Start to write a copy of the front. -/
def writeQueuedMessages (s : SendQueue) : SendQueue :=
  match s.sendQueue with
  | [] => { s with misused := true }
  | msg :: _ => { s with writing := s.writing ++ [msg], handed := s.handed ++ [msg] }

/-- The lambda that `write_response` posts. -/
def emplace (s : SendQueue) (message : String) : SendQueue :=
  let writeInProgress := !s.sendQueue.isEmpty
  let pushed := { s with
    sendQueue := s.sendQueue ++ [message], enqueued := s.enqueued ++ [message] }
  if writeInProgress then pushed else pushed.writeQueuedMessages

/-- The completion handler of `async_write`. -/
def complete (s : SendQueue) (failed : Bool) : SendQueue :=
  let popped := { s with
    sendQueue := s.sendQueue.tail, misused := s.misused || s.sendQueue.isEmpty }
  if failed then popped
  else if popped.sendQueue.isEmpty then popped
  else popped.writeQueuedMessages

def step (s : SendQueue) : Action → Option SendQueue
  | .writeResponse message => some { s with posted := s.posted ++ [message] }
  | .runPosted =>
      match s.posted with
      | [] => none
      | message :: rest => some ({ s with posted := rest }.emplace message)
  | .onWritten write failed =>
      if write < s.writing.length then
        some ({ s with writing := s.writing.eraseIdx write }.complete failed)
      else none

theorem writeQueuedMessages_of_front {s : SendQueue} {msg : String} {rest : List String}
    (h : s.sendQueue = msg :: rest) :
    s.writeQueuedMessages =
      { s with writing := s.writing ++ [msg], handed := s.handed ++ [msg] } := by
  simp [writeQueuedMessages, h]

/-- One step of the strand, or a call of `write_response`. -/
inductive Step (s : SendQueue) : Action → SendQueue → Prop where
  | writeResponse (message : String) :
      Step s (.writeResponse message) { s with posted := s.posted ++ [message] }
  | runPosted {message : String} {rest : List String} (posted : s.posted = message :: rest) :
      Step s .runPosted ({ s with posted := rest }.emplace message)
  | onWritten {write : Nat} {failed : Bool} (outstanding : write < s.writing.length) :
      Step s (.onWritten write failed)
        ({ s with writing := s.writing.eraseIdx write }.complete failed)

theorem step_cases {s next : SendQueue} {action : Action} (h : s.step action = some next) :
    Step s action next := by
  cases action with
  | writeResponse message =>
      obtain rfl : { s with posted := s.posted ++ [message] } = next := by simpa [step] using h
      exact .writeResponse message
  | runPosted =>
      cases hPosted : s.posted with
      | nil => simp [step, hPosted] at h
      | cons message rest =>
          obtain rfl : { s with posted := rest }.emplace message = next := by
            simpa [step, hPosted] using h
          exact .runPosted hPosted
  | onWritten write failed =>
      simp only [step, Option.ite_none_right_eq_some, Option.some.injEq] at h
      obtain ⟨hWrite, rfl⟩ := h
      exact .onWritten hWrite

theorem record_writeQueuedMessages (s : SendQueue) :
    s.writeQueuedMessages.enqueued = s.enqueued ∧ s.writeQueuedMessages.posted = s.posted := by
  unfold writeQueuedMessages
  split <;> exact ⟨rfl, rfl⟩

theorem record_emplace (s : SendQueue) (message : String) :
    (s.emplace message).enqueued = s.enqueued ++ [message] ∧
      (s.emplace message).posted = s.posted := by
  unfold emplace
  dsimp only
  split
  · exact ⟨rfl, rfl⟩
  · exact record_writeQueuedMessages _

theorem record_complete (s : SendQueue) (failed : Bool) :
    (s.complete failed).enqueued = s.enqueued ∧ (s.complete failed).posted = s.posted := by
  unfold complete
  dsimp only
  split
  · exact ⟨rfl, rfl⟩
  · split
    · exact ⟨rfl, rfl⟩
    · exact record_writeQueuedMessages _

/-- What is written is the front of the queue, and what was handed over is what
has left the queue and then the front while it is being written. -/
structure Serial (s : SendQueue) : Prop where
  front : s.writing = [] ∨ ∃ msg rest, s.sendQueue = msg :: rest ∧ s.writing = [msg]
  order : ∃ popped, s.enqueued = popped ++ s.sendQueue ∧ s.handed = popped ++ s.writing
  used : s.misused = false

theorem serial_initial : initial.Serial := ⟨.inl rfl, ⟨[], rfl, rfl⟩, rfl⟩

namespace Serial

variable {s : SendQueue}

theorem writeQueuedMessages (h : s.Serial) (hIdle : s.writing = []) (hQueue : s.sendQueue ≠ []) :
    s.writeQueuedMessages.Serial := by
  obtain ⟨popped, hEnqueued, hHanded⟩ := h.order
  cases hFront : s.sendQueue with
  | nil => exact absurd hFront hQueue
  | cons msg rest =>
      rw [writeQueuedMessages_of_front hFront]
      refine ⟨.inr ⟨msg, rest, hFront, by simp [hIdle]⟩, ⟨popped, hEnqueued, ?_⟩, h.used⟩
      simp [hHanded, hIdle]

theorem emplace (h : s.Serial) (message : String) : (s.emplace message).Serial := by
  obtain ⟨popped, hEnqueued, hHanded⟩ := h.order
  have hPushed : Serial { s with
      sendQueue := s.sendQueue ++ [message], enqueued := s.enqueued ++ [message] } := by
    refine ⟨?_, ⟨popped, by simp [hEnqueued], hHanded⟩, h.used⟩
    rcases h.front with hIdle | ⟨msg, rest, hFront, hWriting⟩
    · exact .inl hIdle
    · exact .inr ⟨msg, rest ++ [message], by simp [hFront], hWriting⟩
  unfold SendQueue.emplace
  dsimp only
  split
  · exact hPushed
  · next hEmpty =>
      -- Nothing can be written while the queue is empty.
      have hQueue : s.sendQueue = [] := by simpa using hEmpty
      have hIdle : s.writing = [] := by
        rcases h.front with hIdle | ⟨msg, rest, hFront, -⟩
        · exact hIdle
        · simp [hQueue] at hFront
      exact hPushed.writeQueuedMessages hIdle (by simp)

/-- A write that completes is the only one, and its message is at the front. -/
theorem outstanding (h : s.Serial) {write : Nat} (hWrite : write < s.writing.length) :
    write = 0 ∧ ∃ msg rest, s.sendQueue = msg :: rest ∧ s.writing = [msg] := by
  rcases h.front with hIdle | ⟨msg, rest, hFront, hWriting⟩
  · simp [hIdle] at hWrite
  · refine ⟨?_, msg, rest, hFront, hWriting⟩
    rw [hWriting] at hWrite
    simpa using hWrite

theorem complete (h : s.Serial) {write : Nat} (hWrite : write < s.writing.length)
    (failed : Bool) : ({ s with writing := s.writing.eraseIdx write }.complete failed).Serial := by
  obtain ⟨popped, hEnqueued, hHanded⟩ := h.order
  obtain ⟨rfl, msg, rest, hFront, hWriting⟩ := h.outstanding hWrite
  have hPopped : Serial { s with
      writing := s.writing.eraseIdx 0
      sendQueue := s.sendQueue.tail
      misused := s.misused || s.sendQueue.isEmpty } := by
    refine ⟨.inl (by simp [hWriting]), ⟨popped ++ [msg], ?_, ?_⟩, ?_⟩
    · simp [hEnqueued, hFront]
    · simp [hHanded, hWriting]
    · simp [h.used, hFront]
  unfold SendQueue.complete
  dsimp only
  split
  · exact hPopped
  · split
    · exact hPopped
    · next hEmpty => exact hPopped.writeQueuedMessages (by simp [hWriting]) (by simpa using hEmpty)

theorem step (h : s.Serial) {action : Action} {next : SendQueue}
    (hStep : s.step action = some next) : next.Serial := by
  cases step_cases hStep with
  | writeResponse message => exact ⟨h.front, h.order, h.used⟩
  | @runPosted message rest _ =>
      have hRest : Serial { s with posted := rest } := ⟨h.front, h.order, h.used⟩
      exact hRest.emplace message
  | onWritten hWrite => exact h.complete hWrite _

theorem of_reaches {guard : SendQueue → Action → Prop}
    (run : Reaches SendQueue.step guard initial s) : s.Serial :=
  run.invariant Serial serial_initial fun _ _ _ _ h _ hStep => h.step hStep

end Serial

/-- A queued message has a write ahead of it. -/
def Flows (s : SendQueue) : Prop := s.sendQueue ≠ [] → s.writing ≠ []

/-- A write fails only when no other message is queued behind it. -/
def failsAlone (s : SendQueue) : Action → Prop
  | .onWritten _ failed => failed = true → s.sendQueue.length ≤ 1
  | _ => True

instance (s : SendQueue) (action : Action) : Decidable (s.failsAlone action) := by
  cases action <;> unfold failsAlone <;> infer_instance

theorem flows_writeQueuedMessages (s : SendQueue) (hQueue : s.sendQueue ≠ []) :
    s.writeQueuedMessages.Flows := by
  cases hFront : s.sendQueue with
  | nil => exact absurd hFront hQueue
  | cons msg rest =>
      rw [writeQueuedMessages_of_front hFront]
      intro _
      simp

theorem Flows.emplace {s : SendQueue} (h : s.Flows) (message : String) :
    (s.emplace message).Flows := by
  unfold SendQueue.emplace
  dsimp only
  split
  · next hBusy =>
      intro _
      exact h (by simpa using hBusy)
  · exact flows_writeQueuedMessages _ (by simp)

/-- After a write that succeeded, or failed with nothing behind it, either the
queue is empty or its front is being written. -/
theorem flows_complete (s : SendQueue) {failed : Bool}
    (h : failed = true → s.sendQueue.length ≤ 1) : (s.complete failed).Flows := by
  unfold SendQueue.complete
  dsimp only
  split
  · next hFailed =>
      intro hQueue
      have hShort := h hFailed
      cases hFront : s.sendQueue with
      | nil => simp [hFront] at hQueue
      | cons msg rest =>
          rw [hFront] at hShort
          simp_all
  · split
    · next hEmpty =>
        intro hQueue
        exact absurd (by simpa using hEmpty) hQueue
    · next hRest => exact flows_writeQueuedMessages _ (by simpa using hRest)

/-- In every run in which writes fail only with nothing queued behind them, no
message waits without a write. -/
theorem never_stalls {s : SendQueue} (run : Reaches step failsAlone initial s) : s.Flows := by
  apply run.invariant Flows
  · intro hQueue
    exact absurd rfl hQueue
  · intro s action next _ h allowed hStep
    cases step_cases hStep with
    | writeResponse message => exact h
    | @runPosted message rest _ =>
        have hRest : Flows { s with posted := rest } := h
        exact hRest.emplace message
    | onWritten _ => exact flows_complete _ allowed

/-- Both messages are sent, and the second write fails alone. -/
theorem never_stalls_two :
    let actions : List Action :=
      [.writeResponse "a", .writeResponse "b", .runPosted, .runPosted, .onWritten 0 false,
        .onWritten 0 true, .writeResponse "c", .runPosted]
    ∃ h : (runActions step initial actions).isSome = true,
      ((runActions step initial actions).get h).sendQueue = ["c"] ∧
        ((runActions step initial actions).get h).Flows :=
  ⟨by decide, by decide, never_stalls (reaches_get (by decide) (by decide))⟩

/-- The condition is exact: a write that fails with messages behind it leaves them
on the queue, and from then on nothing is ever written. -/
theorem stalled_of_failure {s next later : SendQueue} {write : Nat} (h : s.Serial)
    (hStep : s.step (.onWritten write true) = some next) (hBehind : 1 < s.sendQueue.length)
    (run : Reaches step anyAction next later) : later.writing = [] ∧ later.sendQueue ≠ [] := by
  apply run.invariant fun s => s.writing = [] ∧ s.sendQueue ≠ []
  · cases step_cases hStep with
    | onWritten hWrite =>
        obtain ⟨rfl, msg, rest, hFront, hWriting⟩ := h.outstanding hWrite
        rw [hFront] at hBehind
        have hRest : rest ≠ [] := by
          rintro rfl
          simp at hBehind
        simpa [complete, hWriting, hFront] using hRest
  · intro s action next _ hStalled _ hStep
    obtain ⟨hIdle, hQueue⟩ := hStalled
    cases step_cases hStep with
    | writeResponse message => exact ⟨hIdle, hQueue⟩
    | runPosted _ => simp [emplace, hQueue, hIdle]
    | onWritten hWrite => simp [hIdle] at hWrite

/-- The write of the first of two messages fails. -/
theorem stalls_two :
    ¬ ∀ s : SendQueue, Reaches step anyAction initial s → s.Flows := by
  intro hAll
  have hFacts : ∃ h : (runActions step initial
      [.writeResponse "a", .writeResponse "b", .runPosted, .runPosted, .onWritten 0 true]).isSome =
        true,
      let s := (runActions step initial
        [.writeResponse "a", .writeResponse "b", .runPosted, .runPosted, .onWritten 0 true]).get h
      s.sendQueue ≠ [] ∧ s.writing = [] := ⟨by decide, by decide, by decide⟩
  obtain ⟨hEnabled, hQueue, hIdle⟩ := hFacts
  exact hAll _ (reaches_get hEnabled (allAllowed_anyAction _ _)) hQueue hIdle

end SendQueue

end NanoPowServer.WebServer
