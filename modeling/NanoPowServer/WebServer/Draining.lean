import NanoPowServer.Library.Progress
import NanoPowServer.WebServer.Delivery
import NanoPowServer.WebServer.SendQueue

/-! What is sent if nothing more is read. The writes of a session end, and by then the
responses that were due have been written; a response behind one that closes the
connection never is. -/
namespace NanoPowServer.WebServer

open Execution

namespace HttpSession

/-- The strand completes its writes, after the rest of the handler that it runs. -/
def writesOnly (_ : HttpSession) : Action → Prop
  | .onWrite | .pipeline => True
  | _ => False

/-- The strand has nothing left to complete. -/
def Drained (session : HttpSession) : Prop := session.handling = false ∧ session.writing = []

/-- The steps that the strand takes until then, at most. -/
def left (session : HttpSession) : Nat :=
  session.items.length + session.writing.length + session.handling.toNat

/-- What a session does by its writes alone. What is due stays what is written in the end,
and all of it is written exactly if no response closes the connection. -/
structure Drains (session next : HttpSession) : Prop where
  due : next.written ++ next.due.map Response.request =
    session.written ++ session.due.map Response.request
  isOpen : next.isOpen = session.isOpen
  enqueued : next.enqueued = session.enqueued
  deferred : next.deferred = session.deferred
  requests : next.requests = session.requests
  keepalive : next.clientKeepalive = session.clientKeepalive

theorem Drains.refl (session : HttpSession) : Drains session session := ⟨rfl, rfl, rfl, rfl, rfl, rfl⟩

theorem Drains.trans {session middle next : HttpSession} (first : Drains session middle)
    (second : Drains middle next) : Drains session next where
  due := second.due.trans first.due
  isOpen := second.isOpen.trans first.isOpen
  enqueued := second.enqueued.trans first.enqueued
  deferred := second.deferred.trans first.deferred
  requests := second.requests.trans first.requests
  keepalive := second.keepalive.trans first.keepalive

end HttpSession

open HttpSession

variable {handlers : List Pattern} {session next finish later : HttpSession} {action : Action}

/-- The first item has been written and the next one is begun. -/
theorem Delivery.drains_wrote (h : Delivery session) {response : Response} {rest : List Response}
    (writing : session.writing = response :: rest) (keep : response.needEof = false)
    (items : next.items = session.items.drop 1) (begun : next.writing = next.items.take 1)
    (written : next.written = session.written ++ [response.request]) :
    next.written ++ next.due.map Response.request =
      session.written ++ session.due.map Response.request ∧ next.isOpen = session.isOpen := by
  have hKeep := h.keepAlives_wrote writing keep items begun
  obtain ⟨later, hItems, -, -⟩ := h.items_eq writing
  have hLater : next.items = later := by rw [items, hItems, List.drop_one, List.tail_cons]
  have hDue : session.due = response :: next.due := by
    rw [HttpSession.due, if_neg (by simp [writing]), hKeep, hItems, HttpSession.due, begun, hLater]
    cases later <;> simp
  refine ⟨by simp [hDue, written], ?_⟩
  rw [HttpSession.isOpen, HttpSession.isOpen, hKeep, hLater, hItems, List.length_cons]
  exact Bool.eq_iff_iff.mpr (by simp)

/-- A write or the rest of a handler. -/
theorem drains_of_step (h : Delivery session) (allowed : writesOnly session action)
    (hStep : Step handlers session action next) : Drains session next ∧ next.left < session.left := by
  cases hStep with
  | pause handled full => exact ⟨⟨rfl, rfl, rfl, rfl, rfl, rfl⟩, by simp [left, handled]⟩
  | pipeline handled room => exact ⟨⟨rfl, rfl, rfl, rfl, rfl, rfl⟩, by simp [left, handled]⟩
  | wroteLast response rest strand writing close =>
      obtain ⟨later, items, rfl, -⟩ := h.items_eq writing
      refine ⟨⟨?_, ?_, rfl, rfl, rfl, rfl⟩, by simp [left, writing]⟩
      · simp [HttpSession.due, keepAlives, writing, items, close]
      · simp [HttpSession.isOpen, keepAlives, writing, items, close]
  | wroteFull response rest strand writing keep | wrote response rest strand writing keep =>
      obtain ⟨later, items, rfl, -⟩ := h.items_eq writing
      have hDrains := @Delivery.drains_wrote session { session with
        items := session.items.drop 1
        writing := (session.items.drop 1).take 1
        written := session.written ++ [response.request] } h response [] writing keep rfl rfl rfl
      refine ⟨⟨hDrains.1, hDrains.2, rfl, rfl, rfl, rfl⟩, ?_⟩
      have hShort := List.length_take_le 1 later
      simp only [left, writing, items, List.drop_one, List.tail_cons, List.nil_append,
        List.length_cons, List.length_nil]
      omega
  | upgrade | respond | defer | readAborted | readEnded | readFailed | writeAborted | writeFailed
  | taskResponds | close => exact allowed.elim

/-- As long as a write is outstanding, or a handler is, the strand can go on. -/
theorem exists_write (hOpen : ¬ session.Drained) :
    ∃ action next, writesOnly session action ∧ session.step handlers action = some next := by
  cases hHandling : session.handling with
  | true => exact ⟨.pipeline, _, trivial, if_pos hHandling⟩
  | false =>
      cases hWriting : session.writing with
      | nil => exact absurd ⟨hHandling, hWriting⟩ hOpen
      | cons response rest =>
          refine ⟨.onWrite, { session with
            writing := rest, written := session.written ++ [response.request] }.onWrite response,
            trivial, ?_⟩
          simp [HttpSession.step, hHandling, hWriting]

theorem isOpen_iff_of_drained (idle : session.writing = []) :
    session.isOpen = true ↔ session.items = [] := by
  rw [HttpSession.isOpen, keepAlives, if_pos idle, beq_iff_eq, eq_comm, List.length_eq_zero_iff]

/-- With nothing left to complete and no closing response, everything has been written. -/
theorem written_of_drained (h : Delivery session) (idle : session.writing = [])
    (isOpen : session.isOpen = true) : session.written = session.enqueued := by
  have hEmpty := (isOpen_iff_of_drained idle).mp isOpen
  cases h with
  | live _ delivered => rw [delivered, hEmpty, List.map_nil, List.append_nil]
  | stopped _ kept => exact absurd hEmpty kept

/-- What is put on the queue next will be written, like all that is queued. -/
def HttpSession.Flowing (session : HttpSession) : Prop :=
  session.isOpen = true ∧ session.clientKeepalive = true

theorem HttpSession.Flowing.writeJsonResponse (h : Delivery session) (flowing : session.Flowing)
    (request : Nat) (body : String) : (session.writeJsonResponse request body).Flowing := by
  obtain ⟨hOpen, hKeepalive⟩ := flowing
  refine ⟨?_, hKeepalive⟩
  have hKeep := h.keepAlives_enqueue
    { request, version := session.clientVersion, keepAlive := session.clientKeepalive, body }
  rw [if_pos ⟨hOpen, by simp [Response.needEof, hKeepalive]⟩] at hKeep
  rw [HttpSession.writeJsonResponse, HttpSession.isOpen, hKeep, enqueue_items, List.length_append]
  simpa [HttpSession.isOpen] using hOpen

namespace SendQueue

/-- The strand runs the lambdas that are posted, and writes succeed. -/
def sends (_ : SendQueue) : SendQueue.Action → Prop
  | .runPosted | .onWritten _ false => True
  | .writeResponse _ | .onWritten _ true => False

/-- A message that is posted has to be put on the queue and taken from it. -/
def left (s : SendQueue) : Nat := 2 * s.posted.length + s.sendQueue.length

variable {s next finish : SendQueue} {action : SendQueue.Action}

theorem left_of_emplace (message : String) :
    (s.emplace message).left = s.left + 1 := by
  have hQueue : (s.emplace message).sendQueue = s.sendQueue ++ [message] := by
    unfold emplace writeQueuedMessages
    dsimp only
    split
    · rfl
    · split <;> rfl
  rw [left, left, (record_emplace s message).2, hQueue, List.length_append, List.length_singleton]
  omega

theorem left_of_complete (failed : Bool) :
    (s.complete failed).left = 2 * s.posted.length + s.sendQueue.tail.length := by
  have hQueue : (s.complete failed).sendQueue = s.sendQueue.tail := by
    unfold complete writeQueuedMessages
    dsimp only
    split
    · rfl
    · split
      · rfl
      · split <;> rfl
  rw [left, (record_complete s failed).2, hQueue]

/-- Each of these steps brings a message on its way. -/
theorem left_of_step (h : s.Serial) (allowed : sends s action) (hStep : SendQueue.Step s action next) :
    next.left < s.left := by
  cases hStep with
  | writeResponse message => exact allowed.elim
  | runPosted posted =>
      rw [left_of_emplace]
      simp only [left, posted, List.length_cons]
      omega
  | @onWritten write failed outstanding =>
      obtain ⟨-, msg, rest, hFront, -⟩ := h.outstanding outstanding
      rw [left_of_complete]
      simp [left, hFront]

/-- They leave none without a write, and lose none. -/
theorem flows_of_step (flows : s.Flows) (allowed : sends s action)
    (hStep : SendQueue.Step s action next) :
    next.Flows ∧ next.enqueued ++ next.posted = s.enqueued ++ s.posted := by
  cases hStep with
  | writeResponse message => exact allowed.elim
  | @runPosted message rest posted =>
      have hFlows : Flows { s with posted := rest } := flows
      have hRecord := record_emplace { s with posted := rest } message
      exact ⟨hFlows.emplace message, by simp [hRecord, posted]⟩
  | @onWritten write failed outstanding =>
      have hRecord := record_complete { s with writing := s.writing.eraseIdx write } failed
      cases failed with
      | true => exact allowed.elim
      | false => exact ⟨flows_complete _ (by simp), by simp [hRecord]⟩

theorem exists_send (flows : s.Flows) (hOpen : ¬ (s.posted = [] ∧ s.sendQueue = [])) :
    ∃ action next, sends s action ∧ s.step action = some next := by
  cases hPosted : s.posted with
  | cons message rest =>
      exact ⟨.runPosted, { s with posted := rest }.emplace message, trivial,
        by simp [SendQueue.step, hPosted]⟩
  | nil =>
      have hWriting := flows fun hEmpty => hOpen ⟨hPosted, hEmpty⟩
      exact ⟨.onWritten 0 false, _, trivial, if_pos (List.length_pos_iff.mpr hWriting)⟩

/-- With nothing left on its way, everything has been handed over. -/
theorem handed_of_empty (h : s.Serial) (posted : s.posted = []) (queue : s.sendQueue = []) :
    s.writing = [] ∧ s.handed = s.enqueued ++ s.posted := by
  obtain ⟨popped, hEnqueued, hHanded⟩ := h.order
  have hIdle : s.writing = [] := by
    rcases h.front with hIdle | ⟨msg, rest, hFront, -⟩
    · exact hIdle
    · rw [queue] at hFront
      cases hFront
  refine ⟨hIdle, ?_⟩
  rw [hHanded, hIdle, hEnqueued, queue, posted, List.append_nil, List.append_nil]

/-- As long as no write fails, the queue drains, and everything that was posted has then
been handed over in the order in which it was posted. -/
theorem sends_all (run : Reaches SendQueue.step anyAction initial s) (flows : s.Flows) :
    (∃ finish, Reaches SendQueue.step sends s finish ∧ finish.posted = [] ∧
      finish.sendQueue = []) ∧
    ∀ finish, Reaches SendQueue.step sends s finish → finish.posted = [] →
      finish.sendQueue = [] → finish.writing = [] ∧ finish.handed = s.enqueued ++ s.posted := by
  constructor
  · refine exists_reaches_rest left (fun s => s.Serial ∧ s.Flows)
      (fun s => s.posted = [] ∧ s.sendQueue = []) ?_ ?_ ?_ ⟨Serial.of_reaches run, flows⟩
    · rintro s action next ⟨hSerial, hFlows⟩ allowed hStep
      exact ⟨hSerial.step hStep, (flows_of_step hFlows allowed (step_cases hStep)).1⟩
    · rintro s action next ⟨hSerial, -⟩ allowed hStep
      exact left_of_step hSerial allowed (step_cases hStep)
    · rintro s ⟨-, hFlows⟩ hOpen
      exact exists_send hFlows hOpen
  · intro finish rest hPosted hQueue
    have hSame : finish.Serial ∧ finish.Flows ∧
        finish.enqueued ++ finish.posted = s.enqueued ++ s.posted := by
      apply rest.invariant fun finish => finish.Serial ∧ finish.Flows ∧
        finish.enqueued ++ finish.posted = s.enqueued ++ s.posted
      · exact ⟨Serial.of_reaches run, flows, rfl⟩
      · intro middle action next _ h allowed hStep
        obtain ⟨hSerial, hFlows, hSame⟩ := h
        obtain ⟨hNext, hOrder⟩ := flows_of_step hFlows allowed (step_cases hStep)
        exact ⟨hSerial.step hStep, hNext, hOrder.trans hSame⟩
    obtain ⟨hSerial, -, hOrder⟩ := hSame
    obtain ⟨hIdle, hHanded⟩ := handed_of_empty hSerial hPosted hQueue
    exact ⟨hIdle, hHanded.trans hOrder⟩

/-- One of three messages is being written, and the last one only posted. -/
theorem sends_all_three :
    ∃ s, runActions SendQueue.step initial
        [.writeResponse "a", .writeResponse "b", .runPosted, .runPosted, .writeResponse "c"] =
          some s ∧
      s.handed = ["a"] ∧ ∃ finish, Reaches SendQueue.step sends s finish ∧
        finish.handed = ["a", "b", "c"] := by
  have hThree : ∃ s, runActions SendQueue.step initial
      [.writeResponse "a", .writeResponse "b", .runPosted, .runPosted, .writeResponse "c"] =
        some s ∧
      s.handed = ["a"] ∧ s.enqueued ++ s.posted = ["a", "b", "c"] ∧ s.writing ≠ [] :=
    ⟨_, rfl, rfl, rfl, by decide⟩
  obtain ⟨s, hSome, hHanded, hAll, hWriting⟩ := hThree
  obtain ⟨⟨finish, rest, hPosted, hQueue⟩, hFinish⟩ :=
    sends_all (reaches_of_runActions _ hSome (allAllowed_anyAction _ _)) fun _ => hWriting
  exact ⟨s, hSome, hHanded, finish, rest, (hFinish finish rest hPosted hQueue).2.trans hAll⟩

end SendQueue

end NanoPowServer.WebServer
