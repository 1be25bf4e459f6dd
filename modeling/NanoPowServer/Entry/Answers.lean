import NanoPowServer.Entry.Wiring

/-! What the clients of the process get. A session keeps a request until its call has
responded, each request and each message gets one answer and its own, and the answers go
out in the order in which they were given. -/
namespace NanoPowServer.Entry

open WebServer
open WorkHandler (Call Environment Phase Ptree System)
open Execution PriorityQueue

variable {Queue : Type}

/-- What becomes of the requests of a connection. One that is not an upgrade is kept as
long as its call has not responded and is answered otherwise, and what is put on the queue
for it is what its call has responded. -/
structure HttpAnswers (setup : Setup) (p : Process Queue) (k : Nat) (session : HttpSession) :
    Prop where
  partition : (session.deferred ++ session.enqueued).Perm session.regular
  kept : ∀ number, number ∈ session.deferred ↔
    ∃ i : Nat, p.origins[i]? = some (.http k number) ∧ responsesOf p.handler.calls i = []
  unique : ∀ i j number : Nat, p.origins[i]? = some (.http k number) →
    p.origins[j]? = some (.http k number) → i = j
  answered : ∀ i number : Nat, p.origins[i]? = some (.http k number) →
    number ∈ session.enqueued → ∃ response, responsesOf p.handler.calls i = [response]
  bodies : ∀ item ∈ session.items, ∀ i : Nat, p.origins[i]? = some (.http k item.request) →
    ∃ response, responsesOf p.handler.calls i = [response] ∧ item.body = setup.writeJson response
  written : session.written ++ session.due.map Response.request <+: session.enqueued

/-- What becomes of the messages of a WebSocket: the answers of their calls, in the order
in which they were given, are posted, put on the queue and handed over one after the
other. -/
structure WebsocketAnswers (setup : Setup) (p : Process Queue) (w : Nat) (outgoing : SendQueue) :
    Prop where
  order : outgoing.enqueued ++ outgoing.posted =
    (answersOn w p.origins p.answers).map setup.writeJson
  handed : outgoing.handed <+: outgoing.enqueued
  outstanding : outgoing.writing.length ≤ 1
  answers : ∀ i, answersOf p.answers i = responsesOf p.handler.calls i
  once : ∀ i, (responsesOf p.handler.calls i).length ≤ 1

variable [PriorityQueue Queue Job Job.comparator] {setup : Setup} {p next later : Process Queue}

namespace Wired

theorem responses_le_one (h : Wired setup p) (i : Nat) :
    (responsesOf p.handler.calls i).length ≤ 1 := by
  cases hCall : p.handler.calls[i]? with
  | none => simp [responsesOf, hCall]
  | some call =>
      have hServed := WorkHandler.served h.handler call (List.mem_of_getElem? hCall)
      rw [responsesOf_eq hCall, hServed.count]
      exact Bool.toNat_le _

theorem exists_call (h : Wired setup p) {i : Nat} {origin : Origin}
    (hOrigin : p.origins[i]? = some origin) : ∃ call, p.handler.calls[i]? = some call := by
  obtain ⟨hBound, -⟩ := List.getElem?_eq_some_iff.mp hOrigin
  rw [h.length] at hBound
  exact ⟨_, List.getElem?_eq_getElem hBound⟩

theorem httpAnswers (h : Wired setup p) {k : Nat} {connection : Connection}
    (found : p.connections[k]? = some connection) :
    HttpAnswers setup p k connection.session := by
  have hAttached := h.connections k connection found
  have hPartition := partition_of_reaches hAttached.reaches
  have hKept : ∀ number, number ∈ connection.session.deferred ↔
      ∃ i : Nat, p.origins[i]? = some (.http k number) ∧ responsesOf p.handler.calls i = [] := by
    intro number
    rw [hAttached.deferred, List.mem_filterMap]
    constructor
    · rintro ⟨⟨origin, call⟩, hMem, hNumber⟩
      obtain ⟨hNone, rfl⟩ := unansweredOn_eq_some.mp hNumber
      obtain ⟨i, hPair⟩ := List.mem_iff_getElem?.mp hMem
      obtain ⟨hOrigin, hCall⟩ := List.getElem?_zip_eq_some.mp hPair
      exact ⟨i, hOrigin, (responsesOf_eq hCall).trans hNone⟩
    · rintro ⟨i, hOrigin, hNone⟩
      obtain ⟨call, hCall⟩ := h.exists_call hOrigin
      rw [responsesOf_eq hCall] at hNone
      exact ⟨_, List.mem_of_getElem? (Attached.getElem?_zip hOrigin hCall),
        unansweredOn_eq_some.mpr ⟨hNone, rfl⟩⟩
  refine ⟨hPartition, hKept, hAttached.unique, ?_, ?_,
    (Delivery.of_reaches hAttached.reaches).due_initial⟩
  · intro i number hOrigin hEnqueued
    have hDisjoint := List.nodup_append.mp
      (hPartition.nodup_iff.mpr connection.session.nodup_regular)
    have hSome : responsesOf p.handler.calls i ≠ [] := by
      intro hNone
      exact hDisjoint.2.2 number ((hKept number).mpr ⟨i, hOrigin, hNone⟩) number hEnqueued rfl
    have hPositive := List.length_pos_iff.mpr hSome
    exact List.length_eq_one_iff.mp (Nat.le_antisymm (h.responses_le_one i) hPositive)
  · intro item hItem i hOrigin
    obtain ⟨call, response, hCall, hResponses, hBody⟩ := hAttached.items item hItem i hOrigin
    exact ⟨response, (responsesOf_eq hCall).trans hResponses, hBody⟩

theorem websocketAnswers (h : Wired setup p) {w : Nat} {connection : WebsocketConnection}
    (found : p.websockets[w]? = some connection) :
    WebsocketAnswers setup p w connection.outgoing := by
  have hLinked := h.websockets w connection found
  have hSerial := SendQueue.Serial.of_reaches hLinked.outgoing
  obtain ⟨popped, hEnqueued, hHanded⟩ := hSerial.order
  refine ⟨hLinked.order, ?_, ?_, h.answers, h.responses_le_one⟩
  · rw [hEnqueued, hHanded]
    rcases hSerial.front with hIdle | ⟨message, rest, hFront, hWriting⟩
    · simp [hIdle]
    · simp [hFront, hWriting]
  · rcases hSerial.front with hIdle | ⟨message, rest, -, hWriting⟩
    · simp [hIdle]
    · simp [hWriting]

end Wired

/-- Only calls go on, and nothing raises. -/
def callsProceed (_ : Process Queue) : Action → Prop
  | .proceed _ _ => True
  | _ => False

omit [PriorityQueue Queue Job Job.comparator] in
theorem handlersReturn_of_callsProceed (p : Process Queue) (action : Action)
    (h : callsProceed p action) : handlersReturn p action := by
  cases action with
  | proceed i now => trivial
  | _ => exact h.elim

omit [PriorityQueue Queue Job Job.comparator] in
/-- What the response handlers do leaves the work handler alone. -/
theorem deliver_handler (setup : Setup) (i : Nat) (origin : Origin) (responses : List Ptree)
    (q : Process Queue) :
    (q.deliver setup i origin responses).handler = q.handler ∧
      (q.deliver setup i origin responses).origins = q.origins ∧
      (q.deliver setup i origin responses).terminated = q.terminated := by
  induction responses generalizing q with
  | nil => exact ⟨rfl, rfl, rfl⟩
  | cons response rest ih =>
      obtain ⟨hHandler, hOrigins, hTerminated⟩ := respond_fields q setup origin response
      obtain ⟨hFirst, hSecond, hThird⟩ := ih { q.respond setup origin response with
        answers := q.answers ++ [(i, response)] }
      exact ⟨hFirst.trans hHandler, hSecond.trans hOrigins, hThird.trans hTerminated⟩

/-- A call that goes on is a step of the work handler. -/
theorem handler_of_handle {i : Nat} {action : WorkHandler.Action}
    (h : p.handle setup i action = some next) :
    p.handler.step setup.env action = some next.handler ∧ next.origins = p.origins ∧
      next.terminated = p.terminated := by
  obtain ⟨origin, -, h⟩ := Option.bind_eq_some_iff.mp h
  obtain ⟨handler, hStep, h⟩ := Option.bind_eq_some_iff.mp h
  obtain rfl := Option.some.inj h
  obtain ⟨hHandler, hOrigins, hTerminated⟩ := deliver_handler setup i origin
    ((responsesOf handler.calls i).drop (responsesOf p.handler.calls i).length)
    { p with handler }
  exact ⟨hStep.trans (congrArg some hHandler.symm), hOrigins, hTerminated⟩

/-- Where the work handler lets a call go on, the process does. -/
theorem exists_step_of_proceed (h : Wired setup p) (running : p.terminated = false) {i now : Nat}
    {handler : System Queue} (hStep : p.handler.step setup.env (.proceed i now) = some handler) :
    ∃ next, p.step setup (.proceed i now) = some next := by
  have hCall : ∃ call, p.handler.calls[i]? = some call := by
    cases WorkHandler.step_cases hStep with
    | proceed found _ => exact ⟨_, found⟩
  obtain ⟨call, hCall⟩ := hCall
  obtain ⟨hBound, -⟩ := List.getElem?_eq_some_iff.mp hCall
  rw [← h.length] at hBound
  have hOrigin := List.getElem?_eq_getElem hBound
  unfold Process.step
  rw [running, if_neg (by decide)]
  show ∃ next, p.handle setup i (.proceed i now) = some next
  unfold Process.handle
  rw [hOrigin, hStep]
  exact ⟨_, rfl⟩

/-- No exception has left a call, unless it has ended the process. -/
def Contained (p : Process Queue) : Prop :=
  p.terminated = false → ∀ call ∈ p.handler.calls, escapes call.phase = false

/-- An exception leaves a call before `handle_request_async` returns, or not at all. -/
theorem escapes_of_step {c after : System Queue} {action : WorkHandler.Action}
    (hStep : WorkHandler.Step setup.env c action after)
    (hAction : (∃ i now, action = .proceed i now) ∨ ∃ i what, action = .raise i what)
    (h : ∀ call ∈ c.calls, escapes call.phase = false) :
    ∀ call ∈ after.calls, escapes call.phase = false := by
  intro call hMem
  cases hStep with
  | request | clear => simp at hAction
  | proceed found moves =>
      rw [WorkHandler.System.commit_calls] at hMem
      rcases List.mem_or_eq_of_mem_set hMem with hOld | rfl
      · exact h call hOld
      · cases moves <;> rfl
  | raise what found raises =>
      rw [WorkHandler.System.commit_calls] at hMem
      rcases List.mem_or_eq_of_mem_set hMem with hOld | rfl
      · exact h call hOld
      · rfl

omit [PriorityQueue Queue Job Job.comparator] in
theorem contained_submit {origin : Origin} {body : String} (h : Contained p) :
    Contained (p.submit setup origin body) := by
  unfold Process.submit
  dsimp only
  obtain ⟨hHandler, -, hTerminated⟩ := deliver_handler setup p.handler.calls.length origin
    (responsesOf (p.handler.arrive setup.env body).calls p.handler.calls.length)
    { p with
      handler := p.handler.arrive setup.env body
      origins := p.origins ++ [origin]
      terminated := p.terminated || ((p.handler.arrive setup.env body).calls[p.handler.calls.length]?).any
        fun call : Call => escapes call.phase }
  intro running call hMem
  rw [hTerminated, Bool.or_eq_false_iff] at running
  rw [hHandler] at hMem
  dsimp only at hMem
  rw [WorkHandler.System.arrive_calls] at running hMem
  rcases List.mem_append.mp hMem with hOld | hNew
  · exact h running.1 call hOld
  · obtain rfl := List.mem_singleton.mp hNew
    simpa using running.2

theorem Contained.of_reaches {guard : Process Queue → Action → Prop}
    (run : Reaches (Process.step setup) guard (Process.initial setup) p) : Contained p := by
  refine run.invariant Contained (fun _ call hMem => absurd hMem List.not_mem_nil) ?_
  intro p action next _ h _ hStep
  cases step_cases hStep with
  | accept | upgrade | http | websocket | outgoing => exact h
  | submitted | receive => exact contained_submit h
  | answered terminated found noUpgrade answers stepped handler cleared =>
      intro running call hMem
      have hBefore : p.terminated = false := by
        cases hTerminated : p.terminated with
        | false => rfl
        | true => simp [Process.step, hTerminated] at hStep
      rcases cleared with rfl | rfl
      · exact h hBefore call hMem
      · exact h hBefore call (by simpa using hMem)
  | proceed handles =>
      obtain ⟨hHandler, -, hTerminated⟩ := handler_of_handle handles
      intro running
      rw [hTerminated] at running
      exact escapes_of_step (WorkHandler.step_cases hHandler) (.inl ⟨_, _, rfl⟩) (h running)
  | raise handles =>
      obtain ⟨hHandler, -, hTerminated⟩ := handler_of_handle handles
      intro running
      rw [hTerminated] at running
      exact escapes_of_step (WorkHandler.step_cases hHandler) (.inr ⟨_, _, rfl⟩) (h running)

/-- Calls that go on do not end the process. -/
theorem terminated_of_callsProceed (running : p.terminated = false)
    (rest : Reaches (Process.step setup) callsProceed p later) : later.terminated = false := by
  refine rest.invariant (fun later => later.terminated = false) running ?_
  intro p action next _ h allowed hStep
  cases step_cases hStep with
  | proceed handles => exact (handler_of_handle handles).2.2.trans h
  | _ => exact allowed.elim

/-- The calls of the process come to rest. -/
theorem exists_callsAtRest (run : Reaches (Process.step setup) handlersReturn (.initial setup) p)
    (running : p.terminated = false) :
    ∃ finish, Reaches (Process.step setup) callsProceed p finish ∧ finish.handler.AtRest := by
  refine exists_reaches_rest (fun p => p.handler.remaining)
    (fun p => Reaches (Process.step setup) handlersReturn (.initial setup) p ∧
      p.terminated = false) (fun p => p.handler.AtRest) ?_ ?_ ?_ ⟨run, running⟩
  · rintro p action next ⟨prior, hRunning⟩ allowed hStep
    exact ⟨prior.tail (handlersReturn_of_callsProceed p action allowed) hStep,
      terminated_of_callsProceed hRunning (.tail .refl allowed hStep)⟩
  · rintro p action next - allowed hStep
    cases step_cases hStep with
    | @proceed i now _ handles =>
        have allowed : WorkHandler.proceeds p.handler (.proceed i now) := trivial
        exact WorkHandler.remaining_lt_of_proceeds allowed (handler_of_handle handles).1
    | _ => exact allowed.elim
  · rintro p ⟨prior, hRunning⟩ hOpen
    have hWired := Wired.of_reaches prior
    obtain ⟨i, handler, hStep⟩ := WorkHandler.progress hWired.handler hOpen
    obtain ⟨next, hNext⟩ := exists_step_of_proceed hWired hRunning hStep
    exact ⟨.proceed i 0, next, trivial, hNext⟩

/-- Nothing is left to be answered: every call has responded once, no session keeps a
request, each request of an HTTP session has been put on its queue, and a WebSocket has an
answer for each of its messages. -/
structure AllAnswered (p : Process Queue) : Prop where
  calls : ∀ i < p.origins.length, ∃ response, responsesOf p.handler.calls i = [response]
  sessions : ∀ (k : Nat) (connection : Connection), p.connections[k]? = some connection →
    connection.session.deferred = [] ∧
      connection.session.enqueued.Perm connection.session.regular
  messages : ∀ (w : Nat) (connection : WebsocketConnection),
    p.websockets[w]? = some connection →
      (connection.outgoing.enqueued ++ connection.outgoing.posted).length =
        p.origins.count (.websocket w)

omit [PriorityQueue Queue Job Job.comparator] in
/-- If each call has one answer, a session has as many answers as calls. -/
theorem length_answersOn {origins : List Origin} {answers : List (Nat × Ptree)}
    (hOne : ∀ i, (answersOf answers i).length = if i < origins.length then 1 else 0) (w : Nat) :
    (answersOn w origins answers).length = origins.count (.websocket w) := by
  have hCalls : (answers.map Prod.fst).Perm (List.range origins.length) := by
    rw [List.perm_iff_count]
    intro i
    have hOf : (answers.map Prod.fst).count i = (answersOf answers i).length := by
      rw [answersOf, List.length_map, ← List.countP_eq_length_filter, List.count_eq_countP,
        List.countP_map]
      exact List.countP_congr fun answer _ => by simp
    rw [hOf, hOne, List.nodup_range.count]
    simp
  calc
    (answersOn w origins answers).length
      = (answers.map Prod.fst).countP fun i => origins[i]? = some (.websocket w) := by
        rw [answersOn, List.length_filterMap_eq_countP, List.countP_map]
        congr 1
        funext answer
        by_cases hSame : origins[answer.1]? = some (.websocket w) <;> simp [hSame]
    _ = (List.range origins.length).countP fun i => origins[i]? = some (.websocket w) :=
        hCalls.countP_eq _
    _ = (List.range origins.length).countP fun i => (origins[i]?).any (· == .websocket w) := by
        apply List.countP_congr
        intro i _
        cases origins[i]? <;> simp
    _ = origins.count (.websocket w) := List.countP_range_getElem? _ _

theorem Wired.allAnswered (h : Wired setup p) (hContained : Contained p)
    (running : p.terminated = false) (hRest : p.handler.AtRest) : AllAnswered p := by
  have hCalls : ∀ i < p.origins.length, ∃ response,
      responsesOf p.handler.calls i = [response] := by
    intro i hBound
    obtain ⟨call, hCall⟩ := h.exists_call (List.getElem?_eq_getElem hBound)
    have hMem := List.mem_of_getElem? hCall
    have hServed := WorkHandler.served h.handler call hMem
    have hDone := hRest call hMem
    have hInside := hContained running call hMem
    rw [responsesOf_eq hCall]
    apply List.length_eq_one_iff.mp
    rw [hServed.count]
    cases hPhase : call.phase <;>
      simp_all [WorkHandler.Phase.isDone, WorkHandler.Phase.isAnswered, escapes]
  refine ⟨hCalls, ?_, ?_⟩
  · intro k connection found
    have hAnswers := h.httpAnswers found
    have hNone : connection.session.deferred = [] := by
      apply List.eq_nil_iff_forall_not_mem.mpr
      intro number hMem
      obtain ⟨i, hOrigin, hOpen⟩ := (hAnswers.kept number).mp hMem
      obtain ⟨hBound, -⟩ := List.getElem?_eq_some_iff.mp hOrigin
      obtain ⟨response, hResponse⟩ := hCalls i hBound
      rw [hOpen] at hResponse
      cases hResponse
    refine ⟨hNone, ?_⟩
    have hPartition := hAnswers.partition
    rwa [hNone, List.nil_append] at hPartition
  · intro w connection found
    rw [(h.websocketAnswers found).order, List.length_map]
    apply length_answersOn
    intro i
    rw [h.answers]
    split
    · next hBound =>
        obtain ⟨response, hResponse⟩ := hCalls i hBound
        rw [hResponse, List.length_singleton]
    · next hBeyond =>
        rw [h.length] at hBeyond
        simp [responsesOf, List.getElem?_eq_none (Nat.le_of_not_lt hBeyond)]

/-- JSON documents as `write_json` writes them where no character is escaped. -/
def sampleWriteJson (tree : Ptree) : String :=
  "\x7b\n" ++ String.intercalate ",\n"
    (tree.map fun (key, value) => "    \"" ++ key ++ "\": \"" ++ value ++ "\"") ++ "\n\x7d\n"

def sampleSetup : Setup where
  env := WorkHandler.sampleEnvironment
  writeJson := sampleWriteJson
  writeReport _ := sampleWriteJson []

def upgradeRequest : Request := { isUpgrade := true, target := "/websocket?v=1" }

/-- The session of a connection after its first request has been kept or passed on. -/
def sessionAfter (request : Request) : HttpSession :=
  { HttpSession.initial with reads := 0 }.onRead patterns request .defer

/-- Of two clients, the first one has opened a WebSocket. -/
def openedProcess : Process WorkHandler.JobQueue :=
  { Process.initial sampleSetup with
    connections := [⟨true, sessionAfter upgradeRequest⟩, ⟨false, HttpSession.initial⟩]
    websockets := [⟨WebsocketSession.accepted 0 0, SendQueue.initial⟩] }

/-- The second one has posted work. -/
def workingProcess : Process WorkHandler.JobQueue :=
  (openedProcess.setSession 1 (sessionAfter workRequest)).submit sampleSetup (.http 1 0)
    WorkHandler.generateOne

theorem reaches_openedProcess : Reaches (Process.step sampleSetup) handlersReturn
    (Process.initial sampleSetup) openedProcess := by
  have hAccepted : Reaches (Process.step sampleSetup) handlersReturn (Process.initial sampleSetup)
      { (Process.initial sampleSetup : Process WorkHandler.JobQueue) with
        connections := [⟨true, HttpSession.initial⟩, ⟨false, HttpSession.initial⟩] } :=
    reaches_of_runActions [.accept true, .accept false] rfl
      ⟨by trivial, fun _ _ => ⟨by trivial, fun _ _ => trivial⟩⟩
  have hUpgrade := @step_read_websocket _ _ sampleSetup
    { (Process.initial sampleSetup : Process WorkHandler.JobQueue) with
      connections := [⟨true, HttpSession.initial⟩, ⟨false, HttpSession.initial⟩] }
    0 upgradeRequest .get "" (fun _ _ => .noSuchFile) 0 0 _ _ rfl rfl rfl (by decide) rfl
  exact hAccepted.tail (by trivial) hUpgrade

theorem reaches_workingProcess : Reaches (Process.step sampleSetup) handlersReturn
    (Process.initial sampleSetup) workingProcess := by
  have hWork := @step_read_work _ _ sampleSetup openedProcess 1 workRequest
    WorkHandler.generateOne (fun _ _ => .noSuchFile) 0 0 _ _ rfl rfl rfl rfl rfl
  exact reaches_openedProcess.tail (by trivial) hWork

/-- Then the first one sends a message that is answered at once. -/
def messages : List Action :=
  [.websocket 0 .handshake, .websocket 0 (.onAccept .success),
    .receive 0 WorkHandler.generateNothing 0]

def answeredProcess : Process WorkHandler.JobQueue :=
  (runActions (Process.step sampleSetup) workingProcess messages).get (by decide)

theorem reaches_answeredProcess : Reaches (Process.step sampleSetup) handlersReturn
    (Process.initial sampleSetup) answeredProcess := by
  refine reaches_workingProcess.trans (reaches_get _ ?_)
  exact ⟨by trivial, fun _ _ => ⟨by trivial, fun _ _ => ⟨by trivial, fun _ _ => trivial⟩⟩⟩

/-- In every run whose response handlers return, each part of the process has taken only
the steps that it has on its own: the work handler, every HTTP session, every WebSocket
session and the queue of what is sent on it. -/
theorem parts_run (setup : Setup)
    (run : Reaches (Process.step setup) handlersReturn (Process.initial setup) p) :
    Reaches (System.step setup.env) WorkHandler.handlersReturn (.initial setup.env) p.handler ∧
    (∀ (k : Nat) (connection : Connection), p.connections[k]? = some connection →
      Reaches (HttpSession.step patterns) anyAction .initial connection.session) ∧
    ∀ (w : Nat) (connection : WebsocketConnection), p.websockets[w]? = some connection →
      (∃ now later, Reaches WebsocketSession.step anyAction (.accepted now later)
        connection.session) ∧
      Reaches SendQueue.step anyAction .initial connection.outgoing := by
  have h := Wired.of_reaches run
  refine ⟨h.handler, fun k connection found => (h.connections k connection found).reaches, ?_⟩
  intro w connection found
  exact ⟨(h.websockets w connection found).session, (h.websockets w connection found).outgoing⟩

theorem parts_run_answered :
    Reaches (System.step sampleSetup.env) WorkHandler.handlersReturn (.initial sampleSetup.env)
      answeredProcess.handler ∧
    (∃ connection, answeredProcess.connections[1]? = some connection ∧
      connection.session.deferred = [0] ∧
      Reaches (HttpSession.step patterns) anyAction .initial connection.session) ∧
    ∃ connection, answeredProcess.websockets[0]? = some connection ∧
      Reaches SendQueue.step anyAction .initial connection.outgoing := by
  obtain ⟨hHandler, hSessions, hSockets⟩ := parts_run sampleSetup reaches_answeredProcess
  exact ⟨hHandler, ⟨_, rfl, rfl, hSessions 1 _ rfl⟩, _, rfl, (hSockets 0 _ rfl).2⟩

/-- In every run whose response handlers return, each request gets one response, and
nothing that it responds goes to another request. -/
theorem http_answers (setup : Setup)
    (run : Reaches (Process.step setup) handlersReturn (Process.initial setup) p) :
    ∀ k connection, p.connections[k]? = some connection →
      HttpAnswers setup p k connection.session :=
  fun _ _ found => (Wired.of_reaches run).httpAnswers found

/-- The work that was posted has not been answered yet. -/
theorem http_answers_kept :
    ∃ connection, answeredProcess.connections[1]? = some connection ∧
      connection.session.deferred = [0] ∧
      HttpAnswers sampleSetup answeredProcess 1 connection.session :=
  ⟨_, rfl, rfl, http_answers sampleSetup reaches_answeredProcess 1 _ rfl⟩

/-- In every run whose response handlers return, what is sent on a WebSocket is what the
calls of its messages have responded, once each and in the order of the responses. -/
theorem websocket_answers (setup : Setup)
    (run : Reaches (Process.step setup) handlersReturn (Process.initial setup) p) :
    ∀ w connection, p.websockets[w]? = some connection →
      WebsocketAnswers setup p w connection.outgoing :=
  fun _ _ found => (Wired.of_reaches run).websocketAnswers found

theorem websocket_answers_error :
    ∃ connection, answeredProcess.websockets[0]? = some connection ∧
      connection.outgoing.posted =
        ["\x7b\n    \"error\": \"work_generate failed: missing hash value\"\n\x7d\n"] ∧
      WebsocketAnswers sampleSetup answeredProcess 0 connection.outgoing :=
  ⟨_, rfl, by decide, websocket_answers sampleSetup reaches_answeredProcess 0 _ rfl⟩

/-- From every state of a run whose response handlers return, as long as the process has
not ended, the calls can go on until each request is answered; and whatever the order in
which they do, nothing is left to be answered once none of them can go on. -/
theorem all_answered (setup : Setup)
    (run : Reaches (Process.step setup) handlersReturn (Process.initial setup) p)
    (running : p.terminated = false) :
    (∃ finish, Reaches (Process.step setup) callsProceed p finish ∧ AllAnswered finish) ∧
    ∀ later, Reaches (Process.step setup) callsProceed p later →
      (∀ i now, later.step setup (.proceed i now) = none) → AllAnswered later := by
  have hAnswered : ∀ later, Reaches (Process.step setup) callsProceed p later →
      later.handler.AtRest → AllAnswered later := by
    intro later rest hRest
    have hRun := run.trans (rest.mono handlersReturn_of_callsProceed)
    refine (Wired.of_reaches hRun).allAnswered (Contained.of_reaches hRun) ?_ hRest
    exact terminated_of_callsProceed running rest
  constructor
  · obtain ⟨finish, rest, hRest⟩ := exists_callsAtRest run running
    exact ⟨finish, rest, hAnswered finish rest hRest⟩
  · intro later rest hStops
    apply hAnswered later rest
    by_contra hOpen
    have hWired := Wired.of_reaches (run.trans (rest.mono handlersReturn_of_callsProceed))
    obtain ⟨i, handler, hStep⟩ := WorkHandler.progress hWired.handler hOpen
    obtain ⟨next, hNext⟩ :=
      exists_step_of_proceed hWired (terminated_of_callsProceed running rest) hStep
    rw [hStops i 0] at hNext
    cases hNext

theorem all_answered_two :
    answeredProcess.origins = [.http 1 0, .websocket 0] ∧ ¬ answeredProcess.handler.AtRest ∧
      ∃ finish, Reaches (Process.step sampleSetup) callsProceed answeredProcess finish ∧
        AllAnswered finish :=
  ⟨rfl, by decide, (all_answered sampleSetup reaches_answeredProcess (by decide)).1⟩

end NanoPowServer.Entry
