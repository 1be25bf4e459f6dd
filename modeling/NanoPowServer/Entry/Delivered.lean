import NanoPowServer.Entry.Answers
import NanoPowServer.WebServer.Draining

/-! What the clients get in the end. If nothing more is read and no write fails, the
process comes to its end after finitely many steps, whatever their order, and by then the
answers have been written on the connections that were still open. -/
namespace NanoPowServer.Entry

open WebServer
open WorkHandler (Call Environment Phase Ptree System)
open Execution PriorityQueue

variable {Queue : Type}

/-- Nothing more is read and no write fails. -/
def completes (_ : Process Queue) : Action → Prop
  | .proceed _ _ | .http _ .onWrite | .http _ .pipeline | .outgoing _ .runPosted
  | .outgoing _ (.onWritten _ false) => True
  | _ => False

theorem handlersReturn_of_completes (p : Process Queue) (action : Action)
    (h : completes p action) : handlersReturn p action := by
  cases action with
  | raise i what => exact h.elim
  | _ => trivial

namespace Process

/-- The steps that the sessions take from here on, at most. -/
def unsent (p : Process Queue) : Nat :=
  (p.connections.map fun connection => connection.session.left).sum +
    (p.websockets.map fun connection => connection.outgoing.left).sum

/-- The steps that the process takes from here on, at most. A call that responds leaves two
to its session. -/
def left (p : Process Queue) : Nat := 3 * p.handler.remaining + p.unsent

end Process

section Respond

variable {setup : Setup} {q : Process Queue} {i k w : Nat} {origin : Origin}

/-- What the response handlers keep true of a session. -/
theorem exists_connection_of_deliver (P : HttpSession → Prop)
    (hWrite : ∀ session number body, P session → P (writeTo session number body))
    {connection : Connection} (found : q.connections[k]? = some connection)
    (h : P connection.session) (responses : List Ptree) :
    ∃ after, (q.deliver setup i origin responses).connections[k]? = some after ∧
      P after.session := by
  induction responses generalizing q connection with
  | nil => exact ⟨connection, found, h⟩
  | cons response rest ih =>
      cases origin with
      | websocket w =>
          exact @ih { q.respond setup (.websocket w) response with
            answers := q.answers ++ [(i, response)] } connection found h
      | http j number =>
          by_cases hSame : j = k
          · subst hSame
            have hAfter := hWrite connection.session number (setup.writeJson response) h
            refine @ih { q.respond setup (.http j number) response with
              answers := q.answers ++ [(i, response)] }
              { connection with
                session := writeTo connection.session number (setup.writeJson response) } ?_ hAfter
            simp [Process.respond, found]
          · refine @ih { q.respond setup (.http j number) response with
              answers := q.answers ++ [(i, response)] } connection ?_ h
            simp [Process.respond, found, hSame]

theorem exists_websocket_of_deliver (P : SendQueue → Prop)
    (hPost : ∀ outgoing message, P outgoing → P (postTo outgoing message))
    {connection : WebsocketConnection} (found : q.websockets[w]? = some connection)
    (h : P connection.outgoing) (responses : List Ptree) :
    ∃ after, (q.deliver setup i origin responses).websockets[w]? = some after ∧
      P after.outgoing := by
  induction responses generalizing q connection with
  | nil => exact ⟨connection, found, h⟩
  | cons response rest ih =>
      cases origin with
      | http k number =>
          exact @ih { q.respond setup (.http k number) response with
            answers := q.answers ++ [(i, response)] } connection found h
      | websocket v =>
          by_cases hSame : v = w
          · subst hSame
            have hAfter := hPost connection.outgoing (setup.writeJson response) h
            refine @ih { q.respond setup (.websocket v) response with
              answers := q.answers ++ [(i, response)] }
              { connection with
                outgoing := postTo connection.outgoing (setup.writeJson response) } ?_ hAfter
            simp [Process.respond, found]
          · refine @ih { q.respond setup (.websocket v) response with
              answers := q.answers ++ [(i, response)] } connection ?_ h
            simp [Process.respond, found, hSame]

end Respond

variable [PriorityQueue Queue Job Job.comparator] {setup : Setup} {p next finish : Process Queue}
  {action : Action}

/-- What becomes of the session of a connection in one of these steps. -/
theorem completes_connection (h : Wired setup p) (allowed : completes p action)
    (hStep : Step setup p action next) {k : Nat} {connection : Connection}
    (found : p.connections[k]? = some connection) (flowing : connection.session.Flowing) :
    ∃ after, next.connections[k]? = some after ∧ after.session.Flowing ∧
      after.session.requests = connection.session.requests := by
  have hDelivery := Delivery.of_reaches (h.connections k connection found).reaches
  cases hStep with
  | @http j action other session own hFound stepped =>
      by_cases hSame : j = k
      · subst hSame
        obtain rfl := Option.some.inj (hFound.symm.trans found)
        have hWrites : HttpSession.writesOnly other.session action := by
          cases action <;> trivial
        have hDrains := (drains_of_step hDelivery hWrites (WebServer.step_cases stepped)).1
        refine ⟨{ other with session }, by simp [Process.setSession, found], ?_, hDrains.requests⟩
        exact ⟨hDrains.isOpen.trans flowing.1, hDrains.keepalive.trans flowing.2⟩
      · exact ⟨connection, by simp [Process.setSession, found, hSame], flowing, rfl⟩
  | proceed handles =>
      obtain ⟨origin, -, handles⟩ := Option.bind_eq_some_iff.mp handles
      obtain ⟨handler, -, handles⟩ := Option.bind_eq_some_iff.mp handles
      obtain rfl := Option.some.inj handles
      obtain ⟨after, hAfter, -, hFlowing, hRequests⟩ := exists_connection_of_deliver
        (fun session => Delivery session ∧ session.Flowing ∧
          session.requests = connection.session.requests)
        (fun session number body hSession => by
          have hErased : Delivery { session with deferred := session.deferred.erase number } :=
            hSession.1.of_same rfl rfl rfl rfl id
          exact ⟨hErased.enqueue _, HttpSession.Flowing.writeJsonResponse hErased hSession.2.1 _ _,
            hSession.2.2⟩)
        (q := { p with handler }) found ⟨hDelivery, flowing, rfl⟩ _
      exact ⟨after, hAfter, hFlowing, hRequests⟩
  | outgoing => exact ⟨connection, found, flowing, rfl⟩
  | accept | upgrade | answered | submitted | receive | websocket | raise => exact allowed.elim

/-- What becomes of the queue of a WebSocket. -/
theorem completes_websocket (allowed : completes p action) (hStep : Step setup p action next) {w : Nat} {connection : WebsocketConnection}
    (found : p.websockets[w]? = some connection) (flows : connection.outgoing.Flows) :
    ∃ after, next.websockets[w]? = some after ∧ after.outgoing.Flows := by
  cases hStep with
  | http => exact ⟨connection, found, flows⟩
  | proceed handles =>
      obtain ⟨origin, -, handles⟩ := Option.bind_eq_some_iff.mp handles
      obtain ⟨handler, -, handles⟩ := Option.bind_eq_some_iff.mp handles
      obtain rfl := Option.some.inj handles
      exact exists_websocket_of_deliver SendQueue.Flows (fun _ _ h => h)
        (q := { p with handler }) found flows _
  | @outgoing v action other outgoing own hFound stepped =>
      by_cases hSame : v = w
      · subst hSame
        obtain rfl := Option.some.inj (hFound.symm.trans found)
        obtain ⟨hBound, -⟩ := List.getElem?_eq_some_iff.mp found
        have hSends : SendQueue.sends other.outgoing action := by
          cases action with
          | writeResponse message => exact allowed.elim
          | runPosted => trivial
          | onWritten write failed => cases failed <;> trivial
        exact ⟨{ other with outgoing }, by simp [hBound],
          (SendQueue.flows_of_step flows hSends (SendQueue.step_cases stepped)).1⟩
      · exact ⟨connection, by simp [found, hSame], flows⟩
  | accept | upgrade | answered | submitted | receive | websocket | raise => exact allowed.elim

theorem terminated_of_completes (running : p.terminated = false) (allowed : completes p action)
    (hStep : Step setup p action next) : next.terminated = false := by
  cases hStep with
  | http | outgoing => exact running
  | proceed handles => exact (handler_of_handle handles).2.2.trans running
  | accept | upgrade | answered | submitted | receive | websocket | raise => exact allowed.elim

theorem origins_of_completes (allowed : completes p action) (hStep : Step setup p action next) :
    next.origins = p.origins := by
  cases hStep with
  | http | outgoing => rfl
  | proceed handles => exact (handler_of_handle handles).2.1
  | accept | upgrade | answered | submitted | receive | websocket | raise => exact allowed.elim

/-- Nothing is left to be completed. -/
def AtEnd (setup : Setup) (p : Process Queue) : Prop :=
  ∀ action, completes p action → p.step setup action = none

theorem atRest_of_atEnd (h : Wired setup p) (running : p.terminated = false)
    (hEnd : AtEnd setup p) : p.handler.AtRest := by
  by_contra hOpen
  obtain ⟨i, handler, hStep⟩ := WorkHandler.progress h.handler hOpen
  obtain ⟨next, hNext⟩ := exists_step_of_proceed h running hStep
  rw [hEnd (.proceed i 0) trivial] at hNext
  cases hNext

omit [PriorityQueue Queue Job Job.comparator] in
/-- At rest no strand runs a call. -/
theorem not_inCall_of_atRest (hRest : p.handler.AtRest) (k w : Nat) :
    p.inHttpCall k = false ∧ p.inWebsocketCall w = false := by
  have hNone : ∀ pair ∈ p.calls, inCall pair.2.phase = false := by
    intro pair hMem
    have hDone := hRest pair.2 (List.of_mem_zip hMem).2
    revert hDone
    cases pair.2.phase <;> simp [WorkHandler.Phase.isDone, inCall]
  constructor
  · refine List.any_eq_false.mpr fun pair hMem => ?_
    simp [hNone pair hMem]
  · refine List.any_eq_false.mpr fun pair hMem => ?_
    simp [hNone pair hMem]

theorem drained_of_atEnd (running : p.terminated = false) (hRest : p.handler.AtRest)
    (hEnd : AtEnd setup p) {k : Nat} {connection : Connection}
    (found : p.connections[k]? = some connection) : connection.session.Drained := by
  by_contra hOpen
  obtain ⟨action, session, allowed, hStep⟩ := @exists_write patterns _ hOpen
  have hIdle := (not_inCall_of_atRest hRest k 0).1
  have hOwn : ownHttp action = true ∧ completes p (.http k action) := by
    cases action <;> first | exact ⟨rfl, trivial⟩ | exact allowed.elim
  have hNone := hEnd (.http k action) hOwn.2
  simp [Process.step, running, hOwn.1, hIdle, found, hStep] at hNone

theorem sent_of_atEnd (running : p.terminated = false) (hRest : p.handler.AtRest)
    (hEnd : AtEnd setup p) {w : Nat} {connection : WebsocketConnection}
    (found : p.websockets[w]? = some connection) (flows : connection.outgoing.Flows) :
    connection.outgoing.posted = [] ∧ connection.outgoing.sendQueue = [] := by
  by_contra hOpen
  obtain ⟨action, outgoing, allowed, hStep⟩ := SendQueue.exists_send flows hOpen
  have hIdle := (not_inCall_of_atRest hRest 0 w).2
  have hOwn : ownOutgoing action = true ∧ completes p (.outgoing w action) := by
    cases action with
    | writeResponse message => exact allowed.elim
    | runPosted => exact ⟨rfl, trivial⟩
    | onWritten write failed => cases failed <;> first | exact ⟨rfl, trivial⟩ | exact allowed.elim
  have hNone := hEnd (.outgoing w action) hOwn.2
  simp [Process.step, running, hOwn.1, hIdle, found, hStep] at hNone

/-- What the clients have got: each request that was read on a connection that is still
open has had its response written, once, and each message on a WebSocket that sends has
had its answer handed over. -/
structure Delivered (setup : Setup) (p finish : Process Queue) : Prop where
  answered : AllAnswered finish
  sessions : ∀ (k : Nat) (connection : Connection), p.connections[k]? = some connection →
    connection.session.Flowing → ∃ after, finish.connections[k]? = some after ∧
      after.session.requests = connection.session.requests ∧
      after.session.written.Perm connection.session.regular
  messages : ∀ (w : Nat) (connection : WebsocketConnection),
    p.websockets[w]? = some connection → connection.outgoing.Flows →
      ∃ after, finish.websockets[w]? = some after ∧ after.outgoing.writing = [] ∧
        after.outgoing.handed = (answersOn w p.origins finish.answers).map setup.writeJson ∧
        after.outgoing.handed.length = p.origins.count (.websocket w)

/-- What holds until the end of every connection that was open. -/
structure Lasts (setup : Setup) (p finish : Process Queue) : Prop where
  reaches : Reaches (Process.step setup) handlersReturn (.initial setup) finish
  running : finish.terminated = false
  origins : finish.origins = p.origins
  sessions : ∀ (k : Nat) (connection : Connection), p.connections[k]? = some connection →
    connection.session.Flowing → ∃ after, finish.connections[k]? = some after ∧
      after.session.Flowing ∧ after.session.requests = connection.session.requests
  messages : ∀ (w : Nat) (connection : WebsocketConnection),
    p.websockets[w]? = some connection → connection.outgoing.Flows →
      ∃ after, finish.websockets[w]? = some after ∧ after.outgoing.Flows

theorem Lasts.of_reaches (run : Reaches (Process.step setup) handlersReturn (.initial setup) p)
    (running : p.terminated = false) (rest : Reaches (Process.step setup) completes p finish) :
    Lasts setup p finish := by
  apply rest.invariant (Lasts setup p)
  · exact ⟨run, running, rfl, fun k connection found flowing => ⟨connection, found, flowing, rfl⟩,
      fun w connection found flows => ⟨connection, found, flows⟩⟩
  · intro middle action next _ h allowed hStep
    have hCases := step_cases hStep
    have hWired := Wired.of_reaches h.reaches
    refine ⟨h.reaches.tail (handlersReturn_of_completes middle action allowed) hStep,
      terminated_of_completes h.running allowed hCases,
      (origins_of_completes allowed hCases).trans h.origins, ?_, ?_⟩
    · intro k connection found flowing
      obtain ⟨other, hOther, hFlowing, hRequests⟩ := h.sessions k connection found flowing
      obtain ⟨after, hAfter, hStill, hSame⟩ :=
        completes_connection hWired allowed hCases hOther hFlowing
      exact ⟨after, hAfter, hStill, hSame.trans hRequests⟩
    · intro w connection found flows
      obtain ⟨other, hOther, hFlows⟩ := h.messages w connection found flows
      exact completes_websocket allowed hCases hOther hFlows

theorem Lasts.delivered (h : Lasts setup p finish) (hEnd : AtEnd setup finish) :
    Delivered setup p finish := by
  have hWired := Wired.of_reaches h.reaches
  have hRest := atRest_of_atEnd hWired h.running hEnd
  have hAnswered := hWired.allAnswered (Contained.of_reaches h.reaches) h.running hRest
  refine ⟨hAnswered, ?_, ?_⟩
  · intro k connection found flowing
    obtain ⟨after, hAfter, hFlowing, hRequests⟩ := h.sessions k connection found flowing
    have hDrained := drained_of_atEnd h.running hRest hEnd hAfter
    have hDelivery := Delivery.of_reaches (hWired.connections k after hAfter).reaches
    refine ⟨after, hAfter, hRequests, ?_⟩
    rw [written_of_drained hDelivery hDrained.2 hFlowing.1, ← regular_of_same hRequests]
    exact (hAnswered.sessions k after hAfter).2
  · intro w connection found flows
    obtain ⟨after, hAfter, hFlows⟩ := h.messages w connection found flows
    obtain ⟨hPosted, hQueue⟩ := sent_of_atEnd h.running hRest hEnd hAfter hFlows
    have hLinked := hWired.websockets w after hAfter
    obtain ⟨hIdle, hHanded⟩ :=
      SendQueue.handed_of_empty (.of_reaches hLinked.outgoing) hPosted hQueue
    refine ⟨after, hAfter, hIdle, ?_, ?_⟩
    · rw [hHanded, hLinked.order, h.origins]
    · rw [hHanded, hAnswered.messages w after hAfter, h.origins]

end NanoPowServer.Entry
