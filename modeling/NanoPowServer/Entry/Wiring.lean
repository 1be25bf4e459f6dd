import NanoPowServer.Entry.Sessions
import NanoPowServer.WorkHandler.Completion

/-! The process keeps its parts together: each part takes the steps that it has on its
own, every call belongs to a session that exists, and what the calls respond has been
passed on. -/
namespace NanoPowServer.Entry

open WebServer
open WorkHandler (Call Environment Phase Ptree System)
open Execution PriorityQueue

variable {Queue : Type} {setup : Setup}

/-- Response handlers return. -/
def handlersReturn (p : Process Queue) : Action → Prop
  | .raise i what => WorkHandler.handlersReturn p.handler (.raise i what)
  | _ => True

/-- The session exists. -/
def Origin.IsOf (p : Process Queue) : Origin → Prop
  | .http k _ => k < p.connections.length
  | .websocket w => w < p.websockets.length

theorem Origin.IsOf.mono {p q : Process Queue} {origin : Origin} (h : origin.IsOf p)
    (hConnections : p.connections.length ≤ q.connections.length)
    (hWebsockets : p.websockets.length ≤ q.websockets.length) : origin.IsOf q := by
  cases origin with
  | http k number => exact Nat.lt_of_lt_of_le h hConnections
  | websocket w => exact Nat.lt_of_lt_of_le h hWebsockets

section Respond

variable (q : Process Queue) {calls : List Call} {i : Nat} {origin : Origin} {call after : Call}

theorem respond_lengths (setup : Setup) (origin : Origin) (response : Ptree) :
    (q.respond setup origin response).connections.length = q.connections.length ∧
      (q.respond setup origin response).websockets.length = q.websockets.length := by
  cases origin with
  | http k number => exact ⟨List.length_modify _ _ _, rfl⟩
  | websocket w => exact ⟨rfl, List.length_modify _ _ _⟩

theorem respond_fields (setup : Setup) (origin : Origin) (response : Ptree) :
    (q.respond setup origin response).handler = q.handler ∧
      (q.respond setup origin response).origins = q.origins ∧
      (q.respond setup origin response).terminated = q.terminated := by
  cases origin <;> exact ⟨rfl, rfl, rfl⟩

/-- The session of the call gets the response, and the others see that a call of another
session has responded. -/
theorem attached_respond (hAll : ∀ k connection, q.connections[k]? = some connection →
      Attached setup q.origins calls k connection.session)
    (hOrigin : q.origins[i]? = some origin) (hCall : calls[i]? = some call)
    (hNone : call.responses = []) {response : Ptree} (hResponse : after.responses = [response]) :
    ∀ k connection, (q.respond setup origin response).connections[k]? = some connection →
      Attached setup q.origins (calls.set i after) k connection.session := by
  intro k connection hConnection
  cases origin with
  | websocket w => exact (hAll k connection hConnection).answer_other hOrigin hCall rfl
  | http j number =>
      obtain ⟨old, hOld, rfl⟩ := List.getElem?_modify_eq_some hConnection
      by_cases hSame : j = k
      · subst hSame
        rw [if_pos rfl]
        exact (hAll j old hOld).answer_own hOrigin hCall hNone hResponse
      · rw [if_neg hSame]
        exact (hAll k old hOld).answer_other hOrigin hCall (by simp [Origin.numberOn, hSame])

theorem linked_respond (hAll : ∀ w connection, q.websockets[w]? = some connection →
      Linked setup q.origins q.answers w connection)
    (hOrigin : q.origins[i]? = some origin) (response : Ptree) :
    ∀ w connection, (q.respond setup origin response).websockets[w]? = some connection →
      Linked setup q.origins (q.answers ++ [(i, response)]) w connection := by
  intro w connection hConnection
  cases origin with
  | http k number => exact (hAll w connection hConnection).post_other hOrigin (by simp) response
  | websocket j =>
      obtain ⟨old, hOld, rfl⟩ := List.getElem?_modify_eq_some hConnection
      by_cases hSame : j = w
      · subst hSame
        rw [if_pos rfl]
        exact (hAll j old hOld).post hOrigin response
      · rw [if_neg hSame]
        exact (hAll w old hOld).post_other hOrigin (by simp [hSame]) response

theorem responsesOf_set (hCall : calls[i]? = some call) (j : Nat) :
    responsesOf (calls.set i after) j = if i = j then after.responses else responsesOf calls j := by
  obtain ⟨hBound, -⟩ := List.getElem?_eq_some_iff.mp hCall
  by_cases hSame : i = j
  · subst hSame
    simp [responsesOf, hBound]
  · simp [responsesOf, hSame]

theorem responsesOf_eq (hCall : calls[i]? = some call) : responsesOf calls i = call.responses := by
  simp [responsesOf, hCall]

theorem responsesOf_append (calls : List Call) (hNone : call.responses = []) (i : Nat) :
    responsesOf (calls ++ [call]) i = responsesOf calls i := by
  unfold responsesOf
  rcases Nat.lt_trichotomy i calls.length with hLess | rfl | hMore
  · rw [List.getElem?_append_left hLess]
  · simp [hNone]
  · rw [List.getElem?_eq_none (Nat.le_of_lt hMore), List.getElem?_eq_none]
    rw [List.length_append, List.length_singleton]
    exact hMore

end Respond

/-- The responses that are recorded for each call. -/
def answersOf (answers : List (Nat × Ptree)) (i : Nat) : List Ptree :=
  (answers.filter fun answer => answer.1 = i).map Prod.snd

theorem answersOf_append (answers : List (Nat × Ptree)) (i j : Nat) (response : Ptree) :
    answersOf (answers ++ [(i, response)]) j =
      answersOf answers j ++ if i = j then [response] else [] := by
  by_cases hSame : i = j <;> simp [answersOf, List.filter_append, hSame]

variable [PriorityQueue Queue Job Job.comparator] {p next : Process Queue}

/-- All but the HTTP sessions: the work handler takes its own steps, and what the response
handlers were called with is what the calls have responded. -/
structure Recorded (setup : Setup) (p : Process Queue) : Prop where
  handler : Reaches (System.step setup.env) WorkHandler.handlersReturn (.initial setup.env) p.handler
  length : p.origins.length = p.handler.calls.length
  origins : ∀ origin ∈ p.origins, origin.IsOf p
  websockets : ∀ w connection, p.websockets[w]? = some connection →
    Linked setup p.origins p.answers w connection
  answers : ∀ i, answersOf p.answers i = responsesOf p.handler.calls i

/-- The process keeps its parts together. -/
structure Wired (setup : Setup) (p : Process Queue) : Prop extends Recorded setup p where
  connections : ∀ k connection, p.connections[k]? = some connection →
    Attached setup p.origins p.handler.calls k connection.session

theorem Recorded.lt_of_answer (h : Recorded setup p) {answer : Nat × Ptree}
    (hMem : answer ∈ p.answers) : answer.1 < p.origins.length := by
  have hThere : answer.2 ∈ responsesOf p.handler.calls answer.1 := by
    rw [← h.answers]
    exact List.mem_map_of_mem (List.mem_filter.mpr ⟨hMem, by simp⟩)
  rw [h.length]
  by_contra hBeyond
  simp [responsesOf, List.getElem?_eq_none (Nat.le_of_not_lt hBeyond)] at hThere

/-- A call has gone on, and what it has responded, if anything, is passed on. -/
theorem wired_deliver {q : Process Queue} {calls : List Call} {i : Nat} {origin : Origin}
    {call after : Call}
    (handler : Reaches (System.step setup.env) WorkHandler.handlersReturn (.initial setup.env)
      q.handler)
    (origins : ∀ origin ∈ q.origins, origin.IsOf q) (length : q.origins.length = calls.length)
    (websockets : ∀ w connection, q.websockets[w]? = some connection →
      Linked setup q.origins q.answers w connection)
    (answers : ∀ i, answersOf q.answers i = responsesOf calls i)
    (connections : ∀ k connection, q.connections[k]? = some connection →
      Attached setup q.origins calls k connection.session)
    (hOrigin : q.origins[i]? = some origin) (hCall : calls[i]? = some call)
    (hSet : q.handler.calls = calls.set i after) (hCount : after.responses.length ≤ 1)
    (hGrows : call.responses <+: after.responses) :
    Wired setup (q.deliver setup i origin (after.responses.drop call.responses.length)) := by
  obtain ⟨more, hMore⟩ := hGrows
  rw [← hMore, List.drop_left]
  rw [← hMore, List.length_append] at hCount
  have hLength : q.origins.length = q.handler.calls.length := by
    rw [hSet, List.length_set, length]
  match more with
  | [] =>
      rw [List.append_nil] at hMore
      show Wired setup q
      refine ⟨⟨handler, hLength, origins, websockets, fun j => ?_⟩, ?_⟩
      · rw [answers, hSet, responsesOf_set hCall]
        split
        · next h => rw [← h, responsesOf_eq hCall, hMore]
        · rfl
      · intro k connection hConnection
        rw [hSet]
        exact (connections k connection hConnection).goto hOrigin hCall hMore.symm
  | [response] =>
      have hNone : call.responses = [] := List.eq_nil_of_length_eq_zero (by simpa using hCount)
      have hResponse : after.responses = [response] := by
        rw [← hMore, hNone]
        rfl
      obtain ⟨hHandler, hOrigins, -⟩ := respond_fields q setup origin response
      obtain ⟨hConnections, hWebsockets⟩ := respond_lengths q setup origin response
      show Wired setup
        { q.respond setup origin response with answers := q.answers ++ [(i, response)] }
      refine ⟨⟨?_, ?_, ?_, ?_, ?_⟩, ?_⟩
      · rwa [hHandler]
      · rwa [hOrigins, hHandler]
      · rw [hOrigins]
        intro other hMem
        exact (origins other hMem).mono hConnections.ge hWebsockets.ge
      · rw [hOrigins]
        exact linked_respond q websockets hOrigin response
      · intro j
        rw [answersOf_append, answers, hHandler, hSet, responsesOf_set hCall]
        split
        · next h => rw [← h, responsesOf_eq hCall, hNone, hResponse, List.nil_append]
        · exact List.append_nil _
      · rw [hOrigins, hHandler, hSet]
        exact attached_respond q connections hOrigin hCall hNone hResponse
  | _ :: _ :: _ =>
      simp only [List.length_cons] at hCount
      omega

/-- The responses of a call grow, and there is never more than one. -/
theorem responses_of_step {c after : System Queue} {action : WorkHandler.Action} {i : Nat}
    {call : Call} (hStep : WorkHandler.Step setup.env c action after)
    (hAction : (∃ now, action = .proceed i now) ∨ ∃ what, action = .raise i what)
    (found : c.calls[i]? = some call) :
    ∃ next, after.calls = c.calls.set i next ∧ call.responses <+: next.responses := by
  rcases hAction with ⟨now, rfl⟩ | ⟨what, rfl⟩
  · cases hStep with
    | proceed hFound moves =>
        obtain rfl := Option.some.inj (found.symm.trans hFound)
        refine ⟨_, WorkHandler.System.commit_calls _ _ _ _ _, ?_⟩
        cases moves <;> simp
  · cases hStep with
    | raise what hFound raises =>
        obtain rfl := Option.some.inj (found.symm.trans hFound)
        exact ⟨_, WorkHandler.System.commit_calls _ _ _ _ _, List.prefix_append _ _⟩

/-- A WebSocket connection has taken a step. -/
theorem Recorded.setWebsocket (h : Recorded setup p) {w : Nat} {connection : WebsocketConnection}
    (linked : Linked setup p.origins p.answers w connection) :
    Recorded setup { p with websockets := p.websockets.set w connection } where
  handler := h.handler
  length := h.length
  origins origin hMem := (h.origins origin hMem).mono (Nat.le_refl _) List.length_set.ge
  websockets v other hFound := by
    rw [List.getElem?_set] at hFound
    split at hFound
    · next hSame =>
        subst hSame
        split at hFound
        · obtain rfl := Option.some.inj hFound
          exact linked
        · cases hFound
    · exact h.websockets v other hFound
  answers := h.answers

namespace Wired

theorem initial (setup : Setup) : Wired setup (Process.initial setup : Process Queue) where
  handler := .refl
  length := rfl
  origins origin hMem := absurd hMem List.not_mem_nil
  websockets w connection hFound := by simp [Process.initial] at hFound
  answers i := rfl
  connections k connection hFound := by simp [Process.initial] at hFound

/-- A call goes on. -/
theorem handle (h : Wired setup p) {i : Nat} {action : WorkHandler.Action}
    (hAction : (∃ now, action = .proceed i now) ∨ ∃ what, action = .raise i what)
    (allowed : WorkHandler.handlersReturn p.handler action)
    (hHandle : p.handle setup i action = some next) : Wired setup next := by
  obtain ⟨origin, hOrigin, hHandle⟩ := Option.bind_eq_some_iff.mp hHandle
  obtain ⟨handler, hStep, hHandle⟩ := Option.bind_eq_some_iff.mp hHandle
  obtain rfl := Option.some.inj hHandle
  obtain ⟨hBound, -⟩ := List.getElem?_eq_some_iff.mp hOrigin
  rw [h.length] at hBound
  have hCall := List.getElem?_eq_getElem hBound
  have hHandler := h.handler.tail allowed hStep
  obtain ⟨after, hSet, hGrows⟩ := responses_of_step (WorkHandler.step_cases hStep) hAction hCall
  have hAfter : handler.calls[i]? = some after := by simp [hSet, hBound]
  rw [responsesOf_eq hAfter, responsesOf_eq hCall]
  have hServed := WorkHandler.served hHandler after (List.mem_of_getElem? hAfter)
  exact wired_deliver hHandler h.origins h.length h.websockets h.answers h.connections hOrigin
    hCall hSet (hServed.count ▸ Bool.toNat_le _) hGrows

/-- A request is submitted by a session that is ready for it. -/
theorem submit (h : Recorded setup p) {origin : Origin} (hOrigin : origin.IsOf p)
    (hEnter : ∀ k connection, p.connections[k]? = some connection → ∀ call : Call,
      call.responses = [] → Attached setup (p.origins ++ [origin]) (p.handler.calls ++ [call]) k
        connection.session) (body : String) :
    Wired setup (p.submit setup origin body) := by
  generalize hArrived : Call.handleRequestAsync setup.env p.handler.jobIdDispenser body = after
  have hCalls : (p.handler.arrive setup.env body).calls = p.handler.calls ++ [after] := by
    rw [WorkHandler.System.arrive_calls, hArrived]
  have hHandler : Reaches (System.step setup.env) WorkHandler.handlersReturn (.initial setup.env)
      (p.handler.arrive setup.env body) := by
    have allowed : WorkHandler.handlersReturn p.handler (.request body) := trivial
    exact h.handler.tail allowed rfl
  have hServed := WorkHandler.served hHandler after (by rw [hCalls]; simp)
  -- The call is taken to have arrived first and to have responded then.
  let quiet : Call := { after with responses := [] }
  have hQuiet : (p.handler.calls ++ [quiet])[p.handler.calls.length]? = some quiet := by simp
  have hResponses : responsesOf (p.handler.arrive setup.env body).calls p.handler.calls.length =
      after.responses.drop quiet.responses.length := by
    rw [hCalls]
    simp [responsesOf, quiet]
  unfold Process.submit
  dsimp only
  rw [hResponses]
  refine wired_deliver hHandler ?_ (by simp [h.length]) ?_ ?_ ?_ ?_ hQuiet (by rw [hCalls]; simp)
    (hServed.count ▸ Bool.toNat_le _) List.nil_prefix
  · intro other hMem
    rcases List.mem_append.mp hMem with hOld | hNew
    · exact (h.origins other hOld).mono (Nat.le_refl _) (Nat.le_refl _)
    · rw [List.mem_singleton.mp hNew]
      exact hOrigin.mono (Nat.le_refl _) (Nat.le_refl _)
  · intro w connection hFound
    exact (h.websockets w connection hFound).enter (fun _ => h.lt_of_answer) origin
  · intro i
    rw [h.answers, responsesOf_append _ rfl]
  · intro k connection hFound
    exact hEnter k connection hFound quiet rfl
  · simp [h.length]

/-- An HTTP session has taken a step by which it made no call. -/
theorem setSession (h : Wired setup p) {k : Nat} {connection : Connection}
    {session : HttpSession} (found : p.connections[k]? = some connection)
    {action : WebServer.Action}
    (stepped : connection.session.step patterns action = some session)
    (hQuiet : (∃ request handling, action = .onRead request handling ∧
      (request.isUpgrade = true ∨ handling ≠ .defer)) ∨ ownHttp action = true) :
    Wired setup (p.setSession k session) where
  handler := h.handler
  length := h.length
  origins origin hMem :=
    (h.origins origin hMem).mono (List.length_modify _ _ _).ge (Nat.le_refl _)
  websockets := h.websockets
  answers := h.answers
  connections j other hFound := by
    obtain ⟨old, hOld, rfl⟩ := List.getElem?_modify_eq_some hFound
    by_cases hSame : k = j
    · subst hSame
      obtain rfl := Option.some.inj (found.symm.trans hOld)
      rw [if_pos rfl]
      exact (h.connections k connection found).step stepped hQuiet
    · rw [if_neg hSame]
      exact h.connections j old hOld

/-- The work handler has taken a step that no call sees. -/
theorem setHandler (h : Wired setup p) {handler : System Queue} (terminated : Bool)
    (hHandler : handler = p.handler ∨ handler = p.handler.clear setup.env) :
    Wired setup { p with handler, terminated } := by
  have hCalls : handler.calls = p.handler.calls := by
    rcases hHandler with rfl | rfl
    · rfl
    · exact WorkHandler.System.clear_calls _ _
  refine ⟨⟨?_, ?_, fun origin hMem => ?_, h.websockets, ?_⟩, ?_⟩
  · rcases hHandler with rfl | rfl
    · exact h.handler
    · have allowed : WorkHandler.handlersReturn p.handler .clear := trivial
      exact h.handler.tail allowed rfl
  · rw [hCalls]
    exact h.length
  · exact (h.origins origin hMem).mono (Nat.le_refl _) (Nat.le_refl _)
  · rw [hCalls]
    exact h.answers
  · rw [hCalls]
    exact h.connections

/-- One step of the process. -/
theorem step (h : Wired setup p) {action : Action} (allowed : handlersReturn p action)
    (hStep : Step setup p action next) : Wired setup next := by
  cases hStep with
  | accept isLoopback =>
      refine ⟨⟨h.handler, h.length, fun origin hMem => ?_, h.websockets, h.answers⟩, ?_⟩
      · exact (h.origins origin hMem).mono (by simp) (Nat.le_refl _)
      · intro k connection hFound
        rcases List.getElem?_append_singleton_eq_some hFound with hOld | ⟨rfl, rfl⟩
        · exact h.connections k connection hOld
        · exact Attached.initial fun number hMem => Nat.lt_irrefl _ (h.origins _ hMem)
  | @upgrade k request verb body files now later connection session found isUpgrade stepped opened accepted =>
      have hSession := h.setSession found stepped (.inl ⟨request, .defer, rfl, .inl isUpgrade⟩)
      refine ⟨⟨hSession.handler, hSession.length, fun origin hMem => ?_, ?_, hSession.answers⟩,
        hSession.connections⟩
      · exact (hSession.origins origin hMem).mono (Nat.le_refl _) (by simp [Process.setSession])
      · intro w socket hFound
        rw [List.getElem?_append] at hFound
        split at hFound
        · exact h.websockets w socket hFound
        · next hBeyond =>
            rw [accepted socket (List.mem_of_getElem? hFound)]
            exact Linked.opened (fun hMem => hBeyond (h.origins _ hMem)) now later
  | answered terminated found noUpgrade answers stepped handler cleared =>
      exact (h.setSession found stepped (.inl ⟨_, _, rfl, .inr answers⟩)).setHandler terminated cleared
  | @submitted k request verb body files now later connection session found noUpgrade stepped =>
      have hSame : Recorded setup (p.setSession k session) :=
        ⟨h.handler, h.length, fun origin hMem =>
          (h.origins origin hMem).mono (List.length_modify _ _ _).ge (Nat.le_refl _),
          h.websockets, h.answers⟩
      obtain ⟨hBound, -⟩ := List.getElem?_eq_some_iff.mp found
      have hThere : Origin.IsOf (p.setSession k session)
          (.http k connection.session.requests.length) :=
        hBound.trans_eq (List.length_modify _ _ _).symm
      refine submit hSame hThere ?_ body
      intro j other hFound call hNone
      obtain ⟨old, hOld, rfl⟩ := List.getElem?_modify_eq_some hFound
      by_cases hIndex : k = j
      · subst hIndex
        obtain rfl := Option.some.inj (found.symm.trans hOld)
        rw [if_pos rfl]
        exact (h.connections k connection found).enter_own h.length noUpgrade stepped hNone
      · rw [if_neg hIndex]
        exact (h.connections j old hOld).enter_other h.length (by simp [Origin.numberOn, hIndex]) call
  | http own found stepped => exact h.setSession found stepped (.inr own)
  | @receive w message now connection session found stepped =>
      have hSame := h.setWebsocket ((h.websockets w connection found).step stepped)
      obtain ⟨hBound, -⟩ := List.getElem?_eq_some_iff.mp found
      have hThere : Origin.IsOf
          { p with websockets := p.websockets.set w { connection with session } } (.websocket w) :=
        hBound.trans_eq List.length_set.symm
      refine submit hSame hThere ?_ message
      intro k other hFound call hNone
      exact (h.connections k other hFound).enter_other h.length rfl call
  | websocket found stepped =>
      exact ⟨h.setWebsocket ((h.websockets _ _ found).step stepped), h.connections⟩
  | outgoing own found stepped =>
      exact ⟨h.setWebsocket ((h.websockets _ _ found).send own stepped), h.connections⟩
  | proceed handles => exact h.handle (.inl ⟨_, rfl⟩) trivial handles
  | raise handles => exact h.handle (.inr ⟨_, rfl⟩) allowed handles

/-- In every run whose response handlers return, the parts are kept together. -/
theorem of_reaches (run : Reaches (Process.step setup) handlersReturn (Process.initial setup) p) :
    Wired setup p := by
  refine run.invariant (Wired setup) (Wired.initial setup) ?_
  intro state action next _ h allowed hStep
  exact h.step allowed (step_cases hStep)

end Wired

end NanoPowServer.Entry
