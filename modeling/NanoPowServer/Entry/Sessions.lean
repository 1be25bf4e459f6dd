import NanoPowServer.Entry.Steps
import NanoPowServer.WebServer.Accounting

/-! The sessions of the process and the calls that they have made. A session keeps exactly
the requests whose calls have not responded, and what a call responds is put on the queue
of the session that made it. -/
namespace NanoPowServer.Entry

open WebServer
open WorkHandler (Call Environment Phase Ptree System)
open Execution PriorityQueue

/-- The request of a call that was made on this connection and has not been answered. -/
def unansweredOn (k : Nat) : Origin × Call → Option Nat
  | (origin, call) => if call.responses = [] then origin.numberOn k else none

theorem unansweredOn_eq_some {k number : Nat} {origin : Origin} {call : Call} :
    unansweredOn k (origin, call) = some number ↔
      call.responses = [] ∧ origin = .http k number := by
  unfold unansweredOn Origin.numberOn
  cases origin with
  | websocket w => simp
  | http connection request =>
      by_cases hSame : connection = k <;> simp [hSame]

/-- A connection number `k` with its session, as far as the calls know it. -/
structure Attached (setup : Setup) (origins : List Origin) (calls : List Call) (k : Nat)
    (session : HttpSession) : Prop where
  reaches : Reaches (HttpSession.step patterns) anyAction .initial session
  unique : ∀ (i j number : Nat), origins[i]? = some (.http k number) →
    origins[j]? = some (.http k number) → i = j
  known : ∀ number, .http k number ∈ origins → number < session.requests.length
  deferred : session.deferred = (origins.zip calls).filterMap (unansweredOn k)
  items : ∀ item ∈ session.items, ∀ i : Nat, origins[i]? = some (.http k item.request) →
    ∃ call response, calls[i]? = some call ∧ call.responses = [response] ∧
      item.body = setup.writeJson response

namespace Attached

variable {setup : Setup} {origins : List Origin} {calls : List Call} {k : Nat}
  {session next : HttpSession}

/-- A new connection, to which no call belongs. -/
theorem initial (hNew : ∀ number, .http k number ∉ origins) :
    Attached setup origins calls k .initial where
  reaches := .refl
  unique i _ number hOrigin := absurd (List.mem_of_getElem? hOrigin) (hNew number)
  known number hMem := absurd hMem (hNew number)
  deferred := by
    symm
    apply List.filterMap_eq_nil_iff.mpr
    rintro ⟨origin, call⟩ hMem
    cases hNumber : unansweredOn k (origin, call) with
    | none => rfl
    | some number =>
        obtain ⟨-, rfl⟩ := unansweredOn_eq_some.mp hNumber
        exact absurd (List.of_mem_zip hMem).1 (hNew number)
  items item hMem := absurd hMem List.not_mem_nil

/-- A step of the session that makes no call. -/
theorem step (h : Attached setup origins calls k session) {action : WebServer.Action}
    (hStep : session.step patterns action = some next)
    (hQuiet : (∃ request handling, action = .onRead request handling ∧
      (request.isUpgrade = true ∨ handling ≠ .defer)) ∨ ownHttp action = true) :
    Attached setup origins calls k next := by
  have hReaches := h.reaches.tail trivial hStep
  have hKnown : session.requests.length ≤ next.requests.length →
      ∀ number, .http k number ∈ origins → number < next.requests.length :=
    fun hLength number hMem => Nat.lt_of_lt_of_le (h.known number hMem) hLength
  cases accounted_of_step (WebServer.step_cases hStep) with
  | upgrade _ requests deferred items =>
      refine ⟨hReaches, h.unique, hKnown (by simp [requests]), deferred.trans h.deferred, ?_⟩
      rw [items]
      exact h.items
  | @respond request handling _ response _ _ requests deferred items number =>
      refine ⟨hReaches, h.unique, hKnown (by simp [requests]), deferred.trans h.deferred, ?_⟩
      rw [items]
      intro item hItem i hOrigin
      rcases List.mem_append.mp hItem with hOld | hNew
      · exact h.items item hOld i hOrigin
      · -- No call was made for the request that has just been read.
        obtain rfl := List.mem_singleton.mp hNew
        have hMem := h.known _ (List.mem_of_getElem? hOrigin)
        omega
  | defer noUpgrade =>
      rcases hQuiet with ⟨request, handling, hAction, hUpgrade | hAnswers⟩ | hOwn
      · obtain ⟨rfl, rfl⟩ := WebServer.Action.onRead.inj hAction
        rw [noUpgrade] at hUpgrade
        cases hUpgrade
      · obtain ⟨rfl, rfl⟩ := WebServer.Action.onRead.inj hAction
        exact absurd rfl hAnswers
      · cases hOwn
  | taskResponds =>
      rcases hQuiet with ⟨request, handling, hAction, -⟩ | hOwn
      · cases hAction
      · cases hOwn
  | own requests deferred items =>
      refine ⟨hReaches, h.unique, hKnown (by rw [requests]), deferred.trans h.deferred, ?_⟩
      exact fun item hItem => h.items item (items.subset hItem)

theorem getElem?_zip {i : Nat} {origin : Origin} {call : Call} (hOrigin : origins[i]? = some origin)
    (hCall : calls[i]? = some call) : (origins.zip calls)[i]? = some (origin, call) :=
  List.getElem?_zip_eq_some.mpr ⟨hOrigin, hCall⟩

theorem nodup_deferred (h : Attached setup origins calls k session) : session.deferred.Nodup :=
  (List.nodup_append.mp
    ((partition_of_reaches h.reaches).nodup_iff.mpr session.nodup_regular)).1

/-- A call goes on and does not respond. -/
theorem goto (h : Attached setup origins calls k session) {i : Nat} {origin : Origin}
    {call after : Call} (hOrigin : origins[i]? = some origin) (hCall : calls[i]? = some call)
    (hSame : after.responses = call.responses) :
    Attached setup origins (calls.set i after) k session where
  reaches := h.reaches
  unique := h.unique
  known := h.known
  deferred := by
    rw [h.deferred, List.zip_set_right hOrigin,
      List.filterMap_set_of_eq (getElem?_zip hOrigin hCall)]
    simp [unansweredOn, hSame]
  items item hItem j hOther := by
    obtain ⟨other, response, hFound, hResponses, hBody⟩ := h.items item hItem j hOther
    by_cases hIndex : i = j
    · subst hIndex
      obtain rfl := Option.some.inj (hCall.symm.trans hFound)
      obtain ⟨hBound, -⟩ := List.getElem?_eq_some_iff.mp hCall
      exact ⟨after, response, by simp [hBound], hSame.trans hResponses, hBody⟩
    · exact ⟨other, response, by simpa [hIndex] using hFound, hResponses, hBody⟩

/-- The call of another session responds. -/
theorem answer_other (h : Attached setup origins calls k session) {i : Nat} {origin : Origin}
    {call after : Call} (hOrigin : origins[i]? = some origin) (hCall : calls[i]? = some call)
    (hOther : origin.numberOn k = none) : Attached setup origins (calls.set i after) k session where
  reaches := h.reaches
  unique := h.unique
  known := h.known
  deferred := by
    rw [h.deferred, List.zip_set_right hOrigin,
      List.filterMap_set_of_eq (getElem?_zip hOrigin hCall)]
    simp [unansweredOn, hOther]
  items item hItem j hNumber := by
    obtain ⟨other, response, hFound, hResponses, hBody⟩ := h.items item hItem j hNumber
    by_cases hIndex : i = j
    · subst hIndex
      obtain rfl := Option.some.inj (hOrigin.symm.trans hNumber)
      simp [Origin.numberOn] at hOther
    · exact ⟨other, response, by simpa [hIndex] using hFound, hResponses, hBody⟩

/-- A call of this session responds, for the first time. -/
theorem answer_own (h : Attached setup origins calls k session) {i number : Nat}
    {call after : Call} {response : Ptree} (hOrigin : origins[i]? = some (.http k number))
    (hCall : calls[i]? = some call) (hNone : call.responses = [])
    (hResponse : after.responses = [response]) :
    Attached setup origins (calls.set i after) k
      (writeTo session number (setup.writeJson response)) := by
  have hPair := getElem?_zip hOrigin hCall
  have hOpen : unansweredOn k (.http k number, call) = some number :=
    unansweredOn_eq_some.mpr ⟨hNone, rfl⟩
  have hKept : number ∈ session.deferred := by
    rw [h.deferred]
    exact List.mem_filterMap.mpr ⟨_, List.mem_of_getElem? hPair, hOpen⟩
  have hStep : session.step patterns
      (.writeJsonResponse number (setup.writeJson response)) =
        some (writeTo session number (setup.writeJson response)) := by
    simp [HttpSession.step, hKept, writeTo]
  refine ⟨h.reaches.tail trivial hStep, h.unique, h.known, ?_, ?_⟩
  · show session.deferred.erase number = _
    rw [List.zip_set_right hOrigin, List.filterMap_set_of_none hPair hOpen, h.deferred]
    · simp [unansweredOn, hResponse]
    · rw [← h.deferred]
      exact h.nodup_deferred
  · intro item hItem j hOther
    obtain ⟨hBound, -⟩ := List.getElem?_eq_some_iff.mp hCall
    have hItems : item ∈ session.items ∨
        item.request = number ∧ item.body = setup.writeJson response := by
      rcases List.mem_append.mp hItem with hOld | hNew
      · exact .inl hOld
      · obtain rfl := List.mem_singleton.mp hNew
        exact .inr ⟨rfl, rfl⟩
    by_cases hIndex : i = j
    · subst hIndex
      refine ⟨after, response, by simp [hBound], hResponse, ?_⟩
      rcases hItems with hOld | ⟨-, hBody⟩
      · -- An earlier item would be the response of a call that has none.
        obtain ⟨other, earlier, hFound, hResponses, -⟩ := h.items item hOld i hOther
        obtain rfl := Option.some.inj (hCall.symm.trans hFound)
        rw [hNone] at hResponses
        cases hResponses
      · exact hBody
    · rcases hItems with hOld | ⟨rfl, -⟩
      · obtain ⟨other, earlier, hFound, hResponses, hBody⟩ := h.items item hOld j hOther
        exact ⟨other, earlier, by simpa [hIndex] using hFound, hResponses, hBody⟩
      · exact absurd (h.unique i j item.request hOrigin hOther) hIndex

/-- Another session makes a call. -/
theorem enter_other (h : Attached setup origins calls k session)
    (hLength : origins.length = calls.length) {origin : Origin} (hOther : origin.numberOn k = none)
    (call : Call) : Attached setup (origins ++ [origin]) (calls ++ [call]) k session where
  reaches := h.reaches
  unique i j number hi hj := by
    have hOld : ∀ i : Nat, (origins ++ [origin])[i]? = some (.http k number) →
        origins[i]? = some (.http k number) := by
      intro i hi
      rcases List.getElem?_append_singleton_eq_some hi with hOld | ⟨-, rfl⟩
      · exact hOld
      · simp [Origin.numberOn] at hOther
    exact h.unique i j number (hOld i hi) (hOld j hj)
  known number hMem := by
    rcases List.mem_append.mp hMem with hOld | hNew
    · exact h.known number hOld
    · obtain rfl := List.mem_singleton.mp hNew
      simp [Origin.numberOn] at hOther
  deferred := by
    rw [List.zip_append hLength, List.filterMap_append, ← h.deferred]
    simp [unansweredOn, hOther]
  items item hItem i hOrigin := by
    rcases List.getElem?_append_singleton_eq_some hOrigin with hOld | ⟨-, rfl⟩
    · obtain ⟨other, response, hFound, hResponses, hBody⟩ := h.items item hItem i hOld
      obtain ⟨hBound, -⟩ := List.getElem?_eq_some_iff.mp hFound
      exact ⟨other, response, (List.getElem?_append_left hBound).trans hFound, hResponses, hBody⟩
    · simp [Origin.numberOn] at hOther

/-- The session makes a call for the request that it has just read. -/
theorem enter_own (h : Attached setup origins calls k session)
    (hLength : origins.length = calls.length) {request : Request}
    (noUpgrade : request.isUpgrade = false)
    (hStep : session.step patterns (.onRead request .defer) = some next) {call : Call}
    (hNone : call.responses = []) :
    Attached setup (origins ++ [.http k session.requests.length]) (calls ++ [call]) k next := by
  cases accounted_of_step (WebServer.step_cases hStep) with
  | upgrade isUpgrade => simp [noUpgrade] at isUpgrade
  | respond _ answers => exact absurd rfl answers
  | own _ _ _ _ reads => exact absurd rfl (reads request .defer)
  | defer _ requests deferred items =>
      have hFresh : ∀ i : Nat, origins[i]? ≠ some (.http k session.requests.length) := by
        intro i hOrigin
        exact Nat.lt_irrefl _ (h.known _ (List.mem_of_getElem? hOrigin))
      refine ⟨h.reaches.tail trivial hStep, ?_, ?_, ?_, ?_⟩
      · intro i j number hi hj
        rcases List.getElem?_append_singleton_eq_some hi with hOld | ⟨rfl, hNew⟩
        · rcases List.getElem?_append_singleton_eq_some hj with hOther | ⟨-, hNew⟩
          · exact h.unique i j number hOld hOther
          · obtain rfl := (Origin.http.inj hNew).2
            exact absurd hOld (hFresh i)
        · obtain rfl := (Origin.http.inj hNew).2
          rcases List.getElem?_append_singleton_eq_some hj with hOther | ⟨rfl, -⟩
          · exact absurd hOther (hFresh j)
          · rfl
      · intro number hMem
        rw [requests, List.length_append, List.length_singleton]
        rcases List.mem_append.mp hMem with hOld | hNew
        · exact Nat.lt_succ_of_lt (h.known number hOld)
        · obtain ⟨-, rfl⟩ := Origin.http.inj (List.mem_singleton.mp hNew)
          exact Nat.lt_succ_self _
      · rw [deferred, h.deferred, List.zip_append hLength, List.filterMap_append]
        simp [unansweredOn, hNone, Origin.numberOn]
      · rw [items]
        intro item hItem i hOrigin
        rcases List.getElem?_append_singleton_eq_some hOrigin with hOld | ⟨-, hNew⟩
        · obtain ⟨other, response, hFound, hResponses, hBody⟩ := h.items item hItem i hOld
          obtain ⟨hBound, -⟩ := List.getElem?_eq_some_iff.mp hFound
          exact ⟨other, response, (List.getElem?_append_left hBound).trans hFound, hResponses, hBody⟩
        · have hKnown := lt_of_mem_enqueued h.reaches (mem_enqueued_of_item h.reaches item hItem)
          rw [← (Origin.http.inj hNew).2] at hKnown
          exact absurd hKnown (Nat.lt_irrefl _)

end Attached

/-- The responses to the messages of a WebSocket session, in the order in which they were
given. -/
def answersOn (w : Nat) (origins : List Origin) (answers : List (Nat × Ptree)) : List Ptree :=
  answers.filterMap fun (i, response) =>
    if origins[i]? = some (.websocket w) then some response else none

/-- A WebSocket session, with what has been posted to it. -/
structure Linked (setup : Setup) (origins : List Origin) (answers : List (Nat × Ptree)) (w : Nat)
    (connection : WebsocketConnection) : Prop where
  session : ∃ now later, Reaches WebsocketSession.step anyAction
    (WebsocketSession.accepted now later) connection.session
  outgoing : Reaches SendQueue.step anyAction .initial connection.outgoing
  order : connection.outgoing.enqueued ++ connection.outgoing.posted =
    (answersOn w origins answers).map setup.writeJson

section

variable {setup : Setup} {origins : List Origin} {answers : List (Nat × Ptree)} {w : Nat}
  {connection : WebsocketConnection}

theorem answersOn_append_origin (h : ∀ answer ∈ answers, answer.1 < origins.length)
    (origin : Origin) : answersOn w (origins ++ [origin]) answers = answersOn w origins answers := by
  apply List.filterMap_congr
  rintro ⟨i, response⟩ hMem
  dsimp only
  rw [List.getElem?_append_left (h _ hMem)]

theorem answersOn_append_answer {i : Nat} {origin : Origin} (hOrigin : origins[i]? = some origin)
    (response : Ptree) : answersOn w origins (answers ++ [(i, response)]) =
      answersOn w origins answers ++ if origin = .websocket w then [response] else [] := by
  rw [answersOn, List.filterMap_append, answersOn]
  congr 1
  by_cases hSame : origin = .websocket w <;> simp [hOrigin, hSame]

theorem Linked.opened (hNew : .websocket w ∉ origins) (now later : Nat) :
    Linked setup origins answers w ⟨.accepted now later, .initial⟩ where
  session := ⟨now, later, .refl⟩
  outgoing := .refl
  order := by
    have hNone : answersOn w origins answers = [] := by
      apply List.filterMap_eq_nil_iff.mpr
      rintro ⟨i, response⟩ -
      dsimp only
      rw [if_neg]
      exact fun hOrigin => hNew (List.mem_of_getElem? hOrigin)
    rw [hNone]
    rfl

theorem Linked.step (h : Linked setup origins answers w connection)
    {action : WebsocketSession.Action} {session : WebsocketSession}
    (hStep : connection.session.step action = some session) :
    Linked setup origins answers w { connection with session } where
  session := by
    obtain ⟨now, later, run⟩ := h.session
    exact ⟨now, later, run.tail trivial hStep⟩
  outgoing := h.outgoing
  order := h.order

/-- The queue moves on by itself: what leaves the lambdas that are posted is put on the
queue. -/
theorem Linked.send (h : Linked setup origins answers w connection) {action : SendQueue.Action}
    {outgoing : SendQueue} (own : ownOutgoing action = true)
    (hStep : connection.outgoing.step action = some outgoing) :
    Linked setup origins answers w { connection with outgoing } where
  session := h.session
  outgoing := h.outgoing.tail trivial hStep
  order := by
    rw [← h.order]
    cases SendQueue.step_cases hStep with
    | writeResponse message => cases own
    | @runPosted message rest posted =>
        obtain ⟨hEnqueued, hPosted⟩ := SendQueue.record_emplace
          { connection.outgoing with posted := rest } message
        rw [hEnqueued, hPosted, posted, List.append_assoc, List.singleton_append]
    | @onWritten write failed outstanding =>
        obtain ⟨hEnqueued, hPosted⟩ := SendQueue.record_complete
          { connection.outgoing with writing := connection.outgoing.writing.eraseIdx write } failed
        rw [hEnqueued, hPosted]

theorem Linked.post (h : Linked setup origins answers w connection) {i : Nat}
    (hOrigin : origins[i]? = some (.websocket w)) (response : Ptree) :
    Linked setup origins (answers ++ [(i, response)]) w
      { connection with outgoing := postTo connection.outgoing (setup.writeJson response) } where
  session := h.session
  outgoing := h.outgoing.tail trivial (rfl : SendQueue.step _ (.writeResponse _) = some _)
  order := by
    rw [answersOn_append_answer hOrigin, if_pos rfl, List.map_append, ← h.order]
    simp [postTo]

theorem Linked.post_other (h : Linked setup origins answers w connection) {i : Nat}
    {origin : Origin} (hOrigin : origins[i]? = some origin) (hOther : origin ≠ .websocket w)
    (response : Ptree) : Linked setup origins (answers ++ [(i, response)]) w connection where
  session := h.session
  outgoing := h.outgoing
  order := by
    rw [answersOn_append_answer hOrigin, if_neg hOther, List.append_nil, h.order]

theorem Linked.enter (h : Linked setup origins answers w connection)
    (hAnswers : ∀ answer ∈ answers, answer.1 < origins.length) (origin : Origin) :
    Linked setup (origins ++ [origin]) answers w connection where
  session := h.session
  outgoing := h.outgoing
  order := by rw [answersOn_append_origin hAnswers, h.order]

end

end NanoPowServer.Entry
