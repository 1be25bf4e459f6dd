import NanoPowServer.WebServer.Delivery

/-! HTTP pipelining. The queue keeps the order in which responses are put on it,
and this is the order of the requests only if no handler and no pool task
overtakes the task of an earlier request. -/
namespace NanoPowServer.WebServer

open Execution HttpSession

/-- The k-th answer is the answer to the k-th request. -/
def InOrder (answered : List Nat) : Prop :=
  ∀ (k j : Nat), answered[k]? = some j → j = k

/-- As long as a response that joins the queue is written: a request is answered
by its handler only if no pool task has an earlier one, pool tasks respond in the
order of their requests, and no other request follows an upgrade. -/
def respondsInOrder (session : HttpSession) : Action → Prop
  | .onRead request handling =>
      session.isOpen = true → request.isUpgrade = false →
        (∀ earlier ∈ session.requests, earlier.isUpgrade = false) ∧
        match handling with
        | .defer => True
        | .send _ | .respond _ => session.deferred = []
  | .writeJsonResponse request _ =>
      session.isOpen = true → session.deferred.head? = some request
  | _ => True

instance (session : HttpSession) (action : Action) :
    Decidable (respondsInOrder session action) := by
  unfold respondsInOrder
  split
  · split <;> infer_instance
  · infer_instance
  · infer_instance

/-- The number of requests that are to have a response. -/
def HttpSession.answerable (session : HttpSession) : Nat :=
  session.requests.countP fun request => !request.isUpgrade

/-- What has been written and what is yet to be written is in order. As long as a
response that joins the queue is written, the queue has taken the responses of
the first requests and the pool tasks have the remaining ones, in order. -/
structure PipelineInv (session : HttpSession) : Prop where
  delivered : InOrder (session.written ++ session.due.map Response.request)
  remaining : session.isOpen = true →
    session.enqueued ++ session.deferred = List.range session.answerable

theorem InOrder.of_initial {first answered : List Nat} (h : InOrder answered)
    (initial : first <+: answered) : InOrder first := by
  obtain ⟨rest, rfl⟩ := initial
  intro k j hFound
  apply h k j
  rw [List.getElem?_append_left (List.getElem?_eq_some_iff.mp hFound).1]
  exact hFound

theorem inOrder_range (count : Nat) : InOrder (List.range count) := by
  intro k j hFound
  obtain ⟨hBound, rfl⟩ := List.getElem?_eq_some_iff.mp hFound
  simp

variable {session next : HttpSession}

/-- Until an upgrade is read, every request is to have a response. -/
theorem answerable_eq (noUpgrade : ∀ earlier ∈ session.requests, earlier.isUpgrade = false) :
    session.answerable = session.requests.length :=
  List.countP_eq_length.mpr fun earlier hEarlier => by simp [noUpgrade earlier hEarlier]

/-- The numbers of the requests to be answered, with one more request. -/
theorem range_answerable {request : Request} (requests : next.requests = session.requests ++ [request])
    (noUpgrade : request.isUpgrade = false)
    (earlier : ∀ earlier ∈ session.requests, earlier.isUpgrade = false) :
    List.range next.answerable = List.range session.answerable ++ [session.requests.length] := by
  have hCount : next.answerable = session.requests.length + 1 := by
    rw [answerable, requests, List.countP_append, ← answerable, answerable_eq earlier]
    simp [noUpgrade]
  rw [hCount, List.range_succ, answerable_eq earlier]

/-- The writing side of the queue is as before. -/
theorem PipelineInv.of_same (h : PipelineInv session) (items : next.items = session.items)
    (writing : next.writing = session.writing) (written : next.written = session.written)
    (remaining : session.isOpen = true →
      next.enqueued ++ next.deferred = List.range next.answerable) : PipelineInv next := by
  have hKeep : next.keepAlives = session.keepAlives := by
    rw [keepAlives, keepAlives, items, writing]
  constructor
  · rw [due, hKeep, items, writing, written]
    exact h.delivered
  · rw [isOpen, hKeep, items]
    exact remaining

/-- A response joins the queue. It is the next one in order, or it is never
written. -/
theorem PipelineInv.enqueue (hDelivery : Delivery session) (response : Response)
    (delivered : InOrder (session.written ++ session.due.map Response.request))
    (remaining : session.isOpen = true →
      session.enqueued ++ response.request :: session.deferred = List.range session.answerable) :
    PipelineInv (session.enqueue response) := by
  have hKeep := hDelivery.keepAlives_enqueue response
  by_cases hOpen : session.isOpen = true
  · have hRange : (session.enqueue response).enqueued ++ session.deferred =
        List.range session.answerable := by
      simpa using remaining hOpen
    constructor
    · have hInOrder := (inOrder_range session.answerable).of_initial ⟨_, hRange⟩
      exact hInOrder.of_initial (hDelivery.enqueue response).due_initial
    · exact fun _ => hRange
  · have hLess : session.keepAlives < session.items.length := keepAlives_lt hOpen
    have hSome : session.items ≠ [] := by
      intro hEmpty
      simp [hEmpty] at hLess
    rw [if_neg (by simp [hOpen])] at hKeep
    constructor
    · have hDue : (session.enqueue response).due = session.due := by
        rw [due, due, hKeep, enqueue_writing, if_neg hSome, enqueue_items,
          List.take_append_of_le_length hLess]
      rw [hDue]
      exact delivered
    · intro hNext
      rw [isOpen, hKeep] at hNext
      simp at hNext
      omega

/-- A message has been written and no other is. -/
theorem PipelineInv.of_stopped (h : PipelineInv session) (kept : next.items ≠ [])
    (writing : next.writing = [])
    (written : next.written <+: session.written ++ session.due.map Response.request) :
    PipelineInv next := by
  constructor
  · have hDue : next.due = [] := by simp [due, writing]
    rw [hDue, List.map_nil, List.append_nil]
    exact h.delivered.of_initial written
  · have hLength : next.items.length ≠ 0 := by simpa using kept
    intro hOpen
    simp [isOpen, keepAlives, writing, hLength.symm] at hOpen

/-- A message has been written and the next one is begun. -/
theorem PipelineInv.of_wrote (h : PipelineInv session) (hDelivery : Delivery session)
    {response : Response} {rest : List Response} (writing : session.writing = response :: rest)
    (keep : response.needEof = false) (items : next.items = session.items.drop 1)
    (begun : next.writing = next.items.take 1)
    (written : next.written = session.written ++ [response.request])
    (remaining : next.enqueued ++ next.deferred = session.enqueued ++ session.deferred)
    (answerable : next.answerable = session.answerable) : PipelineInv next := by
  have hKeep := hDelivery.keepAlives_wrote writing keep items begun
  obtain ⟨later, hItems, -, -⟩ := hDelivery.items_eq writing
  have hLater : next.items = later := by simp [items, hItems]
  constructor
  · have hDue : session.due = response :: next.due := by
      rw [due, if_neg (by simp [writing]), hKeep, hItems, due, begun, hLater]
      cases later <;> simp
    have hDelivered := h.delivered
    rw [hDue] at hDelivered
    simpa [written] using hDelivered
  · intro hOpen
    rw [remaining, answerable]
    apply h.remaining
    rw [isOpen, hLater] at hOpen
    rw [isOpen, hKeep, hItems]
    simpa using hOpen

theorem PipelineInv.step {handlers : List Pattern} {action : Action} (h : PipelineInv session)
    (hDelivery : Delivery session) (allowed : respondsInOrder session action)
    (hStep : Step handlers session action next) : PipelineInv next := by
  cases hStep with
  | upgrade request handling strand reading isUpgrade =>
      refine h.of_same rfl rfl rfl fun hOpen => ?_
      rw [h.remaining hOpen]
      simp [answerable, isUpgrade]
  | respond request handling response strand reading noUpgrade sends answers =>
      refine PipelineInv.enqueue ?_ response h.delivered fun hOpen => ?_
      · exact hDelivery.of_same rfl rfl rfl rfl id
      · obtain ⟨hEarlier, hDeferred⟩ := allowed hOpen noUpgrade
        have hNone : session.deferred = [] := by
          rcases sends with ⟨body, rfl⟩ | ⟨body, rfl⟩ <;> exact hDeferred
        have hRemaining := h.remaining hOpen
        rw [hNone, List.append_nil] at hRemaining
        rw [range_answerable rfl noUpgrade hEarlier, ← hRemaining, answers, hNone]
  | defer request strand reading noUpgrade =>
      refine h.of_same rfl rfl rfl fun hOpen => ?_
      rw [range_answerable rfl noUpgrade (allowed hOpen noUpgrade).1, ← h.remaining hOpen,
        List.append_assoc]
  | taskResponds request body response kept answers =>
      refine PipelineInv.enqueue ?_ response h.delivered fun hOpen => ?_
      · exact hDelivery.of_same rfl rfl rfl rfl id
      · obtain ⟨rest, hFirst⟩ := List.head?_eq_some_iff.mp (allowed hOpen)
        have hRemaining := h.remaining hOpen
        rw [hFirst] at hRemaining
        show session.enqueued ++ response.request :: session.deferred.erase request =
          List.range session.answerable
        rw [hFirst, List.erase_cons_head, answers, hRemaining]
  | wroteLast response rest strand writing =>
      obtain ⟨later, items, rfl, -⟩ := hDelivery.items_eq writing
      refine h.of_stopped (by simp [items]) rfl ?_
      simp [due, writing, items]
  | wroteFull response rest strand writing keep | wrote response rest strand writing keep =>
      obtain ⟨later, items, rfl, -⟩ := hDelivery.items_eq writing
      exact h.of_wrote hDelivery writing keep rfl rfl rfl rfl rfl
  | writeAborted response rest strand writing | writeFailed response rest ec strand writing =>
      obtain ⟨later, items, rfl, -⟩ := hDelivery.items_eq writing
      exact h.of_stopped (by simp [items]) rfl (List.prefix_append _ _)
  | pause | pipeline | readAborted | readEnded | readFailed | close =>
      exact h.of_same rfl rfl rfl h.remaining

/-- Responses are written in the order of their requests, in every run in which
they are put on the queue in that order. -/
theorem written_in_order (handlers : List Pattern) (session : HttpSession)
    (run : Reaches (HttpSession.step handlers) respondsInOrder initial session) :
    InOrder session.written := by
  have hInv : PipelineInv session := by
    refine run.invariant PipelineInv ?_ ?_
    · exact ⟨by simp [InOrder, initial, due], fun _ => rfl⟩
    · intro session action next prior h allowed hStep
      exact h.step (.of_reaches prior) allowed (step_cases hStep)
  exact hInv.delivered.of_initial (List.prefix_append _ _)

/-- The first request is for work and has its task; the second one is answered by
its handler. -/
def overtakingHandler : List Action :=
  [.onRead workRequest .defer, .pipeline, .onRead pingRequest (.respond "success"), .pipeline,
    .onWrite]

/-- The response to the second request is written first. -/
theorem written_out_of_order :
    ¬ ∀ (handlers : List Pattern) (session : HttpSession),
      Reaches (HttpSession.step handlers) anyAction initial session → InOrder session.written := by
  intro hAll
  have hSecond : ∃ h : (sampleRun overtakingHandler).isSome = true,
      ((sampleRun overtakingHandler).get h).written = [1] := ⟨by decide, by decide⟩
  obtain ⟨hEnabled, hWritten⟩ := hSecond
  have hRun := reaches_get hEnabled (allAllowed_anyAction overtakingHandler _)
  have hInOrder : InOrder ((sampleRun overtakingHandler).get hEnabled).written :=
    hAll websocketHandlers _ hRun
  rw [hWritten] at hInOrder
  exact absurd (hInOrder 0 1 rfl) (by decide)

/-- Two tasks respond in the order of their requests, and a handler after them. -/
theorem written_in_order_three :
    let actions := pipelineWork 2 ++
      [.writeJsonResponse 0 "", .writeJsonResponse 1 "", .onRead pingRequest (.respond "success"),
        .pipeline, .onWrite, .onWrite, .onWrite]
    ∃ h : (sampleRun actions).isSome = true,
      ((sampleRun actions).get h).written = [0, 1, 2] ∧
      InOrder ((sampleRun actions).get h).written :=
  ⟨by decide, by decide,
    written_in_order websocketHandlers _ (reaches_get (by decide) (by decide))⟩

end NanoPowServer.WebServer
