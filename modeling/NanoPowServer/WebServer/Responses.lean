import NanoPowServer.WebServer.Delivery

/-! What the queue of a session holds: how many responses, and with which
settings they were built. The limit is tested only when a request has been
handled or a response written, and the settings are those of the session, which
every request overwrites. -/
namespace NanoPowServer.WebServer

open Execution HttpSession

/-- A request is handled only while the queue has room for its response and for
those that pool tasks still owe. -/
def leavesDepth (session : HttpSession) : Action → Prop
  | .onRead request _ =>
      request.isUpgrade = false → session.deferred.length + session.items.length < limit
  | _ => True

instance (session : HttpSession) (action : Action) : Decidable (leavesDepth session action) :=
  match action with
  | .onRead _ _ => inferInstanceAs (Decidable (_ = false → _ < _))
  | .pipeline | .onReadError _ | .onWrite | .onWriteError _ | .writeJsonResponse _ _
  | .onTimer => isTrue trivial

/-- Every response that is owed moves into the queue at most once. -/
theorem depth_of_step {handlers : List Pattern} {session next : HttpSession} {action : Action}
    (hDepth : session.deferred.length + session.items.length ≤ limit)
    (allowed : leavesDepth session action) (hStep : Step handlers session action next) :
    next.deferred.length + next.items.length ≤ limit := by
  cases hStep with
  | respond request handling response strand reading noUpgrade =>
      have hRoom := allowed noUpgrade
      simp only [enqueue_deferred, enqueue_items, List.length_append, List.length_singleton]
      omega
  | defer request strand reading noUpgrade =>
      have hRoom := allowed noUpgrade
      simp only [List.length_append, List.length_singleton]
      omega
  | taskResponds request body response kept =>
      have hPos := List.length_pos_of_mem kept
      have hErase := List.length_erase_of_mem kept
      simp only [enqueue_deferred, enqueue_items, List.length_append, List.length_singleton]
      omega
  | wroteFull | wrote =>
      simp only [List.length_drop]
      omega
  | _ => exact hDepth

/-- The queue stays within its limit in every run in which a request is handled
only while the queue has room for all the responses that are owed. -/
theorem depth_le_limit (handlers : List Pattern) {session : HttpSession}
    (run : Reaches (HttpSession.step handlers) leavesDepth initial session) :
    session.items.length ≤ limit := by
  have hDepth : session.deferred.length + session.items.length ≤ limit := by
    apply run.invariant fun session => session.deferred.length + session.items.length ≤ limit
    · exact Nat.zero_le _
    · intro session action next _ ih allowed hStep
      exact depth_of_step ih allowed (step_cases hStep)
  omega

/-- The pool tasks may all respond before the next write completes. -/
theorem all_respond (handlers : List Pattern) (session : HttpSession) :
    ∃ next, Reaches (HttpSession.step handlers) anyAction session next ∧
      next.items.length = session.deferred.length + session.items.length := by
  induction hOwed : session.deferred generalizing session with
  | nil => exact ⟨session, .refl, by simp⟩
  | cons request rest ih =>
      have hStep : session.step handlers (.writeJsonResponse request "") =
          some ({ session with deferred := rest }.writeJsonResponse request "") := by
        simp [HttpSession.step, hOwed]
      obtain ⟨next, hRun, hLength⟩ :=
        ih ({ session with deferred := rest }.writeJsonResponse request "") rfl
      refine ⟨next, (Reaches.tail .refl trivial hStep).trans hRun, ?_⟩
      rw [hLength]
      show rest.length + (session.items ++ [_]).length = _
      simp only [List.length_append, List.length_cons, List.length_nil]
      omega

/-- The condition is exact: handling one request more than the queue has room for
leads to a run in which it overflows. -/
theorem overflows_of_crowded {handlers : List Pattern} {session next : HttpSession}
    {request : Request} {handling : Handling}
    (hStep : session.step handlers (.onRead request handling) = some next)
    (hCrowded : ¬ leavesDepth session (.onRead request handling)) :
    ∃ later, Reaches (HttpSession.step handlers) anyAction next later ∧
      limit < later.items.length := by
  obtain ⟨noUpgrade, hFull⟩ := Classical.not_imp.mp hCrowded
  obtain ⟨later, hRun, hLength⟩ := all_respond handlers next
  refine ⟨later, hRun, ?_⟩
  rw [hLength]
  cases step_cases hStep with
  | upgrade request handling strand reading isUpgrade => simp [isUpgrade] at noUpgrade
  | respond request handling response =>
      simp only [enqueue_deferred, enqueue_items, List.length_append, List.length_singleton]
      omega
  | defer request =>
      simp only [List.length_append, List.length_singleton]
      omega

/-- Nine requests for work are pipelined, and nine tasks respond before the first
response is written. -/
theorem overflows_nine :
    ¬ ∀ (handlers : List Pattern) (session : HttpSession),
      Reaches (HttpSession.step handlers) anyAction initial session →
      session.items.length ≤ limit := by
  intro hAll
  have hNine : ∃ h : (sampleRun (pipelineWork 9 ++
        (List.range 9).map fun request => .writeJsonResponse request "")).isSome = true,
      ((sampleRun (pipelineWork 9 ++
        (List.range 9).map fun request => .writeJsonResponse request "")).get h).items.length = 9 :=
    ⟨by decide, by decide⟩
  obtain ⟨hEnabled, hLength⟩ := hNine
  have hBound := hAll websocketHandlers _ (reaches_get hEnabled (allAllowed_anyAction _ _))
  unfold sampleRun at hLength
  rw [hLength] at hBound
  exact absurd hBound (by decide)

/-- Eight requests for work fill the queue, with no read outstanding. -/
theorem depth_le_limit_eight :
    let actions := (pipelineWork 8).dropLast ++
      (List.range 8).map (fun request => .writeJsonResponse request "") ++ [.pipeline]
    ∃ h : (sampleRun actions).isSome = true,
      ((sampleRun actions).get h).items.length = 8 ∧ ((sampleRun actions).get h).reads = 0 ∧
      ((sampleRun actions).get h).items.length ≤ limit :=
  ⟨by decide, by decide, by decide,
    depth_le_limit websocketHandlers (reaches_get (by decide) (by decide))⟩

/-- What of a request its response has to repeat. -/
def Request.settings (request : Request) : Nat × Bool := (request.version, request.keepAlive)

/-- The request that `handle_request` has seen last. -/
def HttpSession.lastHandled (session : HttpSession) : Option Request :=
  (session.requests.filter fun request => !request.isUpgrade).getLast?

/-- The response was built with the settings of the request that it answers. -/
def Follows (session : HttpSession) (response : Response) : Prop :=
  (session.requests[response.request]?).map Request.settings =
    some (response.version, response.keepAlive)

/-- A pool task responds only while its request has the settings of the one that
was handled last. -/
def keepsSettings (session : HttpSession) : Action → Prop
  | .writeJsonResponse request _ =>
      (session.requests[request]?).map Request.settings =
        session.lastHandled.map Request.settings
  | _ => True

instance (session : HttpSession) (action : Action) : Decidable (keepsSettings session action) :=
  match action with
  | .writeJsonResponse _ _ => inferInstanceAs (Decidable (Option.map _ _ = Option.map _ _))
  | .onRead _ _ | .pipeline | .onReadError _ | .onWrite | .onWriteError _ | .onTimer =>
      isTrue trivial

/-- The settings of the session are those of the last request that was handled,
and every task has kept the number of a request that was handled. -/
structure Settings (session : HttpSession) : Prop where
  last : ∀ request, session.lastHandled = some request →
    request.settings = (session.clientVersion, session.clientKeepalive)
  owed : ∀ number ∈ session.deferred, ∃ request,
    session.requests[number]? = some request ∧ request.isUpgrade = false

theorem lastHandled_append {session next : HttpSession} {request : Request}
    (requests : next.requests = session.requests ++ [request])
    (noUpgrade : request.isUpgrade = false) : next.lastHandled = some request := by
  simp [lastHandled, requests, List.filter_append, noUpgrade]

theorem getElem?_of_append {session next : HttpSession} {later : List Request} {number : Nat}
    {request : Request} (requests : next.requests = session.requests ++ later)
    (h : session.requests[number]? = some request) : next.requests[number]? = some request := by
  obtain ⟨hBound, -⟩ := List.getElem?_eq_some_iff.mp h
  rw [requests, List.getElem?_append_left hBound, h]

theorem Settings.of_handled {session next : HttpSession} (h : Settings session)
    {request : Request} (requests : next.requests = session.requests ++ [request])
    (noUpgrade : request.isUpgrade = false)
    (settings : request.settings = (next.clientVersion, next.clientKeepalive))
    (deferred : ∀ number ∈ next.deferred,
      number ∈ session.deferred ∨ number = session.requests.length) : Settings next := by
  constructor
  · intro last hLast
    rw [lastHandled_append requests noUpgrade] at hLast
    obtain rfl := Option.some.inj hLast
    exact settings
  · intro number hMem
    rcases deferred number hMem with hOld | rfl
    · obtain ⟨old, hOld, hKind⟩ := h.owed number hOld
      exact ⟨old, getElem?_of_append requests hOld, hKind⟩
    · exact ⟨request, by simp [requests], noUpgrade⟩

theorem Settings.of_same {session next : HttpSession} (h : Settings session)
    (requests : next.requests = session.requests)
    (version : next.clientVersion = session.clientVersion)
    (keepalive : next.clientKeepalive = session.clientKeepalive)
    (deferred : ∀ number ∈ next.deferred, number ∈ session.deferred) : Settings next := by
  constructor
  · rw [lastHandled, requests, version, keepalive]
    exact h.last
  · intro number hMem
    rw [requests]
    exact h.owed number (deferred number hMem)

theorem Settings.step {handlers : List Pattern} {session next : HttpSession} {action : Action}
    (h : Settings session) (hStep : Step handlers session action next) : Settings next := by
  cases hStep with
  | upgrade request handling strand reading isUpgrade =>
      constructor
      · simpa [lastHandled, List.filter_append, isUpgrade] using h.last
      · intro number hMem
        obtain ⟨old, hOld, hKind⟩ := h.owed number hMem
        exact ⟨old, getElem?_of_append rfl hOld, hKind⟩
  | respond request handling response strand reading noUpgrade =>
      exact h.of_handled rfl noUpgrade rfl fun _ => .inl
  | defer request strand reading noUpgrade =>
      refine h.of_handled rfl noUpgrade rfl ?_
      intro number hMem
      simpa using hMem
  | taskResponds request body response =>
      refine h.of_same rfl rfl rfl ?_
      intro number hMem
      exact List.mem_of_mem_erase hMem
  | _ => exact h.of_same rfl rfl rfl fun _ => id

theorem Settings.of_reaches {handlers : List Pattern} {guard : HttpSession → Action → Prop}
    {session : HttpSession} (run : Reaches (HttpSession.step handlers) guard initial session) :
    Settings session := by
  apply run.invariant Settings
  · constructor <;> simp [initial, lastHandled]
  · intro session action next _ h _ hStep
    exact h.step (step_cases hStep)

/-- A request that has been read keeps its number. -/
theorem Follows.of_requests {session next : HttpSession} {response : Response}
    (h : Follows session response) (requests : session.requests <+: next.requests) :
    Follows next response := by
  obtain ⟨later, hLater⟩ := requests
  obtain ⟨request, hRequest, hSettings⟩ := Option.map_eq_some_iff.mp h
  exact Option.map_eq_some_iff.mpr ⟨request, getElem?_of_append hLater.symm hRequest, hSettings⟩

/-- The response of a task follows its request exactly if that request has the
settings of the one that was handled last. -/
theorem follows_iff {session : HttpSession} (h : Settings session) {request : Nat} {body : String}
    {response : Response} (kept : request ∈ session.deferred)
    (answers : response.request = request)
    (settings : response.version = session.clientVersion ∧
      response.keepAlive = session.clientKeepalive) :
    Follows session response ↔ keepsSettings session (.writeJsonResponse request body) := by
  obtain ⟨version, keepAlive⟩ := settings
  obtain ⟨own, hOwn, hKind⟩ := h.owed request kept
  have hLast : session.lastHandled ≠ none := by
    intro hNone
    have hAll := List.filter_eq_nil_iff.mp (List.getLast?_eq_none_iff.mp hNone)
    simpa [hKind] using hAll own (List.mem_of_getElem? hOwn)
  obtain ⟨last, hLast⟩ := Option.ne_none_iff_exists'.mp hLast
  unfold Follows keepsSettings
  rw [answers, version, keepAlive, hLast, Option.map_some, h.last last hLast]

/-- In every run in which tasks respond only to requests with the settings of the
one that was handled last, every response repeats the settings of its request. -/
theorem follows_request (handlers : List Pattern) {session : HttpSession}
    (run : Reaches (HttpSession.step handlers) keepsSettings initial session) :
    ∀ response ∈ session.items, Follows session response := by
  apply run.invariant fun session => ∀ response ∈ session.items, Follows session response
  · simp [initial]
  · intro session action next prior ih allowed hStep
    have h := Settings.of_reaches prior
    cases step_cases hStep with
    | upgrade | defer =>
        intro response hMem
        exact (ih response hMem).of_requests (List.prefix_append _ _)
    | respond request handling response strand reading noUpgrade sends answers settings =>
        intro other hMem
        rcases List.mem_append.mp hMem with hOld | hNew
        · exact (ih other hOld).of_requests (List.prefix_append _ _)
        · obtain rfl := List.mem_singleton.mp hNew
          simp [Follows, Request.settings, answers, settings]
    | taskResponds request body response kept answers settings =>
        intro other hMem
        rcases List.mem_append.mp hMem with hOld | hNew
        · exact ih other hOld
        · obtain rfl := List.mem_singleton.mp hNew
          exact (follows_iff h kept answers settings).mpr allowed
    | wroteFull | wrote =>
        intro response hMem
        exact ih response (List.mem_of_mem_drop hMem)
    | _ => exact ih

/-- A request for work, and an older client's one that closes the connection. -/
def mixedRun : List Action :=
  [.onRead workRequest .defer, .pipeline,
    .onRead { target := "/api/v1/work", version := 10, keepAlive := false } .defer, .pipeline,
    .writeJsonResponse 0 ""]

/-- The first response is built with the settings of the second request. -/
theorem follows_other :
    ¬ ∀ (handlers : List Pattern) (session : HttpSession),
      Reaches (HttpSession.step handlers) anyAction initial session →
      ∀ response ∈ session.items, Follows session response := by
  intro hAll
  have hMixed : ∃ h : (sampleRun mixedRun).isSome = true,
      ∃ response ∈ ((sampleRun mixedRun).get h).items,
        (((sampleRun mixedRun).get h).requests[response.request]?).map Request.settings ≠
          some (response.version, response.keepAlive) := ⟨by decide, by decide⟩
  obtain ⟨hEnabled, response, hMem, hOther⟩ := hMixed
  exact hOther (hAll websocketHandlers _
    (reaches_get hEnabled (allAllowed_anyAction mixedRun _)) response hMem)

/-- Two tasks respond to requests with the same settings. -/
theorem follows_request_two :
    let actions := pipelineWork 2 ++ [.writeJsonResponse 1 "", .writeJsonResponse 0 ""]
    ∃ h : (sampleRun actions).isSome = true,
      ((sampleRun actions).get h).items.map Response.request = [1, 0] ∧
      ∀ response ∈ ((sampleRun actions).get h).items, Follows ((sampleRun actions).get h) response :=
  ⟨by decide, by decide, follows_request websocketHandlers (reaches_get (by decide) (by decide))⟩

end NanoPowServer.WebServer
