import NanoPowServer.Entry.Process

/-! What each step of the process can do to its parts. -/
namespace NanoPowServer.Entry

open WebServer
open WorkHandler (Call Environment Phase Ptree QueueReport System)
open Execution PriorityQueue

/-- The handler that is registered for an endpoint. -/
def handlerOf (server : ServerHandlers) : Endpoint → String → List String → Handling
  | .work => server.work
  | .workQueue => server.workQueue
  | .workQueueDelete => server.workQueueDelete
  | .ping => server.ping
  | .stop => server.stop
  | .version => server.version

theorem serverEndpoints_restEndpoints (server : ServerHandlers) :
    serverEndpoints server = some (restEndpoints server) :=
  (Option.some_get _).symm

theorem compiles_restEndpoints (server : ServerHandlers) :
    List.Forall₂ Route.Compiles (serverRoutes server) (restEndpoints server) := by
  apply compiles_of_register
  rw [← serverEndpoints_eq, serverEndpoints_restEndpoints]

theorem handlers_serverRoutes (server : ServerHandlers) :
    (serverRoutes server).map Route.handler = endpoints.map (handlerOf server) := rfl

/-- The endpoint at each index has the handler that was registered for it. -/
theorem getElem?_restEndpoints {server : ServerHandlers} {i : Nat} {handler : RestEndpoint}
    (h : (restEndpoints server)[i]? = some handler) :
    ∃ endpoint, endpoints[i]? = some endpoint ∧ handler.handler = handlerOf server endpoint := by
  have hCompiles := compiles_restEndpoints server
  obtain ⟨hBound, hHandler⟩ := List.getElem?_eq_some_iff.mp h
  have hRoute : i < (serverRoutes server).length := hCompiles.length_eq ▸ hBound
  obtain ⟨compiled, -, hSame⟩ := hCompiles.get hRoute hBound
  have hHandlers := congrArg (·[i]?) (handlers_serverRoutes server)
  rw [List.getElem?_map, List.getElem?_map, List.getElem?_eq_getElem hRoute] at hHandlers
  obtain ⟨endpoint, hEndpoint, hOf⟩ := Option.map_eq_some_iff.mp hHandlers.symm
  refine ⟨endpoint, hEndpoint, ?_⟩
  rw [hOf, ← hHandler]
  simp only [List.get_eq_getElem] at hSame
  rw [hSame]

/-- An endpoint of the server matches the path that it was registered for and nothing
else. -/
theorem path_eq_of_compiles {server : ServerHandlers} {route : Route} {endpoint : RestEndpoint}
    (hMem : route ∈ serverRoutes server) (h : route.Compiles endpoint) (target : String) :
    endpoint.path target = (route.path == target) := by
  obtain ⟨hPlain, hLiteral⟩ := paths_serverRoutes server route hMem
  rw [Bool.eq_iff_iff, h.path_iff hPlain, exists_instance_iff hLiteral, String.toList_inj, beq_iff_eq]

theorem restEndpoint_server (server : ServerHandlers) (verb : Verb) (target : String) :
    restEndpoint (restEndpoints server) verb target =
      (serverRoutes server).findIdx? fun route => route.path == target && route.verb == verb := by
  symm
  apply List.findIdx?_of_forall₂ (compiles_restEndpoints server)
  intro route hMem endpoint hCompiles
  rw [path_eq_of_compiles hMem hCompiles]
  obtain ⟨compiled, -, rfl⟩ := hCompiles
  rfl

theorem websocketEndpoint_server (target : String) :
    websocketEndpoint patterns target = if urlPath target = "/websocket" then some 0 else none := by
  have hPatterns : registerWebsocket websocketPaths = some patterns := (Option.some_get _).symm
  rw [registerWebsocket, websocketPaths, List.foldlM_cons] at hPatterns
  obtain ⟨added, hAdded, hRest⟩ := Option.bind_eq_some_iff.mp hPatterns
  obtain rfl := Option.some.inj hRest
  obtain ⟨compiled, hCompiled, hAdded⟩ := Option.map_eq_some_iff.mp hAdded
  have hPath : compiled.regex.fullMatch (urlPath target).toList = true ↔
      urlPath target = "/websocket" := by
    rw [(means_of_isPlain (by decide) hCompiled _).1, exists_instance_iff (by decide),
      String.toList_inj, eq_comm]
  rw [← hAdded, websocketEndpoint, List.nil_append, List.findIdx?_singleton]
  exact if_congr hPath rfl rfl

/-- No path of the table is illegal as a target. -/
theorem findIdx?_serverRoutes_of_isIllegal (server : ServerHandlers) (verb : Verb) {target : String}
    (h : isIllegal target = true) :
    ((serverRoutes server).findIdx? fun route => route.path == target && route.verb == verb) =
      none := by
  have hLegal : ∀ path ∈ (serverRoutes server).map Route.path, isIllegal path = false := by
    simp only [serverRoutes, List.map_cons, List.map_nil]
    decide
  rw [List.findIdx?_eq_none_iff]
  intro route hMem
  rw [Bool.and_eq_false_iff, beq_eq_false_iff_ne]
  left
  rintro rfl
  rw [hLegal _ (List.mem_map_of_mem hMem)] at h
  cases h

/-- The endpoint that a request is passed to is the one that is registered for its verb
and its target, letter by letter, and the WebSocket endpoint if it is an upgrade of that
path. -/
theorem dispatched_server (server : ServerHandlers) (conf : WebConfig) (docRoot : String)
    (isLoopback : Bool) (files : Nat → String → OpenResult) (isUpgrade : Bool) (verb : Verb)
    (target body : String) :
    dispatched conf (restEndpoints server) patterns docRoot isLoopback files isUpgrade verb target
        body =
      if isUpgrade then if urlPath target = "/websocket" then some 0 else none
      else (serverRoutes server).findIdx? fun route => route.path == target && route.verb == verb := by
  cases isUpgrade with
  | true => rw [dispatched_upgrade, websocketEndpoint_server, if_pos rfl]
  | false =>
      rw [if_neg (by decide)]
      cases hIllegal : isIllegal target with
      | false => rw [dispatched_request hIllegal, restEndpoint_server]
      | true =>
          rw [findIdx?_serverRoutes_of_isIllegal server verb hIllegal]
          obtain ⟨disposal, hDisposals, hFits, -⟩ := @disposals_request conf (restEndpoints server)
            patterns docRoot isLoopback files verb target body
          rw [dispatched, hDisposals]
          cases disposal with
          | responded content => rfl
          | invoked endpoint passed params =>
              obtain ⟨-, hLegal, -⟩ := hFits
              rw [hIllegal] at hLegal
              cases hLegal
          | tookOver endpoint => exact absurd hFits.1 (by decide)

variable {Queue : Type} [PriorityQueue Queue Job Job.comparator] {setup : Setup}
  {p next : Process Queue}

/-- Work that is posted to its path is submitted, and the session is kept. -/
theorem step_read_work {k : Nat} {request : Request} {body : String}
    {files : Nat → String → OpenResult} {now later : Nat} {connection : Connection}
    {session : HttpSession} (running : p.terminated = false)
    (found : p.connections[k]? = some connection) (noUpgrade : request.isUpgrade = false)
    (target : request.target = "/api/v1/work")
    (stepped : connection.session.step patterns (.onRead request .defer) = some session) :
    p.step setup (.read k request .post body files now later) =
      some ((p.setSession k session).submit setup (.http k connection.session.requests.length)
        body) := by
  have hEndpoint : restEndpoint (restEndpoints (p.endpointHandlers setup)) .post request.target =
      some 1 := by
    rw [restEndpoint_server, target]
    rfl
  obtain ⟨disposal, hDisposals, hFits, -⟩ := @disposals_request setup.webConfig
    (restEndpoints (p.endpointHandlers setup)) patterns setup.env.config.admin.docRoot
    connection.isLoopback files .post request.target body
  have hLegal : isIllegal request.target = false := by
    rw [target]
    decide
  cases disposal with
  | responded content => simp [Disposal.Fits, hLegal, hEndpoint] at hFits
  | tookOver endpoint => exact absurd hFits.1 (by decide)
  | invoked index passed params =>
      obtain ⟨-, -, hIndex, handler, hHandler, rfl, -⟩ := hFits
      obtain rfl := Option.some.inj (hEndpoint.symm.trans hIndex)
      obtain ⟨endpoint, hWork, hOf⟩ := getElem?_restEndpoints hHandler
      obtain rfl := Option.some.inj hWork
      unfold Process.step
      rw [running, if_neg (by decide)]
      show p.read setup k request .post passed files now later = _
      unfold Process.read
      rw [found]
      dsimp only [Option.bind_eq_bind, Option.bind_some]
      rw [noUpgrade, hDisposals, List.head?_cons, Process.handlingOf, hHandler, Option.map_some, hOf]
      show (connection.session.step patterns (.onRead request .defer)).bind _ = _
      rw [stepped]
      rfl

/-- An upgrade of the path of the WebSocket endpoint opens a session. -/
theorem step_read_websocket {k : Nat} {request : Request} {verb : Verb} {body : String}
    {files : Nat → String → OpenResult} {now later : Nat} {connection : Connection}
    {session : HttpSession} (running : p.terminated = false)
    (found : p.connections[k]? = some connection) (isUpgrade : request.isUpgrade = true)
    (target : urlPath request.target = "/websocket")
    (stepped : connection.session.step patterns (.onRead request .defer) = some session) :
    p.step setup (.read k request verb body files now later) =
      some { p.setSession k session with websockets :=
        p.websockets ++ [⟨WebsocketSession.accepted now later, SendQueue.initial⟩] } := by
  unfold Process.step
  rw [running, if_neg (by decide)]
  show p.read setup k request verb body files now later = _
  unfold Process.read
  rw [found]
  dsimp only [Option.bind_eq_bind, Option.bind_some]
  rw [isUpgrade, disposals_upgrade, websocketEndpoint_server, if_pos target]
  show (connection.session.step patterns (.onRead request .defer)).bind _ = _
  rw [stepped]
  rfl

/-- One step of the process. What a request that is read becomes is one of three: an
upgrade is passed on or dropped, work is submitted and its session kept, and anything else
is answered before the handler returns. -/
inductive Step (setup : Setup) (p : Process Queue) : Action → Process Queue → Prop where
  | accept (isLoopback : Bool) :
      Step setup p (.accept isLoopback)
        { p with connections := p.connections ++ [⟨isLoopback, HttpSession.initial⟩] }
  | upgrade {k : Nat} {request : Request} {verb : Verb} {body : String}
      {files : Nat → String → OpenResult} {now later : Nat} {connection : Connection}
      {session : HttpSession} (found : p.connections[k]? = some connection)
      (isUpgrade : request.isUpgrade = true)
      (stepped : connection.session.step patterns (.onRead request .defer) = some session)
      (opened : List WebsocketConnection)
      (accepted : ∀ socket ∈ opened,
        socket = ⟨WebsocketSession.accepted now later, SendQueue.initial⟩) :
      Step setup p (.read k request verb body files now later)
        { p.setSession k session with websockets := p.websockets ++ opened }
  | answered {k : Nat} {request : Request} {verb : Verb} {body : String}
      {files : Nat → String → OpenResult} {now later : Nat} {connection : Connection}
      {session : HttpSession} {handling : Handling} (terminated : Bool)
      (found : p.connections[k]? = some connection) (noUpgrade : request.isUpgrade = false)
      (answers : handling ≠ .defer)
      (stepped : connection.session.step patterns (.onRead request handling) = some session)
      (handler : System Queue)
      (cleared : handler = p.handler ∨ handler = p.handler.clear setup.env) :
      Step setup p (.read k request verb body files now later)
        { p.setSession k session with handler, terminated }
  | submitted {k : Nat} {request : Request} {verb : Verb} {body : String}
      {files : Nat → String → OpenResult} {now later : Nat} {connection : Connection}
      {session : HttpSession} (found : p.connections[k]? = some connection)
      (noUpgrade : request.isUpgrade = false)
      (stepped : connection.session.step patterns (.onRead request .defer) = some session) :
      Step setup p (.read k request verb body files now later)
        ((p.setSession k session).submit setup
          (.http k connection.session.requests.length) body)
  | http {k : Nat} {action : WebServer.Action} {connection : Connection} {session : HttpSession}
      (own : ownHttp action = true) (found : p.connections[k]? = some connection)
      (stepped : connection.session.step patterns action = some session) :
      Step setup p (.http k action) (p.setSession k session)
  | receive {w : Nat} {message : String} {now : Nat} {connection : WebsocketConnection}
      {session : WebsocketSession} (found : p.websockets[w]? = some connection)
      (stepped : connection.session.step (.onRead .success now) = some session) :
      Step setup p (.receive w message now)
        ({ p with websockets := p.websockets.set w { connection with session } }.submit setup
          (.websocket w) message)
  | websocket {w : Nat} {action : WebsocketSession.Action} {connection : WebsocketConnection}
      {session : WebsocketSession} (found : p.websockets[w]? = some connection)
      (stepped : connection.session.step action = some session) :
      Step setup p (.websocket w action)
        { p with websockets := p.websockets.set w { connection with session } }
  | outgoing {w : Nat} {action : SendQueue.Action} {connection : WebsocketConnection}
      {outgoing : SendQueue} (own : ownOutgoing action = true)
      (found : p.websockets[w]? = some connection)
      (stepped : connection.outgoing.step action = some outgoing) :
      Step setup p (.outgoing w action)
        { p with websockets := p.websockets.set w { connection with outgoing } }
  | proceed {i now : Nat} {handled : Process Queue}
      (handles : p.handle setup i (.proceed i now) = some handled) :
      Step setup p (.proceed i now) handled
  | raise {i : Nat} {what : String} {handled : Process Queue}
      (handles : p.handle setup i (.raise i what) = some handled) :
      Step setup p (.raise i what) handled

/-- A request that has been read, by what it is disposed of as. -/
theorem step_read {k : Nat} {request : Request} {verb : Verb} {body : String}
    {files : Nat → String → OpenResult} {now later : Nat}
    (h : p.read setup k request verb body files now later = some next) :
    Step setup p (.read k request verb body files now later) next := by
  obtain ⟨connection, found, h⟩ := Option.bind_eq_some_iff.mp h
  obtain ⟨handling, hHandling, h⟩ := Option.bind_eq_some_iff.mp h
  obtain ⟨session, stepped, h⟩ := Option.bind_eq_some_iff.mp h
  obtain rfl := Option.some.inj h
  cases hUpgrade : request.isUpgrade with
  | true =>
      rw [hUpgrade] at hHandling
      rw [disposals_upgrade] at hHandling ⊢
      cases hFirst : websocketEndpoint patterns request.target with
      | none =>
          simp only [hFirst, Option.map_none, Option.toList_none, List.head?_nil,
            Process.handlingOf, Option.some.injEq] at hHandling
          subst hHandling
          have hStep : Step setup p (.read k request verb body files now later) _ :=
            .upgrade found hUpgrade stepped [] (by simp)
          rw [List.append_nil] at hStep
          exact hStep
      | some endpoint =>
          simp only [hFirst, Option.map_some, Option.toList_some, List.head?_cons,
            Process.handlingOf, Option.some.injEq] at hHandling
          subst hHandling
          exact Step.upgrade found hUpgrade stepped _ (by simp)
  | false =>
      obtain ⟨disposal, hDisposals, hFits, -⟩ := @disposals_request setup.webConfig
        (restEndpoints (p.endpointHandlers setup)) patterns setup.env.config.admin.docRoot
        connection.isLoopback files verb request.target body
      rw [hUpgrade] at hHandling
      rw [hDisposals, List.head?_cons] at hHandling ⊢
      cases disposal with
      | responded content =>
          obtain rfl := Option.some.inj hHandling
          exact Step.answered p.terminated found hUpgrade (by simp) stepped p.handler (.inl rfl)
      | tookOver endpoint => exact absurd hFits.1 (by decide)
      | invoked index passed params =>
          obtain ⟨handler, hHandler, rfl⟩ := Option.map_eq_some_iff.mp hHandling
          obtain ⟨-, -, -, other, -, rfl, -⟩ := hFits
          obtain ⟨endpoint, hEndpoint, hOf⟩ := getElem?_restEndpoints hHandler
          rw [hOf] at stepped
          unfold Process.dispose
          dsimp only
          rw [hEndpoint]
          cases endpoint with
          | work => exact Step.submitted found hUpgrade stepped
          | workQueue | ping | version =>
              exact Step.answered p.terminated found hUpgrade (by simp [handlerOf,
                Process.endpointHandlers]) stepped p.handler (.inl rfl)
          | workQueueDelete =>
              exact Step.answered p.terminated found hUpgrade (by simp [handlerOf,
                Process.endpointHandlers]) stepped (p.handler.clear setup.env) (.inr rfl)
          | stop =>
              exact Step.answered _ found hUpgrade (by simp [handlerOf,
                Process.endpointHandlers]) stepped p.handler (.inl rfl)

theorem step_cases {action : Action} (h : p.step setup action = some next) :
    Step setup p action next := by
  unfold Process.step at h
  split at h
  · cases h
  · cases action with
    | accept isLoopback =>
        obtain rfl := Option.some.inj h
        exact .accept isLoopback
    | read k request verb body files now later => exact step_read h
    | http k action =>
        simp only [Option.ite_none_right_eq_some, Bool.and_eq_true] at h
        obtain ⟨⟨own, -⟩, h⟩ := h
        obtain ⟨connection, found, h⟩ := Option.bind_eq_some_iff.mp h
        obtain ⟨session, stepped, h⟩ := Option.bind_eq_some_iff.mp h
        obtain rfl := Option.some.inj h
        exact .http own found stepped
    | receive w message now =>
        simp only [Option.ite_none_left_eq_some] at h
        obtain ⟨-, h⟩ := h
        obtain ⟨connection, found, h⟩ := Option.bind_eq_some_iff.mp h
        obtain ⟨session, stepped, h⟩ := Option.bind_eq_some_iff.mp h
        obtain rfl := Option.some.inj h
        exact .receive found stepped
    | websocket w action =>
        simp only [Option.ite_none_right_eq_some] at h
        obtain ⟨-, h⟩ := h
        obtain ⟨connection, found, h⟩ := Option.bind_eq_some_iff.mp h
        obtain ⟨session, stepped, h⟩ := Option.bind_eq_some_iff.mp h
        obtain rfl := Option.some.inj h
        exact .websocket found stepped
    | outgoing w action =>
        simp only [Option.ite_none_right_eq_some, Bool.and_eq_true] at h
        obtain ⟨⟨own, -⟩, h⟩ := h
        obtain ⟨connection, found, h⟩ := Option.bind_eq_some_iff.mp h
        obtain ⟨outgoing, stepped, h⟩ := Option.bind_eq_some_iff.mp h
        obtain rfl := Option.some.inj h
        exact .outgoing own found stepped
    | proceed i now => exact .proceed h
    | raise i what => exact .raise h

end NanoPowServer.Entry
