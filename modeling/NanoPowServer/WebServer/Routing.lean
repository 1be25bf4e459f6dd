import NanoPowServer.WebServer.Dispatch
import NanoPowServer.WebServer.Endpoints

/-! Which endpoint a request is dispatched to. The WebSocket endpoints are matched against
the path of the target, as the url parser finds it, and the REST endpoints against the
target as it was received. -/
namespace NanoPowServer.WebServer

open LexicalPath Regex

/-- The endpoint that is given the request. -/
def Disposal.endpoint : Disposal → Option Nat
  | .responded _ => none
  | .invoked endpoint _ _ => some endpoint
  | .tookOver endpoint => some endpoint

/-- The endpoint that a request is dispatched to. -/
def dispatched (conf : WebConfig) (handlers : List RestEndpoint) (websocketHandlers : List Pattern)
    (docRoot : String) (isLoopback : Bool) (files : Nat → String → OpenResult)
    (isUpgrade : Bool) (verb : Verb) (target body : String) : Option Nat :=
  (disposals conf handlers websocketHandlers docRoot isLoopback files isUpgrade verb target
    body).head?.bind Disposal.endpoint

/-- A REST endpoint that is to be registered. -/
structure Route where
  verb : Verb
  path : String
  handler : String → List String → Handling

/-- Register the routes in their order. -/
def register (routes : List Route) : Option (List RestEndpoint) :=
  routes.foldlM (fun handlers route => addEndpoint handlers route.verb route.path route.handler) []

def registerWebsocket (paths : List String) : Option (List Pattern) :=
  paths.foldlM addWebsocketEndpoint []

/-- The handlers that the server registers. -/
structure ServerHandlers where
  work : String → List String → Handling
  workQueue : String → List String → Handling
  workQueueDelete : String → List String → Handling
  ping : String → List String → Handling
  stop : String → List String → Handling
  version : String → List String → Handling

/-- The REST endpoints of the server. Clients should use `/api/v1/work`, but POST requests
to root are supported for compatibility with the legacy work server. -/
def serverEndpoints (server : ServerHandlers) : Option (List RestEndpoint) := do
  let handlers ← addPostEndpoint [] "/" server.work
  let handlers ← addPostEndpoint handlers "/api/v1/work" server.work
  let handlers ← addGetEndpoint handlers "/api/v1/work/queue" server.workQueue
  let handlers ← addDeleteEndpoint handlers "/api/v1/work/queue" server.workQueueDelete
  let handlers ← addGetEndpoint handlers "/api/v1/ping" server.ping
  let handlers ← addGetEndpoint handlers "/api/v1/stop" server.stop
  addGetEndpoint handlers "/api/v1/version" server.version

def serverRoutes (server : ServerHandlers) : List Route := [
  { verb := .post, path := "/", handler := server.work },
  { verb := .post, path := "/api/v1/work", handler := server.work },
  { verb := .get, path := "/api/v1/work/queue", handler := server.workQueue },
  { verb := .delete, path := "/api/v1/work/queue", handler := server.workQueueDelete },
  { verb := .get, path := "/api/v1/ping", handler := server.ping },
  { verb := .get, path := "/api/v1/stop", handler := server.stop },
  { verb := .get, path := "/api/v1/version", handler := server.version }]

/-- The endpoint that registering the route adds. -/
def Route.Compiles (route : Route) (endpoint : RestEndpoint) : Prop :=
  ∃ compiled, compilePath route.path = some compiled ∧
    endpoint = {
      verb := route.verb
      handler := route.handler
      path := fun target => fullMatch compiled.regex target.toList
      captures := params compiled }

/-- The path with a query string behind it. -/
def withQuery (path query : String) : String := path ++ "?" ++ query

theorem toList_withQuery (path query : String) :
    (withQuery path query).toList = path.toList ++ '?' :: query.toList := by
  simp [withQuery, String.toList_append]

/-- The url parser finds the path that the query was put behind. -/
theorem urlPath_withQuery {path : String} (hAbsolute : path.toList.head? = some '/')
    (hPath : '?' ∉ path.toList) (query : String) :
    urlPath (withQuery path query) = urlPath path := by
  obtain ⟨back, hBack⟩ := List.head?_eq_some_iff.mp hAbsolute
  have hTaken : ∀ c ∈ path.toList, decide (c ≠ '?') = true := by
    intro c hMem
    rw [decide_eq_true_iff]
    rintro rfl
    exact hPath hMem
  have hStart : ∀ rest, (path.toList ++ rest).dropWhile (· ≠ '/') = path.toList ++ rest := by
    intro rest
    rw [hBack]
    rfl
  have hWhole := hStart []
  rw [List.append_nil] at hWhole
  rw [urlPath, urlPath, toList_withQuery, hStart, hWhole, List.takeWhile_append_of_pos hTaken,
    List.takeWhile_eq_self_iff.mpr hTaken]
  simp

theorem isIllegal_of_path {path : String} (hAbsolute : path.toList.head? = some '/')
    (hDots : ¬ ['.', '.'] <:+: path.toList) : isIllegal path = false := by
  have hEmpty : path ≠ "" := by
    rintro rfl
    cases hAbsolute
  simp [isIllegal, hEmpty, hAbsolute, hDots]

/-- No two dots come to stand side by side. -/
theorem isIllegal_withQuery {path query : String} (hAbsolute : path.toList.head? = some '/')
    (hPath : ¬ ['.', '.'] <:+: path.toList) (hQuery : ¬ ['.', '.'] <:+: query.toList) :
    isIllegal (withQuery path query) = false := by
  apply isIllegal_of_path
  · rw [toList_withQuery, List.head?_append, hAbsolute, Option.some_or]
  · intro hInfix
    have hChain : (path.toList ++ '?' :: query.toList).IsChain
        fun c next => ¬ (c = '.' ∧ next = '.') := by
      have hFront := isChain_of_not_infix hPath
      refine hFront.append ?_ ?_
      · rw [List.isChain_cons]
        exact ⟨fun next _ hBoth => absurd hBoth.1 (by decide), isChain_of_not_infix hQuery⟩
      · intro c _ next hNext hBoth
        obtain rfl : '?' = next := by simpa using hNext
        exact absurd hBoth.2 (by decide)
    rw [toList_withQuery] at hInfix
    have hPair := hChain.infix hInfix
    simp at hPair

section

variable {conf : WebConfig} {handlers : List RestEndpoint} {websocketHandlers : List Pattern}
  {docRoot : String} {isLoopback : Bool} {files : Nat → String → OpenResult} {verb : Verb}
  {target body path query : String}

theorem dispatched_upgrade :
    dispatched conf handlers websocketHandlers docRoot isLoopback files true verb target body =
      websocketEndpoint websocketHandlers target := by
  rw [dispatched, disposals_upgrade]
  cases websocketEndpoint websocketHandlers target <;> rfl

theorem dispatched_request (hLegal : isIllegal target = false) :
    dispatched conf handlers websocketHandlers docRoot isLoopback files false verb target body =
      restEndpoint handlers verb target := by
  obtain ⟨disposal, hDisposals, hFits, -⟩ := disposals_request
  rw [dispatched, hDisposals]
  cases disposal with
  | responded content => exact (hFits.2.resolve_left (by simp [hLegal])).symm
  | invoked endpoint passed params => exact hFits.2.2.1.symm
  | tookOver endpoint => exact absurd hFits.1 (by decide)

/-- The two targets are given to the same REST endpoint exactly if the first one of the verb
that matches either of them matches both. -/
theorem restEndpoint_eq_iff {other : String} :
    restEndpoint handlers verb other = restEndpoint handlers verb target ↔
      ∀ handler, handlers.find? (fun handler =>
          (handler.path other || handler.path target) && handler.verb == verb) = some handler →
        handler.path other = true ∧ handler.path target = true := by
  unfold restEndpoint
  rw [List.findIdx?_eq_findIdx?_iff]
  simp only [← Bool.and_or_distrib_right]
  refine forall₂_congr fun handler hFound => ?_
  have hSome := List.find?_some hFound
  have hVerb : (handler.verb == verb) = true := (Bool.and_eq_true_iff.mp hSome).2
  simp only [hVerb, Bool.and_true]

/-- Each route is compiled to an endpoint of its own. -/
theorem compiles_of_foldlM {routes : List Route} {before after : List RestEndpoint}
    (h : routes.foldlM (fun handlers route =>
      addEndpoint handlers route.verb route.path route.handler) before = some after) :
    ∃ added, after = before ++ added ∧ List.Forall₂ Route.Compiles routes added := by
  induction routes generalizing before with
  | nil =>
      cases h
      exact ⟨[], (List.append_nil _).symm, .nil⟩
  | cons route routes ih =>
      rw [List.foldlM_cons] at h
      obtain ⟨more, hAdded, hRest⟩ := Option.bind_eq_some_iff.mp h
      obtain ⟨compiled, hCompiled, rfl⟩ := Option.map_eq_some_iff.mp hAdded
      obtain ⟨added, rfl, hAll⟩ := ih hRest
      exact ⟨_, List.append_assoc _ [_] added, .cons ⟨compiled, hCompiled, rfl⟩ hAll⟩

theorem compiles_of_register {routes : List Route} (h : register routes = some handlers) :
    List.Forall₂ Route.Compiles routes handlers := by
  obtain ⟨added, rfl, hAll⟩ := compiles_of_foldlM h
  exact hAll

/-- Plain routes are all accepted. -/
theorem foldlM_of_isPlain {routes : List Route} (hPlain : ∀ route ∈ routes, IsPlain route.path)
    (before : List RestEndpoint) :
    ∃ after, routes.foldlM (fun handlers route =>
      addEndpoint handlers route.verb route.path route.handler) before = some after := by
  induction routes generalizing before with
  | nil => exact ⟨before, rfl⟩
  | cons route routes ih =>
      obtain ⟨hHead, hTail⟩ := List.forall_mem_cons.mp hPlain
      rw [List.foldlM_cons, addEndpoint_eq (compilePath_of_isPlain hHead)]
      exact ih hTail _

/-- What the path of a plain route says is what its endpoint matches. -/
theorem Route.Compiles.path_iff {route : Route} {endpoint : RestEndpoint}
    (h : route.Compiles endpoint) (hPlain : IsPlain route.path) (text : String) :
    endpoint.path text = true ↔ ∃ params, Instance route.path.toList params text.toList := by
  obtain ⟨compiled, hCompiled, rfl⟩ := h
  exact (means_of_isPlain hPlain hCompiled text).1

/-- No instance of a path has a question mark in it. -/
theorem Instance.not_mem {path text : List Char} {params : List String}
    (h : Instance path params text) : '?' ∉ text := by
  induction h with
  | nil => exact List.not_mem_nil
  | literal plain rest ih =>
      rintro (_ | ⟨_, hMem⟩)
      · exact plain rfl
      · exact ih hMem
  | placeholder nonempty plain rest ih =>
      intro hMem
      exact (List.mem_append.mp hMem).elim plain ih

/-- A path without placeholders says itself. -/
theorem exists_instance_iff {path text : List Char} (hLiteral : '?' ∉ path) :
    (∃ params, Instance path params text) ↔ path = text := by
  constructor
  · rintro ⟨params, hInstance⟩
    induction hInstance with
    | nil => rfl
    | literal plain rest ih => rw [ih fun hMem => hLiteral (List.mem_cons_of_mem _ hMem)]
    | placeholder => exact absurd List.mem_cons_self hLiteral
  · rintro rfl
    refine ⟨[], ?_⟩
    induction path with
    | nil => exact .nil
    | cons c path ih =>
        rw [List.mem_cons, not_or] at hLiteral
        obtain ⟨hHead, hTail⟩ := hLiteral
        exact .literal (Ne.symm hHead) (ih hTail)

/-- A target is left without an endpoint exactly if no route of the verb says it. -/
theorem restEndpoint_eq_none_iff {routes : List Route} (h : register routes = some handlers)
    (hPlain : ∀ route ∈ routes, IsPlain route.path) :
    restEndpoint handlers verb target = none ↔ ∀ route ∈ routes, route.verb = verb →
      ¬ ∃ params, Instance route.path.toList params target.toList := by
  rw [restEndpoint, List.findIdx?_eq_none_iff]
  have hAll := compiles_of_register h
  clear h
  induction hAll with
  | nil => simp
  | @cons route endpoint routes endpoints hFirst hRest ih =>
      obtain ⟨hHead, hTail⟩ := List.forall_mem_cons.mp hPlain
      rw [List.forall_mem_cons, List.forall_mem_cons, ← hFirst.path_iff hHead]
      refine and_congr ?_ (ih hTail)
      obtain ⟨compiled, -, rfl⟩ := hFirst
      by_cases hVerb : route.verb = verb <;> simp [hVerb]

/-- Behind a question mark no plain route is found. -/
theorem restEndpoint_withQuery {routes : List Route} (h : register routes = some handlers)
    (hPlain : ∀ route ∈ routes, IsPlain route.path) :
    restEndpoint handlers verb (withQuery path query) = none := by
  rw [restEndpoint_eq_none_iff h hPlain]
  rintro route - - ⟨params, hInstance⟩
  apply hInstance.not_mem
  simp [toList_withQuery]

end

/-- With the query and without it, the request is dispatched to the same endpoint. -/
def RoutesAlike (conf : WebConfig) (handlers : List RestEndpoint)
    (websocketHandlers : List Pattern) (docRoot : String) (isLoopback : Bool)
    (files : Nat → String → OpenResult) (isUpgrade : Bool) (verb : Verb) (body : String)
    (path query : String) : Prop :=
  dispatched conf handlers websocketHandlers docRoot isLoopback files isUpgrade verb
      (withQuery path query) body =
    dispatched conf handlers websocketHandlers docRoot isLoopback files isUpgrade verb path body

section

variable {conf : WebConfig} {handlers : List RestEndpoint} {websocketHandlers : List Pattern}
  {docRoot : String} {isLoopback : Bool} {files : Nat → String → OpenResult} {isUpgrade : Bool}
  {verb : Verb} {body path query : String}

/-- An upgrade always is; any other request as far as the REST endpoints go. -/
theorem routesAlike_iff (hAbsolute : path.toList.head? = some '/') (hQuestion : '?' ∉ path.toList)
    (hPath : ¬ ['.', '.'] <:+: path.toList) (hQuery : ¬ ['.', '.'] <:+: query.toList) :
    RoutesAlike conf handlers websocketHandlers docRoot isLoopback files isUpgrade verb body path
        query ↔
      (isUpgrade = false →
        restEndpoint handlers verb (withQuery path query) = restEndpoint handlers verb path) := by
  unfold RoutesAlike
  cases isUpgrade with
  | true =>
      have hSame : websocketEndpoint websocketHandlers (withQuery path query) =
          websocketEndpoint websocketHandlers path := by
        rw [websocketEndpoint, websocketEndpoint, urlPath_withQuery hAbsolute hQuestion]
      simp [dispatched_upgrade, hSame]
  | false =>
      rw [dispatched_request (isIllegal_withQuery hAbsolute hPath hQuery),
        dispatched_request (isIllegal_of_path hAbsolute hPath)]
      simp

/-- For plain routes, only where there is no endpoint anyway. -/
theorem routesAlike_iff_of_plain (hAbsolute : path.toList.head? = some '/')
    (hQuestion : '?' ∉ path.toList) (hPath : ¬ ['.', '.'] <:+: path.toList)
    (hQuery : ¬ ['.', '.'] <:+: query.toList) {routes : List Route}
    (hRegister : register routes = some handlers) (hPlain : ∀ route ∈ routes, IsPlain route.path) :
    RoutesAlike conf handlers websocketHandlers docRoot isLoopback files isUpgrade verb body path
        query ↔
      (isUpgrade = false → ∀ route ∈ routes, route.verb = verb →
        ¬ ∃ params, Instance route.path.toList params path.toList) := by
  rw [routesAlike_iff hAbsolute hQuestion hPath hQuery, restEndpoint_withQuery hRegister hPlain,
    ← restEndpoint_eq_none_iff hRegister hPlain, @eq_comm _ none]

end

theorem serverEndpoints_eq (server : ServerHandlers) :
    serverEndpoints server = register (serverRoutes server) := by
  simp only [register, serverRoutes, List.foldlM_cons, List.foldlM_nil, bind_pure]
  rfl

theorem paths_serverRoutes (server : ServerHandlers) :
    ∀ route ∈ serverRoutes server, IsPlain route.path ∧ '?' ∉ route.path.toList := by
  have hPaths : ∀ path ∈ (serverRoutes server).map Route.path,
      IsPlain path ∧ '?' ∉ path.toList := by
    simp only [serverRoutes, List.map_cons, List.map_nil]
    decide
  intro route hMem
  exact hPaths route.path (List.mem_map_of_mem hMem)

/-- Every path that the server serves is lost behind a query string. -/
theorem routesAlike_server_iff {server : ServerHandlers} {conf : WebConfig}
    {handlers : List RestEndpoint} {websocketHandlers : List Pattern} {docRoot : String}
    {isLoopback : Bool} {files : Nat → String → OpenResult} {isUpgrade : Bool} {verb : Verb}
    {body path query : String} (hServer : serverEndpoints server = some handlers)
    (hAbsolute : path.toList.head? = some '/') (hQuestion : '?' ∉ path.toList)
    (hPath : ¬ ['.', '.'] <:+: path.toList) (hQuery : ¬ ['.', '.'] <:+: query.toList) :
    RoutesAlike conf handlers websocketHandlers docRoot isLoopback files isUpgrade verb body path
        query ↔
      (isUpgrade = false → ∀ route ∈ serverRoutes server, route.verb = verb →
        route.path ≠ path) := by
  rw [serverEndpoints_eq] at hServer
  rw [routesAlike_iff_of_plain hAbsolute hQuestion hPath hQuery hServer
    fun route hMem => (paths_serverRoutes server route hMem).1]
  refine imp_congr_right fun _ => forall₂_congr fun route hMem => imp_congr_right fun _ => ?_
  rw [exists_instance_iff (paths_serverRoutes server route hMem).2, String.toList_inj]

theorem exists_serverEndpoints (server : ServerHandlers) :
    ∃ handlers, serverEndpoints server = some handlers := by
  rw [serverEndpoints_eq]
  exact foldlM_of_isPlain (fun route hMem => (paths_serverRoutes server route hMem).1) []

/-- A query string does not change the endpoint of an upgrade. Of any other request it leaves
the endpoint as it is exactly if the first REST endpoint of the verb that matches the target
with or without the query matches it both ways; with plain routes, only if no route of the
verb says the path. -/
theorem query_routing (conf : WebConfig) (handlers : List RestEndpoint)
    (websocketHandlers : List Pattern) (docRoot : String) (isLoopback : Bool)
    (files : Nat → String → OpenResult) (isUpgrade : Bool) (verb : Verb) (body : String)
    (path query : String) (hAbsolute : path.toList.head? = some '/')
    (hQuestion : '?' ∉ path.toList) (hPath : ¬ ['.', '.'] <:+: path.toList)
    (hQuery : ¬ ['.', '.'] <:+: query.toList) :
    (RoutesAlike conf handlers websocketHandlers docRoot isLoopback files isUpgrade verb body path
        query ↔
      (isUpgrade = false → ∀ handler, handlers.find? (fun handler =>
          (handler.path (withQuery path query) || handler.path path) && handler.verb == verb) =
            some handler →
        handler.path (withQuery path query) = true ∧ handler.path path = true)) ∧
    ∀ routes, register routes = some handlers → (∀ route ∈ routes, IsPlain route.path) →
      (RoutesAlike conf handlers websocketHandlers docRoot isLoopback files isUpgrade verb body
          path query ↔
        (isUpgrade = false → ∀ route ∈ routes, route.verb = verb →
          ¬ ∃ params, Instance route.path.toList params path.toList)) := by
  refine ⟨?_, fun routes hRegister hPlain =>
    routesAlike_iff_of_plain hAbsolute hQuestion hPath hQuery hRegister hPlain⟩
  rw [routesAlike_iff hAbsolute hQuestion hPath hQuery, restEndpoint_eq_iff]

/-- Endpoints that leave every response to a task. -/
def deferringHandlers : ServerHandlers :=
  ⟨fun _ _ => .defer, fun _ _ => .defer, fun _ _ => .defer, fun _ _ => .defer, fun _ _ => .defer,
    fun _ _ => .defer⟩

/-- On the endpoints of the server, an upgrade and a request for a file are dispatched as they
are without the query string, and a request for an endpoint is not. -/
theorem query_routing_websocket :
    ∃ handlers, register (serverRoutes deferringHandlers) = some handlers ∧
      RoutesAlike {} handlers websocketHandlers "public" true (fun _ _ => .noSuchFile) true .get ""
        "/websocket" "id=1" ∧
      RoutesAlike {} handlers websocketHandlers "public" true (fun _ _ => .noSuchFile) false .get ""
        "/app.js" "v=1" ∧
      ¬ RoutesAlike {} handlers websocketHandlers "public" true (fun _ _ => .noSuchFile) false .get
        "" "/api/v1/ping" "x" := by
  obtain ⟨handlers, hServer⟩ := exists_serverEndpoints deferringHandlers
  rw [serverEndpoints_eq] at hServer
  have hPlain : ∀ route ∈ serverRoutes deferringHandlers, IsPlain route.path := fun route hMem =>
    (paths_serverRoutes deferringHandlers route hMem).1
  have hSays : ∀ route ∈ serverRoutes deferringHandlers, ∀ path : String,
      (∃ params, Instance route.path.toList params path.toList) ↔ route.path = path := by
    intro route hMem path
    rw [exists_instance_iff (paths_serverRoutes deferringHandlers route hMem).2, String.toList_inj]
  have hUpgrade := query_routing {} handlers websocketHandlers "public" true
    (fun _ _ => .noSuchFile) true .get "" "/websocket" "id=1" (by decide) (by decide) (by decide)
    (by decide)
  have hFile := query_routing {} handlers websocketHandlers "public" true
    (fun _ _ => .noSuchFile) false .get "" "/app.js" "v=1" (by decide) (by decide) (by decide)
    (by decide)
  have hPing := query_routing {} handlers websocketHandlers "public" true
    (fun _ _ => .noSuchFile) false .get "" "/api/v1/ping" "x" (by decide) (by decide) (by decide)
    (by decide)
  refine ⟨handlers, hServer, hUpgrade.1.mpr fun h => absurd h (by decide), ?_, ?_⟩
  · apply (hFile.2 _ hServer hPlain).mpr
    intro _ route hMem _
    rw [hSays route hMem]
    have hPaths : ∀ path ∈ (serverRoutes deferringHandlers).map Route.path, path ≠ "/app.js" := by
      decide
    exact hPaths route.path (List.mem_map_of_mem hMem)
  · rw [hPing.2 _ hServer hPlain]
    intro hNone
    have hRoute : (⟨.get, "/api/v1/ping", deferringHandlers.ping⟩ : Route) ∈
        serverRoutes deferringHandlers := by
      simp [serverRoutes]
    exact hNone rfl _ hRoute rfl ((hSays _ hRoute _).mpr rfl)

/-- `GET /api/v1/ping?x` is not dispatched to the endpoint of `/api/v1/ping`. -/
theorem not_query_routing :
    ¬ ∀ (conf : WebConfig) (routes : List Route) (handlers : List RestEndpoint)
        (paths : List String) (websocketHandlers : List Pattern) (docRoot : String)
        (isLoopback : Bool) (files : Nat → String → OpenResult) (isUpgrade : Bool) (verb : Verb)
        (body path query : String),
      register routes = some handlers → registerWebsocket paths = some websocketHandlers →
      path.toList.head? = some '/' → '?' ∉ path.toList → ¬ ['.', '.'] <:+: path.toList →
      ¬ ['.', '.'] <:+: query.toList →
      RoutesAlike conf handlers websocketHandlers docRoot isLoopback files isUpgrade verb body path
        query := by
  intro hAll
  obtain ⟨handlers, hServer⟩ := exists_serverEndpoints deferringHandlers
  have hWebsocket : compilePath "/websocket" = some _ := compilePath_of_isPlain (by decide)
  have hAlike := hAll {} (serverRoutes deferringHandlers) handlers ["/websocket"] _ "public" true
    (fun _ _ => .noSuchFile) false .get "" "/api/v1/ping" "x"
    (serverEndpoints_eq deferringHandlers ▸ hServer)
    (by rw [registerWebsocket, List.foldlM_cons, addWebsocketEndpoint_eq hWebsocket]; rfl)
    (by decide) (by decide) (by decide) (by decide)
  rw [routesAlike_server_iff hServer (by decide) (by decide) (by decide) (by decide)] at hAlike
  have hPing : (⟨.get, "/api/v1/ping", deferringHandlers.ping⟩ : Route) ∈
      serverRoutes deferringHandlers := by
    simp [serverRoutes]
  exact hAlike rfl _ hPing rfl rfl

end NanoPowServer.WebServer
