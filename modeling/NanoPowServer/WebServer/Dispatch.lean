import NanoPowServer.Library.Containers
import NanoPowServer.WebServer.StaticFiles

/-! What becomes of a request that has been read. `on_read` and `handle_request` are
written out with their loops and early returns, and record what they do with the
request: a branch that is left without a return goes on with the statements below it. -/
namespace NanoPowServer.WebServer

/-- A response is put on the queue of the session, a REST handler is invoked with the
body and the parameters, or a WebSocket session takes over the socket. -/
inductive Disposal where
  | responded (body : String)
  | invoked (endpoint : Nat) (body : String) (params : List String)
  | tookOver (endpoint : Nat)
  deriving DecidableEq

/-- What has been done with the request so far. -/
abbrev Effects := StateM (List Disposal)

namespace Effects

def dispose (disposal : Disposal) : Effects Unit := modify (· ++ [disposal])

def send (body : String) : Effects Unit := dispose (.responded body)

/-- A file has been opened, or an error other than its absence is reported. -/
def respondFile (verb : Verb) (result : OpenResult) : Effects Unit := do
  match result with
  | .noSuchFile => return ← send "An error occurred: 'No such file or directory'"
  | .failed message => return ← send ("An error occurred: '" ++ message ++ "'")
  | .opened contents =>
      if verb = .head then
        return ← send ""
      return ← send contents

/-- The last part of `handle_request`: the file may be another one, or missing, when it
is opened again. -/
def handleFile (docRoot : String) (files : Nat → String → OpenResult) (verb : Verb)
    (target : String) : Effects Unit := do
  let path := pathCat docRoot target
  let path := if target.toList.getLast? = some '/' then path ++ "index.html" else path
  let mut result := files 0 (cStr path)
  if let .noSuchFile := result then
    result := files 1 (cStr (pathCat docRoot "/index.html"))
    if let .noSuchFile := result then
      return ← send ("The resource '" ++ target ++ "' was not found.")
  respondFile verb result

def handleRequest (conf : WebConfig) (handlers : List RestEndpoint) (docRoot : String)
    (isLoopback : Bool) (files : Nat → String → OpenResult) (verb : Verb)
    (target body : String) : Effects Unit := do
  if isIllegal target then
    return ← send "Illegal request-target"
  for (handler, i) in handlers.zipIdx do
    if handler.path target && handler.verb == verb then
      dispose (.invoked i body (handler.captures target))
      return
  if !conf.staticPagesAllow || (!conf.staticPagesAllowRemote && !isLoopback) then
    return ← send "Access denied"
  handleFile docRoot files verb target

/-- A denied upgrade is only logged. -/
def onRead (conf : WebConfig) (handlers : List RestEndpoint) (websocketHandlers : List Pattern)
    (docRoot : String) (isLoopback : Bool) (files : Nat → String → OpenResult)
    (isUpgrade : Bool) (verb : Verb) (target body : String) : Effects Unit := do
  if isUpgrade then
    let targetPath := urlPath target
    let mut session : Option Nat := none
    for (handler, i) in websocketHandlers.zipIdx do
      if handler targetPath then
        session := some i
        break
    if let some i := session then
      dispose (.tookOver i)
  else
    handleRequest conf handlers docRoot isLoopback files verb target body

end Effects

/-- The first REST endpoint whose path and verb match. -/
def restEndpoint (handlers : List RestEndpoint) (verb : Verb) (target : String) : Option Nat :=
  handlers.findIdx? fun handler => handler.path target && handler.verb == verb

/-- The first WebSocket endpoint that matches the path of the target. -/
def websocketEndpoint (handlers : List Pattern) (target : String) : Option Nat :=
  handlers.findIdx? fun handler => handler (urlPath target)

/-- What has been done with a request in the end. -/
def disposals (conf : WebConfig) (handlers : List RestEndpoint) (websocketHandlers : List Pattern)
    (docRoot : String) (isLoopback : Bool) (files : Nat → String → OpenResult)
    (isUpgrade : Bool) (verb : Verb) (target body : String) : List Disposal :=
  ((Effects.onRead conf handlers websocketHandlers docRoot isLoopback files isUpgrade verb
    target body).run []).2

/-- A disposal that the request asks for: an upgrade is taken over by the first endpoint
that matches its path, and any other request is handled by the first endpoint that matches
it, or responded to if it is illegal or there is none. -/
def Disposal.Fits (handlers : List RestEndpoint) (websocketHandlers : List Pattern)
    (isUpgrade : Bool) (verb : Verb) (target body : String) : Disposal → Prop
  | .responded _ =>
      isUpgrade = false ∧ (isIllegal target = true ∨ restEndpoint handlers verb target = none)
  | .invoked endpoint passed params =>
      isUpgrade = false ∧ isIllegal target = false ∧
        restEndpoint handlers verb target = some endpoint ∧
        ∃ handler, handlers[endpoint]? = some handler ∧ passed = body ∧
          params = handler.captures target
  | .tookOver endpoint =>
      isUpgrade = true ∧ websocketEndpoint websocketHandlers target = some endpoint

/-- How the pure model handles a request that is disposed of in this way. -/
def Disposal.Handles (handlers : List RestEndpoint) (handling : Handling) : Disposal → Prop
  | .responded content => handling = .send content
  | .invoked endpoint passed params =>
      ∃ handler, handlers[endpoint]? = some handler ∧ handling = handler.handler passed params
  | .tookOver _ => False

/-- The request is disposed of once, and in the way it asks for. -/
def DisposedOnce (handlers : List RestEndpoint) (websocketHandlers : List Pattern)
    (isUpgrade : Bool) (verb : Verb) (target body : String) (disposals : List Disposal) : Prop :=
  ∃ disposal, disposals = [disposal] ∧
    disposal.Fits handlers websocketHandlers isUpgrade verb target body

section

variable {conf : WebConfig} {handlers : List RestEndpoint} {websocketHandlers : List Pattern}
  {docRoot : String} {isLoopback : Bool} {files : Nat → String → OpenResult} {isUpgrade : Bool}
  {verb : Verb} {target body : String}

theorem find?_handlers :
    handlers.find? (fun handler => handler.path target && handler.verb == verb) =
      (restEndpoint handlers verb target).bind fun i => handlers[i]? :=
  List.find?_eq_bind_findIdx?_getElem?

namespace Effects

@[simp] theorem run_dispose (disposal : Disposal) (log : List Disposal) :
    (dispose disposal).run log = ((), log ++ [disposal]) := rfl

@[simp] theorem run_send (content : String) (log : List Disposal) :
    (send content).run log = ((), log ++ [.responded content]) := rfl

theorem run_respondFile {result : OpenResult} (hThere : result ≠ .noSuchFile)
    (log : List Disposal) :
    ∃ content, (respondFile verb result).run log = ((), log ++ [.responded content]) ∧
      WebServer.respondFile verb target result = .send content := by
  cases result with
  | noSuchFile => exact absurd rfl hThere
  | failed message => exact ⟨_, rfl, rfl⟩
  | opened contents =>
      refine ⟨if verb = .head then "" else contents, ?_, rfl⟩
      dsimp only [respondFile]
      split <;> rfl

/-- One response is sent, and it is that of the pure model if the files stay the same. -/
theorem run_handleFile (log : List Disposal) :
    ∃ content, (handleFile docRoot files verb target).run log =
        ((), log ++ [.responded content]) ∧
      ∀ still, files = (fun _ => still) →
        (WebServer.handleFile docRoot still verb target).handling = .send content := by
  unfold handleFile WebServer.handleFile
  dsimp only
  generalize (if target.toList.getLast? = some '/' then _ else _) = path
  by_cases hFile : files 0 (cStr path) = .noSuchFile
  · by_cases hIndex : files 1 (cStr (pathCat docRoot "/index.html")) = .noSuchFile
    · refine ⟨"The resource '" ++ target ++ "' was not found.", ?_, ?_⟩
      · simp [hFile, hIndex]
      · rintro still rfl
        simp [hFile, hIndex, WebServer.respondFile]
    · obtain ⟨content, hRun, hSend⟩ := @run_respondFile verb target _ hIndex log
      refine ⟨content, ?_, ?_⟩
      · simpa [hFile, hIndex] using hRun
      · rintro still rfl
        simpa [hFile] using hSend
  · obtain ⟨content, hRun, hSend⟩ := @run_respondFile verb target _ hFile log
    refine ⟨content, ?_, ?_⟩
    · simpa [hFile] using hRun
    · rintro still rfl
      simpa [hFile] using hSend

/-- A request that is not an upgrade is disposed of once, and the disposal is that of the
pure model if the files stay the same. -/
theorem run_handleRequest (log : List Disposal) :
    ∃ disposal, (handleRequest conf handlers docRoot isLoopback files verb target body).run log =
        ((), log ++ [disposal]) ∧
      disposal.Fits handlers websocketHandlers false verb target body ∧
      ∀ still, files = (fun _ => still) →
        disposal.Handles handlers (WebServer.handleRequest conf handlers docRoot isLoopback still
          verb target body).handling := by
  unfold handleRequest WebServer.handleRequest
  split
  · next hIllegal => exact ⟨_, run_send _ log, ⟨rfl, .inl hIllegal⟩, fun _ _ => rfl⟩
  · next hLegal =>
      have hLegal : isIllegal target = false := by simpa using hLegal
      dsimp only
      rw [@List.forIn_find? Effects _ _ _ _
        (fun entry => entry.1.path target && entry.1.verb == verb)
        (fun entry => do
          dispose (.invoked entry.2 body (entry.1.captures target))
          return (some (), ()))]
      · cases hFound : handlers.zipIdx.find? fun entry =>
            entry.1.path target && entry.1.verb == verb with
        | some entry =>
            obtain ⟨hFirst, hHandler⟩ : restEndpoint handlers verb target = some entry.2 ∧
                handlers[entry.2]? = some entry.1 := List.find?_zipIdx_eq_some _ hFound
            refine ⟨_, rfl, ⟨rfl, hLegal, hFirst, entry.1, hHandler, rfl, rfl⟩, fun still _ => ?_⟩
            dsimp only [Disposal.Handles]
            refine ⟨entry.1, hHandler, ?_⟩
            rw [find?_handlers, hFirst, Option.bind_some, hHandler]
        | none =>
            have hNone : restEndpoint handlers verb target = none :=
              (List.find?_zipIdx_eq_none _).mp hFound
            rw [find?_handlers, hNone, Option.bind_none]
            by_cases hDenied : (!conf.staticPagesAllow ||
                (!conf.staticPagesAllowRemote && !isLoopback)) = true
            · refine ⟨.responded "Access denied", ?_, ⟨rfl, .inr hNone⟩, fun _ _ => ?_⟩
              · simp [hDenied]
              · simp [hDenied, Disposal.Handles]
            · obtain ⟨content, hSent, hSame⟩ := run_handleFile log
              refine ⟨.responded content, ?_, ⟨rfl, .inr hNone⟩, fun still hStill => ?_⟩
              · simpa [hDenied] using hSent
              · simpa [hDenied, Disposal.Handles] using hSame still hStill
      · intro entry
        split <;> rfl

/-- An upgrade is taken over by the first endpoint that matches its path, if there is one. -/
theorem run_onRead_upgrade (log : List Disposal) :
    (onRead conf handlers websocketHandlers docRoot isLoopback files true verb target body).run
        log =
      ((), log ++ ((websocketEndpoint websocketHandlers target).map Disposal.tookOver).toList) := by
  unfold onRead
  rw [if_pos rfl]
  dsimp only
  rw [@List.forIn_find? Effects _ _ _ _ (fun entry => entry.1 (urlPath target))
    (fun entry => return some entry.2)]
  · cases hFound : websocketHandlers.zipIdx.find? fun entry => entry.1 (urlPath target) with
    | some entry =>
        obtain ⟨hFirst, -⟩ : websocketEndpoint websocketHandlers target = some entry.2 ∧
            websocketHandlers[entry.2]? = some entry.1 := List.find?_zipIdx_eq_some _ hFound
        simp [hFirst]
    | none =>
        have hNone : websocketEndpoint websocketHandlers target = none :=
          (List.find?_zipIdx_eq_none _).mp hFound
        rw [hNone, Option.map_none, Option.toList_none, List.append_nil]
        rfl
  · intro entry
    split <;> rfl

end Effects

/-- An upgrade that no endpoint matches is not disposed of. -/
theorem disposals_upgrade :
    disposals conf handlers websocketHandlers docRoot isLoopback files true verb target body =
      ((websocketEndpoint websocketHandlers target).map Disposal.tookOver).toList := by
  unfold disposals
  rw [Effects.run_onRead_upgrade]
  rfl

theorem disposals_request :
    ∃ disposal, disposals conf handlers websocketHandlers docRoot isLoopback files false verb
        target body = [disposal] ∧
      disposal.Fits handlers websocketHandlers false verb target body ∧
      ∀ still, files = (fun _ => still) → disposal.Handles handlers
        (handleRequest conf handlers docRoot isLoopback still verb target body).handling := by
  obtain ⟨disposal, hRun, hFits, hHandles⟩ := Effects.run_handleRequest []
  refine ⟨disposal, ?_, hFits, hHandles⟩
  unfold disposals Effects.onRead
  rw [if_neg (by decide), hRun]
  rfl

theorem isSome_websocketEndpoint :
    (websocketEndpoint websocketHandlers target).isSome =
      websocketHandlers.any fun handler => handler (urlPath target) :=
  List.findIdx?_isSome

/-- What the disposal of a request is on the session: the response is put on the queue, the
REST handler deals with the request, or the session is upgraded. Without a disposal nothing
but the reading of the request is left of it. -/
theorem onRead_of_disposals {still : String → OpenResult} {session started after : HttpSession}
    {request : Request} (hTarget : request.target = target)
    (hStarted : started = { session with requests := session.requests ++ [request] })
    (hAfter : after = session.onRead websocketHandlers request
      (handleRequest conf handlers docRoot isLoopback still verb target body).handling) :
    match disposals conf handlers websocketHandlers docRoot isLoopback (fun _ => still)
      request.isUpgrade verb target body with
    | [] => after = started
    | [.responded content] => after.items = started.items ++
        [{ request := session.requests.length, version := request.version,
           keepAlive := request.keepAlive, body := content }]
    | [.invoked endpoint passed params] => ∃ handler, handlers[endpoint]? = some handler ∧
        after = { started.handleRequest session.requests.length request
          (handler.handler passed params) with handling := true }
    | [.tookOver _] => after = { started with upgraded := true }
    | _ => False := by
  subst hAfter hStarted hTarget
  cases hUpgrade : request.isUpgrade with
  | true =>
      rw [disposals_upgrade]
      have hAny := @isSome_websocketEndpoint websocketHandlers request.target
      cases hFirst : websocketEndpoint websocketHandlers request.target with
      | none => simp [HttpSession.onRead, hUpgrade, ← hAny, hFirst]
      | some endpoint => simp [HttpSession.onRead, hUpgrade, ← hAny, hFirst]
  | false =>
      obtain ⟨disposal, hDisposals, -, hHandles⟩ := disposals_request
      rw [hDisposals]
      have hHandles := hHandles still rfl
      cases disposal with
      | responded content =>
          have hSend : Handling.send content = _ := hHandles.symm
          simp [HttpSession.onRead, HttpSession.handleRequest, HttpSession.enqueue, hUpgrade,
            ← hSend]
      | invoked endpoint passed params =>
          obtain ⟨handler, hHandler, hHandling⟩ := hHandles
          refine ⟨handler, hHandler, ?_⟩
          simp [HttpSession.onRead, hUpgrade, hHandling]
      | tookOver endpoint => exact hHandles.elim

end

/-- Every request is disposed of once, on any endpoints, configuration and files, exactly if
an upgrade finds an endpoint for its path. -/
theorem disposedOnce_iff (conf : WebConfig) (handlers : List RestEndpoint)
    (websocketHandlers : List Pattern) (docRoot : String) (isLoopback : Bool)
    (files : Nat → String → OpenResult) (isUpgrade : Bool) (verb : Verb) (target body : String) :
    DisposedOnce handlers websocketHandlers isUpgrade verb target body
        (disposals conf handlers websocketHandlers docRoot isLoopback files isUpgrade verb target
          body) ↔
      (isUpgrade = true → ∃ handler ∈ websocketHandlers, handler (urlPath target) = true) := by
  cases isUpgrade with
  | true =>
      rw [disposals_upgrade]
      have hAny := @isSome_websocketEndpoint websocketHandlers target
      cases hFirst : websocketEndpoint websocketHandlers target with
      | none => simpa [hFirst, DisposedOnce] using hAny
      | some endpoint => simpa [hFirst, DisposedOnce, Disposal.Fits] using hAny
  | false =>
      obtain ⟨disposal, hDisposals, hFits, -⟩ := disposals_request
      rw [hDisposals]
      exact ⟨fun _ h => absurd h (by decide), fun _ => ⟨disposal, rfl, hFits⟩⟩

/-- A client asks for an upgrade on the path `/`: nothing is done with its request. -/
theorem not_disposedOnce :
    ¬ ∀ (conf : WebConfig) (handlers : List RestEndpoint) (websocketHandlers : List Pattern)
        (docRoot : String) (isLoopback : Bool) (files : Nat → String → OpenResult)
        (isUpgrade : Bool) (verb : Verb) (target body : String),
      DisposedOnce handlers websocketHandlers isUpgrade verb target body
        (disposals conf handlers websocketHandlers docRoot isLoopback files isUpgrade verb target
          body) := by
  intro hAll
  obtain ⟨disposal, hDisposals, -⟩ :=
    hAll {} [] websocketHandlers "public" true (fun _ _ => .noSuchFile) true .get "/" ""
  have hNone : disposals {} [] websocketHandlers "public" true (fun _ _ => .noSuchFile) true .get
      "/" "" = [] := by decide
  simp [hNone] at hDisposals

end NanoPowServer.WebServer
