import NanoPowServer.WebServer.KeepAlive
import NanoPowServer.WebServer.Routing
import NanoPowServer.WebServer.SendQueue
import NanoPowServer.WorkHandler.Disposal
import NanoPowServer.WorkHandler.QueueReport

/-! The server as a process: the work handler, the connections of the web server and
the endpoint handlers that `main` puts between them. The parts keep the steps that they
have on their own; what is new is which step of one part makes another part move. A
response handler holds the session that its request was read on and writes to it. -/
namespace NanoPowServer.Entry

open WebServer
open WorkHandler (Call Environment Phase Ptree QueueReport System)
open Execution PriorityQueue

/-- Version 1.0.0. -/
def versionString : String := "1.0.0"

/-- What the process runs with: the configuration with the conversions that requests go
through, and the writer of JSON documents. -/
structure Setup where
  env : Environment
  writeJson : Ptree → String
  writeReport : QueueReport → String

/-- Static pages are those of the admin interface. -/
def Setup.webConfig (setup : Setup) : WebConfig where
  staticPagesAllow := setup.env.config.admin.enable
  staticPagesAllowRemote := setup.env.config.admin.allowRemote

/-- What a registered endpoint is for. -/
inductive Endpoint where
  | work
  | workQueue
  | workQueueDelete
  | ping
  | stop
  | version
  deriving DecidableEq

/-- The endpoints in the order in which they are registered. -/
def endpoints : List Endpoint := [.work, .work, .workQueue, .workQueueDelete, .ping, .stop, .version]

/-- The session and, if it is an HTTP session, the number of the request on it. -/
inductive Origin where
  | http (connection request : Nat)
  | websocket (connection : Nat)
  deriving DecidableEq

/-- The number of the request, if it was read on this connection. -/
def Origin.numberOn (k : Nat) : Origin → Option Nat
  | .http connection request => if connection = k then some request else none
  | .websocket _ => none

structure Connection where
  isLoopback : Bool
  session : HttpSession

structure WebsocketConnection where
  session : WebsocketSession
  outgoing : SendQueue

/-- `origins` are the sessions that the response handlers of the calls hold, call by call.
`answers` records the responses in the order in which the handlers were called with them,
each with its call. -/
structure Process (Queue : Type) where
  handler : System Queue
  origins : List Origin
  connections : List Connection
  websockets : List WebsocketConnection
  answers : List (Nat × Ptree)
  terminated : Bool

/-- A client connects, a request or a message has been read, a session or a call goes on. -/
inductive Action where
  | accept (isLoopback : Bool)
  | read (connection : Nat) (request : Request) (verb : Verb) (body : String)
      (files : Nat → String → OpenResult) (now later : Nat)
  | http (connection : Nat) (action : WebServer.Action)
  | receive (connection : Nat) (message : String) (now : Nat)
  | websocket (connection : Nat) (action : WebsocketSession.Action)
  | outgoing (connection : Nat) (action : SendQueue.Action)
  | proceed (call : Nat) (now : Nat)
  | raise (call : Nat) (what : String)

/-- The call is still on the strand of the session that made it. -/
def inCall : Phase → Bool
  | .cancelling _ | .admitting _ | .pushed _ => true
  | _ => false

/-- The exception that has left the call is not a `std::runtime_error`, so that it ends
the process, whichever thread it reaches the top of. -/
def escapes : Phase → Bool
  | .escaped _ => true
  | _ => false

/-- What the session does by itself. -/
def ownHttp : WebServer.Action → Bool
  | .onRead _ _ | .writeJsonResponse _ _ => false
  | _ => true

def ownWebsocket : WebsocketSession.Action → Bool
  | .onRead .success _ => false
  | _ => true

def ownOutgoing : SendQueue.Action → Bool
  | .writeResponse _ => false
  | _ => true

/-- The step runs on the strand of the session. -/
def onStrand : WebsocketSession.Action → Bool
  | .expire _ | .breakDown | .handshake | .endStream => false
  | .onTimer _ _ _ | .onAccept _ | .onPing _ | .controlFrame _ | .onRead _ _ => true

def websocketPaths : List String := ["/websocket"]

theorem isSome_registerWebsocket : (registerWebsocket websocketPaths).isSome = true := by
  rw [registerWebsocket, websocketPaths, List.foldlM_cons,
    addWebsocketEndpoint_eq (compilePath_of_isPlain (by decide))]
  rfl

/-- The compiled patterns of the WebSocket endpoints. -/
def patterns : List Pattern := (registerWebsocket websocketPaths).get isSome_registerWebsocket

theorem isSome_serverEndpoints (server : ServerHandlers) :
    (serverEndpoints server).isSome = true := by
  obtain ⟨handlers, hHandlers⟩ := exists_serverEndpoints server
  rw [hHandlers]
  rfl

/-- The REST endpoints, once `main` has registered them. -/
def restEndpoints (server : ServerHandlers) : List RestEndpoint :=
  (serverEndpoints server).get (isSome_serverEndpoints server)

/-- The response handler of a request whose session was kept. -/
def writeTo (session : HttpSession) (number : Nat) (body : String) : HttpSession :=
  { session with deferred := session.deferred.erase number }.writeJsonResponse number body

/-- The response handler of a message. -/
def postTo (outgoing : SendQueue) (message : String) : SendQueue :=
  { outgoing with posted := outgoing.posted ++ [message] }

/-- The responses that a call has passed to its response handler. -/
def responsesOf (calls : List Call) (i : Nat) : List Ptree := (calls[i]?).elim [] Call.responses

variable {Queue : Type}

namespace Process

/-- The calls, each with the session that its response handler holds. -/
def calls (p : Process Queue) : List (Origin × Call) := p.origins.zip p.handler.calls

/-- The strand of the HTTP session runs a call of the work handler. -/
def inHttpCall (p : Process Queue) (k : Nat) : Bool :=
  p.calls.any fun (origin, call) => (origin.numberOn k).isSome && inCall call.phase

/-- The strand of the WebSocket session runs a call of the work handler. -/
def inWebsocketCall (p : Process Queue) (w : Nat) : Bool :=
  p.calls.any fun (origin, call) => origin = .websocket w && inCall call.phase

def setSession (p : Process Queue) (k : Nat) (session : HttpSession) : Process Queue :=
  { p with connections := p.connections.modify k fun connection => { connection with session } }

/-- The response handlers of the two work endpoints. -/
def respond (setup : Setup) (p : Process Queue) (origin : Origin) (response : Ptree) :
    Process Queue :=
  match origin with
  | .http k number =>
      { p with
        connections := p.connections.modify k fun connection =>
          { connection with session := writeTo connection.session number (setup.writeJson response) } }
  | .websocket w =>
      { p with
        websockets := p.websockets.modify w fun connection =>
          { connection with outgoing := postTo connection.outgoing (setup.writeJson response) } }

/-- The response handler of a call is called with each of the responses. -/
def deliver (setup : Setup) (i : Nat) (origin : Origin) (responses : List Ptree)
    (p : Process Queue) : Process Queue :=
  responses.foldl (fun p response =>
    { p.respond setup origin response with answers := p.answers ++ [(i, response)] }) p

variable [PriorityQueue Queue Job Job.comparator]

def initial (setup : Setup) : Process Queue where
  handler := System.initial setup.env
  origins := []
  connections := []
  websockets := []
  answers := []
  terminated := false

/-- What the endpoint handlers write, or that they keep the session. -/
def endpointHandlers (setup : Setup) (p : Process Queue) : ServerHandlers where
  work _ _ := .defer
  workQueue _ _ :=
    .respond (setup.writeReport
      (WorkHandler.handleQueueRequest setup.env p.handler.members p.handler.calls).2)
  workQueueDelete _ _ :=
    .respond (setup.writeJson
      (System.handleQueueDeleteRequest setup.env p.handler.members.jobs).2)
  ping _ _ := .respond "\x7b\"success\": \"true\"\x7d"
  stop _ _ :=
    .respond (if setup.env.config.server.allowControl then "\x7b\"success\": \"true\"\x7d"
      else "\x7b\"error\": \"Control requests are not allowed\"\x7d")
  version _ _ := .respond ("\x7b\"version\": \"" ++ versionString ++ "\"\x7d")

/-- A request is passed to `handle_request_async`, with a response handler that holds the
session. -/
def submit (setup : Setup) (p : Process Queue) (origin : Origin) (body : String) :
    Process Queue :=
  let i := p.handler.calls.length
  let handler := p.handler.arrive setup.env body
  { p with
    handler
    origins := p.origins ++ [origin]
    terminated := p.terminated || (handler.calls[i]?).any fun call : Call => escapes call.phase
    }.deliver setup i origin (responsesOf handler.calls i)

/-- A call goes on, and what it has to say is written to its session. -/
def handle (setup : Setup) (p : Process Queue) (i : Nat) (action : WorkHandler.Action) :
    Option (Process Queue) := do
  let origin ← p.origins[i]?
  let handler ← p.handler.step setup.env action
  some ({ p with handler }.deliver setup i origin
    ((responsesOf handler.calls i).drop (responsesOf p.handler.calls i).length))

/-- What the session is told about a request that is disposed of in this way. An upgrade
is dealt with before the endpoints are asked. -/
def handlingOf (handlers : List RestEndpoint) : Option Disposal → Option Handling
  | some (.responded content) => some (.send content)
  | some (.invoked endpoint body params) =>
      (handlers[endpoint]?).map fun handler => handler.handler body params
  | some (.tookOver _) | none => some .defer

/-- What else the disposal of a request does. -/
def dispose (setup : Setup) (p : Process Queue) (origin : Origin) (now later : Nat) :
    Option Disposal → Process Queue
  | some (.tookOver _) =>
      { p with
        websockets := p.websockets ++ [⟨WebsocketSession.accepted now later, SendQueue.initial⟩] }
  | some (.invoked endpoint body _) =>
      match endpoints[endpoint]? with
      | some .work => p.submit setup origin body
      | some .workQueueDelete => { p with handler := p.handler.clear setup.env }
      | some .stop =>
          { p with terminated := p.terminated || setup.env.config.server.allowControl }
      | some .workQueue | some .ping | some .version | none => p
  | some (.responded _) | none => p

/-- A request has been read from an HTTP connection. -/
def read (setup : Setup) (p : Process Queue) (k : Nat) (request : Request) (verb : Verb)
    (body : String) (files : Nat → String → OpenResult) (now later : Nat) :
    Option (Process Queue) := do
  let connection ← p.connections[k]?
  let handlers := restEndpoints (p.endpointHandlers setup)
  let disposal := (disposals setup.webConfig handlers patterns setup.env.config.admin.docRoot
    connection.isLoopback files request.isUpgrade verb request.target body).head?
  let handling ← handlingOf handlers disposal
  let session ← connection.session.step patterns (.onRead request handling)
  some ((p.setSession k session).dispose setup (.http k connection.session.requests.length) now
    later disposal)

/-- A message has been read from a WebSocket. -/
def receive (setup : Setup) (p : Process Queue) (w : Nat) (message : String) (now : Nat) :
    Option (Process Queue) := do
  let connection ← p.websockets[w]?
  let session ← connection.session.step (.onRead .success now)
  some ({ p with websockets := p.websockets.set w { connection with session } }.submit setup
    (.websocket w) message)

/-- One step of the process. A strand that runs a call of the work handler runs nothing
else until the call returns. -/
def step (setup : Setup) (p : Process Queue) (action : Action) : Option (Process Queue) :=
  if p.terminated then none
  else
    match action with
    | .accept isLoopback =>
        some { p with connections := p.connections ++ [⟨isLoopback, HttpSession.initial⟩] }
    | .read k request verb body files now later => p.read setup k request verb body files now later
    | .http k action =>
        if ownHttp action && !p.inHttpCall k then do
          let connection ← p.connections[k]?
          let session ← connection.session.step patterns action
          some (p.setSession k session)
        else none
    | .receive w message now =>
        if p.inWebsocketCall w then none else p.receive setup w message now
    | .websocket w action =>
        if ownWebsocket action && !(onStrand action && p.inWebsocketCall w) then do
          let connection ← p.websockets[w]?
          let session ← connection.session.step action
          some { p with websockets := p.websockets.set w { connection with session } }
        else none
    | .outgoing w action =>
        if ownOutgoing action && !p.inWebsocketCall w then do
          let connection ← p.websockets[w]?
          let outgoing ← connection.outgoing.step action
          some { p with websockets := p.websockets.set w { connection with outgoing } }
        else none
    | .proceed i now => p.handle setup i (.proceed i now)
    | .raise i what => p.handle setup i (.raise i what)

end Process

end NanoPowServer.Entry
