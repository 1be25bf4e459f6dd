import NanoPowServer.Library.Execution

/-! One HTTP connection: the requests that are read from it and the queue of the
responses that are written to it. The completion handlers run one after the other
on the strand of the session; a pool task calls `write_json_response` at any
moment. Each call of the queue is one step. -/
namespace NanoPowServer.WebServer

/-- What the session uses of a request. `isUpgrade` is `websocket::is_upgrade`. -/
structure Request where
  isUpgrade : Bool := false
  target : String
  version : Nat := 11
  keepAlive : Bool := true
  deriving DecidableEq

/-- A message of the queue, with the number of the request that it answers. -/
structure Response where
  request : Nat
  version : Nat
  keepAlive : Bool
  body : String
  deriving DecidableEq

/-- The payload is prepared, so the end of the message is not the end of the
stream and only the keep-alive setting counts. -/
def Response.needEof (response : Response) : Bool := !response.keepAlive

/-- How `handle_request` deals with a request: it sends a message of its own, or
it invokes an endpoint whose handler writes its response before it returns, or
one whose handler keeps the session for a pool task. -/
inductive Handling where
  | send (body : String)
  | respond (body : String)
  | defer

inductive ErrorCode where
  | endOfStream
  | operationAborted
  | other

/-- The path of a url: from the first slash to the first question mark. -/
def urlPath (url : String) : String :=
  String.ofList ((url.toList.dropWhile (· ≠ '/')).takeWhile (· ≠ '?'))

/-- The compiled pattern of a WebSocket endpoint. -/
abbrev Pattern := String → Bool

/-- `reads` and `writing` are the outstanding asynchronous operations. `handling`
is set while `on_read` has handled its request and not yet tested the queue. The
last four fields record the run: the requests read, those whose handlers have kept
the session, and the numbers of the requests in the order in which their
responses were put on the queue and written. -/
structure HttpSession where
  items : List Response
  clientVersion : Nat
  clientKeepalive : Bool
  reads : Nat
  writing : List Response
  handling : Bool
  shutdown : Bool
  closed : Bool
  failed : Bool
  upgraded : Bool
  requests : List Request
  deferred : List Nat
  enqueued : List Nat
  written : List Nat

namespace HttpSession

/-- Maximum number of responses we will queue. -/
def limit : Nat := 8

/-- The session that `run` starts. -/
def initial : HttpSession where
  items := []
  clientVersion := 11
  clientKeepalive := true
  reads := 1
  writing := []
  handling := false
  shutdown := false
  closed := false
  failed := false
  upgraded := false
  requests := []
  deferred := []
  enqueued := []
  written := []

/-- We have reached the queue limit. -/
def isFull (session : HttpSession) : Bool := limit ≤ session.items.length

/-- The connection has not been shut down, failed or upgraded. -/
def isUp (session : HttpSession) : Bool :=
  !session.shutdown && !session.failed && !session.upgraded

def read (session : HttpSession) : HttpSession := { session with reads := session.reads + 1 }

def gracefulShutdown (session : HttpSession) : HttpSession := { session with shutdown := true }

def fail (session : HttpSession) : HttpSession := { session with failed := true }

/-- Store the message, and start to write it if there was no previous one. -/
def enqueue (session : HttpSession) (response : Response) : HttpSession :=
  let items := session.items ++ [response]
  { session with
    items
    writing := if items.length = 1 then session.writing ++ items.take 1 else session.writing
    enqueued := session.enqueued ++ [response.request] }

/-- A message has finished sending: erase it and start to write the next one. The
flag tells the caller to initiate a read. -/
def queueOnWrite (session : HttpSession) : HttpSession × Bool :=
  let wasFull := session.isFull
  let items := session.items.drop 1
  ({ session with items, writing := session.writing ++ items.take 1 }, wasFull)

/-- The response takes the settings of the request that was read last. -/
def writeJsonResponse (session : HttpSession) (request : Nat) (body : String) : HttpSession :=
  session.enqueue
    { request, version := session.clientVersion, keepAlive := session.clientKeepalive, body }

def handleRequest (session : HttpSession) (number : Nat) (request : Request)
    (handling : Handling) : HttpSession :=
  let session :=
    { session with clientVersion := request.version, clientKeepalive := request.keepAlive }
  match handling with
  | .send body =>
      session.enqueue
        { request := number, version := request.version, keepAlive := request.keepAlive, body }
  | .respond body => session.writeJsonResponse number body
  | .defer => { session with deferred := session.deferred ++ [number] }

/-- A request has been read, and its response sent if it is not a WebSocket
upgrade. An upgrade whose path no endpoint matches is only logged. -/
def onRead (handlers : List Pattern) (session : HttpSession) (request : Request)
    (handling : Handling) : HttpSession :=
  let number := session.requests.length
  let session := { session with requests := session.requests ++ [request] }
  if request.isUpgrade then
    if handlers.any fun pattern => pattern (urlPath request.target) then
      { session with upgraded := true }
    else session
  else { session.handleRequest number request handling with handling := true }

/-- The rest of `on_read`: if we aren't at the queue limit, try to pipeline
another request. -/
def pipeline (session : HttpSession) : HttpSession :=
  let session := { session with handling := false }
  if session.isFull then session else session.read

/-- A message has been written. -/
def onWrite (session : HttpSession) (response : Response) : HttpSession :=
  if response.needEof then session.gracefulShutdown
  else
    let (session, wasFull) := session.queueOnWrite
    if wasFull then session.read else session

end HttpSession

/-- The choices of the environment: which operation completes and how, what is
read and how it is handled, and which pool task responds. -/
inductive Action where
  | onRead (request : Request) (handling : Handling)
  | pipeline
  | onReadError (ec : ErrorCode)
  | onWrite
  | onWriteError (ec : ErrorCode)
  | writeJsonResponse (request : Nat) (body : String)
  | onTimer

/-- One completion handler on the strand, or the rest of the one that it runs, or
one response of a pool task. Operations are aborted only once the timer has
closed the socket. -/
def HttpSession.step (handlers : List Pattern) (session : HttpSession) :
    Action → Option HttpSession
  | .onRead request handling =>
      if session.handling = false ∧ 0 < session.reads then
        some ({ session with reads := session.reads - 1 }.onRead handlers request handling)
      else none
  | .pipeline => if session.handling = true then some session.pipeline else none
  | .onReadError ec =>
      if session.handling = false ∧ 0 < session.reads then
        let session := { session with reads := session.reads - 1 }
        match ec with
        | .operationAborted => if session.closed = true then some session else none
        | .endOfStream => some session.gracefulShutdown
        | .other => some session.fail
      else none
  | .onWrite =>
      match session.handling, session.writing with
      | false, response :: rest =>
          some ({ session with
            writing := rest, written := session.written ++ [response.request] }.onWrite response)
      | _, _ => none
  | .onWriteError ec =>
      match session.handling, session.writing with
      | false, _ :: rest =>
          let session := { session with writing := rest }
          match ec with
          | .operationAborted => if session.closed = true then some session else none
          | .endOfStream | .other => some session.fail
      | _, _ => none
  | .writeJsonResponse request body =>
      if request ∈ session.deferred then
        some ({ session with
          deferred := session.deferred.erase request }.writeJsonResponse request body)
      else none
  | .onTimer =>
      if session.handling = false then
        some { session with shutdown := true, closed := true }
      else none

/-- The WebSocket endpoint that is registered. -/
def websocketHandlers : List Pattern := [fun path => path == "/websocket"]

def workRequest : Request := { target := "/api/v1/work" }

def pingRequest : Request := { target := "/api/v1/ping" }

/-- The client pipelines requests for work, and their tasks are posted. -/
def pipelineWork (count : Nat) : List Action :=
  (List.replicate count [Action.onRead workRequest .defer, .pipeline]).flatten

/-- Run the session of a new connection. -/
def sampleRun (actions : List Action) : Option HttpSession :=
  Execution.runActions (HttpSession.step websocketHandlers) HttpSession.initial actions

end NanoPowServer.WebServer
