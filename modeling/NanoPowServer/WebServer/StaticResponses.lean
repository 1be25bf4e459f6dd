import NanoPowServer.Library.Framing
import NanoPowServer.WebServer.StaticFiles

/-! The messages that `handle_request` sends by itself, with their heads. Every one tells
the length of its body, and a client on a connection that is kept needs to know where the
next one begins. -/
namespace NanoPowServer.WebServer

open Framing

structure Head where
  status : Nat
  version : Nat
  server : String
  contentType : String
  keepAlive : Bool
  contentLength : Nat
  deriving DecidableEq

structure Message where
  head : Head
  body : String
  deriving DecidableEq

/-- A request with what the files are while it is handled. -/
structure StaticRequest where
  verb : Verb
  request : Request
  body : String := ""
  files : String → OpenResult

namespace Message

/-- The payload is prepared: the length is that of the text. -/
def text (status : Nat) (request : Request) (body : String) : Message where
  head :=
    { status
      version := request.version
      server := "web/1"
      contentType := "text/html"
      keepAlive := request.keepAlive
      contentLength := body.utf8ByteSize }
  body

def badRequest (request : Request) (why : String) : Message := text 400 request why

def notFound (request : Request) (target : String) : Message :=
  text 404 request ("The resource '" ++ target ++ "' was not found.")

def serverError (request : Request) (what : String) : Message :=
  text 500 request ("An error occurred: '" ++ what ++ "'")

end Message

/-- From the last dot of a path on. -/
def extension (path : String) : String :=
  if '.' ∈ path.toList then
    String.ofList ('.' :: (path.toList.reverse.takeWhile (· ≠ '.')).reverse)
  else ""

def iequals (a b : String) : Bool := a.toList.map Char.toLower = b.toList.map Char.toLower

def mimeTypes : List (String × String) :=
  [(".htm", "text/html"), (".html", "text/html"), (".css", "text/css"), (".txt", "text/plain"),
   (".js", "application/javascript"), (".json", "application/json"), (".xml", "application/xml"),
   (".png", "image/png"), (".jpe", "image/jpeg"), (".jpeg", "image/jpeg"), (".jpg", "image/jpeg"),
   (".gif", "image/gif"), (".bmp", "image/bmp"), (".ico", "image/vnd.microsoft.icon"),
   (".tiff", "image/tiff"), (".tif", "image/tiff"), (".svg", "image/svg+xml"),
   (".svgz", "image/svg+xml")]

def mimeType (path : String) : String :=
  ((mimeTypes.find? fun (ext, _) => iequals (extension path) ext).map Prod.snd).getD
    "application/text"

/-- The file, or only the head of the message for a HEAD request. `beast` is the version
text of the library. -/
def Message.file (beast : String) (verb : Verb) (request : Request) (path contents : String) :
    Message where
  head :=
    { status := 200
      version := request.version
      server := beast
      contentType := mimeType path
      keepAlive := request.keepAlive
      contentLength := contents.utf8ByteSize }
  body := if verb = .head then "" else contents

/-- The response once no other file is going to be tried. -/
def fileMessage (beast : String) (verb : Verb) (request : Request) (path : String) :
    OpenResult → Message
  | .noSuchFile => .notFound request request.target
  | .failed message => .serverError request message
  | .opened contents => .file beast verb request path contents

/-- The files that are tried for a target, one after the other. -/
def filePath (docRoot target : String) : String :=
  let path := pathCat docRoot target
  if target.toList.getLast? = some '/' then path ++ "index.html" else path

def indexPath (docRoot : String) : String := pathCat docRoot "/index.html"

def handleFileMessage (beast docRoot : String) (files : String → OpenResult) (verb : Verb)
    (request : Request) : List String × Message :=
  let path := filePath docRoot request.target
  match files (cStr path) with
  | .noSuchFile =>
      let index := indexPath docRoot
      ([path, index], fileMessage beast verb request index (files (cStr index)))
  | result => ([path], fileMessage beast verb request path result)

/-- The files that are opened, and the message or how an endpoint deals with the request. -/
def handleRequestMessage (conf : WebConfig) (handlers : List RestEndpoint) (beast docRoot : String)
    (isLoopback : Bool) (asked : StaticRequest) : List String × (Message ⊕ Handling) :=
  let target := asked.request.target
  if isIllegal target then ([], .inl (.badRequest asked.request "Illegal request-target"))
  else
    match handlers.find? fun handler => handler.path target && handler.verb == asked.verb with
    | some handler => ([], .inr (handler.handler asked.body (handler.captures target)))
    | none =>
        if !conf.staticPagesAllow || (!conf.staticPagesAllowRemote && !isLoopback) then
          ([], .inl (.badRequest asked.request "Access denied"))
        else
          let (opened, message) :=
            handleFileMessage beast docRoot asked.files asked.verb asked.request
          (opened, .inl message)

/-- What is left of a message when its head is forgotten. -/
def Message.handling (message : Message) : Handling := .send message.body

variable (conf : WebConfig) (handlers : List RestEndpoint) (beast docRoot : String)
  (isLoopback : Bool) (asked : StaticRequest)

theorem handling_fileMessage (verb : Verb) (request : Request) (path : String)
    (result : OpenResult) :
    (fileMessage beast verb request path result).handling =
      respondFile verb request.target result := by
  cases result <;> rfl

theorem handleFile_eq (files : String → OpenResult) (verb : Verb) (request : Request) :
    handleFile docRoot files verb request.target =
      ⟨(handleFileMessage beast docRoot files verb request).1,
        (handleFileMessage beast docRoot files verb request).2.handling⟩ := by
  unfold handleFile handleFileMessage filePath indexPath
  dsimp only
  generalize (if request.target.toList.getLast? = some '/' then
    pathCat docRoot request.target ++ "index.html" else pathCat docRoot request.target) = path
  cases files (cStr path) with
  | noSuchFile => simp only [handling_fileMessage]
  | opened contents | failed message => rfl

/-- Without the heads these are the responses that the sessions work with. -/
theorem handleRequest_eq :
    handleRequest conf handlers docRoot isLoopback asked.files asked.verb asked.request.target
        asked.body =
      ⟨(handleRequestMessage conf handlers beast docRoot isLoopback asked).1,
        (handleRequestMessage conf handlers beast docRoot isLoopback asked).2.elim
          Message.handling id⟩ := by
  unfold handleRequest handleRequestMessage
  dsimp only
  split
  · rfl
  · cases hFound : handlers.find? fun handler =>
        handler.path asked.request.target && handler.verb == asked.verb with
    | some handler => rfl
    | none =>
        dsimp only
        split
        · rfl
        · exact handleFile_eq beast docRoot asked.files asked.verb asked.request

/-- The bytes that are written, after the head. -/
def Message.frame (message : Message) : Frame Head where
  head := message.head
  body := message.body.toByteArray.data.toList

/-- A response to a HEAD request ends with its head, whatever length that tells. -/
def expectedLength (verb : Verb) (head : Head) : Nat :=
  if verb = .head then 0 else head.contentLength

/-- The target is legal, static files are served to this peer, and the file is there or
there is an index to take its place. -/
def servesFile (files : String → OpenResult) (target : String) : Bool :=
  !isIllegal target && !(!conf.staticPagesAllow || (!conf.staticPagesAllowRemote && !isLoopback)) &&
    match files (cStr (filePath docRoot target)) with
    | .opened _ => true
    | .failed _ => false
    | .noSuchFile =>
        match files (cStr (indexPath docRoot)) with
        | .opened _ => true
        | _ => false

theorem length_frame (message : Message) :
    message.frame.body.length = message.body.utf8ByteSize := by
  simp [Message.frame]

theorem pos_of_append (front text back : String) (h : front ≠ "") :
    0 < (front ++ text ++ back).utf8ByteSize := by
  have hFront : front.utf8ByteSize ≠ 0 := by
    rw [Ne, String.utf8ByteSize_eq_zero_iff]
    exact h
  rw [String.utf8ByteSize_append, String.utf8ByteSize_append]
  omega

/-- A message is a text that is not empty, or it is a file. -/
structure Framed (verb : Verb) (found : Bool) (message : Message) : Prop where
  error : found = false →
    message.head.contentLength = message.body.utf8ByteSize ∧ 0 < message.body.utf8ByteSize
  file : found = true → if verb = .head then message.body = ""
    else message.head.contentLength = message.body.utf8ByteSize

theorem framed_text (status : Nat) (request : Request) {body : String} (verb : Verb)
    (h : 0 < body.utf8ByteSize) : Framed verb false (.text status request body) :=
  ⟨fun _ => ⟨rfl, h⟩, fun hFound => (by cases hFound)⟩

theorem framed_fileMessage (verb : Verb) (request : Request) (path : String)
    (result : OpenResult) :
    Framed verb (match result with | .opened _ => true | _ => false)
      (fileMessage beast verb request path result) := by
  cases result with
  | noSuchFile => exact framed_text 404 request verb (pos_of_append _ _ _ (by decide))
  | failed message => exact framed_text 500 request verb (pos_of_append _ _ _ (by decide))
  | opened contents =>
      refine ⟨fun hFound => (by cases hFound), fun _ => ?_⟩
      by_cases hVerb : verb = .head
      · simp [fileMessage, Message.file, hVerb]
      · simp [fileMessage, Message.file, hVerb]

theorem framed_handleFileMessage (files : String → OpenResult) (verb : Verb) (request : Request) :
    Framed verb
      (match files (cStr (filePath docRoot request.target)) with
        | .opened _ => true
        | .failed _ => false
        | .noSuchFile =>
            match files (cStr (indexPath docRoot)) with
            | .opened _ => true
            | _ => false)
      (handleFileMessage beast docRoot files verb request).2 := by
  unfold handleFileMessage
  dsimp only
  cases files (cStr (filePath docRoot request.target)) with
  | noSuchFile =>
      exact framed_fileMessage beast verb request (indexPath docRoot)
        (files (cStr (indexPath docRoot)))
  | failed message =>
      exact framed_fileMessage beast verb request (filePath docRoot request.target)
        (.failed message)
  | opened contents =>
      exact framed_fileMessage beast verb request (filePath docRoot request.target)
        (.opened contents)

/-- The message that a request is answered with by the session itself. -/
theorem framed_of_answered {message : Message}
    (answered : (handleRequestMessage conf handlers beast docRoot isLoopback asked).2 =
      .inl message) :
    Framed asked.verb (servesFile conf docRoot isLoopback asked.files asked.request.target)
      message := by
  unfold handleRequestMessage at answered
  unfold servesFile
  dsimp only at answered
  cases hLegal : isIllegal asked.request.target with
  | true =>
      rw [hLegal, if_pos rfl] at answered
      obtain rfl := Sum.inl.inj answered
      exact framed_text 400 _ _ (by decide)
  | false =>
      rw [hLegal, if_neg (by simp)] at answered
      cases hFound : handlers.find? fun handler =>
          handler.path asked.request.target && handler.verb == asked.verb with
      | some handler => simp [hFound] at answered
      | none =>
          simp only [hFound] at answered
          split at answered
          · next hDenied =>
              obtain rfl := Sum.inl.inj answered
              simp only [hDenied, Bool.not_true, Bool.and_false, Bool.false_and]
              exact framed_text 400 _ _ (by decide)
          · next hAllowed =>
              obtain rfl := Sum.inl.inj answered
              rw [Bool.not_eq_true] at hAllowed
              rw [hAllowed]
              exact framed_handleFileMessage beast docRoot asked.files asked.verb asked.request

/-- The client takes the body of the message for what it is, unless it is the text of an
error that a HEAD request is answered with. -/
theorem Framed.expected_iff {verb : Verb} {found : Bool} {message : Message}
    (h : Framed verb found message) :
    expectedLength verb message.head = message.frame.body.length ↔
      (verb = .head → found = true) := by
  rw [length_frame]
  unfold expectedLength
  cases hFound : found with
  | false =>
      obtain ⟨hLength, hText⟩ := h.error hFound
      by_cases hVerb : verb = .head
      · simp only [hVerb, if_true]
        constructor
        · omega
        · intro hNot
          cases hNot trivial
      · simp [hVerb, hLength]
  | true =>
      have hFile := h.file hFound
      by_cases hVerb : verb = .head
      · simp only [hVerb, if_true] at hFile ⊢
        simp [hFile]
      · simp only [hVerb, if_false] at hFile ⊢
        simp [hFile]

/-- A client that asks for static files one after the other reads back what was written,
each message with its own body, exactly if each of its HEAD requests was for a file that
is served: an error that a HEAD request is answered with has a body all the same. -/
theorem reads_back_iff (exchanges : List (StaticRequest × Message))
    (answered : ∀ exchange ∈ exchanges,
      (handleRequestMessage conf handlers beast docRoot isLoopback exchange.1).2 =
        .inl exchange.2) :
    readAll (exchanges.map fun exchange => expectedLength exchange.1.verb)
        ((exchanges.map fun exchange => exchange.2.frame).flatMap Frame.pieces) =
        some (exchanges.map fun exchange => exchange.2.frame) ↔
      ∀ exchange ∈ exchanges, exchange.1.verb = .head →
        servesFile conf docRoot isLoopback exchange.1.files exchange.1.request.target = true := by
  have hRead := readAll_pieces_iff
    (exchanges.map fun exchange => (expectedLength exchange.1.verb, exchange.2.frame))
  simp only [List.map_map, List.forall_mem_map] at hRead
  refine Iff.trans hRead ?_
  apply forall₂_congr
  intro exchange hMem
  exact (framed_of_answered conf handlers beast docRoot isLoopback exchange.1
    (answered exchange hMem)).expected_iff

/-- A HEAD request for a file that is not there: the text of the error is still to come
when the client expects the next head. -/
theorem reads_back_iff_missing :
    let missing : StaticRequest :=
      { verb := .head, request := { target := "/a" }, files := fun _ => .noSuchFile }
    let message := Message.notFound missing.request "/a"
    readAll [expectedLength .head] ([message.frame].flatMap Frame.pieces) ≠ some [message.frame] := by
  intro missing message hRead
  have hLegal : isIllegal "/a" = false := by decide
  have hAnswered : (handleRequestMessage {} [] "" "public" true missing).2 = .inl message := by
    simp only [handleRequestMessage, missing, hLegal]
    rfl
  have hServes := (reads_back_iff {} [] "" "public" true [(missing, message)]
    (by simpa using hAnswered)).mp hRead (missing, message) List.mem_cons_self rfl
  have hNot : servesFile {} "public" true missing.files missing.request.target = false := by
    simp [servesFile, missing]
  rw [hNot] at hServes
  cases hServes

end NanoPowServer.WebServer
