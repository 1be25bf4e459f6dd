import NanoPowServer.WebServer.HttpSession

/-! What each step of a session can do, and the writing side of its queue: the
responses are written in the order in which they were put on the queue. -/
namespace NanoPowServer.WebServer

open Execution

namespace HttpSession

variable (session : HttpSession) (response : Response)

@[simp] theorem enqueue_items : (session.enqueue response).items = session.items ++ [response] :=
  rfl

@[simp] theorem enqueue_enqueued :
    (session.enqueue response).enqueued = session.enqueued ++ [response.request] := rfl

@[simp] theorem enqueue_reads : (session.enqueue response).reads = session.reads := rfl

@[simp] theorem enqueue_shutdown : (session.enqueue response).shutdown = session.shutdown := rfl

@[simp] theorem enqueue_closed : (session.enqueue response).closed = session.closed := rfl

@[simp] theorem enqueue_failed : (session.enqueue response).failed = session.failed := rfl

@[simp] theorem enqueue_upgraded : (session.enqueue response).upgraded = session.upgraded := rfl

@[simp] theorem enqueue_requests : (session.enqueue response).requests = session.requests := rfl

@[simp] theorem enqueue_deferred : (session.enqueue response).deferred = session.deferred := rfl

@[simp] theorem enqueue_written : (session.enqueue response).written = session.written := rfl

/-- A message is written at once if the queue was empty. -/
@[simp] theorem enqueue_writing : (session.enqueue response).writing =
    if session.items = [] then session.writing ++ [response] else session.writing := by
  cases hItems : session.items <;> simp [enqueue, hItems]

theorem isUp_eq_false_iff : session.isUp = false ↔
    session.shutdown = true ∨ session.failed = true ∨ session.upgraded = true := by
  unfold isUp
  cases session.shutdown <;> cases session.failed <;> simp

end HttpSession

open HttpSession

/-- The steps of a session, with one constructor for each branch of the source. -/
inductive Step (handlers : List Pattern) (session : HttpSession) : Action → HttpSession → Prop where
  | upgrade (request : Request) (handling : Handling) (strand : session.handling = false)
      (reading : 0 < session.reads) (isUpgrade : request.isUpgrade = true) :
      Step handlers session (.onRead request handling)
        { session with
          reads := session.reads - 1
          requests := session.requests ++ [request]
          upgraded := session.upgraded ||
            handlers.any fun pattern => pattern (urlPath request.target) }
  | respond (request : Request) (handling : Handling) (response : Response)
      (strand : session.handling = false) (reading : 0 < session.reads)
      (noUpgrade : request.isUpgrade = false)
      (sends : (∃ body, handling = .send body) ∨ ∃ body, handling = .respond body)
      (answers : response.request = session.requests.length)
      (settings : response.version = request.version ∧ response.keepAlive = request.keepAlive) :
      Step handlers session (.onRead request handling)
        ({ session with
          reads := session.reads - 1
          handling := true
          clientVersion := request.version
          clientKeepalive := request.keepAlive
          requests := session.requests ++ [request] }.enqueue response)
  | defer (request : Request) (strand : session.handling = false)
      (reading : 0 < session.reads) (noUpgrade : request.isUpgrade = false) :
      Step handlers session (.onRead request .defer)
        { session with
          reads := session.reads - 1
          handling := true
          clientVersion := request.version
          clientKeepalive := request.keepAlive
          requests := session.requests ++ [request]
          deferred := session.deferred ++ [session.requests.length] }
  | pause (handled : session.handling = true) (full : limit ≤ session.items.length) :
      Step handlers session .pipeline { session with handling := false }
  | pipeline (handled : session.handling = true) (room : session.items.length < limit) :
      Step handlers session .pipeline
        { session with handling := false, reads := session.reads + 1 }
  | readAborted (strand : session.handling = false) (reading : 0 < session.reads)
      (closed : session.closed = true) :
      Step handlers session (.onReadError .operationAborted)
        { session with reads := session.reads - 1 }
  | readEnded (strand : session.handling = false) (reading : 0 < session.reads) :
      Step handlers session (.onReadError .endOfStream)
        { session with reads := session.reads - 1, shutdown := true }
  | readFailed (strand : session.handling = false) (reading : 0 < session.reads) :
      Step handlers session (.onReadError .other)
        { session with reads := session.reads - 1, failed := true }
  | wroteLast (response : Response) (rest : List Response) (strand : session.handling = false)
      (writing : session.writing = response :: rest) (close : response.needEof = true) :
      Step handlers session .onWrite
        { session with
          writing := rest, written := session.written ++ [response.request], shutdown := true }
  | wroteFull (response : Response) (rest : List Response) (strand : session.handling = false)
      (writing : session.writing = response :: rest) (keep : response.needEof = false)
      (full : limit ≤ session.items.length) :
      Step handlers session .onWrite
        { session with
          items := session.items.drop 1
          writing := rest ++ (session.items.drop 1).take 1
          written := session.written ++ [response.request]
          reads := session.reads + 1 }
  | wrote (response : Response) (rest : List Response) (strand : session.handling = false)
      (writing : session.writing = response :: rest) (keep : response.needEof = false)
      (room : session.items.length < limit) :
      Step handlers session .onWrite
        { session with
          items := session.items.drop 1
          writing := rest ++ (session.items.drop 1).take 1
          written := session.written ++ [response.request] }
  | writeAborted (response : Response) (rest : List Response) (strand : session.handling = false)
      (writing : session.writing = response :: rest) (closed : session.closed = true) :
      Step handlers session (.onWriteError .operationAborted) { session with writing := rest }
  | writeFailed (response : Response) (rest : List Response) (ec : ErrorCode)
      (strand : session.handling = false) (writing : session.writing = response :: rest) :
      Step handlers session (.onWriteError ec) { session with writing := rest, failed := true }
  | taskResponds (request : Nat) (body : String) (response : Response)
      (kept : request ∈ session.deferred) (answers : response.request = request)
      (settings : response.version = session.clientVersion ∧
        response.keepAlive = session.clientKeepalive) :
      Step handlers session (.writeJsonResponse request body)
        ({ session with deferred := session.deferred.erase request }.enqueue response)
  | close (strand : session.handling = false) :
      Step handlers session .onTimer { session with shutdown := true, closed := true }

theorem step_onRead {handlers : List Pattern} {session : HttpSession} (request : Request)
    (handling : Handling) (strand : session.handling = false) (reading : 0 < session.reads) :
    Step handlers session (.onRead request handling)
      ({ session with reads := session.reads - 1 }.onRead handlers request handling) := by
  unfold onRead
  cases hUpgrade : request.isUpgrade with
  | true =>
      have hStep : Step handlers session _ _ := .upgrade request handling strand reading hUpgrade
      cases hAny : handlers.any fun pattern => pattern (urlPath request.target) <;>
        simpa [hAny] using hStep
  | false =>
      cases handling with
      | send body =>
          exact .respond request (.send body) _ strand reading hUpgrade (.inl ⟨_, rfl⟩) rfl ⟨rfl, rfl⟩
      | respond body =>
          exact .respond request (.respond body) _ strand reading hUpgrade (.inr ⟨_, rfl⟩) rfl
            ⟨rfl, rfl⟩
      | defer => exact .defer request strand reading hUpgrade

theorem step_cases {handlers : List Pattern} {session next : HttpSession} {action : Action}
    (h : session.step handlers action = some next) : Step handlers session action next := by
  cases action with
  | onRead request handling =>
      obtain ⟨⟨strand, reading⟩, rfl⟩ := by simpa [HttpSession.step] using h
      exact step_onRead request handling strand reading
  | pipeline =>
      obtain ⟨handled, rfl⟩ := by simpa [HttpSession.step] using h
      by_cases hFull : limit ≤ session.items.length
      · simpa [HttpSession.pipeline, isFull, hFull] using Step.pause handled hFull
      · simpa [HttpSession.pipeline, isFull, hFull, HttpSession.read] using
          Step.pipeline handled (Nat.lt_of_not_le hFull)
  | onReadError ec =>
      simp only [HttpSession.step, Option.ite_none_right_eq_some] at h
      obtain ⟨⟨strand, reading⟩, h⟩ := h
      cases ec with
      | operationAborted =>
          obtain ⟨closed, rfl⟩ := by simpa using h
          exact .readAborted strand reading closed
      | endOfStream =>
          obtain rfl := by simpa using h
          exact .readEnded strand reading
      | other =>
          obtain rfl := by simpa using h
          exact .readFailed strand reading
  | onWrite =>
      simp only [HttpSession.step] at h
      split at h
      · rename_i response rest strand writing
        obtain rfl := Option.some.inj h
        unfold HttpSession.onWrite
        cases hEof : response.needEof with
        | true => exact .wroteLast response rest strand writing hEof
        | false =>
            by_cases hFull : limit ≤ session.items.length
            · simpa [queueOnWrite, isFull, hFull, HttpSession.read] using
                Step.wroteFull response rest strand writing hEof hFull
            · simpa [queueOnWrite, isFull, hFull] using
                Step.wrote response rest strand writing hEof (Nat.lt_of_not_le hFull)
      · simp at h
  | onWriteError ec =>
      simp only [HttpSession.step] at h
      split at h
      · rename_i response rest strand writing
        cases ec with
        | operationAborted =>
            obtain ⟨closed, rfl⟩ := by simpa using h
            exact .writeAborted response rest strand writing closed
        | endOfStream | other =>
            obtain rfl := Option.some.inj h
            exact .writeFailed response rest _ strand writing
      · simp at h
  | writeJsonResponse request body =>
      obtain ⟨kept, rfl⟩ := by simpa [HttpSession.step] using h
      exact .taskResponds request body _ kept rfl ⟨rfl, rfl⟩
  | onTimer =>
      obtain ⟨strand, rfl⟩ := by simpa [HttpSession.step] using h
      exact .close strand

/-- How many of the next writes are each followed by another one: those of the
first items that keep the connection alive, and none if writing has stopped. -/
def HttpSession.keepAlives (session : HttpSession) : Nat :=
  if session.writing = [] then 0
  else (session.items.takeWhile fun item => !item.needEof).length

/-- The items that are yet to be written, if no write fails. -/
def HttpSession.due (session : HttpSession) : List Response :=
  if session.writing = [] then [] else session.items.take (session.keepAlives + 1)

/-- A response that joins the queue is written, if no write fails. -/
def HttpSession.isOpen (session : HttpSession) : Bool :=
  session.keepAlives == session.items.length

/-- How far the queue is written: its first item is being written, or writing has
stopped for good with that item still in the queue. -/
inductive Delivery (session : HttpSession) : Prop where
  | live (writing : session.writing = session.items.take 1)
      (delivered : session.enqueued = session.written ++ session.items.map Response.request)
  | stopped (writing : session.writing = []) (kept : session.items ≠ [])
      (down : session.isUp = false) (delivered : session.written <+: session.enqueued)

/-- The message that is being written is the first item. -/
theorem Delivery.items_eq {session : HttpSession} (h : Delivery session) {response : Response}
    {rest : List Response} (writing : session.writing = response :: rest) :
    ∃ later, session.items = response :: later ∧ rest = [] ∧
      session.enqueued = session.written ++ response.request :: later.map Response.request := by
  cases h with
  | live hWriting delivered =>
      rw [writing] at hWriting
      cases hItems : session.items with
      | nil => simp [hItems] at hWriting
      | cons first later =>
          obtain ⟨rfl, rfl⟩ : response = first ∧ rest = [] := by simpa [hItems] using hWriting
          exact ⟨later, rfl, rfl, by simpa [hItems] using delivered⟩
  | stopped hWriting => simp [writing] at hWriting

theorem Delivery.due_initial {session : HttpSession} (h : Delivery session) :
    session.written ++ session.due.map Response.request <+: session.enqueued := by
  unfold due
  cases h with
  | live writing delivered =>
      split
      · exact ⟨_, by simpa using delivered.symm⟩
      · refine ⟨(session.items.drop (session.keepAlives + 1)).map Response.request, ?_⟩
        rw [List.append_assoc, ← List.map_append, List.take_append_drop, delivered]
  | stopped writing kept down delivered => simpa [writing] using delivered

/-- A step that leaves the queue alone. -/
theorem Delivery.of_same {session next : HttpSession} (h : Delivery session)
    (items : next.items = session.items) (writing : next.writing = session.writing)
    (enqueued : next.enqueued = session.enqueued) (written : next.written = session.written)
    (down : session.isUp = false → next.isUp = false) : Delivery next := by
  cases h with
  | live hWriting delivered =>
      exact .live (by rw [writing, items, hWriting]) (by rw [enqueued, written, items, delivered])
  | stopped hWriting kept hDown delivered =>
      exact .stopped (writing.trans hWriting) (by rwa [items]) (down hDown)
        (by rwa [enqueued, written])

theorem Delivery.enqueue {session : HttpSession} (h : Delivery session) (response : Response) :
    Delivery (session.enqueue response) := by
  cases h with
  | live writing delivered =>
      refine .live ?_ ?_
      · cases hItems : session.items <;> simp [writing, hItems]
      · simp [delivered]
  | stopped writing kept down delivered =>
      refine .stopped ?_ ?_ ?_ ?_
      · simp [kept, writing]
      · simp
      · simpa [isUp] using down
      · exact delivered.trans (List.prefix_append _ _)

/-- The connection is shut down once the timer has closed the socket. -/
theorem shutdown_of_closed {handlers : List Pattern} {guard : HttpSession → Action → Prop}
    {session : HttpSession} (run : Reaches (HttpSession.step handlers) guard initial session) :
    session.closed = true → session.shutdown = true := by
  refine run.invariant (fun session => session.closed = true → session.shutdown = true) ?_ ?_
  · simp [initial]
  · intro session action next _ ih _ hStep
    cases step_cases hStep <;> simp_all

theorem Delivery.step {handlers : List Pattern} {session next : HttpSession} {action : Action}
    (h : Delivery session) (hClosed : session.closed = true → session.shutdown = true)
    (hStep : Step handlers session action next) : Delivery next := by
  cases hStep with
  | respond | taskResponds =>
      apply Delivery.enqueue
      exact h.of_same rfl rfl rfl rfl id
  | wroteLast response rest strand writing =>
      obtain ⟨later, items, rfl, delivered⟩ := h.items_eq writing
      refine .stopped rfl (by simp [items]) (by simp [isUp]) ?_
      exact ⟨later.map Response.request, by simp [delivered]⟩
  | wroteFull response rest strand writing | wrote response rest strand writing =>
      obtain ⟨later, items, rfl, delivered⟩ := h.items_eq writing
      exact .live rfl (by simp [items, delivered])
  | writeAborted response rest strand writing closed =>
      obtain ⟨later, items, rfl, delivered⟩ := h.items_eq writing
      refine .stopped rfl (by simp [items]) (by simp [isUp, hClosed closed]) ?_
      exact ⟨_, delivered.symm⟩
  | writeFailed response rest ec strand writing =>
      obtain ⟨later, items, rfl, delivered⟩ := h.items_eq writing
      refine .stopped rfl (by simp [items]) (by simp [isUp]) ?_
      exact ⟨_, delivered.symm⟩
  | upgrade | readEnded | readFailed | close =>
      refine h.of_same rfl rfl rfl rfl ?_
      simp only [isUp_eq_false_iff, Bool.or_eq_true]
      tauto
  | defer | pause | pipeline | readAborted => exact h.of_same rfl rfl rfl rfl id

/-- In every run, responses are written in the order in which they were put on
the queue, one at a time, until writing stops. -/
theorem Delivery.of_reaches {handlers : List Pattern} {guard : HttpSession → Action → Prop}
    {session : HttpSession} (run : Reaches (HttpSession.step handlers) guard initial session) :
    Delivery session := by
  refine run.invariant Delivery ?_ ?_
  · exact .live rfl rfl
  · intro session action next prior h _ hStep
    exact h.step (shutdown_of_closed prior) (step_cases hStep)

theorem HttpSession.keepAlives_of_live {session : HttpSession}
    (writing : session.writing = session.items.take 1) :
    session.keepAlives = (session.items.takeWhile fun item => !item.needEof).length := by
  unfold HttpSession.keepAlives
  split
  · rename_i hNone
    cases hItems : session.items with
    | nil => rfl
    | cons first later => simp [writing, hItems] at hNone
  · rfl

theorem HttpSession.keepAlives_lt {session : HttpSession}
    (hOpen : ¬session.isOpen = true) : session.keepAlives < session.items.length := by
  have hNe : session.keepAlives ≠ session.items.length := by simpa [isOpen] using hOpen
  refine Nat.lt_of_le_of_ne ?_ hNe
  unfold keepAlives
  split
  · exact Nat.zero_le _
  · exact (List.takeWhile_prefix _).length_le

theorem Delivery.keepAlives_enqueue {session : HttpSession} (h : Delivery session)
    (response : Response) : (session.enqueue response).keepAlives =
      if session.isOpen = true ∧ response.needEof = false then session.keepAlives + 1
      else session.keepAlives := by
  cases h with
  | live writing delivered =>
      have hNext : (session.enqueue response).writing = (session.enqueue response).items.take 1 := by
        cases hItems : session.items <;> simp [writing, hItems]
      rw [keepAlives_of_live hNext, isOpen, keepAlives_of_live writing, enqueue_items,
        List.takeWhile_append]
      by_cases hAll : (session.items.takeWhile fun item => !item.needEof).length =
          session.items.length
      · cases hEof : response.needEof <;> simp [hAll, hEof]
      · simp [hAll]
  | stopped writing kept =>
      have hLength : session.items.length ≠ 0 := by simpa using kept
      simp [keepAlives, isOpen, writing, kept, hLength.symm]

/-- The write of an item that keeps the connection alive. -/
theorem Delivery.keepAlives_wrote {session next : HttpSession} (h : Delivery session)
    {response : Response} {rest : List Response} (writing : session.writing = response :: rest)
    (keep : response.needEof = false) (items : next.items = session.items.drop 1)
    (begun : next.writing = next.items.take 1) : session.keepAlives = next.keepAlives + 1 := by
  obtain ⟨later, hItems, -, -⟩ := h.items_eq writing
  rw [keepAlives_of_live begun, keepAlives, if_neg (by simp [writing]), items, hItems]
  simp [keep]

end NanoPowServer.WebServer
