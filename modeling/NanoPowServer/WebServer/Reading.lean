import NanoPowServer.WebServer.Delivery

/-! Reading is paused when the queue of responses is full and resumed when it is
written. Both places were made for responses that are enqueued while a request
is handled; a response of a pool task may fill the queue while a read is
outstanding. -/
namespace NanoPowServer.WebServer

open Execution HttpSession

/-- At most one read is outstanding; and none, once `on_read` has returned, only
if the queue is full or the connection is shut down, failed or upgraded. -/
structure OneRead (session : HttpSession) : Prop where
  atMostOne : session.reads ≤ 1
  paused : session.handling = false → session.isUp = true → session.reads = 0 →
    limit ≤ session.items.length

/-- If two more reads can be outstanding at all before the connection is closed,
the response of a pool task finds room for itself and for the response of the
request that is being read. An upgrade names a WebSocket endpoint, unless the
connection is down or its queue full. -/
def leavesRoom (handlers : List Pattern) (session : HttpSession) : Action → Prop
  | .writeJsonResponse _ _ =>
      2 ≤ session.reads + session.keepAlives → session.reads + session.items.length < limit
  | .onRead request _ =>
      session.isUp = true → session.items.length < limit → request.isUpgrade = true →
        handlers.any (fun pattern => pattern (urlPath request.target)) = true
  | _ => True

instance (handlers : List Pattern) (session : HttpSession) (action : Action) :
    Decidable (leavesRoom handlers session action) :=
  match action with
  | .writeJsonResponse _ _ => inferInstanceAs (Decidable (_ ≤ _ → _ < _))
  | .onRead _ _ => inferInstanceAs (Decidable (_ = true → _ < _ → _ = true → _ = true))
  | .pipeline | .onReadError _ | .onWrite | .onWriteError _ | .onTimer => isTrue trivial

/-- The invariant: as long as a second read is possible, there is room for the
response of the request that is being read. -/
structure ReadInv (session : HttpSession) : Prop where
  oneRead : OneRead session
  handled : session.handling = true → session.reads = 0
  room : 2 ≤ session.reads + session.keepAlives → session.reads + session.items.length ≤ limit

variable {session next : HttpSession}

/-- The read completes. Either `on_read` handles the request, or no other read is
to follow. -/
theorem ReadInv.of_readDone (h : ReadInv session) (reading : 0 < session.reads)
    (reads : next.reads = session.reads - 1) (items : next.items = session.items)
    (writing : next.writing = session.writing)
    (rest : next.handling = true ∨ next.isUp = false ∨ limit ≤ session.items.length) :
    ReadInv next := by
  have hOne := h.oneRead.atMostOne
  have hRoom := h.room
  have hKeep : next.keepAlives = session.keepAlives := by
    rw [keepAlives, keepAlives, items, writing]
  refine ⟨⟨by omega, ?_⟩, fun _ => by omega, ?_⟩
  · intro hStrand hUp _
    rw [items]
    rcases rest with hHandling | hDown | hFull
    · simp [hStrand] at hHandling
    · simp [hUp] at hDown
    · exact hFull
  · rw [items, hKeep]
    omega

/-- The write completes, and no other is to follow. -/
theorem ReadInv.of_writeDone (h : ReadInv session) (reads : next.reads = session.reads)
    (writing : next.writing = []) (handling : next.handling = session.handling)
    (down : next.isUp = false) : ReadInv next := by
  have hOne := h.oneRead.atMostOne
  have hNone : next.keepAlives = 0 := by simp [keepAlives, writing]
  refine ⟨⟨by omega, by simp [down]⟩, ?_, by omega⟩
  rw [reads, handling]
  exact h.handled

/-- A response joins the queue. It makes a second read possible only if the queue
was empty or held a single response. -/
theorem ReadInv.enqueue (h : ReadInv session) (hDelivery : Delivery session)
    (response : Response)
    (room : 2 ≤ session.reads + session.keepAlives →
      session.reads + session.items.length < limit) :
    ReadInv (session.enqueue response) := by
  have hOne := h.oneRead.atMostOne
  refine ⟨⟨hOne, ?_⟩, h.handled, ?_⟩
  · intro hStrand hUp hReads
    have hFull := h.oneRead.paused hStrand hUp hReads
    simp only [enqueue_items, List.length_append]
    omega
  · rw [hDelivery.keepAlives_enqueue response]
    simp only [enqueue_reads, enqueue_items, List.length_append, List.length_singleton]
    split
    · rename_i hOpen
      have hAll : session.keepAlives = session.items.length := by simpa [isOpen] using hOpen.1
      unfold limit at *
      omega
    · omega

/-- A message has been written and the next one is begun. -/
theorem ReadInv.of_wrote (h : ReadInv session) (hDelivery : Delivery session)
    {response : Response} {rest : List Response} (strand : session.handling = false)
    (writing : session.writing = response :: rest) (keep : response.needEof = false)
    (items : next.items = session.items.drop 1) (begun : next.writing = next.items.take 1)
    (reads : next.reads = if limit ≤ session.items.length then session.reads + 1 else session.reads)
    (handling : next.handling = false) (isUp : next.isUp = session.isUp) : ReadInv next := by
  have hOne := h.oneRead.atMostOne
  have hRoom := h.room
  have hKeep := hDelivery.keepAlives_wrote writing keep items begun
  have hLength : next.items.length = session.items.length - 1 := by simp [items]
  by_cases hFull : limit ≤ session.items.length
  · rw [if_pos hFull] at reads
    have hSome : 0 < session.items.length := Nat.lt_of_lt_of_le (by decide) hFull
    exact ⟨⟨by omega, by omega⟩, by simp [handling], by omega⟩
  · rw [if_neg hFull] at reads
    refine ⟨⟨by omega, ?_⟩, by simp [handling], by omega⟩
    intro _ hUp hReads
    exact absurd (h.oneRead.paused strand (isUp ▸ hUp) (reads ▸ hReads)) hFull

theorem ReadInv.step {handlers : List Pattern} {action : Action}
    (h : ReadInv session) (hDelivery : Delivery session)
    (hClosed : session.closed = true → session.shutdown = true)
    (allowed : leavesRoom handlers session action) (hStep : Step handlers session action next) :
    ReadInv next := by
  cases hStep with
  | upgrade request handling strand reading isUpgrade =>
      refine h.of_readDone reading rfl rfl rfl (.inr ?_)
      by_cases hUp : session.isUp = true
      · by_cases hFull : limit ≤ session.items.length
        · exact .inr hFull
        · left
          simp [isUp, allowed hUp (by omega) isUpgrade]
      · left
        simp_all [isUp]
  | respond request handling response strand reading noUpgrade sends answers =>
      refine ReadInv.enqueue ?_ ?_ response ?_
      · exact h.of_readDone reading rfl rfl rfl (.inl rfl)
      · exact hDelivery.of_same rfl rfl rfl rfl id
      · have hRoom := h.room
        show 2 ≤ session.reads - 1 + session.keepAlives →
          session.reads - 1 + session.items.length < limit
        omega
  | defer request strand reading noUpgrade =>
      exact h.of_readDone reading rfl rfl rfl (.inl rfl)
  | pause handled full => exact ⟨⟨h.oneRead.atMostOne, fun _ _ _ => full⟩, by simp, h.room⟩
  | pipeline handled room =>
      have hNone := h.handled handled
      refine ⟨⟨?_, ?_⟩, by simp, ?_⟩
      · simp [hNone]
      · simp
      · intro _
        show session.reads + 1 + session.items.length ≤ limit
        omega
  | readAborted strand reading closed =>
      exact h.of_readDone reading rfl rfl rfl (.inr (.inl (by simp [isUp, hClosed closed])))
  | readEnded strand reading | readFailed strand reading =>
      exact h.of_readDone reading rfl rfl rfl (.inr (.inl (by simp [isUp])))
  | wroteLast response rest strand writing close =>
      obtain ⟨later, items, rfl, -⟩ := hDelivery.items_eq writing
      exact h.of_writeDone rfl rfl rfl (by simp [isUp])
  | wroteFull response rest strand writing keep full =>
      obtain ⟨later, items, rfl, -⟩ := hDelivery.items_eq writing
      exact h.of_wrote hDelivery strand writing keep rfl rfl (if_pos full).symm strand rfl
  | wrote response rest strand writing keep room =>
      obtain ⟨later, items, rfl, -⟩ := hDelivery.items_eq writing
      exact h.of_wrote hDelivery strand writing keep rfl rfl (if_neg (by omega)).symm strand rfl
  | writeAborted response rest strand writing closed =>
      obtain ⟨later, items, rfl, -⟩ := hDelivery.items_eq writing
      exact h.of_writeDone rfl rfl rfl (by simp [isUp, hClosed closed])
  | writeFailed response rest ec strand writing =>
      obtain ⟨later, items, rfl, -⟩ := hDelivery.items_eq writing
      exact h.of_writeDone rfl rfl rfl (by simp [isUp])
  | taskResponds request body response kept answers =>
      refine ReadInv.enqueue ?_ ?_ response allowed
      · exact ⟨⟨h.oneRead.atMostOne, h.oneRead.paused⟩, h.handled, h.room⟩
      · exact hDelivery.of_same rfl rfl rfl rfl id
  | close strand =>
      exact ⟨⟨h.oneRead.atMostOne, by simp [isUp]⟩, h.handled, h.room⟩

theorem ReadInv.of_reaches {handlers : List Pattern} {session : HttpSession}
    (run : Reaches (HttpSession.step handlers) (leavesRoom handlers) initial session) :
    ReadInv session := by
  refine run.invariant ReadInv ?_ ?_
  · have hOneRead : OneRead initial := ⟨Nat.le_refl 1, by simp [initial]⟩
    exact ⟨hOneRead, by simp [initial], by simp [initial, keepAlives]⟩
  · intro session action next prior h allowed hStep
    exact h.step (.of_reaches prior) (shutdown_of_closed prior) allowed (step_cases hStep)

/-- One read at a time, in every run in which the responses of pool tasks leave
room for the response of the request that is being read. -/
theorem one_read (handlers : List Pattern) (session : HttpSession)
    (run : Reaches (HttpSession.step handlers) (leavesRoom handlers) initial session) :
    OneRead session := (ReadInv.of_reaches run).oneRead

/-- Eight tasks respond before the first response is written, with the read for a
ninth request outstanding. -/
def fillingRun : List Action :=
  pipelineWork 8 ++ (List.range 8).map (fun request => .writeJsonResponse request "") ++ [.onWrite]

/-- The queue was full, so the write that completes initiates a second read. -/
theorem reads_twice :
    ¬ ∀ (handlers : List Pattern) (session : HttpSession),
      Reaches (HttpSession.step handlers) anyAction initial session → OneRead session := by
  intro hAll
  have hTwo : ∃ h : (sampleRun fillingRun).isSome = true,
      ((sampleRun fillingRun).get h).reads = 2 := ⟨by decide, by decide⟩
  obtain ⟨hEnabled, hReads⟩ := hTwo
  have hRun := reaches_get hEnabled (allAllowed_anyAction fillingRun _)
  have hOne : ((sampleRun fillingRun).get hEnabled).reads ≤ 1 :=
    (hAll websocketHandlers _ hRun).atMostOne
  omega

/-- An upgrade on a path without an endpoint is only logged: the connection is
neither read nor shut down. -/
example : ∃ h : (sampleRun [.onRead { isUpgrade := true, target := "/" } .defer]).isSome = true,
    let session := (sampleRun [.onRead { isUpgrade := true, target := "/" } .defer]).get h
    session.reads = 0 ∧ session.isUp = true ∧ session.items = [] := ⟨by decide, by decide⟩

/-- Two of three responses are on the queue as the first one is written. -/
theorem one_read_three :
    let actions := pipelineWork 3 ++
      [.writeJsonResponse 1 "", .writeJsonResponse 0 "", .onWrite]
    ∃ h : (sampleRun actions).isSome = true,
      ((sampleRun actions).get h).written = [1] ∧ ((sampleRun actions).get h).reads = 1 ∧
      OneRead ((sampleRun actions).get h) :=
  ⟨by decide, by decide, by decide, one_read websocketHandlers _ (reaches_get (by decide) (by decide))⟩

end NanoPowServer.WebServer
