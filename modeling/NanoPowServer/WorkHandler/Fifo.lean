import NanoPowServer.WorkHandler.Ledger

/-! First in, first out within a priority level. Age is read off a 32-bit
counter, so it is the order of creation only as long as no job outlives a wrap
of the counter. -/
namespace NanoPowServer.WorkHandler

open PriorityQueue Execution

variable {Queue : Type} [PriorityQueue Queue Job Job.comparator]

/-- The number of jobs with a property from their construction until they are
finished, removed or dropped. -/
def System.alive (c : System Queue) (q : Job.Ticket → Bool) : Nat :=
  c.callsAt Phase.admitting? q + c.pending q + c.callsAt Phase.held? q +
    c.callsAt Phase.active? q

/-- The jobs in the server: pending, held by a task, or active. -/
def System.jobsInside (c : System Queue) : Multiset Job :=
  items c.members.jobs + (c.calls.filterMap fun call => call.phase.held? : List Job) +
    (c.calls.filterMap fun call => call.phase.active? : List Job)

/-- When the counter hands out zero, having wrapped, no job is alive. -/
def wrapsIdle (env : Environment) (c : System Queue) : Action → Prop
  | .request body =>
      constructsJob env body = true → c.jobIdDispenser = 0 → c.alive (fun _ => true) = 0
  | _ => True

instance (env : Environment) (c : System Queue) (action : Action) :
    Decidable (wrapsIdle env c action) := by
  unfold wrapsIdle
  split <;> infer_instance

/-- The order of service within a priority level, over all runs under a guard.
In every reached state the jobs inside have different ids. If a job was pending
when a request came in, and the job of this request is later pending together
with it at the same priority, then the next pop does not return the newer job. -/
structure FifoWithinPriority (Queue : Type) [PriorityQueue Queue Job Job.comparator]
    (env : Environment) (guard : System Queue → Action → Prop) : Prop where
  distinct : ∀ c : System Queue, Reaches (System.step env) guard (System.initial env) c →
    (c.jobsInside.map Job.jobId).Nodup
  order : ∀ (before after later : System Queue) (body : String) (older newer : Job),
    Reaches (System.step env) guard (System.initial env) before →
    guard before (.request body) → System.step env before (.request body) = some after →
    Reaches (System.step env) guard after later →
    older ∈ items before.members.jobs → older ∈ items later.members.jobs →
    ((later.calls[before.calls.length]?).bind fun call => call.phase.own?) = some newer →
    newer ∈ items later.members.jobs → older.priority = newer.priority →
    (popJob later.members.jobs).2 ≠ some newer

/-- The number of values below which all ids in use lie: the counter, or its
whole range once it has wrapped to zero. -/
def idBound (jobIdDispenser : UInt32) : Nat :=
  if jobIdDispenser = 0 then 2 ^ 32 else jobIdDispenser.toNat

/-- The ids of the jobs alive are distinct and were handed out since the last
wrap of the counter. -/
structure IdInv (c : System Queue) : Prop where
  distinct : ∀ jobId, c.alive (withId jobId) ≤ 1
  bounded : ∀ jobId, 0 < c.alive (withId jobId) → jobId.toNat < idBound c.jobIdDispenser

theorem alive_mono (c : System Queue) (q : Job.Ticket → Bool) :
    c.alive q ≤ c.alive fun _ => true := by
  have hCalls : ∀ place, c.callsAt place q ≤ c.callsAt place fun _ => true := by
    intro place
    apply List.countP_mono_left
    intro call _ hq
    cases hJob : place call.phase <;> simp_all
  have hPending : c.pending q ≤ c.pending fun _ => true := by
    simp only [System.pending, Multiset.countP_eq_card_filter]
    exact Multiset.card_le_card (Multiset.monotone_filter_right _ fun _ _ => trivial)
  have := hCalls Phase.admitting?
  have := hCalls Phase.held?
  have := hCalls Phase.active?
  unfold System.alive
  omega

/-- A step adds at most the job that it constructs. -/
theorem alive_of_step (q : Job.Ticket → Bool) {env : Environment} {c next : System Queue}
    {action : Action} (hStep : Step env c action next) :
    next.alive q ≤ c.alive q ∨
    ∃ body, ∃ own : Job, action = .request body ∧ own.jobId = c.jobIdDispenser ∧
      constructsJob env body = true ∧ next.alive q ≤ c.alive q + (q own.ticket).toNat := by
  obtain ⟨flow, hAlong, hArrived⟩ := flow_of_step q hStep
  have := hAlong.admitting
  have := hAlong.pending
  have := hAlong.held
  have := hAlong.active
  unfold System.alive
  rcases hArrived with hNone | ⟨body, own, hAction, hId, hConstructs, hOne⟩
  · exact .inl (by omega)
  · exact .inr ⟨body, own, hAction, hId, hConstructs, by omega⟩

theorem toNat_lt_idBound_succ (jobId : UInt32) : jobId.toNat < idBound (jobId + 1) := by
  unfold idBound
  split
  · exact jobId.toNat_lt
  · rename_i hNext
    have hLess : jobId.toNat + 1 < 2 ^ 32 := by
      have hRange := jobId.toNat_lt
      by_contra hMore
      apply hNext
      apply UInt32.toNat_inj.mp
      rw [UInt32.toNat_add]
      simp
      omega
    rw [UInt32.toNat_add, UInt32.toNat_one, Nat.mod_eq_of_lt hLess]
    omega

theorem idBound_le_succ {jobId : UInt32} (hNonzero : jobId ≠ 0) :
    idBound jobId ≤ idBound (jobId + 1) := by
  have := toNat_lt_idBound_succ jobId
  unfold idBound at this ⊢
  rw [if_neg hNonzero]
  omega

/-- The counter hands out an id that no alive job has. -/
theorem IdInv.fresh {env : Environment} {c : System Queue} {body : String} (h : IdInv c)
    (allowed : wrapsIdle env c (.request body)) (hConstructs : constructsJob env body = true)
    {jobId : UInt32} (hAlive : c.alive (withId jobId) ≠ 0) :
    jobId ≠ c.jobIdDispenser ∧ jobId.toNat < idBound (c.jobIdDispenser + 1) := by
  have hNonzero : c.jobIdDispenser ≠ 0 := by
    intro hZero
    have hIdle := allowed hConstructs hZero
    have := alive_mono c (withId jobId)
    omega
  have hBound := h.bounded jobId (Nat.pos_of_ne_zero hAlive)
  refine ⟨?_, Nat.lt_of_lt_of_le hBound (idBound_le_succ hNonzero)⟩
  rintro rfl
  rw [idBound, if_neg hNonzero] at hBound
  omega

theorem IdInv.step {env : Environment} {c next : System Queue} {action : Action}
    (h : IdInv c) (allowed : wrapsIdle env c action) (hStep : Step env c action next) :
    IdInv next := by
  rcases created_of_step hStep with ⟨body, rfl, hConstructs, -, hNext⟩ | ⟨hNone, -, hNext⟩
  · have hAdded : ∀ jobId, next.alive (withId jobId) ≤
        c.alive (withId jobId) + (decide (c.jobIdDispenser = jobId)).toNat := by
      intro jobId
      rcases alive_of_step (withId jobId) hStep with hLess | ⟨_, own, -, hId, -, hLess⟩
      · omega
      · rwa [withId, Job.ticket_jobId, hId] at hLess
    constructor
    · intro jobId
      have hLess := hAdded jobId
      have := h.distinct jobId
      by_cases hSame : c.jobIdDispenser = jobId
      · have hNot : c.alive (withId jobId) = 0 := by
          by_contra hAlive
          exact (h.fresh allowed hConstructs hAlive).1 hSame.symm
        have := Bool.toNat_le (decide (c.jobIdDispenser = jobId))
        omega
      · simp [hSame] at hLess
        omega
    · intro jobId hAlive
      rw [hNext]
      by_cases hSame : c.jobIdDispenser = jobId
      · subst hSame
        exact toNat_lt_idBound_succ _
      · have hLess := hAdded jobId
        simp [hSame] at hLess
        exact (h.fresh allowed hConstructs (by omega)).2
  · have hLess : ∀ jobId, next.alive (withId jobId) ≤ c.alive (withId jobId) := by
      intro jobId
      rcases alive_of_step (withId jobId) hStep with hLess | ⟨body, _, hAction, -, hConstructs, -⟩
      · exact hLess
      · simp [hNone body hAction] at hConstructs
    constructor
    · intro jobId
      exact Nat.le_trans (hLess jobId) (h.distinct jobId)
    · intro jobId hAlive
      rw [hNext]
      exact h.bounded jobId (Nat.lt_of_lt_of_le hAlive (hLess jobId))

theorem IdInv.of_reaches {env : Environment} {c : System Queue}
    (run : Reaches (System.step env) (wrapsIdle env) (System.initial env) c) : IdInv c := by
  refine run.invariant IdInv ?_ ?_
  · constructor <;> simp [System.alive, System.callsAt, System.pending, System.initial]
  · intro state action next _ h allowed hStep
    exact h.step allowed (step_cases hStep)

theorem count_filterMap_calls (calls : List Call) (place : Phase → Option Job) (jobId : UInt32) :
    (((calls.filterMap fun call => place call.phase) : Multiset Job).map Job.jobId).count jobId =
      calls.countP fun call => ticketed (withId jobId) (place call.phase) := by
  rw [Multiset.map_coe, Multiset.coe_count, List.count_eq_countP, List.countP_map,
    List.countP_filterMap]
  apply List.countP_congr
  intro call _
  cases place call.phase <;> simp

theorem count_jobsInside_le (c : System Queue) (jobId : UInt32) :
    (c.jobsInside.map Job.jobId).count jobId ≤ c.alive (withId jobId) := by
  have hPending : (items c.members.jobs).countP (fun job => jobId = job.jobId) =
      c.pending (withId jobId) := by
    apply Multiset.countP_congr rfl
    intro job _
    exact propext (eq_comm.trans (withId_iff jobId job.ticket).symm)
  rw [System.jobsInside, Multiset.map_add, Multiset.map_add, Multiset.count_add,
    Multiset.count_add, count_filterMap_calls, count_filterMap_calls, Multiset.count_map,
    ← Multiset.countP_eq_card_filter, hPending]
  unfold System.alive System.callsAt
  omega

/-- The job of a call has the id that the counter handed out as the call was
made. -/
theorem jobId_of_request {env : Environment} {guard : System Queue → Action → Prop}
    {before after later : System Queue} {body : String}
    (hRequest : System.step env before (.request body) = some after)
    (rest : Reaches (System.step env) guard after later) :
    ∃ call, later.calls[before.calls.length]? = some call ∧
      ∀ own, call.phase.admitting? = some own ∨ call.phase.own? = some own →
        own.jobId = before.jobIdDispenser ∧ constructsJob env body = true := by
  refine rest.invariant (fun later => ∃ call, later.calls[before.calls.length]? = some call ∧
    ∀ own, call.phase.admitting? = some own ∨ call.phase.own? = some own →
      own.jobId = before.jobIdDispenser ∧ constructsJob env body = true) ?_ ?_
  · obtain rfl : before.arrive env body = after := by simpa [System.step] using hRequest
    refine ⟨Call.handleRequestAsync env before.jobIdDispenser body, by simp, ?_⟩
    have hArrives := arrives env before.jobIdDispenser body
    generalize Call.handleRequestAsync env before.jobIdDispenser body = arrived at hArrives
    cases hArrives with
    | admitting own id constructs =>
        rintro other (hOther | hOther)
        · obtain rfl : own = other := by simpa [Phase.admitting?] using hOther
          exact ⟨id, constructs⟩
        · simp [Phase.own?] at hOther
    | _ => simp [Phase.admitting?, Phase.own?]
  · rintro state action next _ ⟨call, hCall, hOwn⟩ _ hStep
    rcases call_of_step (step_cases hStep) hCall with
      hStays | ⟨now, members, moved, events, hMoves, -, rfl⟩ | ⟨task, what, hRaises, -, rfl⟩
    · exact ⟨call, hStays, hOwn⟩
    · refine ⟨moved, System.getElem?_commit_self _ _ _ (hCall ▸ rfl), fun own hAfter => hOwn own ?_⟩
      cases hMoves <;> simp_all [Phase.admitting?, Phase.own?]
    · refine ⟨_, System.getElem?_commit_self _ _ _ (hCall ▸ rfl), fun own hAfter => hOwn own ?_⟩
      cases hRaises <;> simp_all [Phase.admitting?, Phase.own?]

/-- Service within a priority level is first in, first out, in every run in
which the counter wraps only while no job is alive. -/
theorem fifo_within_priority (env : Environment) :
    FifoWithinPriority Queue env (wrapsIdle env) where
  distinct c run := by
    rw [Multiset.nodup_iff_count_le_one]
    intro jobId
    exact Nat.le_trans (count_jobsInside_le c jobId) ((IdInv.of_reaches run).distinct jobId)
  order before after later body older newer run allowed hRequest rest hOlder hOlderLater hOwn
      hNewer hPriority := by
    obtain ⟨call, hCall, hId⟩ := jobId_of_request hRequest rest
    rw [hCall] at hOwn
    obtain ⟨hNewerId, hConstructs⟩ := hId newer (.inr hOwn)
    have hAlive : 0 < before.alive (withId older.jobId) := by
      have hPending : 0 < before.pending (withId older.jobId) :=
        Multiset.countP_pos.mpr ⟨older, hOlder, by simp⟩
      unfold System.alive
      omega
    have hNonzero : before.jobIdDispenser ≠ 0 := by
      intro hZero
      have hIdle := allowed hConstructs hZero
      have := alive_mono before (withId older.jobId)
      omega
    have hAge : older.jobId < newer.jobId := by
      have hBound := (IdInv.of_reaches run).bounded older.jobId hAlive
      rw [idBound, if_neg hNonzero] at hBound
      rw [hNewerId]
      exact hBound
    have hBelow : Job.comparator newer older = true :=
      (Job.comparator_iff newer older).mpr (.inr ⟨hPriority.symm, hAge⟩)
    intro hPop
    cases hTop : top later.members.jobs with
    | none => simp [popJob, hTop] at hPop
    | some first =>
        obtain rfl : first = newer := by simpa [popJob, hTop] using hPop
        have hMaximal := top_maximal later.members.jobs first hTop older hOlderLater
        rw [hBelow] at hMaximal
        simp at hMaximal

/-- An admitted job is pushed in the next step of its call. -/
theorem step_of_admitting {env : Environment} {c : System Queue} {i : Nat} {call : Call}
    {own : Job} (found : c.calls[i]? = some call) (phase : call.phase = .admitting own)
    (room : size c.members.jobs < env.config.server.requestLimit.toNat) (now : Nat) :
    System.step env c (.proceed i now) = some
      (c.commit i { c.members with jobs := pushJob c.members.jobs own } (call.goto (.pushed own))
        [.accepted i own]) := by
  simp [System.step, found, Call.proceed, phase, room]

/-- Requests that construct a job and then fail turn the counter to any value
without leaving a trace in the queue. -/
theorem exists_reaches_jobIdDispenser (count : Nat) :
    ∃ c : System JobQueue,
      Reaches (System.step sampleEnvironment) anyAction (System.initial sampleEnvironment) c ∧
      c.jobIdDispenser = UInt32.ofNat (count + 1) ∧
      c.members = (System.initial sampleEnvironment : System JobQueue).members := by
  induction count with
  | zero => exact ⟨_, .refl, rfl, rfl⟩
  | succ count ih =>
      obtain ⟨c, run, hDispenser, hMembers⟩ := ih
      have hStep : System.step sampleEnvironment c (.request generateNothing) =
          some (c.arrive sampleEnvironment generateNothing) := rfl
      refine ⟨_, run.tail trivial hStep, ?_, ?_⟩
      · have hConstructs : constructsJob sampleEnvironment generateNothing = true := by decide
        rw [System.jobIdDispenser_arrive, if_pos hConstructs, hDispenser, ← UInt32.ofNat_one,
          ← UInt32.ofNat_add]
      · rw [System.arrive_members, hMembers]

/-- The job of `generateOne` when the counter holds this id. -/
def jobOne (jobId : UInt32) : Job where
  jobId
  request := { rootHash := Bigint.set 1, difficulty := sampleEnvironment.config.work.baseDifficulty }

theorem handleRequestAsync_generateOne (jobId : UInt32) :
    (Call.handleRequestAsync sampleEnvironment jobId generateOne).phase =
      .admitting (jobOne jobId) := rfl

/-- The request is made and its job is pushed. -/
theorem push_generateOne (c : System JobQueue)
    (room : size c.members.jobs < sampleEnvironment.config.server.requestLimit.toNat) :
    ∃ after later : System JobQueue,
      System.step sampleEnvironment c (.request generateOne) = some after ∧
      System.step sampleEnvironment after (.proceed c.calls.length 0) = some later ∧
      later.members.jobs = pushJob c.members.jobs (jobOne c.jobIdDispenser) ∧
      later.jobIdDispenser = c.jobIdDispenser + 1 ∧
      ((later.calls[c.calls.length]?).bind fun call => call.phase.own?) =
        some (jobOne c.jobIdDispenser) := by
  have hConstructs : constructsJob sampleEnvironment generateOne = true := by decide
  have hFound : (c.arrive sampleEnvironment generateOne).calls[c.calls.length]? =
      some (Call.handleRequestAsync sampleEnvironment c.jobIdDispenser generateOne) := by
    simp
  have hPush := step_of_admitting hFound (handleRequestAsync_generateOne c.jobIdDispenser)
    (by rw [System.arrive_members]; exact room) 0
  refine ⟨_, _, rfl, hPush, ?_, ?_, ?_⟩
  · rw [System.commit_members, System.arrive_members]
  · rw [System.commit_jobIdDispenser, System.jobIdDispenser_arrive, if_pos hConstructs]
  · rw [System.getElem?_commit_self _ _ _ (hFound ▸ rfl)]
    rfl

/-- Two equal requests around the wrap of the counter: the newer job gets id 0
and overtakes the older one. -/
theorem not_fifo_at_wrap : ¬ ∀ env : Environment, FifoWithinPriority JobQueue env anyAction := by
  intro hAll
  obtain ⟨start, run, hDispenser, hMembers⟩ := exists_reaches_jobIdDispenser (2 ^ 32 - 2)
  have hLast : start.jobIdDispenser = 4294967295 := hDispenser.trans (by decide)
  have hStart : start.members.jobs = empty := by rw [hMembers]; rfl
  obtain ⟨first, before, hFirst, hBefore, hOlder, hWrapped, -⟩ :=
    push_generateOne start (by rw [hStart]; decide)
  rw [hStart, hLast] at hOlder
  have hZero : before.jobIdDispenser = 0 := by rw [hWrapped, hLast]; rfl
  obtain ⟨after, later, hAfter, hLater, hBoth, -, hOwn⟩ :=
    push_generateOne before (by rw [hOlder]; decide)
  rw [hOlder, hZero] at hBoth
  rw [hZero] at hOwn
  refine (hAll sampleEnvironment).order before after later generateOne (jobOne 4294967295)
    (jobOne 0) ((run.tail trivial hFirst).tail trivial hBefore) trivial hAfter
    (Reaches.refl.tail trivial hLater) ?_ ?_ hOwn ?_ rfl ?_
  · rw [hOlder]
    decide
  · rw [hBoth]
    decide
  · rw [hBoth]
    decide
  · rw [hBoth]
    decide

/-- Two equal requests with the counter at its start. -/
theorem fifo_within_priority_two :
    let actions : List Action := [.request generateOne, .proceed 0 0]
    let more : List Action := [.request generateOne, .proceed 1 0]
    ∃ (h : (sampleRun actions).isSome = true) (hMore : (sampleRun (actions ++ more)).isSome = true),
      (popJob ((sampleRun (actions ++ more)).get hMore).members.jobs).2 = some (jobOne 1) ∧
      jobOne 1 ∈ items ((sampleRun actions).get h).members.jobs ∧
      (((sampleRun (actions ++ more)).get hMore).jobsInside.map Job.jobId).Nodup :=
  ⟨by decide, by decide, by decide, by decide,
    (fifo_within_priority sampleEnvironment).distinct _ (reaches_get (by decide) (by decide))⟩

end NanoPowServer.WorkHandler
