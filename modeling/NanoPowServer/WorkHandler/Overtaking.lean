import NanoPowServer.WorkHandler.Fifo

/-! How often a pending job is overtaken. The jobs that are served before it are those
already ahead of it and those of later requests that ask for a larger priority. -/
namespace NanoPowServer.WorkHandler

open PriorityQueue Execution

variable {Queue : Type}

/-- A job with this ticket is served before the job. -/
def outranks (job : Job) (ticket : Job.Ticket) : Bool :=
  job.priority < ticket.priority ||
    (job.priority = ticket.priority && ticket.jobId < job.jobId)

theorem outranks_ticket (job other : Job) :
    outranks job other.ticket = Job.comparator job other := by
  rw [Bool.eq_iff_iff, Job.comparator_iff]
  simp only [outranks, Bool.or_eq_true, Bool.and_eq_true, decide_eq_true_eq]
  rfl

/-- The priority of the job that this request constructs. -/
def requestedPriority (env : Environment) (body : String) : UInt32 :=
  match env.readJson body with
  | .ok request =>
      if env.config.server.allowPrioritization then
        ((request.getOptional "priority").bind readUnsigned).getD 0
      else 0
  | .error _ => 0

/-- The request constructs a job of a larger priority. -/
def asksAbove (env : Environment) (job : Job) (body : String) : Bool :=
  constructsJob env body && decide (job.priority < requestedPriority env body)

def Event.isPopped : Event → Bool
  | .popped _ _ => true
  | _ => false

namespace System

/-- The number of jobs that tasks have taken from the queue. -/
def pops (c : System Queue) : Nat := c.trace.countP Event.isPopped

/-- The number of requests so far that ask for a larger priority. -/
def above (c : System Queue) (env : Environment) (job : Job) : Nat :=
  c.calls.countP fun call => asksAbove env job call.body

/-- The number of jobs, pending or about to be pushed, that are served before this one. -/
def ahead [PriorityQueue Queue Job Job.comparator] (c : System Queue) (job : Job) : Nat :=
  c.callsAt Phase.admitting? (outranks job) + c.pending (outranks job)

end System

theorem priority_of_workGenerate {env : Environment} {jobId : UInt32} {request : Ptree} {job : Job}
    (h : workGenerate env jobId request = .ok job) :
    job.priority = if env.config.server.allowPrioritization then
      ((request.getOptional "priority").bind readUnsigned).getD 0 else 0 := by
  obtain ⟨text, -, h⟩ := bind_eq_ok.mp h
  obtain ⟨rootHash, -, h⟩ := bind_eq_ok.mp h
  obtain ⟨difficulty, -, h⟩ := bind_eq_ok.mp h
  obtain rfl := Except.ok.inj h
  rfl

theorem handleRequestAsync_body (env : Environment) (jobId : UInt32) (body : String) :
    (Call.handleRequestAsync env jobId body).body = body := by
  have h := arrives env jobId body
  generalize Call.handleRequestAsync env jobId body = call at h
  cases h <;> rfl

/-- The job of a new call has the priority that the request asks for. -/
theorem priority_of_arrival {env : Environment} {jobId : UInt32} {body : String} {own : Job}
    (h : (Call.handleRequestAsync env jobId body).phase.admitting? = some own) :
    own.priority = requestedPriority env body ∧ own.jobId = jobId ∧
      constructsJob env body = true := by
  have hArrives := arrives env jobId body
  generalize hCall : Call.handleRequestAsync env jobId body = call at h hArrives
  cases hArrives with
  | answered _ _ _ | cancelling _ | escaped _ => simp [Phase.admitting?] at h
  | admitting job id constructs =>
      obtain rfl : job = own := by simpa [Phase.admitting?] using h
      refine ⟨?_, id, constructs⟩
      unfold Call.handleRequestAsync at hCall
      unfold requestedPriority
      cases hJson : env.readJson body with
      | error what => simp [hJson, Call.fail, Call.answer] at hCall
      | ok request =>
          simp only [hJson] at hCall
          dsimp only
          split at hCall
          · rename_i made hDispatch
            obtain rfl : made = job := by simpa [Call.goto] using hCall
            obtain ⟨-, -, hMade⟩ := dispatch_admitting hDispatch
            exact priority_of_workGenerate hMade
          · simp [Call.goto] at hCall
          · simp [Call.answer] at hCall
          · simp [Call.fail, Call.answer] at hCall
          · simp [Call.goto] at hCall

namespace System

theorem pops_commit (c : System Queue) (i : Nat) (members : Members Queue) (after : Call)
    (events : List Event) :
    (c.commit i members after events).pops = events.countP Event.isPopped + c.pops :=
  List.countP_append

theorem pops_arrive (c : System Queue) (env : Environment) (body : String) :
    (c.arrive env body).pops = c.pops := by
  unfold arrive
  split
  · exact List.countP_cons_of_neg (by simp [Event.isPopped])
  · rfl

theorem above_arrive (c : System Queue) (env : Environment) (job : Job) (body : String) :
    (c.arrive env body).above env job = c.above env job + (asksAbove env job body).toNat := by
  rw [above, above, countP_arrive, handleRequestAsync_body]

theorem above_commit {c : System Queue} {i : Nat} {call after : Call} (found : c.calls[i]? = some call)
    (same : after.body = call.body) (env : Environment) (job : Job) (members : Members Queue)
    (events : List Event) : (c.commit i members after events).above env job = c.above env job := by
  have h := countP_commit members after events (fun call => asksAbove env job call.body) found
  rw [same] at h
  exact Nat.add_right_cancel h

end System

/-- Without prioritization no request asks for a larger priority. -/
theorem above_of_fixed {env : Environment} (fixed : env.config.server.allowPrioritization = false)
    (c : System Queue) (job : Job) : c.above env job = 0 := by
  apply List.countP_eq_zero.mpr
  intro call _
  have hZero : requestedPriority env call.body = 0 := by
    unfold requestedPriority
    split
    · simp [fixed]
    · rfl
  simp [asksAbove, hZero]

variable [PriorityQueue Queue Job Job.comparator]

theorem body_of_moves {env : Environment} {c : System Queue} {i now : Nat} {call after : Call}
    {members : Members Queue} {events : List Event}
    (moves : Moves env c i now call members after events) : after.body = call.body := by
  cases moves <;> rfl

/-- A move that takes a job from the queue takes the top one, and all others take none. -/
theorem popped_of_moves {env : Environment} {c : System Queue} {i now : Nat} {call after : Call}
    {members : Members Queue} {events : List Event}
    (moves : Moves env c i now call members after events) :
    events.countP Event.isPopped = 0 ∨
      ∃ first, top c.members.jobs = some first ∧ members.jobs = pop c.members.jobs ∧
        call.phase.admitting? = none ∧ after.phase.admitting? = none ∧
        events.countP Event.isPopped = 1 := by
  cases moves with
  | popped phase _ hTop =>
      exact .inr ⟨_, hTop, rfl, by rw [phase]; rfl, rfl, rfl⟩
  | cancelled phase _ =>
      refine .inl ?_
      rw [List.countP_cons_of_neg (by simp [Event.isPopped]), removedEvents, List.countP_map]
      exact List.countP_eq_zero.mpr (by simp [Event.isPopped])
  | _ => exact .inl rfl

namespace System

variable {c next : System Queue}

theorem pops_clear (c : System Queue) (env : Environment) : (c.clear env).pops = c.pops := by
  unfold clear
  split
  · have hNone : (removedEvents (drain c.members.jobs)).countP Event.isPopped = 0 := by
      rw [removedEvents, List.countP_map]
      exact List.countP_eq_zero.mpr (by simp [Event.isPopped])
    rw [pops, List.countP_cons_of_neg (by simp [Event.isPopped]), List.countP_append, hNone,
      Nat.zero_add]
    rfl
  · rfl

/-- Jobs that are not constructed in the step only leave the places ahead. -/
theorem ahead_le_of_flow {job : Job} {flow : Flow (outranks job)} (none : flow.arrived = 0)
    (along : flow.Along c next) : next.ahead job ≤ c.ahead job := by
  have := along.admitting
  have := along.pending
  unfold ahead
  omega

end System

/-- A request that constructs a job gives it an id above those of the pending jobs. -/
theorem IdInv.older {env : Environment} {c : System Queue} {body : String} {job : Job} (h : IdInv c)
    (allowed : wrapsIdle env c (.request body)) (constructs : constructsJob env body = true)
    (pending : job ∈ items c.members.jobs) : job.jobId < c.jobIdDispenser := by
  have hAlive : 0 < c.alive (withId job.jobId) := by
    have hPending : 0 < c.pending (withId job.jobId) :=
      Multiset.countP_pos.mpr ⟨job, pending, by simp⟩
    unfold System.alive
    omega
  have hNonzero : c.jobIdDispenser ≠ 0 := by
    intro hZero
    have hIdle := allowed constructs hZero
    have := alive_mono c (withId job.jobId)
    omega
  have hBound := h.bounded job.jobId hAlive
  rwa [idBound, if_neg hNonzero] at hBound

/-- A request puts a job ahead only if it asks for a larger priority. -/
theorem ahead_arrive_le {env : Environment} {c : System Queue} {body : String} {job : Job}
    (h : IdInv c) (allowed : wrapsIdle env c (.request body))
    (pending : job ∈ items c.members.jobs) :
    (c.arrive env body).ahead job ≤ c.ahead job + (asksAbove env job body).toNat := by
  have hCalls := System.callsAt_arrive c env body Phase.admitting? (outranks job)
  have hPending : (c.arrive env body).pending (outranks job) = c.pending (outranks job) := by
    rw [System.pending, System.arrive_members]
    rfl
  have hNew : (ticketed (outranks job)
      (Call.handleRequestAsync env c.jobIdDispenser body).phase.admitting?).toNat ≤
      (asksAbove env job body).toNat := by
    cases hOwn : (Call.handleRequestAsync env c.jobIdDispenser body).phase.admitting? with
    | none => exact Nat.zero_le _
    | some own =>
        obtain ⟨hPriority, hId, hConstructs⟩ := priority_of_arrival hOwn
        have hAge := h.older allowed hConstructs pending
        rw [ticketed_some, outranks_ticket]
        apply Bool.toNat_le_toNat
        intro hServed
        rcases (Job.comparator_iff job own).mp hServed with hLarger | ⟨-, hOlder⟩
        · rw [hPriority] at hLarger
          simp [asksAbove, hConstructs, hLarger]
        · rw [hId] at hOlder
          exact absurd hOlder (UInt32.lt_asymm hAge)
  unfold System.ahead
  omega

/-- The job that is taken is served before one that stays. -/
theorem outranks_of_pop {c : System Queue} {first job : Job} (h : IdInv c)
    (hTop : top c.members.jobs = some first) (stays : job ∈ items (pop c.members.jobs)) :
    outranks job first.ticket = true := by
  have hItems := cons_items_pop c.members.jobs first hTop
  have hApart : first.jobId ≠ job.jobId := by
    intro hSame
    have hDistinct := h.distinct job.jobId
    have hTwo : 2 ≤ c.pending (withId job.jobId) := by
      have hOne : 0 < (items (pop c.members.jobs)).countP
          (fun other => withId job.jobId other.ticket = true) :=
        Multiset.countP_pos.mpr ⟨job, stays, by simp⟩
      rw [System.pending, ← hItems, Multiset.countP_cons_of_pos _ (by simpa using hSame)]
      omega
    unfold System.alive at hDistinct
    omega
  rw [outranks_ticket]
  rcases Job.comparator_total hApart with hBelow | hServed
  · have hMem : job ∈ items c.members.jobs := by
      rw [← hItems]
      exact Multiset.mem_cons_of_mem stays
    have hMaximal := top_maximal c.members.jobs first hTop job hMem
    rw [hBelow] at hMaximal
    simp at hMaximal
  · exact hServed

/-- A job that is taken was ahead, and a job gets ahead only by a request for a larger
priority, as long as this job stays pending. -/
theorem ahead_add_pops_of_step {env : Environment} {c next : System Queue} {action : Action}
    {job : Job} (h : IdInv c) (allowed : wrapsIdle env c action)
    (pending : job ∈ items c.members.jobs) (stays : job ∈ items next.members.jobs)
    (hStep : Step env c action next) :
    next.ahead job + next.pops + c.above env job ≤ c.ahead job + c.pops + next.above env job := by
  cases hStep with
  | request body =>
      have := ahead_arrive_le h allowed pending
      rw [System.pops_arrive, System.above_arrive]
      omega
  | clear =>
      obtain ⟨flow, hNone, hAlong⟩ := flow_of_clear (outranks job) env c
      have := System.ahead_le_of_flow hNone hAlong
      have hAbove : (c.clear env).above env job = c.above env job := by
        rw [System.above, System.clear_calls, System.above]
      rw [System.pops_clear, hAbove]
      omega
  | @raise i call task what found raises =>
      obtain ⟨flow, hNone, hAlong⟩ := flow_of_raises (outranks job) what found raises
      have := System.ahead_le_of_flow hNone hAlong
      have hBody : (call.fail (.failed task) what).body = call.body := rfl
      rw [System.pops_commit, System.above_commit found hBody, List.countP_nil]
      omega
  | @proceed i now call after members events found moves =>
      obtain ⟨flow, hNone, hAlong⟩ := flow_of_moves (outranks job) found moves
      have hAhead := System.ahead_le_of_flow hNone hAlong
      rw [System.pops_commit, System.above_commit found (body_of_moves moves)]
      rcases popped_of_moves moves with hZero | ⟨first, hTop, hJobs, hBefore, hAfter, hOne⟩
      · omega
      · rw [System.commit_members, hJobs] at stays
        have hOutranks := outranks_of_pop h hTop stays
        have hCalls := System.callsAt_commit found members after events Phase.admitting?
          (outranks job)
        rw [hBefore, hAfter] at hCalls
        have hPending : (c.commit i members after events).pending (outranks job) + 1 =
            c.pending (outranks job) := by
          rw [System.pending, System.commit_members, hJobs, System.pending,
            ← cons_items_pop c.members.jobs first hTop, Multiset.countP_cons, if_pos hOutranks]
        unfold System.ahead
        omega

/-- The job is pending before each step, and the counter wraps only while no job is alive. -/
def whilePending (env : Environment) (job : Job) (c : System Queue) (action : Action) : Prop :=
  wrapsIdle env c action ∧ job ∈ items c.members.jobs

instance (env : Environment) (job : Job) (c : System Queue) (action : Action) :
    Decidable (whilePending env job c action) :=
  inferInstanceAs (Decidable (_ ∧ _))

/-- While a job is pending, the number of jobs taken from the queue is at most the number
of those ahead of it at the start and of the requests since then for a larger priority.
Without prioritization it is at most the number of those ahead. -/
theorem bounded_overtaking {env : Environment} {c later : System Queue} {job : Job}
    (run : Reaches (System.step env) (wrapsIdle env) (System.initial env) c)
    (wait : Reaches (System.step env) (whilePending env job) c later)
    (pending : job ∈ items later.members.jobs) :
    later.ahead job + later.pops + c.above env job ≤
        c.ahead job + c.pops + later.above env job ∧
      (env.config.server.allowPrioritization = false →
        later.ahead job + later.pops ≤ c.ahead job + c.pops) := by
  have hBalance : IdInv later ∧ (job ∈ items later.members.jobs →
      later.ahead job + later.pops + c.above env job ≤
        c.ahead job + c.pops + later.above env job) := by
    apply wait.invariant fun later => IdInv later ∧ (job ∈ items later.members.jobs →
      later.ahead job + later.pops + c.above env job ≤
        c.ahead job + c.pops + later.above env job)
    · exact ⟨IdInv.of_reaches run, fun _ => Nat.le_refl _⟩
    · intro state action next _ ih allowed hStep
      refine ⟨ih.1.step allowed.1 (step_cases hStep), ?_⟩
      intro stays
      have hSoFar := ih.2 allowed.2
      have := ahead_add_pops_of_step ih.1 allowed.1 allowed.2 stays (step_cases hStep)
      omega
  refine ⟨hBalance.2 pending, ?_⟩
  intro fixed
  have hLess := hBalance.2 pending
  rw [above_of_fixed fixed, above_of_fixed fixed] at hLess
  exact hLess

/-- The second request asks for a larger priority and overtakes the first job, once. -/
theorem bounded_overtaking_two :
    let actions : List Action := [.request generateOne, .proceed 0 0]
    let more : List Action := [.request generateTwo, .proceed 1 0, .proceed 1 0, .proceed 1 0]
    ∃ c later : System JobQueue, sampleRun actions = some c ∧
      runActions (System.step sampleEnvironment) c more = some later ∧
      c.ahead (jobOne 1) + c.pops = 0 ∧ later.pops = 1 ∧
      jobOne 1 ∈ items later.members.jobs ∧
      later.ahead (jobOne 1) + later.pops + c.above sampleEnvironment (jobOne 1) ≤
        c.ahead (jobOne 1) + c.pops + later.above sampleEnvironment (jobOne 1) := by
  intro actions more
  refine ⟨_, _, rfl, rfl, by decide, by decide, by decide, (bounded_overtaking ?_ ?_ ?_).1⟩
  · exact reaches_of_runActions actions rfl (by decide)
  · exact reaches_of_runActions more rfl (by decide)
  · decide

end NanoPowServer.WorkHandler
