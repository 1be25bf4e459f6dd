import NanoPowServer.WorkHandler.Steps

/-! The admission of `work_generate` requests. The test of the limit and the
push share one critical section, so the limit bounds the queue in every run, and
a request that `handle_request_async` answers itself has changed nothing. -/
namespace NanoPowServer.WorkHandler

open PriorityQueue Execution

variable {Queue : Type}

/-- The body is a `work_generate` request. -/
def isGenerate (env : Environment) (body : String) : Bool :=
  match env.readJson body with
  | .ok request => request.getOptional "action" = some "work_generate"
  | .error _ => false

/-- The call has posted its task to the pool. -/
def Phase.isPosted : Phase → Bool
  | .returned | .escaped _ | .cancelling _ | .admitting _ | .pushed _ => false
  | _ => true

/-- The tasks posted to the pool, each where it stands. -/
def System.postedTasks (c : System Queue) (i : Nat) : Option Phase :=
  ((c.calls[i]?).map (·.phase)).filter Phase.isPosted

/-- The action is a step of call `i`, of which the first is its arrival. -/
def Action.isOf (c : System Queue) (i : Nat) : Action → Prop
  | .request _ => i = c.calls.length
  | .clear => False
  | .proceed j _ => j = i
  | .raise j _ => j = i

theorem postedTasks_arrive (c : System Queue) (env : Environment) (body : String) :
    (c.arrive env body).postedTasks = c.postedTasks := by
  funext i
  unfold System.postedTasks
  rw [System.arrive_calls, List.getElem?_append]
  split
  · rfl
  · next hBeyond =>
      rw [List.getElem?_eq_none (Nat.le_of_not_lt hBeyond)]
      cases hPlace : i - c.calls.length with
      | zero =>
          have hArrives := arrives env c.jobIdDispenser body
          generalize Call.handleRequestAsync env c.jobIdDispenser body = call at hArrives
          cases hArrives <;> simp [Phase.isPosted]
      | succ place => simp

theorem postedTasks_commit {c : System Queue} {i : Nat} {call after : Call}
    (found : c.calls[i]? = some call) (members : Members Queue) (events : List Event)
    (hBefore : call.phase.isPosted = false) (hAfter : after.phase.isPosted = false) :
    (c.commit i members after events).postedTasks = c.postedTasks := by
  funext j
  unfold System.postedTasks
  by_cases hSame : i = j
  · subst hSame
    rw [System.getElem?_commit_self _ _ _ (by simp [found]), found]
    simp [Option.filter, hBefore, hAfter]
  · rw [System.getElem?_commit_ne _ _ _ hSame]

variable [PriorityQueue Queue Job Job.comparator]

theorem size_of_step {env : Environment} {c next : System Queue} {action : Action}
    (hStep : Step env c action next)
    (hBound : size c.members.jobs ≤ env.config.server.requestLimit.toNat) :
    size next.members.jobs ≤ env.config.server.requestLimit.toNat := by
  cases hStep with
  | request body => simpa using hBound
  | clear =>
      rw [System.clear_members, size_eq, System.items_handleQueueDeleteRequest]
      split
      · simp
      · rw [← size_eq]
        exact hBound
  | proceed found moves =>
      rw [System.commit_members]
      cases moves with
      | cancelled => exact (size_removeJob_le _ _).trans hBound
      | notFound => exact (size_removeJob_le _ _).trans hBound
      | admitted _ room =>
          -- The limit is tested under the lock that the push still holds.
          simp only [pushJob, size_push]
          omega
      | popped _ _ hTop =>
          have hSize := size_pop hTop
          simp only
          omega
      | _ => exact hBound
  | raise => exact hBound

theorem size_le_requestLimit {env : Environment} {guard : System Queue → Action → Prop}
    {c : System Queue} (run : Reaches (System.step env) guard (System.initial env) c) :
    size c.members.jobs ≤ env.config.server.requestLimit.toNat := by
  apply run.invariant fun c =>
    size c.members.jobs ≤ env.config.server.requestLimit.toNat
  · simp [System.initial, size_eq]
  · intro c action next _ hBound _ hStep
    exact size_of_step (step_cases hStep) hBound

/-- How far a `work_generate` request can be without having been pushed. -/
def Unpushed (env : Environment) (call : Call) : Prop :=
  isGenerate env call.body = true →
    match call.phase with
    | .returned =>
        ∃ what, call.responses = [createErrorResponse call.correlationId what]
    | .admitting _ => call.responses = []
    | .cancelling _ => False
    | _ => True

theorem dispatch_generate {env : Environment} {jobId : UInt32} {request : Ptree}
    (hAction : request.getOptional "action" = some "work_generate") {dispatched : Dispatched}
    (h : dispatch env jobId request = .ok dispatched) : ∃ job, dispatched = .admitting job := by
  unfold dispatch at h
  simp only [hAction, if_true] at h
  split_ifs at h with hDevices
  cases hJob : workGenerate env jobId request with
  | error exception => simp [hJob, Except.map] at h
  | ok job =>
      simp only [hJob, Except.map, Except.ok.injEq] at h
      exact ⟨job, h.symm⟩

theorem unpushed_of_arrives (env : Environment) (jobId : UInt32) (body : String) :
    Unpushed env (Call.handleRequestAsync env jobId body) := by
  unfold Unpushed isGenerate Call.handleRequestAsync
  cases hJson : env.readJson body with
  | error what => simp [Call.fail, Call.answer, hJson]
  | ok request =>
      dsimp only
      cases hDispatch : dispatch env jobId request with
      | error exception =>
          cases exception with
          | runtimeError what =>
              intro _
              exact ⟨what, rfl⟩
          | outOfRange what =>
              intro _
              trivial
      | ok dispatched =>
          intro hGenerate
          have hAction : request.getOptional "action" = some "work_generate" := by
            cases dispatched <;> simpa [Call.goto, Call.answer, hJson] using hGenerate
          obtain ⟨job, rfl⟩ := dispatch_generate hAction hDispatch
          rfl

theorem unpushed {env : Environment} {c : System Queue} {guard : System Queue → Action → Prop}
    (run : Reaches (System.step env) guard (System.initial env) c) :
    ∀ call ∈ c.calls, Unpushed env call := by
  apply calls_invariant run (Unpushed env)
  · rintro jobId body call rfl -
    exact unpushed_of_arrives env jobId body
  · intro c i now call members next events _ _ _ h moves hGenerate
    have hPrior := h (by cases moves <;> exact hGenerate)
    cases moves <;> simp_all [Call.fail, Call.answer, Call.goto]
  · intro c i call task what _ _ h raises hGenerate
    simp

/-- A call stays in the list of calls, and what it has pushed stays pushed. -/
theorem own_persists {env : Environment} {guard : System Queue → Action → Prop}
    {c later : System Queue} (run : Reaches (System.step env) guard c later) {i : Nat}
    {call : Call} (found : c.calls[i]? = some call) :
    ∃ after, later.calls[i]? = some after ∧ after.body = call.body ∧
      (call.phase.own?.isSome = true → after.phase.own?.isSome = true) := by
  induction run with
  | refl => exact ⟨call, found, rfl, id⟩
  | @tail middle finish action _ _ last ih =>
      obtain ⟨before, hBefore, hBody, hOwn⟩ := ih
      rcases call_of_step (step_cases last) hBefore with
        hSame | ⟨now, members, after, events, moves, -, rfl⟩ | ⟨task, what, raises, -, rfl⟩
      · exact ⟨before, hSame, hBody, hOwn⟩
      · refine ⟨after, System.getElem?_commit_self _ _ _ (by simp [hBefore]), ?_, ?_⟩
        · rw [← hBody]
          cases moves <;> rfl
        · intro hPushed
          have hPrior := hOwn hPushed
          cases moves <;> simp_all [Phase.own?]
      · refine ⟨_, System.getElem?_commit_self _ _ _ (by simp [hBefore]), hBody, ?_⟩
        intro _
        rfl

/-- What a step of a request did that has been answered with an error by
`handle_request_async` itself: nothing. -/
theorem unchanged_of_rejected {env : Environment} {guard : System Queue → Action → Prop}
    {before after later : System Queue} {action : Action} {i : Nat} {call : Call}
    (prior : Reaches (System.step env) guard (System.initial env) before)
    (hOf : action.isOf before i) (hStep : before.step env action = some after)
    (rest : Reaches (System.step env) guard after later) (found : later.calls[i]? = some call)
    (hGenerate : isGenerate env call.body = true) (hReturned : call.phase = .returned) :
    after.members = before.members ∧ after.postedTasks = before.postedTasks := by
  -- A call that has pushed its job can no longer be the one that returned.
  have hUnpushed : ∀ next, after.calls[i]? = some next →
      next.body = call.body ∧ next.phase.own? = none := by
    intro next hNext
    obtain ⟨last, hLast, hBody, hOwn⟩ := own_persists rest hNext
    obtain rfl : last = call := Option.some.inj (hLast.symm.trans found)
    refine ⟨hBody.symm, ?_⟩
    by_contra hPushed
    simpa [hReturned, Phase.own?] using hOwn (Option.isSome_iff_ne_none.mpr hPushed)
  cases step_cases hStep with
  | request body => exact ⟨System.arrive_members before env body, postedTasks_arrive before env body⟩
  | clear => exact hOf.elim
  | @proceed j now old next members events hOld moves =>
      obtain rfl : j = i := hOf
      obtain ⟨hBody, hNone⟩ := hUnpushed next (System.getElem?_commit_self _ _ _ (by simp [hOld]))
      have hOldGenerate : isGenerate env old.body = true := by
        rw [← hBody] at hGenerate
        cases moves <;> exact hGenerate
      have hPrior := unpushed prior old (List.mem_of_getElem? hOld) hOldGenerate
      cases moves with
      | cancelled hPhase => simp [hPhase] at hPrior
      | notFound hPhase => simp [hPhase] at hPrior
      | rejected hPhase =>
          refine ⟨rfl, postedTasks_commit hOld _ _ ?_ rfl⟩
          simp [hPhase, Phase.isPosted]
      | _ => simp [Phase.own?] at hNone
  | @raise j old task what hOld raises =>
      obtain rfl : j = i := hOf
      obtain ⟨-, hNone⟩ := hUnpushed _ (System.getElem?_commit_self _ _ _ (by simp [hOld]))
      simp [Phase.own?] at hNone

/-- In every run the queue stays within the limit, and a `work_generate` request
that returned without having been queued was answered with an error and changed
neither the shared state nor the posted tasks in any of its steps. -/
theorem bounded_with_clean_rejection (env : Environment) {c : System Queue}
    (run : Reaches (System.step env) anyAction (System.initial env) c) :
    size c.members.jobs ≤ env.config.server.requestLimit.toNat ∧
      ∀ i call, c.calls[i]? = some call → isGenerate env call.body = true →
        call.phase = .returned →
        (∃ what, call.responses = [createErrorResponse call.correlationId what]) ∧
          ∀ before action after,
            Reaches (System.step env) anyAction (System.initial env) before →
            action.isOf before i → before.step env action = some after →
            Reaches (System.step env) anyAction after c →
            after.members = before.members ∧ after.postedTasks = before.postedTasks := by
  refine ⟨size_le_requestLimit run, ?_⟩
  intro i call found hGenerate hReturned
  constructor
  · simpa [hReturned] using unpushed run call (List.mem_of_getElem? found) hGenerate
  · intro before action after prior hOf hStep rest
    exact unchanged_of_rejected prior hOf hStep rest found hGenerate hReturned

/-- A job is queued, then a request without a hash arrives. -/
theorem bounded_with_clean_rejection_two :
    ∃ h : (sampleRun [.request generateOne, .proceed 0 0]).isSome = true,
      let before := (sampleRun [.request generateOne, .proceed 0 0]).get h
      let after := before.arrive sampleEnvironment generateNothing
      size before.members.jobs = 1 ∧ after.calls.map (·.phase) ≠ before.calls.map (·.phase) ∧
        size after.members.jobs ≤ sampleEnvironment.config.server.requestLimit.toNat ∧
        after.members = before.members ∧ after.postedTasks = before.postedTasks := by
  have hFacts : ∃ h : (sampleRun [.request generateOne, .proceed 0 0]).isSome = true,
      let before := (sampleRun [.request generateOne, .proceed 0 0]).get h
      let after := before.arrive sampleEnvironment generateNothing
      size before.members.jobs = 1 ∧ after.calls.map (·.phase) ≠ before.calls.map (·.phase) ∧
        before.calls.length = 1 ∧
        (after.calls[1]?).map (fun call =>
          (isGenerate sampleEnvironment call.body, call.phase)) = some (true, .returned) :=
    ⟨by decide, by decide, by decide, by decide, by decide⟩
  obtain ⟨hEnabled, hSize, hPhases, hLength, hCall⟩ := hFacts
  have hRun := reaches_get hEnabled (allAllowed_anyAction _ _)
  have hStep := hRun.tail trivial
    (show System.step sampleEnvironment _ (.request generateNothing) = some _ from rfl)
  obtain ⟨call, found, hBoth⟩ := Option.map_eq_some_iff.mp hCall
  obtain ⟨hGenerate, hReturned⟩ := Prod.mk.inj hBoth
  obtain ⟨hBound, hRejected⟩ := bounded_with_clean_rejection sampleEnvironment hStep
  exact ⟨hEnabled, hSize, hPhases, hBound,
    (hRejected 1 call found hGenerate hReturned).2 _ (.request generateNothing) _ hRun
      hLength.symm rfl .refl⟩

end NanoPowServer.WorkHandler
