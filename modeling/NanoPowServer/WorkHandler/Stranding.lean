import NanoPowServer.WorkHandler.Steps

/-! No job is stranded: for every pending job there is a pool task that has not
taken its turn at the queue, or a call that is about to post one. Tasks and jobs
are created in separate steps and destroyed by different operations, so the two
numbers are related by an inequality. -/
namespace NanoPowServer.WorkHandler

open PriorityQueue Execution

variable {Queue : Type}

/-- The number of requests that have pushed a job and whose task is not yet
posted, or is posted and has not popped. -/
def System.waiting (c : System Queue) : Nat := c.calls.countP (·.phase.waiting?.isSome)

theorem System.waiting_commit {c : System Queue} {i : Nat} {call : Call}
    (found : c.calls[i]? = some call) (members : Members Queue) (after : Call)
    (events : List Event) :
    (c.commit i members after events).waiting + call.phase.waiting?.isSome.toNat =
      c.waiting + after.phase.waiting?.isSome.toNat :=
  System.countP_commit members after events (·.phase.waiting?.isSome) found

variable [PriorityQueue Queue Job Job.comparator]

/-- A push is matched by the call that made it. A turn at the queue takes a job
or finds none, and removals only take jobs. -/
theorem size_le_waiting_step {env : Environment} {c next : System Queue} {action : Action}
    (hStep : Step env c action next) (h : size c.members.jobs ≤ c.waiting) :
    size next.members.jobs ≤ next.waiting := by
  cases hStep with
  | request body =>
      unfold System.waiting at h ⊢
      rw [System.countP_arrive, System.arrive_members]
      omega
  | clear =>
      unfold System.waiting at h ⊢
      rw [System.clear_calls]
      refine Nat.le_trans ?_ h
      rw [size_eq, size_eq, System.clear_members, System.items_handleQueueDeleteRequest]
      split <;> simp
  | @proceed i now call after members events found moves =>
      have hCount := System.waiting_commit found members after events
      cases moves with
      | cancelled phase _ | notFound phase _ =>
          have hRemoved := size_removeJob_le c.members.jobs
          simp [phase, Phase.waiting?] at hCount ⊢
          have hLess := hRemoved ‹U256›
          omega
      | admitted phase _ =>
          simp [phase, Phase.waiting?] at hCount ⊢
          omega
      | popped phase _ hTop =>
          have hPop := size_pop hTop
          simp [phase, Phase.waiting?] at hCount ⊢
          omega
      | starved phase _ hTop =>
          have hItems := items_of_top_none _ hTop
          simp [size_eq, hItems]
      | rejected phase _ | posted phase | busy phase _ _ | acquired phase _ _ | noDevice phase _
      | inserted phase | answered phase | released phase _ | finished phase =>
          simp [phase, Phase.waiting?] at hCount ⊢
          omega
  | @raise i call task what found raises =>
      have hCount := System.waiting_commit found c.members (call.fail (.failed task) what) []
      have hNot : call.phase.waiting? = none := by cases raises <;> simp [*, Phase.waiting?]
      rw [hNot] at hCount
      simp [Phase.waiting?] at hCount ⊢
      omega

/-- In every reachable state there are at most as many pending jobs as requests
that still wait for a turn at the queue, so with no such request left the queue
is empty. -/
theorem pending_le_waiting (env : Environment) {c : System Queue}
    (run : Reaches (System.step env) anyAction (System.initial env) c) :
    (items c.members.jobs).card ≤ c.waiting ∧ (c.waiting = 0 → items c.members.jobs = 0) := by
  have hSize : size c.members.jobs ≤ c.waiting := by
    refine run.invariant (fun c => size c.members.jobs ≤ c.waiting) ?_ ?_
    · simp [System.initial, size_eq]
    · intro state action next _ h _ hStep
      exact size_le_waiting_step (step_cases hStep) h
  rw [size_eq] at hSize
  refine ⟨hSize, fun hNone => ?_⟩
  rw [hNone, Nat.le_zero] at hSize
  exact Multiset.card_eq_zero.mp hSize

/-- One request pushed and posted, another one pushed: two jobs, two turns to
come. -/
theorem pending_le_waiting_two :
    let actions : List Action :=
      [.request generateOne, .proceed 0 0, .proceed 0 0, .request generateTwo, .proceed 1 0]
    ∃ h : (sampleRun actions).isSome = true,
      (items ((sampleRun actions).get h).members.jobs).card = 2 ∧
      (items ((sampleRun actions).get h).members.jobs).card ≤ ((sampleRun actions).get h).waiting :=
  ⟨by decide, by decide,
    (pending_le_waiting sampleEnvironment
      (reaches_get (by decide) (allAllowed_anyAction _ _))).1⟩

end NanoPowServer.WorkHandler
