import NanoPowServer.WorkHandler.SharedData

/-! The containers and their mutexes. What a thread does while it does not hold the mutex
of a container neither reads the container nor changes it, so that the threads cannot race
for one; and the sections under the mutexes are what the steps of the calls are. -/
namespace NanoPowServer.WorkHandler

open PriorityQueue Execution Locking

variable {Queue : Type}

/-- The members with the container of one mutex taken from elsewhere. -/
def Members.replace (members : Members Queue) (mutex : Mutex) (other : Members Queue) :
    Members Queue :=
  match mutex with
  | .jobs => { members with jobs := other.jobs }
  | .active => { members with activeJobs := other.activeJobs }
  | .completed => { members with completedJobs := other.completedJobs }

def System.replace (c : System Queue) (mutex : Mutex) (other : Members Queue) : System Queue :=
  { c with members := c.members.replace mutex other }

def Shared.replace (shared : Shared Queue) (mutex : Mutex) (other : Members Queue) :
    Shared Queue :=
  { shared with system := shared.system.replace mutex other }

section Replace

variable (mutex : Mutex) (other : Members Queue)

@[simp] theorem System.replace_calls (c : System Queue) : (c.replace mutex other).calls = c.calls :=
  rfl

@[simp] theorem System.replace_members (c : System Queue) :
    (c.replace mutex other).members = c.members.replace mutex other := rfl

@[simp] theorem System.replace_phase? (c : System Queue) (i : Nat) :
    (c.replace mutex other).phase? i = c.phase? i := rfl

@[simp] theorem System.replace_running (c : System Queue) :
    (c.replace mutex other).running = c.running := rfl

@[simp] theorem Members.replace_devices (members : Members Queue) :
    (members.replace mutex other).devices = members.devices := by
  cases mutex <;> rfl

theorem Members.replace_jobs (members : Members Queue) (h : mutex ≠ .jobs) :
    (members.replace mutex other).jobs = members.jobs := by
  cases mutex with
  | jobs => exact absurd rfl h
  | active | completed => rfl

variable [PriorityQueue Queue Job Job.comparator] (env : Environment)

omit [PriorityQueue Queue Job Job.comparator] in
theorem System.replace_arrive (c : System Queue) (body : String) :
    (c.replace mutex other).arrive env body = (c.arrive env body).replace mutex other := by
  unfold System.arrive
  dsimp only
  show (if constructsJob env body then _ else _) = _
  split <;> rfl

theorem System.replace_clear (c : System Queue) (h : mutex ≠ .jobs) :
    (c.replace mutex other).clear env = (c.clear env).replace mutex other := by
  unfold System.clear
  simp only [System.replace_members, Members.replace_jobs mutex other c.members h]
  cases mutex with
  | jobs => exact absurd rfl h
  | active | completed => split <;> rfl

variable {mutex}

/-- A section of a call that does not take the mutex leaves its container alone, and what
it does is the same whatever is in it. -/
theorem Call.proceed_replace {call : Call} (c : System Queue) (i now : Nat)
    (h : mutex ∉ call.phase.mutexes?.getD []) :
    call.proceed env (c.replace mutex other) i now =
      (call.proceed env c i now).map fun (members, next, events) =>
        (members.replace mutex other, next, events) := by
  unfold Call.proceed
  simp only [System.replace_members, System.replace_calls, System.replace_running,
    Members.replace_devices]
  cases hPhase : call.phase with
  | cancelling rootHash | admitting own | posted own =>
      have hJobs : mutex ≠ .jobs := by
        rintro rfl
        simp [hPhase, Phase.mutexes?] at h
      simp only [Members.replace_jobs mutex other c.members hJobs]
      cases mutex with
      | jobs => exact absurd rfl hJobs
      | active | completed => (repeat' split) <;> rfl
  | scanning task next | answered task device =>
      cases mutex <;> dsimp only <;> (repeat' split) <;> rfl
  | acquired task device =>
      cases mutex with
      | active => simp [hPhase, Phase.mutexes?] at h
      | jobs | completed => rfl
  | released task =>
      cases mutex with
      | active | completed => simp [hPhase, Phase.mutexes?] at h
      | jobs => simp only [Members.replace, Option.map_some]
  | pushed own | active task device => rfl
  | returned | escaped | finished | starved | failed => rfl

theorem System.step_replace (c : System Queue) {action : Action} (h : mutex ∉ c.mutexes action) :
    (c.replace mutex other).step env action =
      (c.step env action).map fun next => next.replace mutex other := by
  cases action with
  | request body => exact congrArg some (System.replace_arrive mutex other env c body)
  | clear =>
      have hJobs : mutex ≠ .jobs := by
        rintro rfl
        exact h (List.mem_singleton_self _)
      exact congrArg some (System.replace_clear mutex other env c hJobs)
  | proceed i now =>
      simp only [System.step, System.replace_calls]
      cases hCall : c.calls[i]? with
      | none => rfl
      | some call =>
          rw [System.mutexes_proceed hCall] at h
          simp only [Option.bind_some, Call.proceed_replace other env c i now h, Option.map_map]
          congr 1
  | raise i what =>
      simp only [System.step, System.replace_calls]
      cases hCall : c.calls[i]? with
      | none => rfl
      | some call =>
          simp only [Option.bind_some, Option.map_map]
          congr 1

theorem rejects_replace (c : System Queue) {phase : Phase} (h : mutex ∉ phase.mutexes?.getD []) :
    rejects env (c.replace mutex other) phase = rejects env c phase := by
  cases phase with
  | admitting own =>
      have hJobs : mutex ≠ .jobs := by
        rintro rfl
        simp [Phase.mutexes?] at h
      simp only [rejects, System.replace_members, Members.replace_jobs mutex other c.members hJobs]
  | _ => rfl

theorem Shared.onSystem_replace (shared : Shared Queue) {action : Action}
    (h : mutex ∉ shared.system.mutexes action) :
    (shared.replace mutex other).onSystem env action =
      (shared.onSystem env action).map fun next => next.replace mutex other := by
  simp only [Shared.onSystem, Shared.replace, System.step_replace other env shared.system h,
    Option.map_map]
  congr 1

/-- What is not guarded by a mutex does not touch its container. -/
theorem perform_replace (shared : Shared Queue) {k : Thread} {effect : Effect}
    (h : mutex ∉ guards effect) :
    perform env k effect (shared.replace mutex other) =
      (perform env k effect shared).map fun next => next.replace mutex other := by
  cases k with
  | call i =>
      cases effect with
      | arrive body =>
          simp only [perform]
          show (if i = shared.system.calls.length then _ else _) = _
          split
          · exact Shared.onSystem_replace other env shared List.not_mem_nil
          · rfl
      | proceed phase now =>
          simp only [perform]
          show (if shared.system.phase? i = some phase ∧
            rejects env (shared.system.replace mutex other) phase = false then _ else _) = _
          rw [rejects_replace other env shared.system h]
          split
          · next hTurn =>
              exact Shared.onSystem_replace other env shared
                fun hMem => h (mutexes_subset hTurn.1 now hMem)
          · rfl
      | _ => rfl
  | control n =>
      cases effect with
      | clear => exact Shared.onSystem_replace other env shared h
      | _ => rfl
  | report n =>
      cases effect with
      | copyJobs => cases mutex <;> simp [guards] at h
      | listQueued =>
          simp only [perform, performReport, Option.map_map]
          congr 1
      | listActive | listCompleted =>
          cases mutex <;> first | rfl | simp [guards] at h
      | _ => rfl
  | direct n =>
      cases effect with
      | pushOwn =>
          simp only [perform, Option.map_map]
          cases mutex with
          | jobs => simp [guards] at h
          | active | completed => congr 1
      | pushJob job | removeJob rootHash | popJob =>
          cases mutex with
          | jobs => simp [guards] at h
          | active | completed => rfl
      | _ => rfl

theorem catches_replace (shared : Shared Queue) {k : Thread} {effect caught : Effect}
    (h : mutex ∉ guards effect) :
    catches env k effect caught (shared.replace mutex other) =
      (catches env k effect caught shared).map fun next => next.replace mutex other := by
  cases k with
  | call i =>
      cases effect with
      | proceed phase now =>
          cases caught with
          | reject =>
              simp only [catches]
              show (if shared.system.phase? i = some phase ∧
                rejects env (shared.system.replace mutex other) phase = true then _ else _) = _
              rw [rejects_replace other env shared.system h]
              split
              · next hTurn =>
                  exact Shared.onSystem_replace other env shared
                    fun hMem => h (mutexes_subset hTurn.1 now hMem)
              · rfl
          | raise what => exact Shared.onSystem_replace other env shared List.not_mem_nil
          | _ => rfl
      | _ => cases caught <;> rfl
  | control n | report n | direct n => cases caught <;> rfl

end Replace

section

variable [PriorityQueue Queue Job Job.comparator] {env : Environment} {s : Server Queue}

/-- No races. However the steps of any number of threads interleave, what a thread is
about to do does not read or change the container of a mutex that the thread does not
hold, whatever the state in which it is done, and no other thread is about to do anything
under a mutex that guards it. -/
theorem race_free (env : Environment)
    (run : Reaches (Server.step env) anyAction (Server.initial env) s) {k : Thread}
    {effect : Effect} {rest : Program} (next : s.threads k = .act effect :: rest) :
    (∀ mutex, s.owner mutex ≠ some k → ∀ (shared : Shared Queue) (other : Members Queue),
      perform env k effect (shared.replace mutex other) =
        (perform env k effect shared).map (fun after => after.replace mutex other) ∧
      ∀ caught, catches env k effect caught (shared.replace mutex other) =
        (catches env k effect caught shared).map fun after => after.replace mutex other) ∧
    ∀ j otherEffect otherRest, j ≠ k → s.threads j = .act otherEffect :: otherRest →
      ∀ mutex ∈ guards effect, mutex ∉ guards otherEffect := by
  have hOrdered := ordered run
  constructor
  · intro mutex hOwner shared other
    have hOutside : mutex ∉ guards effect :=
      fun guarded => hOwner (hOrdered.owner_of_act next guarded)
    exact ⟨perform_replace other env shared hOutside,
      fun caught => catches_replace other env shared hOutside⟩
  · intro j otherEffect otherRest hOther otherNext mutex guarded otherGuarded
    have hOwner := hOrdered.owner_of_act next guarded
    rw [hOrdered.owner_of_act otherNext otherGuarded] at hOwner
    exact hOther (Option.some.inj hOwner)

/-- A report has copied the queue and lists the active jobs next, and a call is about to
push its job. -/
def reportingRun : List (Locking.Action Thread Effect Operation) :=
  [.start (.call 0) (.request generateOne), .run (.call 0), .start (.report 0) .report,
    .run (.report 0), .run (.report 0), .run (.report 0), .run (.report 0), .run (.report 0),
    .run (.report 0), .start (.call 0) (.proceed 0), .run (.call 0)]

theorem race_free_report :
    ∃ s, sampleServer reportingRun = some s ∧ s.owner .jobs = some (.call 0) ∧
      (∀ (shared : Shared JobQueue) (other : Members JobQueue),
        perform sampleEnvironment (.report 0) .listActive (shared.replace .jobs other) =
          (perform sampleEnvironment (.report 0) .listActive shared).map
            fun after => after.replace .jobs other) ∧
      ∃ effect rest, s.threads (.call 0) = .act effect :: rest ∧ .jobs ∈ guards effect ∧
        ∀ mutex ∈ guards .listActive, mutex ∉ guards effect := by
  have hReport : ∃ s effect rest other, sampleServer reportingRun = some s ∧
      s.owner .jobs = some (.call 0) ∧ s.threads (.report 0) = .act .listActive :: rest ∧
      s.threads (.call 0) = .act effect :: other ∧ .jobs ∈ guards effect :=
    ⟨_, _, _, _, rfl, rfl, rfl, rfl, by decide⟩
  obtain ⟨s, effect, rest, other, hSome, hOwner, hNext, hOther, hGuarded⟩ := hReport
  have run : Reaches (Server.step sampleEnvironment) anyAction (Server.initial sampleEnvironment)
      s := reaches_of_runActions _ hSome (allAllowed_anyAction _ _)
  have hFree := race_free sampleEnvironment run hNext
  have hNot : s.owner .jobs ≠ some (.report 0) := by simp [hOwner]
  exact ⟨s, hSome, hOwner, fun shared members => (hFree.1 .jobs hNot shared members).1,
    effect, other, hOther, hGuarded, hFree.2 (.call 0) effect other (by decide) hOther⟩

/-- The sections under the mutexes are atomic: threads that take the mutexes one by one,
in whatever way they interleave, bring the shared data to the states that the calls reach
with a step for each section, and to no others. -/
theorem threads_reach_iff (env : Environment) (c : System Queue) :
    (∃ s : Server Queue, Reaches (Server.step env) servesOnly (Server.initial env) s ∧
      s.shared.system = c) ↔ Reaches (System.step env) anyAction (System.initial env) c := by
  constructor
  · rintro ⟨s, run, rfl⟩
    exact reaches_system run
  · intro run
    obtain ⟨s, hRun, -, hSame⟩ := reaches_server run
    exact ⟨s, hRun, hSame⟩

end

end NanoPowServer.WorkHandler
