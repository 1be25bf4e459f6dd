import Mathlib.Data.List.Infix
import NanoPowServer.Entry.Process
import NanoPowServer.WorkHandler.Completion

/-! The end of `main`. Once the threads of the web server are joined, the web server and
the work handler are destroyed while the pool may still be at its tasks. The destructor
of the handler stops the pool, but it is the destructor of the pool that waits for them,
and members that are declared after the pool are destroyed before it. -/
namespace NanoPowServer.Entry

open WorkHandler (Call DeviceInv Environment Event Members Moves Phase System raisesReleased)
open Execution PriorityQueue

variable {Queue : Type}

/-- The members of the work handler that its tasks use. -/
inductive Part where
  | completedJobs
  | activeJobs
  | jobs
  | pool
  | devices
  deriving DecidableEq

/-- The order in which they are destroyed, each container with its mutex. -/
def destructionOrder : List Part := [.completedJobs, .activeJobs, .jobs, .pool, .devices]

/-- What the next step of a task uses. -/
def uses : Phase → List Part
  | .cancelling _ | .admitting _ | .posted _ => [.jobs]
  | .scanning _ _ | .answered _ _ => [.devices]
  | .acquired _ _ => [.devices, .activeJobs]
  | .released _ => [.activeJobs, .completedJobs]
  | _ => []

/-- The task waits for a thread of the pool. -/
def isPosted : Phase → Bool
  | .posted _ => true
  | _ => false

theorem uses_of_isPosted {phase : Phase} (posted : isPosted phase = true) :
    uses phase = [.jobs] := by
  cases phase <;> first | rfl | cases posted

theorem isDone_of_isPosted {phase : Phase} (posted : isPosted phase = true) :
    phase.isDone = false := by
  cases phase <;> first | rfl | cases posted

theorem waits_of_isRunning {phase : Phase} (running : phase.isRunning = true) :
    phase.isDone = false ∧ phase.waiting? = none := by
  cases phase <;> first | exact ⟨rfl, rfl⟩ | cases running

/-- A call that is not over is on its strand, or its task is posted or runs. -/
theorem isPosted_of_open {phase : Phase} (hOpen : ¬ phase.isDone = true)
    (joined : inCall phase = false) (idle : ¬ phase.isRunning = true) : isPosted phase = true := by
  cases phase <;> first | rfl | exact absurd rfl hOpen | exact absurd rfl idle | cases joined

/-- `standing` are the members that are not destroyed yet, and `misused` those that have
been used after they were. `taken` are the tasks that threads of the pool had taken when
it was stopped, without having got as far as the mutex of the queue. -/
structure Shutdown (Queue : Type) where
  system : System Queue
  standing : List Part
  stopped : Bool
  taken : List Nat
  misused : List Part

/-- The main thread stops the pool or destroys the next member, or a task goes on. -/
inductive ShutdownAction where
  | stop (taken : List Nat)
  | destroy
  | proceed (call : Nat) (now : Nat)
  | raise (call : Nat) (what : String)

namespace Shutdown

/-- The web server is gone. -/
def initial (c : System Queue) : Shutdown Queue where
  system := c
  standing := destructionOrder
  stopped := false
  taken := []
  misused := []

def isWaiting (s : Shutdown Queue) (i : Nat) : Bool :=
  (s.system.calls[i]?).any fun call => isPosted call.phase

/-- No thread of the pool is at a task. -/
def isIdle (s : Shutdown Queue) : Bool :=
  s.system.running == 0 && s.taken.all fun i => !s.isWaiting i

/-- A thread of the pool is at the task, or takes it now, which it does not once the pool
is stopped. -/
def onPool (s : Shutdown Queue) (i : Nat) (phase : Phase) : Bool :=
  phase.isRunning || (isPosted phase && (!s.stopped || s.taken.contains i))

variable {env : Environment} {c : System Queue} {s next : Shutdown Queue} {i now : Nat}
  {call after : Call}

theorem onPool_of_idle (found : s.system.calls[i]? = some call) (stopped : s.stopped = true)
    (idle : s.isIdle = true) : s.onPool i call.phase = false := by
  simp only [isIdle, Bool.and_eq_true, beq_iff_eq, List.all_eq_true, Bool.not_eq_true'] at idle
  obtain ⟨hNone, hTaken⟩ := idle
  have hRuns : call.phase.isRunning = false := by
    have := List.countP_eq_zero.mp hNone call (List.mem_of_getElem? found)
    simpa using this
  cases hPosted : isPosted call.phase with
  | false => simp [onPool, hRuns, hPosted]
  | true =>
      have hNot : i ∉ s.taken := by
        intro hMem
        have := hTaken i hMem
        simp [isWaiting, found, hPosted] at this
      simp [onPool, hRuns, hPosted, stopped, hNot]

theorem onPool_of_isDone {phase : Phase} (hDone : phase.isDone = true) :
    s.onPool i phase = false := by
  cases phase <;> first | rfl | cases hDone

variable [PriorityQueue Queue Job Job.comparator]

/-- A task goes on, whatever is left of what it uses. -/
def run (env : Environment) (s : Shutdown Queue) (i : Nat) (action : WorkHandler.Action)
    (used : Phase → List Part) : Option (Shutdown Queue) := do
  let call ← s.system.calls[i]?
  if s.onPool i call.phase then
    let system ← s.system.step env action
    some { s with
      system
      misused := s.misused ++ (used call.phase).filter fun part => part ∉ s.standing }
  else none

/-- The destructor of the pool waits for the tasks that threads are at. The other ones
are abandoned. -/
def step (env : Environment) (s : Shutdown Queue) : ShutdownAction → Option (Shutdown Queue)
  | .stop taken =>
      if s.stopped = false ∧ taken.Nodup ∧ (∀ i ∈ taken, s.isWaiting i = true) ∧
          s.system.running + taken.length ≤ env.config.devices.length then
        some { s with stopped := true, taken }
      else none
  | .destroy =>
      match s.standing with
      | [] => none
      | part :: standing =>
          if s.stopped = true ∧ (part = .pool → s.isIdle = true) then some { s with standing }
          else none
  | .proceed i now => s.run env i (.proceed i now) uses
  | .raise i what => s.run env i (.raise i what) fun _ => []

/-- One step of the shutdown. -/
inductive Step (env : Environment) (s : Shutdown Queue) : ShutdownAction → Shutdown Queue → Prop where
  | stop {taken : List Nat} (first : s.stopped = false) :
      Step env s (.stop taken) { s with stopped := true, taken }
  | destroy {part : Part} {standing : List Part} (next : s.standing = part :: standing)
      (stopped : s.stopped = true) (idle : part = .pool → s.isIdle = true) :
      Step env s .destroy { s with standing }
  | task {action : ShutdownAction} {inner : WorkHandler.Action} {i : Nat} {call : Call}
      {system : System Queue} (used : List Part) (found : s.system.calls[i]? = some call)
      (runs : s.onPool i call.phase = true) (made : s.system.step env inner = some system) :
      Step env s action
        { s with system, misused := s.misused ++ used.filter fun part => part ∉ s.standing }

theorem task_of_run {shutdownAction : ShutdownAction} {action : WorkHandler.Action}
    {used : Phase → List Part} (h : s.run env i action used = some next) :
    Step env s shutdownAction next := by
  obtain ⟨call, hCall, hRest⟩ := Option.bind_eq_some_iff.mp h
  obtain ⟨hRuns, hRest⟩ := Option.ite_none_right_eq_some.mp hRest
  obtain ⟨system, hMade, hNext⟩ := Option.bind_eq_some_iff.mp hRest
  obtain rfl := Option.some.inj hNext
  exact .task _ hCall hRuns hMade

theorem step_cases {action : ShutdownAction} (h : s.step env action = some next) :
    Step env s action next := by
  cases action with
  | stop taken =>
      obtain ⟨hStop, hNext⟩ := Option.ite_none_right_eq_some.mp h
      obtain rfl := Option.some.inj hNext
      exact .stop hStop.1
  | destroy =>
      simp only [step] at h
      split at h
      · cases h
      · next part standing hStanding =>
          obtain ⟨⟨hStopped, hIdle⟩, hNext⟩ := Option.ite_none_right_eq_some.mp h
          obtain rfl := Option.some.inj hNext
          exact .destroy hStanding hStopped hIdle
  | proceed i now => exact task_of_run h
  | raise i what =>
      have hRun : s.run env i (.raise i what) (fun _ => []) = some next := h
      exact task_of_run hRun

/-- A task that can go on does so, and what it uses is recorded. -/
theorem step_proceed {system : System Queue} (found : s.system.calls[i]? = some call)
    (runs : s.onPool i call.phase = true) (made : s.system.step env (.proceed i now) = some system) :
    s.step env (.proceed i now) = some { s with
      system
      misused := s.misused ++ (uses call.phase).filter fun part => part ∉ s.standing } := by
  simp [step, run, found, runs, made]

/-- The members are destroyed in order, and none of those after the pool before all
threads have left it. -/
structure Joins (s : Shutdown Queue) : Prop where
  order : s.standing ∈ destructionOrder.tails
  joined : .pool ∉ s.standing → s.stopped = true ∧ s.isIdle = true
  devices : .devices ∉ s.misused

theorem devices_of_pool {standing : List Part} (order : standing ∈ destructionOrder.tails)
    (pool : .pool ∈ standing) : .devices ∈ standing := by
  revert standing
  decide

theorem Joins.step {action : ShutdownAction} (h : s.Joins) (hStep : Step env s action next) :
    next.Joins := by
  cases hStep with
  | stop first =>
      refine ⟨h.order, fun hPool => ?_, h.devices⟩
      have hStopped := (h.joined hPool).1
      rw [first] at hStopped
      cases hStopped
  | @destroy part standing hNext stopped idle =>
      refine ⟨?_, ?_, h.devices⟩
      · have hSuffix := (List.mem_tails _ _).mp h.order
        rw [hNext] at hSuffix
        exact (List.mem_tails _ _).mpr ((List.suffix_cons part standing).trans hSuffix)
      · intro hPool
        by_cases hPart : part = .pool
        · exact ⟨stopped, idle hPart⟩
        · refine h.joined ?_
          rw [hNext, List.mem_cons, not_or]
          exact ⟨fun hEq => hPart hEq.symm, hPool⟩
  | task used found runs _ =>
      have hPool : .pool ∈ s.standing := by
        by_contra hPool
        obtain ⟨hStopped, hIdle⟩ := h.joined hPool
        rw [onPool_of_idle found hStopped hIdle] at runs
        cases runs
      refine ⟨h.order, fun hNot => absurd hPool hNot, ?_⟩
      have hDevices := devices_of_pool h.order hPool
      simp [h.devices, hDevices]

theorem Joins.of_reaches (run : Reaches (Shutdown.step env) anyAction (initial c) s) : s.Joins := by
  refine run.invariant Joins ⟨(List.mem_tails _ _).mpr List.suffix_rfl, ?_, List.not_mem_nil⟩ ?_
  · intro hPool
    exact absurd (show Part.pool ∈ destructionOrder by decide) hPool
  · intro s action next _ h _ hStep
    exact h.step (step_cases hStep)

theorem unused_of_atRest (h : c.AtRest)
    (run : Reaches (Shutdown.step env) anyAction (initial c) s) :
    s.system = c ∧ s.misused = [] := by
  refine run.invariant (fun s => s.system = c ∧ s.misused = []) ⟨rfl, rfl⟩ ?_
  rintro s action next _ ⟨rfl, hNone⟩ _ hStep
  cases step_cases hStep with
  | stop _ => exact ⟨rfl, hNone⟩
  | destroy _ _ _ => exact ⟨rfl, hNone⟩
  | task used found runs _ =>
      rw [onPool_of_isDone (h _ (List.mem_of_getElem? found))] at runs
      cases runs

/-- A task that has not come to the active set goes on to it. -/
theorem runs_on {c : System Queue} {members : Members Queue} {events : List Event}
    (h : DeviceInv env c) (found : c.calls[i]? = some call) (running : call.phase.isRunning = true)
    (unused : .activeJobs ∉ uses call.phase)
    (moves : Moves env c i now call members after events) : after.phase.isRunning = true := by
  cases moves with
  | noDevice phase beyond =>
      have hNext := h.scanning_lt (List.mem_of_getElem? found) phase
      rw [List.getElem?_eq_getElem hNext] at beyond
      cases beyond
  | finished phase => simp [uses, phase] at unused
  | cancelled phase _ | notFound phase _ | admitted phase _ | rejected phase _ | posted phase
  | starved phase _ _ => simp [phase, Phase.isRunning] at running
  | popped _ _ _ | busy _ _ _ | acquired _ _ _ | inserted _ | answered _ | released _ _ => rfl

/-- Once the active set is destroyed, a task that runs will use it. -/
theorem exists_misused
    (run : Reaches (System.step env) raisesReleased (System.initial env) s.system)
    (found : s.system.calls[i]? = some call) (running : call.phase.isRunning = true)
    (gone : .activeJobs ∉ s.standing) :
    ∃ later, Reaches (Shutdown.step env) anyAction s later ∧ later.misused ≠ [] := by
  induction hLeft : call.phase.remaining env.config.devices.length using
    Nat.strong_induction_on generalizing s call with
  | _ left ih =>
    have hRuns : s.onPool i call.phase = true := by simp [onPool, running]
    obtain ⟨system, hStep⟩ : ∃ system, s.system.step env (.proceed i 0) = some system := by
      refine WorkHandler.exists_proceed found (WorkHandler.provided run call
        (List.mem_of_getElem? found)) (WorkHandler.devices_length run)
        (waits_of_isRunning running).1 ?_
      rw [(waits_of_isRunning running).2]
      exact fun hWaits => absurd hWaits (by decide)
    have hFirst := step_proceed found hRuns hStep
    by_cases hUses : .activeJobs ∈ uses call.phase
    · refine ⟨_, Reaches.refl.tail trivial hFirst, ?_⟩
      apply List.ne_nil_of_mem (a := .activeJobs)
      simp [hUses, gone]
    · have hLater := run.tail (by trivial) hStep
      cases WorkHandler.step_cases hStep with
      | @proceed _ _ other after members events hOther moves =>
          obtain rfl : other = call := Option.some.inj (hOther.symm.trans found)
          have hLess := WorkHandler.remaining_of_moves moves
          rw [WorkHandler.devices_length run, hLeft] at hLess
          have hAfter : (s.system.commit i members after events).calls[i]? = some after :=
            System.getElem?_commit_self _ _ _ (by simp [found])
          obtain ⟨later, rest, hMisused⟩ := ih _ hLess
            (s := ⟨s.system.commit i members after events, s.standing, s.stopped, s.taken, _⟩)
            hLater hAfter (runs_on (.of_reaches run) found running hUses moves) gone rfl
          exact ⟨later, (Reaches.refl.tail trivial hFirst).trans rest, hMisused⟩

/-- A thread that has taken a task when the pool is stopped comes to the mutex of the
queue after the queue is destroyed. -/
theorem misuses_jobs (run : Reaches (System.step env) raisesReleased (System.initial env) c)
    (found : c.calls[i]? = some call) (posted : isPosted call.phase = true)
    (idle : c.running = 0) :
    ∃ s, Reaches (Shutdown.step env) anyAction (initial c) s ∧ s.misused ≠ [] := by
  have hMem := List.mem_of_getElem? found
  have hProvided := WorkHandler.provided run call hMem
  have hOpen := isDone_of_isPosted posted
  have hDevices : env.config.devices ≠ [] := by
    rcases hProvided.configured with hDone | ⟨rootHash, hPhase⟩ | hDevices
    · rw [hOpen] at hDone
      cases hDone
    · simp [hPhase, isPosted] at posted
    · exact hDevices
  obtain ⟨system, hStep⟩ := WorkHandler.exists_proceed found hProvided
    (WorkHandler.devices_length run) hOpen fun _ => by
      rw [idle]
      exact List.length_pos_iff.mpr hDevices
  have hStop : (initial c).step env (.stop [i]) =
      some { initial c with stopped := true, taken := [i] } := by
    simp [Shutdown.step, initial, isWaiting, found, posted, idle, hDevices]
  have hDestroy : runActions (Shutdown.step env)
      ⟨c, destructionOrder, true, [i], []⟩ [.destroy, .destroy, .destroy] =
      some ⟨c, [.pool, .devices], true, [i], []⟩ := by
    simp [runActions, Shutdown.step, destructionOrder]
  have hProceed := step_proceed (s := ⟨c, [.pool, .devices], true, [i], []⟩) found
    (by simp [onPool, posted]) hStep
  have hStopped : Reaches (Shutdown.step env) anyAction (initial c) _ :=
    Reaches.refl.tail trivial hStop
  have hDestroyed := hStopped.trans
    (reaches_of_runActions _ hDestroy (allAllowed_anyAction _ _))
  refine ⟨_, hDestroyed.tail trivial hProceed, ?_⟩
  rw [uses_of_isPosted posted]
  exact List.cons_ne_nil _ _

/-- The server shuts down safely exactly if no task is left. Otherwise there is a run in
which a task uses the queue, the active set or the completed jobs after they have been
destroyed. The devices are declared before the pool and are safe in every run. -/
theorem shuts_down_iff (run : Reaches (System.step env) raisesReleased (System.initial env) c)
    (joined : ∀ call ∈ c.calls, inCall call.phase = false) :
    ((∀ s, Reaches (Shutdown.step env) anyAction (initial c) s → s.misused = []) ↔ c.AtRest) ∧
    ∀ s, Reaches (Shutdown.step env) anyAction (initial c) s → .devices ∉ s.misused := by
  refine ⟨⟨fun hSafe => ?_, fun hRest s hRun => (unused_of_atRest hRest hRun).2⟩,
    fun s hRun => (Joins.of_reaches hRun).devices⟩
  intro call hMem
  by_contra hOpen
  obtain ⟨i, hCall⟩ := List.mem_iff_getElem?.mp hMem
  have hMisused : ∃ s, Reaches (Shutdown.step env) anyAction (initial c) s ∧ s.misused ≠ [] := by
    by_cases hIdle : c.running = 0
    · -- Nothing runs, so the call has posted a task that waits.
      have hNot : ¬ call.phase.isRunning = true := List.countP_eq_zero.mp hIdle call hMem
      exact misuses_jobs run hCall (isPosted_of_open hOpen (joined call hMem) hNot) hIdle
    · obtain ⟨other, hOther, hRuns⟩ := List.countP_pos_iff.mp (Nat.pos_of_ne_zero hIdle)
      obtain ⟨j, hFound⟩ := List.mem_iff_getElem?.mp hOther
      have hThreads := (DeviceInv.of_reaches run).threads
      have hActions : runActions (Shutdown.step env) (initial c) [.stop [], .destroy, .destroy] =
          some ⟨c, [.jobs, .pool, .devices], true, [], []⟩ := by
        simp [runActions, Shutdown.step, initial, destructionOrder, hThreads]
      obtain ⟨s, rest, hMisused⟩ := exists_misused
        (s := ⟨c, [.jobs, .pool, .devices], true, [], []⟩) run hFound hRuns (by simp)
      exact ⟨s, (reaches_of_runActions _ hActions (allAllowed_anyAction _ _)).trans rest, hMisused⟩
  obtain ⟨s, hRun, hMisused⟩ := hMisused
  exact hMisused (hSafe s hRun)

/-- A request is pending when the threads are joined, and its task uses what is gone. -/
theorem shuts_down_iff_pending :
    ∃ c : System WorkHandler.JobQueue, ∃ s,
      WorkHandler.sampleRun [.request WorkHandler.generateOne, .proceed 0 0, .proceed 0 0] = some c ∧
      Reaches (Shutdown.step WorkHandler.sampleEnvironment) anyAction (initial c) s ∧
      s.misused ≠ [] ∧ .devices ∉ s.misused := by
  have hPending : ∃ c : System WorkHandler.JobQueue,
      WorkHandler.sampleRun [.request WorkHandler.generateOne, .proceed 0 0, .proceed 0 0] =
        some c ∧
      (∀ call ∈ c.calls, inCall call.phase = false) ∧ ¬ c.AtRest :=
    ⟨_, rfl, by decide, by decide⟩
  obtain ⟨c, hSome, hJoined, hOpen⟩ := hPending
  have run : Reaches (System.step WorkHandler.sampleEnvironment) raisesReleased
      (System.initial WorkHandler.sampleEnvironment) c :=
    reaches_of_runActions _ hSome (by decide)
  have hServer := shuts_down_iff run hJoined
  have hUnsafe := hServer.1.not.mpr hOpen
  push Not at hUnsafe
  obtain ⟨s, hRun, hMisused⟩ := hUnsafe
  exact ⟨c, s, hSome, hRun, hMisused, hServer.2 s hRun⟩

end Shutdown

end NanoPowServer.Entry
