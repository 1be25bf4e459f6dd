import NanoPowServer.Library.Progress
import NanoPowServer.WorkHandler.Disposal
import NanoPowServer.WorkHandler.Lifecycle
import NanoPowServer.WorkHandler.Stranding

/-! Every request is completed. Each step of a call brings it nearer to its end, and
as long as a call is not over some call can take a step, so that the handler comes to
rest once no more requests arrive. At rest nothing is left in the queue, in the active
set or on a device. -/
namespace NanoPowServer.WorkHandler

open PriorityQueue Execution

variable {Queue : Type}

/-- The steps that a call takes from here on, at most, with this many devices. A scan
takes one step for each device and one more to find that it is at the end. -/
def Phase.remaining (devices : Nat) : Phase → Nat
  | .admitting _ => devices + 7
  | .pushed _ => devices + 6
  | .posted _ => devices + 5
  | .scanning _ next => devices - next + 4
  | .acquired _ _ => 4
  | .active _ _ => 3
  | .answered _ _ => 2
  | .cancelling _ | .released _ => 1
  | .returned | .escaped _ | .finished _ | .starved _ | .failed _ => 0

/-- A call or its task moves. -/
def Action.isStep : Action → Bool
  | .proceed _ _ | .raise _ _ => true
  | .request _ | .clear => false

def Action.isRequest : Action → Bool
  | .request _ => true
  | .clear | .proceed _ _ | .raise _ _ => false

/-- Only calls that have been made go on, and nothing raises. -/
def proceeds (_ : System Queue) : Action → Prop
  | .proceed _ _ => True
  | .request _ | .clear | .raise _ _ => False

/-- The call and its task are over, for every call. -/
def System.AtRest (c : System Queue) : Prop := ∀ call ∈ c.calls, call.phase.isDone = true

instance (c : System Queue) : Decidable c.AtRest := by
  unfold System.AtRest
  infer_instance

/-- The steps that the calls take from here on, at most. -/
def System.remaining (c : System Queue) : Nat :=
  (c.calls.map fun call => call.phase.remaining c.members.devices.length).sum

/-- At most this many steps belong to a request. -/
theorem Phase.remaining_arrives {env : Environment} {jobId : UInt32} {body : String} {call : Call}
    (devices : Nat) (h : Arrives env jobId body call) :
    call.phase.remaining devices ≤ devices + 7 := by
  cases h <;> simp [Phase.remaining]

theorem System.remaining_commit {c : System Queue} {i : Nat} {call : Call}
    (found : c.calls[i]? = some call) {members : Members Queue} (after : Call)
    (events : List Event) (hDevices : members.devices.length = c.members.devices.length) :
    (c.commit i members after events).remaining + call.phase.remaining c.members.devices.length =
      c.remaining + after.phase.remaining c.members.devices.length := by
  unfold System.remaining
  rw [System.commit_members, System.commit_calls, hDevices]
  exact List.sum_map_set_add found after _

section

variable [PriorityQueue Queue Job Job.comparator] {env : Environment} {c next : System Queue}
  {i now : Nat} {call after : Call} {members : Members Queue} {events : List Event}
  {action : Action}

theorem devices_length_of_moves (moves : Moves env c i now call members after events) :
    members.devices.length = c.members.devices.length := by
  cases moves <;> simp

theorem devices_length_of_step (hStep : Step env c action next) :
    next.members.devices.length = c.members.devices.length := by
  cases hStep with
  | request body => rw [System.arrive_members]
  | clear => rw [System.clear_members]
  | proceed _ moves => exact devices_length_of_moves moves
  | raise => rfl

theorem devices_length {guard : System Queue → Action → Prop}
    (run : Reaches (System.step env) guard (System.initial env) c) :
    c.members.devices.length = env.config.devices.length := by
  refine run.invariant (fun c => c.members.devices.length = env.config.devices.length) ?_ ?_
  · simp [System.initial]
  · intro c action next _ h _ hStep
    exact (devices_length_of_step (step_cases hStep)).trans h

theorem remaining_of_moves (moves : Moves env c i now call members after events) :
    after.phase.remaining c.members.devices.length <
      call.phase.remaining c.members.devices.length := by
  cases moves with
  | busy phase found _ =>
      obtain ⟨hNext, -⟩ := List.getElem?_eq_some_iff.mp found
      simp only [phase, Call.goto_phase, Phase.remaining]
      omega
  | acquired phase found _ =>
      obtain ⟨hNext, -⟩ := List.getElem?_eq_some_iff.mp found
      simp only [phase, Call.goto_phase, Phase.remaining]
      omega
  | cancelled phase _ | notFound phase _ | admitted phase _ | rejected phase _ | posted phase
  | popped phase _ _ | starved phase _ _ | noDevice phase _ | inserted phase | answered phase
  | released phase _ | finished phase => simp [phase, Phase.remaining]

/-- A step of a call takes at least one from what remains, and only a new request adds
to it. -/
theorem remaining_of_step (hStep : Step env c action next) :
    next.remaining + action.isStep.toNat ≤
      c.remaining + if action.isRequest then c.members.devices.length + 7 else 0 := by
  cases hStep with
  | request body =>
      have hNew := Phase.remaining_arrives c.members.devices.length
        (arrives env c.jobIdDispenser body)
      simp only [System.remaining, System.arrive_members, System.arrive_calls, List.map_append,
        List.map_singleton, List.sum_append, List.sum_singleton, Action.isStep, Action.isRequest]
      simpa using hNew
  | clear => simp [System.remaining, Action.isStep, Action.isRequest]
  | @proceed i now call after members events found moves =>
      have hSum := System.remaining_commit found after events (devices_length_of_moves moves)
      have hLess := remaining_of_moves moves
      simp only [Action.isStep, Action.isRequest, Bool.toNat_true, Bool.false_eq_true, if_false]
      omega
  | @raise i call task what found raises =>
      have hSum := System.remaining_commit found (call.fail (.failed task) what) []
        (rfl : c.members.devices.length = _)
      have hLess : 0 < call.phase.remaining c.members.devices.length := by
        cases raises <;> simp [*, Phase.remaining]
      have hOver : (call.fail (.failed task) what).phase.remaining c.members.devices.length = 0 := rfl
      simp only [Action.isStep, Action.isRequest, Bool.toNat_true, Bool.false_eq_true, if_false]
      omega

/-- The steps of calls that a run takes are paid for by what remains and by the new
requests. -/
theorem steps_le_remaining {actions : List Action} {finish : System Queue}
    (hRun : runActions (System.step env) c actions = some finish) :
    finish.remaining + actions.countP Action.isStep ≤
      c.remaining + (c.members.devices.length + 7) * actions.countP Action.isRequest := by
  have hPaid := countP_add_le_of_measure System.remaining Action.isStep
    (fun action => if action.isRequest then c.members.devices.length + 7 else 0)
    (fun state => state.members.devices.length = c.members.devices.length)
    (fun _ _ _ h hStep => (devices_length_of_step (step_cases hStep)).trans h)
    (fun _ _ _ h hStep => h ▸ remaining_of_step (step_cases hStep)) rfl hRun
  have hCost : (actions.map fun action =>
      if action.isRequest then c.members.devices.length + 7 else 0).sum =
        (c.members.devices.length + 7) * actions.countP Action.isRequest := by
    rw [List.sum_map_ite, List.countP_eq_length_filter, List.map_const', List.map_const',
      List.sum_replicate, List.sum_replicate]
    simp [Nat.mul_comm]
  rwa [hCost] at hPaid

/-- What a call that is not over has been promised: a device is configured, and the
one that its task holds is in the array. -/
structure Provided (env : Environment) (call : Call) : Prop where
  configured : call.phase.isDone = true ∨ (∃ rootHash, call.phase = .cancelling rootHash) ∨
    env.config.devices ≠ []
  index : ∀ device, call.phase.device? = some device → device < env.config.devices.length

theorem Provided.of_moves (h : Provided env call)
    (hDevices : c.members.devices.length = env.config.devices.length)
    (moves : Moves env c i now call members after events) : Provided env after := by
  obtain ⟨hConfigured, hIndex⟩ := h
  cases moves with
  | acquired phase found _ =>
      obtain ⟨hNext, -⟩ := List.getElem?_eq_some_iff.mp found
      refine ⟨by simpa [phase, Phase.isDone] using hConfigured, ?_⟩
      intro device hDevice
      obtain rfl := Option.some.inj hDevice
      exact hDevices ▸ hNext
  | cancelled phase _ | notFound phase _ | rejected phase _ | starved phase _ _ | noDevice phase _
  | finished phase => exact ⟨.inl rfl, by simp [Phase.device?]⟩
  | released phase _ =>
      exact ⟨by simpa [phase, Phase.isDone] using hConfigured, by simp [Phase.device?]⟩
  | admitted phase _ | posted phase | popped phase _ _ | busy phase _ _ | inserted phase
  | answered phase =>
      refine ⟨by simpa [phase, Phase.isDone] using hConfigured, fun device hDevice => ?_⟩
      exact hIndex device (by rw [phase]; exact hDevice)

theorem provided {guard : System Queue → Action → Prop}
    (run : Reaches (System.step env) guard (System.initial env) c) :
    ∀ call ∈ c.calls, Provided env call := by
  apply calls_invariant run (Provided env)
  · intro jobId body call _ hArrives
    cases hArrives with
    | admitting own id constructs =>
        refine ⟨.inr (.inr ?_), by simp [Phase.device?]⟩
        unfold constructsJob at constructs
        split at constructs <;> simp_all
    | cancelling rootHash => exact ⟨.inr (.inl ⟨rootHash, rfl⟩), by simp [Phase.device?]⟩
    | answered | escaped => exact ⟨.inl rfl, by simp [Phase.device?]⟩
  · intro c i now call members after events prior _ _ h moves
    exact h.of_moves (devices_length prior) moves
  · intro c i call task what _ _ _ _
    exact ⟨.inl rfl, by simp [Phase.device?]⟩

/-- A call that is not over is held up by nothing but a pool all of whose threads are
taken. -/
theorem exists_proceed (hCall : c.calls[i]? = some call) (h : Provided env call)
    (hDevices : c.members.devices.length = env.config.devices.length)
    (hOpen : call.phase.isDone = false)
    (hThread : call.phase.waiting?.isSome = true → c.running < env.config.devices.length) :
    ∃ next, c.step env (.proceed i 0) = some next := by
  have hMove : ∃ move, call.proceed env c i 0 = some move := by
    apply Option.isSome_iff_exists.mp
    cases hPhase : call.phase with
    | posted own =>
        have hFree := hThread (by simp [hPhase, Phase.waiting?])
        simp only [Call.proceed, hPhase, hFree, if_true]
        split <;> rfl
    | answered task device =>
        have hBound := h.index device (by simp [hPhase, Phase.device?])
        rw [← hDevices] at hBound
        simp [Call.proceed, hPhase, List.getElem?_eq_getElem hBound]
    | cancelling rootHash =>
        simp only [Call.proceed, hPhase]
        split <;> rfl
    | admitting own | scanning task device =>
        simp only [Call.proceed, hPhase]
        split <;> (try split) <;> rfl
    | pushed own | acquired task device | active task device | released task =>
        simp [Call.proceed, hPhase]
    | returned | escaped exception | finished task | starved own | failed task =>
        simp [hPhase, Phase.isDone] at hOpen
  obtain ⟨move, hMove⟩ := hMove
  simp [System.step, hCall, hMove]

/-- The handler never gets stuck: a call that waits for a thread of the pool waits for
a task that can go on. -/
theorem progress {guard : System Queue → Action → Prop}
    (run : Reaches (System.step env) guard (System.initial env) c) (hOpen : ¬ c.AtRest) :
    ∃ i next, c.step env (.proceed i 0) = some next := by
  have hProvided := provided run
  have hDevices := devices_length run
  unfold System.AtRest at hOpen
  push Not at hOpen
  obtain ⟨call, hMem, hPhase⟩ := hOpen
  have hPhase : call.phase.isDone = false := by simpa using hPhase
  obtain ⟨i, hCall⟩ := List.mem_iff_getElem?.mp hMem
  by_cases hThread : call.phase.waiting?.isSome = true → c.running < env.config.devices.length
  · exact ⟨i, exists_proceed hCall (hProvided call hMem) hDevices hPhase hThread⟩
  · -- All threads are taken, and there is at least one.
    push Not at hThread
    obtain ⟨hWaiting, hFull⟩ := hThread
    have hConfigured : env.config.devices ≠ [] := by
      rcases (hProvided call hMem).configured with hDone | ⟨rootHash, hCancel⟩ | hConfigured
      · rw [hPhase] at hDone
        cases hDone
      · simp [hCancel, Phase.waiting?] at hWaiting
      · exact hConfigured
    have hRunning : 0 < c.running :=
      Nat.lt_of_lt_of_le (List.length_pos_iff.mpr hConfigured) hFull
    obtain ⟨other, hOther, hRuns⟩ := List.countP_pos_iff.mp hRunning
    obtain ⟨j, hThere⟩ := List.mem_iff_getElem?.mp hOther
    refine ⟨j, exists_proceed hThere (hProvided other hOther) hDevices ?_ ?_⟩
    · cases hTask : other.phase <;> simp_all [Phase.isRunning, Phase.isDone]
    · cases hTask : other.phase <;> simp_all [Phase.isRunning, Phase.waiting?]

theorem System.AtRest.step_eq_none (h : c.AtRest) (i now : Nat) :
    c.step env (.proceed i now) = none := by
  cases hCall : c.calls[i]? with
  | none => simp [System.step, hCall]
  | some call =>
      have hDone := h call (List.mem_of_getElem? hCall)
      cases hPhase : call.phase <;>
        simp_all [System.step, Call.proceed, Phase.isDone]

theorem remaining_lt_of_proceeds (allowed : proceeds c action)
    (hStep : c.step env action = some next) : next.remaining < c.remaining := by
  have hSum := remaining_of_step (step_cases hStep)
  cases action with
  | proceed i now =>
      simp only [Action.isStep, Action.isRequest, Bool.toNat_true, Bool.false_eq_true,
        if_false] at hSum
      omega
  | request body => exact allowed.elim
  | clear => exact allowed.elim
  | raise i what => exact allowed.elim

/-- Every run can be continued to a state at rest, by steps of the calls alone. -/
theorem exists_atRest {guard : System Queue → Action → Prop}
    (run : Reaches (System.step env) guard (System.initial env) c) :
    ∃ finish, Reaches (System.step env) proceeds c finish ∧ finish.AtRest := by
  refine exists_reaches_rest System.remaining
    (fun c => Reaches (System.step env) anyAction (System.initial env) c) System.AtRest ?_ ?_ ?_
    (run.mono fun _ _ _ => trivial)
  · intro state action next prior _ hStep
    exact prior.tail trivial hStep
  · intro state action next _ allowed hStep
    exact remaining_lt_of_proceeds allowed hStep
  · intro state prior hOpen
    obtain ⟨i, next, hStep⟩ := progress prior hOpen
    exact ⟨.proceed i 0, next, trivial, hStep⟩

omit [PriorityQueue Queue Job Job.comparator] in
theorem noRaise_of_proceeds (c : System Queue) (action : Action) (h : proceeds c action) :
    noRaise c action := by
  cases action with
  | proceed i now => trivial
  | request body => trivial
  | clear => trivial
  | raise i what => exact h.elim

omit [PriorityQueue Queue Job Job.comparator] in
theorem handlersReturn_of_noRaise (c : System Queue) (action : Action) (h : noRaise c action) :
    handlersReturn c action := by
  cases action with
  | raise i what => exact h.elim
  | proceed i now => trivial
  | request body => trivial
  | clear => trivial

theorem served (run : Reaches (System.step env) handlersReturn (System.initial env) c) :
    ∀ call ∈ c.calls, Served env call := by
  apply calls_invariant run (Served env)
  · intro jobId body call hSame hArrives
    exact served_of_arrives hSame hArrives
  · intro c i now call members next events _ _ _ h moves
    exact served_of_moves h moves
  · intro c i call task what allowed found h raises
    rw [handlersReturn, found] at allowed
    exact served_of_raises h raises (by simpa using allowed)

omit [PriorityQueue Queue Job Job.comparator] in
/-- No phase of a call that is over counts. -/
theorem System.AtRest.countP_eq_zero (h : c.AtRest) {p : Call → Bool}
    (hOpen : ∀ call, call.phase.isDone = true → p call = false) : c.calls.countP p = 0 := by
  rw [List.countP_eq_zero]
  intro call hCall
  simp [hOpen call (h call hCall)]

/-- Nothing is left behind: no job is queued or active, every device is free, every
request has its one response unless an exception has escaped from it, and every job
that was accepted has been finished or removed. -/
structure Settled (env : Environment) (c : System Queue) : Prop where
  jobs : items c.members.jobs = 0
  activeJobs : c.members.activeJobs = []
  devices : ∀ device ∈ c.members.devices, device.busy = false
  responses : ∀ call ∈ c.calls, ¬ SignsReachedBy env call.body → call.responses.length = 1
  accepted : ∀ ticket, Accepted c ticket → Located c ticket .finished ∨ Located c ticket .removed

theorem Settled.of_atRest (run : Reaches (System.step env) noRaise (System.initial env) c)
    (hFew : c.created.length < 2 ^ 32) (h : c.AtRest) : Settled env c := by
  have hJobs : items c.members.jobs = 0 := by
    have hSize : size c.members.jobs ≤ c.waiting := by
      refine run.invariant (fun c => size c.members.jobs ≤ c.waiting) ?_ ?_
      · simp [System.initial, size_eq]
      · intro state action next _ h _ hStep
        exact size_le_waiting_step (step_cases hStep) h
    have hNone : c.waiting = 0 := h.countP_eq_zero fun call hDone => by
      cases hPhase : call.phase <;> simp_all [Phase.isDone, Phase.waiting?]
    rw [hNone, size_eq, Nat.le_zero] at hSize
    exact Multiset.card_eq_zero.mp hSize
  have hActive := activeSet run hFew
  refine ⟨hJobs, ?_, ?_, ?_, ?_⟩
  · apply List.eq_nil_iff_forall_not_mem.mpr
    intro i hMem
    obtain ⟨call, hCall, job, hJob⟩ := hActive.exists_of_mem hMem
    have hDone := h call (List.mem_of_getElem? hCall)
    cases hPhase : call.phase <;> simp_all [Phase.isDone, Phase.active?]
  · intro device hDevice
    obtain ⟨index, hIndex⟩ := List.mem_iff_getElem?.mp hDevice
    have hHolders := (DeviceInv.of_reaches
      (run.mono fun _ _ => raisesReleased_of_noRaise)).holders index
    have hNone : c.holders index = 0 := h.countP_eq_zero fun call hDone => by
      cases hPhase : call.phase <;> simp_all [Phase.isDone, Phase.device?]
    rw [hNone] at hHolders
    cases hBusy : device.busy with
    | false => rfl
    | true => simp [busyAt, hIndex, hBusy] at hHolders
  · intro call hCall hRegular
    have hServed := served (run.mono handlersReturn_of_noRaise) call hCall
    have hDone := h call hCall
    rw [hServed.count]
    rw [← hServed.escaped] at hRegular
    cases hPhase : call.phase <;> simp_all [Phase.isDone, Phase.isAnswered]
  · intro ticket hAccepted
    obtain ⟨place, hPlace⟩ := exists_located run hFew hAccepted
    cases place with
    | finished => exact .inl hPlace
    | removed => exact .inr hPlace
    | pending =>
        obtain ⟨job, hJob, -⟩ := hPlace
        simp [hJobs] at hJob
    | held i =>
        obtain ⟨call, hCall, hTicket⟩ := hPlace
        have hDone := h call (List.mem_of_getElem? hCall)
        cases hPhase : call.phase <;> simp_all [Phase.isDone, Phase.held?]
    | active i =>
        obtain ⟨call, hCall, hTicket⟩ := (located_active_iff hActive ticket i).mp hPlace
        have hDone := h call (List.mem_of_getElem? hCall)
        cases hPhase : call.phase <;> simp_all [Phase.isDone, Phase.active?]

theorem created_of_proceeds {later : System Queue}
    (rest : Reaches (System.step env) proceeds c later) : later.created = c.created := by
  refine rest.invariant (fun later => later.created = c.created) rfl ?_
  intro state action next _ h allowed hStep
  rcases created_of_step (step_cases hStep) with ⟨body, rfl, -⟩ | ⟨-, hSame, -⟩
  · exact allowed.elim
  · exact hSame.trans h

/-- The handler never stands still with a request open. Whatever else happens in a run,
the calls take at most as many steps in it as the number of devices and seven for each
request, and in every state that is reached some call can take a step unless all of them
are over. -/
theorem never_stuck (env : Environment) {actions : List Action}
    (hRun : runActions (System.step env) (System.initial env : System Queue) actions = some c) :
    actions.countP Action.isStep ≤
      (env.config.devices.length + 7) * actions.countP Action.isRequest ∧
    (¬ c.AtRest → ∃ i next, c.step env (.proceed i 0) = some next) := by
  have hReaches : Reaches (System.step env) anyAction (System.initial env) c :=
    reaches_of_runActions actions hRun (allAllowed_anyAction actions _)
  have hSteps := steps_le_remaining hRun
  have hDevices : (System.initial env : System Queue).members.devices.length =
      env.config.devices.length := by simp [System.initial]
  have hNone : (System.initial env : System Queue).remaining = 0 := rfl
  rw [hDevices, hNone] at hSteps
  exact ⟨by omega, progress hReaches⟩

/-- Once no more requests arrive, the handler comes to rest, whatever the order in which
the calls go on, and at rest everything is settled: the queue and the active set are
empty, the devices are free, every request has been answered and every job is accounted
for. -/
theorem settles (env : Environment)
    (run : Reaches (System.step env) noRaise (System.initial env) c)
    (hFew : c.created.length < 2 ^ 32) :
    (∃ finish, Reaches (System.step env) proceeds c finish ∧ finish.AtRest) ∧
    ∀ later, Reaches (System.step env) proceeds c later →
      (∀ i now, later.step env (.proceed i now) = none) → Settled env later := by
  refine ⟨exists_atRest run, fun later rest hStops => ?_⟩
  have hRun := run.trans (rest.mono noRaise_of_proceeds)
  refine Settled.of_atRest hRun (by rwa [created_of_proceeds rest]) ?_
  by_contra hOpen
  obtain ⟨i, next, hStep⟩ := progress hRun hOpen
  rw [hStops i 0] at hStep
  cases hStep

end

/-- Two requests for one device: the second waits for the thread that the first has. -/
def queuedRun : List Action :=
  [.request generateOne, .request generateTwo, .proceed 0 0, .proceed 1 0, .proceed 0 0,
    .proceed 1 0, .proceed 1 0]

theorem never_stuck_two :
    ∃ h : (sampleRun queuedRun).isSome = true,
      queuedRun.countP Action.isStep = 5 ∧ queuedRun.countP Action.isRequest = 2 ∧
      ((sampleRun queuedRun).get h).step sampleEnvironment (.proceed 0 0) = none ∧
      ∃ i next, ((sampleRun queuedRun).get h).step sampleEnvironment (.proceed i 0) = some next :=
  ⟨by decide, by decide, by decide, rfl,
    (never_stuck sampleEnvironment (Option.some_get _).symm).2 (by decide)⟩

theorem settles_two :
    ∃ c finish : System JobQueue, sampleRun queuedRun = some c ∧
      Reaches (System.step sampleEnvironment) proceeds c finish ∧ finish.AtRest ∧
      Settled sampleEnvironment finish := by
  have hQueued : ∃ c : System JobQueue, sampleRun queuedRun = some c ∧
      c.created.length < 2 ^ 32 := ⟨_, rfl, by decide⟩
  obtain ⟨c, hSome, hFew⟩ := hQueued
  have run : Reaches (System.step sampleEnvironment) noRaise (System.initial sampleEnvironment) c :=
    reaches_of_runActions _ hSome (by decide)
  have hSettles := settles sampleEnvironment run hFew
  obtain ⟨finish, rest, hRest⟩ := hSettles.1
  exact ⟨c, finish, hSome, rest, hRest, hSettles.2 finish rest hRest.step_eq_none⟩

end NanoPowServer.WorkHandler
