import NanoPowServer.WorkHandler.ActiveSet
import NanoPowServer.WorkHandler.Devices

/-! What a failed task leaves behind. The catch block only answers, so a device that
the task has acquired stays busy without a task that could release it, and a job in
the active set stays there. -/
namespace NanoPowServer.WorkHandler

open PriorityQueue Execution

variable {Queue : Type}

namespace System

def freeDevices (c : System Queue) : Nat := c.members.devices.countP fun device => !device.busy

/-- The number of tasks that hold a device. -/
def working (c : System Queue) : Nat := c.calls.countP fun call => call.phase.device?.isSome

end System

/-- What the move of a call does to the devices. -/
inductive Handles (c : System Queue) (call : Call) (members : Members Queue) (after : Call) :
    Prop where
  | keeps (devices : members.devices = c.members.devices)
      (holds : after.phase.device? = call.phase.device?)
  | passes {index : Nat} {device : RegisteredDevice} (found : c.members.devices[index]? = some device)
      (taken : device.busy = true)
      (devices : members.devices = c.members.devices.set index device.tryAquire.2)
      (before : call.phase.device? = none) (holds : after.phase.device? = none)
  | takes {index : Nat} {device : RegisteredDevice} (found : c.members.devices[index]? = some device)
      (free : device.busy = false)
      (devices : members.devices = c.members.devices.set index device.tryAquire.2)
      (before : call.phase.device? = none) (holds : after.phase.device? = some index)
  | returns {index : Nat} {device : RegisteredDevice}
      (found : c.members.devices[index]? = some device)
      (devices : members.devices = c.members.devices.set index device.release.2)
      (before : call.phase.device? = some index) (holds : after.phase.device? = none)

theorem handles_of_moves [PriorityQueue Queue Job Job.comparator] {env : Environment}
    {c : System Queue} {i now : Nat} {call after : Call} {members : Members Queue}
    {events : List Event} (moves : Moves env c i now call members after events) :
    Handles c call members after := by
  cases moves with
  | busy phase found taken => exact .passes found taken rfl (by rw [phase]; rfl) rfl
  | acquired phase found free => exact .takes found free rfl (by rw [phase]; rfl) rfl
  | released phase found => exact .returns found rfl (by rw [phase]; rfl) rfl
  | cancelled phase _ | notFound phase _ | admitted phase _ | rejected phase _ | posted phase
  | popped phase _ _ | starved phase _ _ | noDevice phase _ | inserted phase | answered phase
  | finished phase => exact .keeps rfl (by rw [phase]; rfl)

/-- A device is held by one task at most, and by none while it is free. -/
def HeldBusy (c : System Queue) : Prop :=
  ∀ index, c.holders index ≤ (busyAt c.members.devices index).toNat

/-- No task holds this device, and it is busy. -/
def Leaked (c : System Queue) (index : Nat) : Prop :=
  busyAt c.members.devices index = true ∧ c.holders index = 0

theorem device?_arrives (env : Environment) (jobId : UInt32) (body : String) :
    (Call.handleRequestAsync env jobId body).phase.device? = none := by
  have hArrives := arrives env jobId body
  generalize Call.handleRequestAsync env jobId body = call at hArrives
  cases hArrives <;> rfl

theorem holders_arrive (c : System Queue) (env : Environment) (body : String) (index : Nat) :
    (c.arrive env body).holders index = c.holders index := by
  simp [System.holders, device?_arrives]

theorem working_arrive (c : System Queue) (env : Environment) (body : String) :
    (c.arrive env body).working = c.working := by
  simp [System.working, device?_arrives]

@[simp] theorem busy_tryAquire (device : RegisteredDevice) : device.tryAquire.2.busy = true := rfl

@[simp] theorem busy_release (device : RegisteredDevice) : device.release.2.busy = false := rfl

theorem busyAt_tryAquire {devices : List RegisteredDevice} {index : Nat}
    {device : RegisteredDevice} (found : devices[index]? = some device) (other : Nat) :
    busyAt (devices.set index device.tryAquire.2) other =
      if index = other then true else busyAt devices other := by
  split
  · next hSame =>
      subst hSame
      rw [busyAt_set_self found]
      rfl
  · next hSame => exact busyAt_set_ne _ hSame _

theorem busyAt_release {devices : List RegisteredDevice} {index : Nat}
    {device : RegisteredDevice} (found : devices[index]? = some device) (other : Nat) :
    busyAt (devices.set index device.release.2) other =
      if index = other then false else busyAt devices other := by
  split
  · next hSame =>
      subst hSame
      rw [busyAt_set_self found]
      rfl
  · next hSame => exact busyAt_set_ne _ hSame _

theorem busyAt_of_found {devices : List RegisteredDevice} {index : Nat}
    {device : RegisteredDevice} (found : devices[index]? = some device) :
    busyAt devices index = device.busy := by
  simp [busyAt, found]

theorem holders_pos {c : System Queue} {i index : Nat} {call : Call}
    (found : c.calls[i]? = some call) (holds : call.phase.device? = some index) :
    0 < c.holders index :=
  List.countP_pos_iff.mpr ⟨call, List.mem_of_getElem? found, by simp [holds]⟩

section Steps

variable {env : Environment} {c : System Queue} {i : Nat} {call after : Call}
  {members : Members Queue}

theorem HeldBusy.handles (h : HeldBusy c) (found : c.calls[i]? = some call)
    (effect : Handles c call members after) (events : List Event) :
    HeldBusy (c.commit i members after events) := by
  intro index
  have hCount := System.holders_commit found members after events index
  have hIndex := h index
  rw [System.commit_members]
  cases effect with
  | keeps devices holds =>
      rw [devices]
      rw [holds] at hCount
      omega
  | @passes other device hDevice taken devices before holds =>
      rw [before, holds] at hCount
      rw [devices, busyAt_tryAquire hDevice]
      have hBusy := busyAt_of_found hDevice
      split <;> simp_all
  | @takes other device hDevice free devices before holds =>
      rw [before, holds] at hCount
      rw [devices, busyAt_tryAquire hDevice]
      have hBusy := busyAt_of_found hDevice
      split <;> simp_all
  | @returns other device hDevice devices before holds =>
      rw [before, holds] at hCount
      rw [devices, busyAt_release hDevice]
      have hOne := Bool.toNat_le (busyAt c.members.devices index)
      split
      · next hSame =>
          simp only [hSame, decide_true, Bool.toNat_true, reduceCtorEq, decide_false,
            Bool.toNat_false] at hCount ⊢
          omega
      · next hSame =>
          simp only [Option.some.injEq, hSame, reduceCtorEq, decide_false,
            Bool.toNat_false] at hCount
          omega

/-- A device without a task that could release it is never taken again. -/
theorem Leaked.handles {index : Nat} (h : Leaked c index) (found : c.calls[i]? = some call)
    (effect : Handles c call members after) (events : List Event) :
    Leaked (c.commit i members after events) index := by
  obtain ⟨hBusy, hNone⟩ := h
  have hCount := System.holders_commit found members after events index
  rw [hNone] at hCount
  cases effect with
  | keeps devices holds =>
      rw [holds] at hCount
      exact ⟨by rw [System.commit_members, devices]; exact hBusy, by omega⟩
  | @passes other device hDevice taken devices before holds =>
      rw [before, holds] at hCount
      refine ⟨?_, by omega⟩
      rw [System.commit_members, devices, busyAt_tryAquire hDevice, hBusy, ite_self]
  | @takes other device hDevice free devices before holds =>
      have hne : other ≠ index := by
        rintro rfl
        rw [busyAt_of_found hDevice, free] at hBusy
        cases hBusy
      rw [before, holds] at hCount
      refine ⟨?_, by simpa [hne] using hCount⟩
      rw [System.commit_members, devices, busyAt_tryAquire hDevice, hBusy, ite_self]
  | @returns other device hDevice devices before holds =>
      have hne : other ≠ index := by
        rintro rfl
        have := holders_pos found before
        omega
      rw [before, holds] at hCount
      refine ⟨?_, by simpa [hne] using hCount⟩
      rw [System.commit_members, devices, busyAt_release hDevice, if_neg hne]
      exact hBusy

/-- A task that fails holds no device any more, and the devices are as they were. -/
theorem HeldBusy.raise (h : HeldBusy c) (found : c.calls[i]? = some call) (task : Task)
    (what : String) :
    HeldBusy (c.commit i c.members (call.fail (.failed task) what) []) := by
  intro index
  have hCount := System.holders_commit found c.members (call.fail (.failed task) what) [] index
  have hIndex := h index
  rw [Call.fail_phase] at hCount
  simp only [Phase.device?, reduceCtorEq, decide_false, Bool.toNat_false, Nat.add_zero] at hCount
  rw [System.commit_members]
  omega

theorem Leaked.raise {index : Nat} (h : Leaked c index) (found : c.calls[i]? = some call)
    (task : Task) (what : String) :
    Leaked (c.commit i c.members (call.fail (.failed task) what) []) index := by
  obtain ⟨hBusy, hNone⟩ := h
  have hCount := System.holders_commit found c.members (call.fail (.failed task) what) [] index
  rw [hNone, Call.fail_phase] at hCount
  simp only [Phase.device?, reduceCtorEq, decide_false, Bool.toNat_false, Nat.add_zero] at hCount
  exact ⟨hBusy, by omega⟩

variable [PriorityQueue Queue Job Job.comparator] {next : System Queue} {action : Action}

theorem HeldBusy.step (h : HeldBusy c) (hStep : Step env c action next) : HeldBusy next := by
  cases hStep with
  | request body =>
      intro index
      rw [holders_arrive, System.arrive_members]
      exact h index
  | clear =>
      intro index
      rw [System.holders, System.clear_calls, System.clear_members]
      exact h index
  | proceed found moves => exact h.handles found (handles_of_moves moves) _
  | raise what found _ => exact h.raise found _ what

theorem HeldBusy.of_reaches {guard : System Queue → Action → Prop}
    (run : Reaches (System.step env) guard (System.initial env) c) : HeldBusy c := by
  refine run.invariant HeldBusy ?_ fun _ _ _ _ h _ hStep => h.step (step_cases hStep)
  intro index
  exact Nat.zero_le _

theorem Leaked.step {index : Nat} (h : Leaked c index) (hStep : Step env c action next) :
    Leaked next index := by
  cases hStep with
  | request body => exact ⟨by rw [System.arrive_members]; exact h.1, by rw [holders_arrive]; exact h.2⟩
  | clear =>
      refine ⟨by rw [System.clear_members]; exact h.1, ?_⟩
      rw [System.holders, System.clear_calls]
      exact h.2
  | proceed found moves => exact h.handles found (handles_of_moves moves) _
  | raise what found _ => exact h.raise found _ what

/-- A device that has leaked stays busy in every later state. -/
theorem Leaked.persists {guard : System Queue → Action → Prop} {index : Nat} {later : System Queue}
    (h : Leaked c index) (run : Reaches (System.step env) guard c later) : Leaked later index :=
  run.invariant (fun c => Leaked c index) h fun _ _ _ _ h _ hStep => h.step (step_cases hStep)

end Steps

/-- An error is raised only while the task holds no device and its job is not in the
active set. -/
def raisesEmpty (c : System Queue) : Action → Prop
  | .raise i _ => (c.calls[i]?).bind (·.phase.device?) = none ∧ i ∉ c.members.activeJobs
  | _ => True

instance (c : System Queue) (action : Action) : Decidable (raisesEmpty c action) :=
  match action with
  | .raise i _ =>
      inferInstanceAs
        (Decidable ((c.calls[i]?).bind (·.phase.device?) = none ∧ i ∉ c.members.activeJobs))
  | .request _ | .clear | .proceed _ _ => isTrue trivial

/-- The job of the task has been inserted into the active set. -/
def Phase.isInserted : Phase → Bool
  | .active _ _ | .answered _ _ | .released _ | .finished _ => true
  | _ => false

/-- No task that has failed left anything behind: the active set refers to other
tasks, each busy device is held by one of these, and so the free devices are as many
as if the failed tasks had never run. -/
structure GivenBack (env : Environment) (c : System Queue) : Prop where
  active : ∀ i ∈ c.members.activeJobs, ∃ call, c.calls[i]? = some call ∧
    call.phase.isInserted = true
  held : ∀ index, busyAt c.members.devices index = true →
    ∃ call ∈ c.calls, call.phase.device? = some index
  free : c.freeDevices + c.working = env.config.devices.length

/-- The task of this call has ended in its catch block now. -/
def FailsIn (next : System Queue) (i : Nat) (call : Call) : Prop :=
  ∃ task, (next.calls[i]?).map Call.phase = some (.failed task) ∧ call.phase ≠ .failed task

/-- What the failure of a task gives back at once. -/
def GivesBack (c next : System Queue) (i : Nat) (call : Call) : Prop :=
  (∀ index, call.phase.device? = some index → busyAt next.members.devices index = false) ∧
    i ∉ next.members.activeJobs ∧
    next.freeDevices = c.freeDevices + (if call.phase.device?.isSome then 1 else 0)

section Steps

variable {env : Environment} {c : System Queue} {i : Nat} {call after : Call}
  {members : Members Queue}

theorem working_commit (found : c.calls[i]? = some call) (members : Members Queue) (after : Call)
    (events : List Event) :
    (c.commit i members after events).working + call.phase.device?.isSome.toNat =
      c.working + after.phase.device?.isSome.toNat :=
  System.countP_commit members after events (·.phase.device?.isSome) found

/-- A device changes between free and held along with its task. -/
theorem free_handles (hHeld : HeldBusy c) (found : c.calls[i]? = some call)
    (effect : Handles c call members after) (events : List Event) :
    (c.commit i members after events).freeDevices + (c.commit i members after events).working =
      c.freeDevices + c.working := by
  have hWorking := working_commit found members after events
  unfold System.freeDevices
  rw [System.commit_members]
  cases effect with
  | keeps devices holds =>
      rw [devices]
      rw [holds] at hWorking
      omega
  | @passes index device hDevice taken devices before holds =>
      have hFree := List.countP_set_add (fun device : RegisteredDevice => !device.busy) hDevice
        device.tryAquire.2
      simp only [taken, busy_tryAquire, before, holds, Bool.not_true, Bool.toNat_false,
        Option.isSome_none] at hFree hWorking
      rw [devices]
      omega
  | @takes index device hDevice free devices before holds =>
      have hFree := List.countP_set_add (fun device : RegisteredDevice => !device.busy) hDevice
        device.tryAquire.2
      simp only [free, busy_tryAquire, before, holds, Bool.not_true, Bool.not_false,
        Bool.toNat_false, Bool.toNat_true, Option.isSome_none, Option.isSome_some] at hFree hWorking
      rw [devices]
      omega
  | @returns index device hDevice devices before holds =>
      have hFree := List.countP_set_add (fun device : RegisteredDevice => !device.busy) hDevice
        device.release.2
      have hBusy : device.busy = true := by
        have hIndex := hHeld index
        have := holders_pos found before
        rw [busyAt_of_found hDevice] at hIndex
        cases hDeviceBusy : device.busy with
        | true => rfl
        | false =>
            rw [hDeviceBusy, Bool.toNat_false] at hIndex
            omega
      simp only [hBusy, busy_release, before, holds, Bool.not_true, Bool.not_false,
        Bool.toNat_false, Bool.toNat_true, Option.isSome_none, Option.isSome_some] at hFree hWorking
      rw [devices]
      omega

variable [PriorityQueue Queue Job Job.comparator] {next : System Queue} {action : Action}

theorem isInserted_of_moves {now : Nat} {events : List Event}
    (moves : Moves env c i now call members after events)
    (hBefore : call.phase.isInserted = true) : after.phase.isInserted = true := by
  cases moves <;> simp_all [Phase.isInserted]

theorem GivenBack.step (h : GivenBack env c) (hDevices : DeviceInv env next) (hHeld : HeldBusy c)
    (allowed : raisesEmpty c action) (hStep : Step env c action next) : GivenBack env next := by
  have hBusy : ∀ index, busyAt next.members.devices index = true →
      ∃ call ∈ next.calls, call.phase.device? = some index := by
    intro index hIndex
    have hOne : next.holders index = 1 := by rw [hDevices.holders index, hIndex]; rfl
    obtain ⟨call, hCall, hHolds⟩ := List.countP_pos_iff.mp (by
      rw [← System.holders, hOne]
      exact Nat.one_pos)
    exact ⟨call, hCall, by simpa using hHolds⟩
  refine ⟨?_, hBusy, ?_⟩
  · refine System.ActiveIn.step h.active hStep (fun _ _ => rfl) isInserted_of_moves ?_
    rintro i what task rfl hMem
    exact absurd hMem allowed.2
  · rw [← h.free]
    cases hStep with
    | request body => rw [System.freeDevices, System.arrive_members, working_arrive]; rfl
    | clear =>
        rw [System.freeDevices, System.clear_members, System.working, System.clear_calls]
        rfl
    | proceed found moves => exact free_handles hHeld found (handles_of_moves moves) _
    | raise what found raises =>
        have hNone := allowed.1
        rw [found, Option.bind_some] at hNone
        exact free_handles hHeld found (.keeps rfl (by rw [hNone]; rfl)) _

omit [PriorityQueue Queue Job Job.comparator] in
theorem raisesReleased_of_raisesEmpty (allowed : raisesEmpty c action) :
    raisesReleased c action := by
  cases action with
  | raise i what => exact allowed.1
  | _ => trivial

theorem GivenBack.of_reaches
    (run : Reaches (System.step env) raisesEmpty (System.initial env) c) : GivenBack env c := by
  refine run.invariant (GivenBack env) ?_ ?_
  · refine ⟨fun i hMem => absurd hMem List.not_mem_nil, fun index hIndex => ?_, ?_⟩
    · have hInitial : DeviceInv env (System.initial env : System Queue) := .initial env
      have hHolders := hInitial.holders index
      rw [hIndex] at hHolders
      cases hHolders
    · simp [System.freeDevices, System.working, System.initial, List.countP_map]
  · intro c action next prior h allowed hStep
    have hReleased : Reaches (System.step env) raisesReleased (System.initial env) c :=
      prior.mono fun _ _ => raisesReleased_of_raisesEmpty
    have hDevices := (DeviceInv.of_reaches hReleased).step
      (raisesReleased_of_raisesEmpty allowed) (step_cases hStep)
    exact h.step hDevices (.of_reaches prior) allowed (step_cases hStep)

/-- The step by which a task ends in its catch block leaves the shared members as they
were. -/
theorem members_of_failing (hStep : Step env c action next) (found : c.calls[i]? = some call)
    (fails : FailsIn next i call) :
    next.members = c.members ∧
      ∀ index, call.phase.device? = some index → next.holders index + 1 = c.holders index := by
  obtain ⟨task, hFailed, hAlive⟩ := fails
  rcases call_of_step hStep found with hSame | ⟨now, members, after, events, moves, -, rfl⟩ |
    ⟨other, what, raises, -, rfl⟩
  · rw [hSame] at hFailed
    exact absurd (Option.some.inj hFailed) hAlive
  · rw [System.getElem?_commit_self _ _ _ (by simp [found])] at hFailed
    have hPhase : after.phase = .failed task := Option.some.inj hFailed
    cases moves with
    | noDevice phase _ => exact ⟨rfl, fun index hHolds => by rw [phase] at hHolds; cases hHolds⟩
    | _ => cases hPhase
  · refine ⟨rfl, fun index hHolds => ?_⟩
    have hCount := System.holders_commit found c.members (call.fail (.failed other) what) [] index
    rw [hHolds, Call.fail_phase] at hCount
    simpa [Phase.device?] using hCount

/-- A failure gives everything back exactly if the task had nothing to give back: an
error raised later leaves a busy device that no task will ever release, or a job in
the active set. -/
theorem gives_back_iff (hHeld : HeldBusy c) (hStep : Step env c action next)
    (found : c.calls[i]? = some call) (fails : FailsIn next i call) :
    (GivesBack c next i call ↔ call.phase.device? = none ∧ i ∉ c.members.activeJobs) ∧
      ∀ index, call.phase.device? = some index → Leaked next index := by
  obtain ⟨hMembers, hHolders⟩ := members_of_failing hStep found fails
  have hBusy : ∀ index, call.phase.device? = some index →
      busyAt c.members.devices index = true ∧ c.holders index = 1 := by
    intro index hHolds
    have hIndex := hHeld index
    have hPos := holders_pos found hHolds
    have hOne := Bool.toNat_le (busyAt c.members.devices index)
    exact ⟨Bool.toNat_eq_one.mp (by omega), by omega⟩
  constructor
  · unfold GivesBack System.freeDevices
    rw [hMembers]
    constructor
    · rintro ⟨hFree, hActive, -⟩
      refine ⟨?_, hActive⟩
      cases hHolds : call.phase.device? with
      | none => rfl
      | some index =>
          have hTaken := (hBusy index hHolds).1
          rw [hFree index hHolds] at hTaken
          cases hTaken
    · rintro ⟨hNone, hActive⟩
      exact ⟨fun index hHolds => by simp [hNone] at hHolds, hActive, by simp [hNone]⟩
  · intro index hHolds
    have hLess := hHolders index hHolds
    have hOne := (hBusy index hHolds).2
    exact ⟨by rw [hMembers]; exact (hBusy index hHolds).1, by omega⟩

end Steps

variable [PriorityQueue Queue Job Job.comparator]

/-- In every run in which errors are raised only by tasks that hold nothing, nothing
is ever left behind; and in any run, a failing task gives everything back exactly if
it is such a task. -/
theorem failures_give_back (env : Environment) :
    (∀ c : System Queue, Reaches (System.step env) raisesEmpty (System.initial env) c →
      GivenBack env c) ∧
    ∀ (c next : System Queue) (action : Action) (i : Nat) (call : Call),
      Reaches (System.step env) anyAction (System.initial env) c →
      c.step env action = some next → c.calls[i]? = some call →
      FailsIn next i call →
      (GivesBack c next i call ↔ call.phase.device? = none ∧ i ∉ c.members.activeJobs) :=
  ⟨fun _ run => .of_reaches run, fun _ _ _ _ _ run hStep found fails =>
    (gives_back_iff (.of_reaches run) (step_cases hStep) found fails).1⟩

/-- Without a wrap of the ids, and as long as no task has left its job in the active set,
what gives everything back is an error that is raised before the task has acquired a
device. -/
theorem holdsNothing_iff {env : Environment} {c : System Queue} {i : Nat} {call : Call}
    (run : Reaches (System.step env) raisesInactive (System.initial env) c)
    (hFew : c.created.length < 2 ^ 32) (found : c.calls[i]? = some call)
    (hRunning : call.phase.isRunning = true) :
    call.phase.device? = none ∧ i ∉ c.members.activeJobs ↔
      ∃ task next, call.phase = .scanning task next := by
  have hSet := ActiveSet.of_reaches run hFew
  constructor
  · rintro ⟨hNone, hActive⟩
    have hAbsent := hSet.active_eq_none found hActive
    cases hPhase : call.phase with
    | scanning task next => exact ⟨task, next, rfl⟩
    | _ => simp_all [Phase.device?, Phase.active?, Phase.isRunning]
  · rintro ⟨task, next, hPhase⟩
    refine ⟨by rw [hPhase]; rfl, fun hMem => ?_⟩
    obtain ⟨other, hOther, job, hJob⟩ := hSet.exists_of_mem hMem
    obtain rfl := Option.some.inj (found.symm.trans hOther)
    rw [hPhase] at hJob
    cases hJob

/-- The task has acquired the device and inserted its job. -/
def insertedRun : List Action :=
  [.request generateOne, .proceed 0 0, .proceed 0 0, .proceed 0 0, .proceed 0 0, .proceed 0 0]

/-- Its job, which is the one its own request has pushed. -/
def insertedTask : Task :=
  let job : Job :=
    { jobId := 1
      request := { rootHash := .set 1, difficulty := sampleEnvironment.config.work.baseDifficulty } }
  ⟨job, job⟩

/-- The response handler of the first task raises, and the device is lost. A second task
has scanned all devices. -/
def scannedRun : List Action :=
  insertedRun ++ [.raise 0 "write error", .request generateTwo, .proceed 1 0, .proceed 1 0,
    .proceed 1 0, .proceed 1 0]

/-- A task that returns its device leaves nothing behind. One that finds no device fails
and leaves nothing behind either, although the device that was lost before stays lost. -/
theorem failures_give_back_one :
    (∃ h : (sampleRun (insertedRun ++ [.proceed 0 0, .proceed 0 0, .proceed 0 0])).isSome = true,
      let c := (sampleRun (insertedRun ++ [.proceed 0 0, .proceed 0 0, .proceed 0 0])).get h
      c.freeDevices = 1 ∧ GivenBack sampleEnvironment c) ∧
    ∃ (c next : System JobQueue) (call : Call), sampleRun scannedRun = some c ∧
      c.step sampleEnvironment (.proceed 1 0) = some next ∧ FailsIn next 1 call ∧
      GivesBack c next 1 call ∧ next.freeDevices = 0 := by
  have hBoth := @failures_give_back JobQueue _ sampleEnvironment
  refine ⟨⟨by decide, by decide, hBoth.1 _ (reaches_get (by decide) (by decide))⟩, ?_⟩
  have hFails : ∃ (c next : System JobQueue) (call : Call) (task : Task),
      sampleRun scannedRun = some c ∧ c.step sampleEnvironment (.proceed 1 0) = some next ∧
      c.calls[1]? = some call ∧ (next.calls[1]?).map Call.phase = some (.failed task) ∧
      call.phase = .scanning task 1 ∧ 1 ∉ c.members.activeJobs ∧ next.freeDevices = 0 :=
    ⟨_, _, _, _, rfl, rfl, rfl, rfl, rfl, by decide, by decide⟩
  obtain ⟨c, next, call, task, hRun, hStep, found, hFailed, hPhase, hActive, hNone⟩ := hFails
  have fails : FailsIn next 1 call := ⟨task, hFailed, by simp [hPhase]⟩
  have run : Reaches (System.step sampleEnvironment) anyAction (System.initial sampleEnvironment) c :=
    reaches_of_runActions _ hRun (allAllowed_anyAction _ _)
  have hHolds : call.phase.device? = none := by rw [hPhase]; rfl
  exact ⟨c, next, call, hRun, hStep, fails,
    (hBoth.2 c next _ 1 call run hStep found fails).mpr ⟨hHolds, hActive⟩, hNone⟩

/-- The response handler of the only task raises: the device stays busy. -/
theorem keeps_device :
    ¬ ∀ (env : Environment) (c next : System JobQueue) (action : Action) (i : Nat) (call : Call),
      Reaches (System.step env) anyAction (System.initial env) c →
      c.step env action = some next → c.calls[i]? = some call →
      FailsIn next i call → GivesBack c next i call := by
  intro hAll
  let raising : Action := .raise 0 "write error"
  have hFails : ∃ h : (sampleRun insertedRun).isSome = true,
      ∃ hNext : (((sampleRun insertedRun).get h).step sampleEnvironment raising).isSome = true,
      ∃ hCall : (((sampleRun insertedRun).get h).calls[0]?).isSome = true,
        (((((sampleRun insertedRun).get h).step sampleEnvironment raising).get hNext).calls[0]?).map
          Call.phase = some (.failed insertedTask) ∧
        ((((sampleRun insertedRun).get h).calls[0]?).get hCall).phase = .active insertedTask 0 ∧
        busyAt ((((sampleRun insertedRun).get h).step sampleEnvironment raising).get
          hNext).members.devices 0 = true :=
    ⟨by decide, by decide, by decide, by decide, by decide, by decide⟩
  obtain ⟨hEnabled, hNext, hCall, hFailed, hActive, hBusy⟩ := hFails
  have hGivesBack := hAll sampleEnvironment _ _ raising 0 _
    (reaches_get hEnabled (allAllowed_anyAction _ _)) (Option.some_get hNext).symm
    (Option.some_get hCall).symm ⟨_, hFailed, by rw [hActive]; simp⟩
  have hFree := hGivesBack.1 0 (by rw [hActive]; rfl)
  rw [hBusy] at hFree
  cases hFree

end NanoPowServer.WorkHandler
