import NanoPowServer.WorkHandler.Steps

/-! Devices are acquired by scanning the array from the front with one atomic
exchange a step. A device may be released behind the scanner and another one
taken ahead of it, so that there are no more tasks than devices is not enough
for a scan to succeed. What is invariant is that at most `n - j` tasks stand at
index `j` or beyond, scanning or holding. -/
namespace NanoPowServer.WorkHandler

open PriorityQueue Execution

variable {Queue : Type}

/-- Nothing raises in the try block of a task: the response handler returns. -/
def noRaise (_ : System Queue) : Action → Prop
  | .raise _ _ => False
  | _ => True

instance (c : System Queue) (action : Action) : Decidable (noRaise c action) :=
  match action with
  | .raise _ _ => isFalse id
  | .request _ | .clear | .proceed _ _ => isTrue trivial

/-- Nothing raises between the acquisition of a device and its release. -/
def raisesReleased (c : System Queue) : Action → Prop
  | .raise i _ => (c.calls[i]?).bind (·.phase.device?) = none
  | _ => True

instance (c : System Queue) (action : Action) : Decidable (raisesReleased c action) :=
  match action with
  | .raise i _ => decEq ((c.calls[i]?).bind (·.phase.device?)) none
  | .request _ | .clear | .proceed _ _ => isTrue trivial

theorem raisesReleased_of_noRaise {c : System Queue} {action : Action}
    (h : noRaise c action) : raisesReleased c action := by
  cases action with
  | raise i what => exact h.elim
  | _ => trivial

/-- The index at which a task scans or holds a device. -/
def Phase.position? : Phase → Option Nat
  | .scanning _ next => some next
  | .acquired _ device | .active _ device | .answered _ device => some device
  | _ => none

def Phase.isBeyond (index : Nat) (phase : Phase) : Bool :=
  match phase.position? with
  | some position => index ≤ position
  | none => false

def Phase.isScanning (index : Nat) : Phase → Bool
  | .scanning _ next => next = index
  | _ => false

def busyAt (devices : List RegisteredDevice) (index : Nat) : Bool :=
  match devices[index]? with
  | some device => device.busy
  | none => false

theorem busyAt_set_self {devices : List RegisteredDevice} {index : Nat}
    {old : RegisteredDevice} (found : devices[index]? = some old) (device : RegisteredDevice) :
    busyAt (devices.set index device) index = device.busy := by
  obtain ⟨hBound, -⟩ := List.getElem?_eq_some_iff.mp found
  simp [busyAt, hBound]

theorem busyAt_set_ne (devices : List RegisteredDevice) {index other : Nat} (hne : index ≠ other)
    (device : RegisteredDevice) :
    busyAt (devices.set index device) other = busyAt devices other := by
  simp [busyAt, hne]

namespace System

/-- The number of tasks that hold the device at this index. -/
def holders (c : System Queue) (index : Nat) : Nat :=
  c.calls.countP fun call => call.phase.device? = some index

/-- The number of tasks at this index or beyond. -/
def beyond (c : System Queue) (index : Nat) : Nat :=
  c.calls.countP fun call => call.phase.isBeyond index

variable {c : System Queue} {i : Nat} {call : Call}

theorem running_commit (found : c.calls[i]? = some call) (members : Members Queue) (after : Call)
    (events : List Event) :
    (c.commit i members after events).running + call.phase.isRunning.toNat =
      c.running + after.phase.isRunning.toNat :=
  countP_commit members after events (·.phase.isRunning) found

theorem holders_commit (found : c.calls[i]? = some call) (members : Members Queue) (after : Call)
    (events : List Event) (index : Nat) :
    (c.commit i members after events).holders index +
        (decide (call.phase.device? = some index)).toNat =
      c.holders index + (decide (after.phase.device? = some index)).toNat :=
  countP_commit members after events (fun call => call.phase.device? = some index) found

theorem beyond_commit (found : c.calls[i]? = some call) (members : Members Queue) (after : Call)
    (events : List Event) (index : Nat) :
    (c.commit i members after events).beyond index + (call.phase.isBeyond index).toNat =
      c.beyond index + (after.phase.isBeyond index).toNat :=
  countP_commit members after events (fun call => call.phase.isBeyond index) found

end System

/-- The invariant of the device array and the pool. -/
structure DeviceInv (env : Environment) (c : System Queue) : Prop where
  length : c.members.devices.length = env.config.devices.length
  threads : c.running ≤ env.config.devices.length
  holders : ∀ index, c.holders index = (busyAt c.members.devices index).toNat
  beyond : ∀ index, 1 ≤ index → index ≤ env.config.devices.length →
    c.beyond index + index ≤ env.config.devices.length

namespace DeviceInv

variable {env : Environment} {c : System Queue} {i : Nat} {call : Call}

theorem initial [PriorityQueue Queue Job Job.comparator] (env : Environment) :
    DeviceInv env (System.initial env : System Queue) where
  length := by simp [System.initial]
  threads := by simp [System.initial, System.running]
  holders index := by
    simp only [System.holders, System.initial, busyAt, List.getElem?_map]
    cases env.config.devices[index]? <;> rfl
  beyond index _ hIndex := by simpa [System.initial, System.beyond] using hIndex

/-- The bound at index zero is the number of threads. -/
theorem beyond_le (h : DeviceInv env c) {index : Nat} (hIndex : index ≤ env.config.devices.length) :
    c.beyond index + index ≤ env.config.devices.length := by
  cases index with
  | zero =>
      refine Nat.le_trans (Nat.le_of_eq (Nat.add_zero _)) (Nat.le_trans ?_ h.threads)
      apply List.countP_mono_left
      intro call _ hBeyond
      cases hPhase : call.phase <;> simp_all [Phase.isBeyond, Phase.position?, Phase.isRunning]
  | succ index => exact h.beyond (index + 1) (by omega) hIndex

/-- A scan never stands past the end of the array. -/
theorem scanning_lt (h : DeviceInv env c) (hCall : call ∈ c.calls) {task : Task} {next : Nat}
    (phase : call.phase = .scanning task next) : next < c.members.devices.length := by
  rw [h.length]
  by_contra hBeyond
  have hEnd := h.beyond_le (Nat.le_refl env.config.devices.length)
  have hThere : 0 < c.beyond env.config.devices.length := by
    refine List.countP_pos_iff.mpr ⟨call, hCall, ?_⟩
    simp [phase, Phase.isBeyond, Phase.position?]
    omega
  omega

/-- A task that scans at a busy device is not alone there: fewer tasks stand
beyond it. -/
theorem beyond_succ_lt (h : DeviceInv env c) (hCall : call ∈ c.calls) {task : Task} {next : Nat}
    (phase : call.phase = .scanning task next) (hBusy : busyAt c.members.devices next = true) :
    c.beyond (next + 1) + 2 ≤ c.beyond next := by
  have hHolder : c.holders next = 1 := by rw [h.holders next, hBusy]; rfl
  have hScanner : 0 < c.calls.countP (·.phase.isScanning next) :=
    List.countP_pos_iff.mpr ⟨call, hCall, by simp [phase, Phase.isScanning]⟩
  have hHere : c.calls.countP (·.phase.isScanning next) + c.holders next ≤
      c.calls.countP fun other => other.phase.position? = some next := by
    refine List.countP_add_countP_le c.calls ?_ ?_ ?_ <;> intro other _ <;>
      cases other.phase <;> simp [Phase.isScanning, Phase.device?, Phase.position?]
  have hBeyond : (c.calls.countP fun other => other.phase.position? = some next) +
      c.beyond (next + 1) ≤ c.beyond next := by
    refine List.countP_add_countP_le c.calls ?_ ?_ ?_ <;> intro other _ <;>
      cases other.phase <;> simp [Phase.isBeyond, Phase.position?] <;> omega
  omega

/-- A step that moves no device and no task along the array keeps the
invariant. -/
theorem frame (h : DeviceInv env c) (found : c.calls[i]? = some call) {members : Members Queue}
    {after : Call} (events : List Event) (devices : members.devices = c.members.devices)
    (position : after.phase.position? = call.phase.position?)
    (device : after.phase.device? = call.phase.device?)
    (running : after.phase.isRunning = true → call.phase.isRunning = true) :
    DeviceInv env (c.commit i members after events) where
  length := by rw [System.commit_members, devices, h.length]
  threads := by
    have hCount := System.running_commit found members after events
    have hLess : after.phase.isRunning.toNat ≤ call.phase.isRunning.toNat :=
      Bool.toNat_le_toNat running
    have := h.threads
    omega
  holders index := by
    have hCount := System.holders_commit found members after events index
    rw [System.commit_members, devices, ← h.holders index]
    rw [device] at hCount
    omega
  beyond index hLow hHigh := by
    have hCount := System.beyond_commit found members after events index
    have hSame : after.phase.isBeyond index = call.phase.isBeyond index := by
      simp [Phase.isBeyond, position]
    have := h.beyond index hLow hHigh
    rw [hSame] at hCount
    omega

section

variable {members : Members Queue} {after : Call} {events : List Event}
  {task : Task} {index : Nat} {device : RegisteredDevice}

/-- A task starts to scan from the front. -/
theorem popped (h : DeviceInv env c) (found : c.calls[i]? = some call)
    (thread : c.running < env.config.devices.length)
    (devices : members.devices = c.members.devices) (hBefore : call.phase.task? = none)
    (hAfter : after.phase = .scanning task 0) :
    DeviceInv env (c.commit i members after events) where
  length := by rw [System.commit_members, devices, h.length]
  threads := by
    have hCount := System.running_commit found members after events
    have := Bool.toNat_le after.phase.isRunning
    omega
  holders other := by
    have hCount := System.holders_commit found members after events other
    rw [System.commit_members, devices, ← h.holders other]
    cases hPhase : call.phase <;> simp_all [Phase.device?, Phase.task?]
  beyond other hLow hHigh := by
    have hCount := System.beyond_commit found members after events other
    have := h.beyond other hLow hHigh
    have hNot : after.phase.isBeyond other = false := by
      simp [hAfter, Phase.isBeyond, Phase.position?]
      omega
    rw [hNot] at hCount
    simp at hCount
    omega

/-- The exchange finds the device busy and the scan goes on. -/
theorem busy (h : DeviceInv env c) (found : c.calls[i]? = some call)
    (hBefore : call.phase = .scanning task index) (hDevice : c.members.devices[index]? = some device)
    (taken : device.busy = true)
    (devices : members.devices = c.members.devices.set index device.tryAquire.2)
    (hAfter : after.phase = .scanning task (index + 1)) :
    DeviceInv env (c.commit i members after events) where
  length := by rw [System.commit_members, devices, List.length_set, h.length]
  threads := by
    have hCount := System.running_commit found members after events
    have := h.threads
    simp only [hBefore, hAfter, Phase.isRunning] at hCount
    omega
  holders other := by
    have hCount := System.holders_commit found members after events other
    have hBusy : busyAt members.devices other = busyAt c.members.devices other := by
      rw [devices]
      by_cases hSame : index = other
      · subst hSame
        rw [busyAt_set_self hDevice]
        simp [busyAt, hDevice, taken, RegisteredDevice.tryAquire]
      · exact busyAt_set_ne _ hSame _
    rw [System.commit_members, hBusy, ← h.holders other]
    simp only [hBefore, hAfter, Phase.device?] at hCount
    omega
  beyond other hLow hHigh := by
    have hMem := List.mem_of_getElem? found
    have hCount := System.beyond_commit found members after events other
    have hScan := h.scanning_lt hMem hBefore
    rw [h.length] at hScan
    have hThere := h.beyond_le (Nat.le_of_lt hScan)
    have hFewer := h.beyond_succ_lt hMem hBefore (by simp [busyAt, hDevice, taken])
    have hOld := h.beyond other hLow hHigh
    simp only [hBefore, hAfter, Phase.isBeyond, Phase.position?] at hCount
    rcases Nat.lt_trichotomy other (index + 1) with hLess | hSame | hMore
    · rw [decide_eq_true (by omega : other ≤ index),
        decide_eq_true (by omega : other ≤ index + 1)] at hCount
      omega
    · subst hSame
      rw [decide_eq_false (by omega : ¬ index + 1 ≤ index), decide_eq_true (Nat.le_refl _)] at hCount
      simp at hCount
      omega
    · rw [decide_eq_false (by omega : ¬ other ≤ index),
        decide_eq_false (by omega : ¬ other ≤ index + 1)] at hCount
      omega

/-- The exchange finds the device free and takes it. -/
theorem acquired (h : DeviceInv env c) (found : c.calls[i]? = some call)
    (hBefore : call.phase = .scanning task index) (hDevice : c.members.devices[index]? = some device)
    (free : device.busy = false)
    (devices : members.devices = c.members.devices.set index device.tryAquire.2)
    (hAfter : after.phase = .acquired task index) :
    DeviceInv env (c.commit i members after events) where
  length := by rw [System.commit_members, devices, List.length_set, h.length]
  threads := by
    have hCount := System.running_commit found members after events
    have := h.threads
    simp only [hBefore, hAfter, Phase.isRunning] at hCount
    omega
  holders other := by
    have hCount := System.holders_commit found members after events other
    have hOld := h.holders other
    simp only [hBefore, hAfter, Phase.device?] at hCount
    rw [System.commit_members, devices]
    by_cases hSame : index = other
    · subst hSame
      rw [busyAt_set_self hDevice]
      simp [busyAt, hDevice, free, RegisteredDevice.tryAquire] at hOld hCount ⊢
      omega
    · rw [busyAt_set_ne _ hSame]
      simp [hSame] at hCount
      omega
  beyond other hLow hHigh := by
    have hCount := System.beyond_commit found members after events other
    have := h.beyond other hLow hHigh
    simp only [hBefore, hAfter, Phase.isBeyond, Phase.position?] at hCount
    omega

/-- The device is free again once its only holder has released it. -/
theorem released (h : DeviceInv env c) (found : c.calls[i]? = some call)
    (hBefore : call.phase = .answered task index) (hDevice : c.members.devices[index]? = some device)
    (devices : members.devices = c.members.devices.set index device.release.2)
    (hAfter : after.phase = .released task) :
    DeviceInv env (c.commit i members after events) where
  length := by rw [System.commit_members, devices, List.length_set, h.length]
  threads := by
    have hCount := System.running_commit found members after events
    have := h.threads
    simp only [hBefore, hAfter, Phase.isRunning] at hCount
    omega
  holders other := by
    have hCount := System.holders_commit found members after events other
    have hOld := h.holders other
    simp only [hBefore, hAfter, Phase.device?] at hCount
    rw [System.commit_members, devices]
    by_cases hSame : index = other
    · subst hSame
      rw [busyAt_set_self hDevice]
      have := Bool.toNat_le (busyAt c.members.devices index)
      simp [RegisteredDevice.release] at hCount ⊢
      omega
    · rw [busyAt_set_ne _ hSame]
      simp [hSame] at hCount
      omega
  beyond other hLow hHigh := by
    have hCount := System.beyond_commit found members after events other
    have hOld := h.beyond other hLow hHigh
    have hNot : after.phase.isBeyond other = false := by
      simp [hAfter, Phase.isBeyond, Phase.position?]
    rw [hNot] at hCount
    simp at hCount
    omega

end

/-- A new call is not on the pool yet. -/
theorem arrive (h : DeviceInv env c) (body : String) : DeviceInv env (c.arrive env body) := by
  have hArrives := arrives env c.jobIdDispenser body
  generalize hCall : Call.handleRequestAsync env c.jobIdDispenser body = arrived at hArrives
  have hQuiet : arrived.phase.isRunning = false ∧ arrived.phase.device? = none ∧
      ∀ index, arrived.phase.isBeyond index = false := by
    cases hArrives <;>
      simp [Phase.isRunning, Phase.device?, Phase.isBeyond, Phase.position?]
  obtain ⟨hRunning, hDevice, hBeyond⟩ := hQuiet
  constructor
  · rw [System.arrive_members, h.length]
  · have := h.threads
    unfold System.running at this ⊢
    rw [System.countP_arrive, hCall, hRunning]
    simpa using this
  · intro index
    have := h.holders index
    unfold System.holders at this ⊢
    rw [System.countP_arrive, hCall, hDevice, System.arrive_members, ← this]
    simp
  · intro index hLow hHigh
    have := h.beyond index hLow hHigh
    unfold System.beyond at this ⊢
    rw [System.countP_arrive, hCall, hBeyond]
    simpa using this

variable [PriorityQueue Queue Job Job.comparator]

theorem step (h : DeviceInv env c) {action : Action} {next : System Queue}
    (allowed : raisesReleased c action) (hStep : Step env c action next) :
    DeviceInv env next := by
  cases hStep with
  | request body => exact h.arrive body
  | clear =>
      obtain ⟨hLength, hThreads, hHolders, hBeyond⟩ := h
      constructor <;>
        simpa [System.running, System.holders, System.beyond, System.clear_calls] using ‹_›
  | raise what found raises =>
      have hNone := allowed
      rw [raisesReleased, found, Option.bind_some] at hNone
      refine h.frame found [] rfl ?_ ?_ ?_ <;>
        cases raises <;> simp_all [Phase.position?, Phase.device?, Phase.isRunning]
  | @proceed i now call after members events found moves =>
      cases moves with
      | cancelled phase _ | notFound phase _ | admitted phase _ | rejected phase _ | posted phase
      | starved phase _ _ | inserted phase | answered phase | finished phase =>
          refine h.frame found _ rfl ?_ ?_ ?_ <;>
            simp [phase, Phase.position?, Phase.device?, Phase.isRunning]
      | popped phase thread _ => exact h.popped found thread rfl (by rw [phase]; rfl) rfl
      | busy phase hDevice taken => exact h.busy found phase hDevice taken rfl rfl
      | acquired phase hDevice free => exact h.acquired found phase hDevice free rfl rfl
      | noDevice phase hDevice =>
          have hScan := h.scanning_lt (List.mem_of_getElem? found) phase
          simp only [List.getElem?_eq_none_iff] at hDevice
          omega
      | released phase hDevice => exact h.released found phase hDevice rfl rfl

/-- The invariant holds in every state of a run that releases its devices. -/
theorem of_reaches (run : Reaches (System.step env) raisesReleased (System.initial env) c) :
    DeviceInv env c := by
  refine run.invariant (DeviceInv env) (DeviceInv.initial env) ?_
  intro state action next _ h allowed hStep
  exact h.step allowed (step_cases hStep)

end DeviceInv

/-- Device acquisition never fails and is exclusive: a scanning task always
stands before a device of the array, so that its next step goes on to the next
device or acquires this one, and no two tasks hold the same device. -/
theorem acquisition_succeeds [PriorityQueue Queue Job Job.comparator] (env : Environment)
    {c : System Queue}
    (run : Reaches (System.step env) raisesReleased (System.initial env) c) :
    (∀ (i : Nat) (call : Call) (task : Task) (next : Nat), c.calls[i]? = some call →
      call.phase = .scanning task next →
      next < c.members.devices.length ∧
      ∀ now members after events, call.proceed env c i now = some (members, after, events) →
        after.phase = .scanning task (next + 1) ∨ after.phase = .acquired task next) ∧
    (∀ (i j device : Nat) (first second : Call), c.calls[i]? = some first →
      c.calls[j]? = some second → first.phase.device? = some device →
      second.phase.device? = some device → i = j) := by
  have h := DeviceInv.of_reaches run
  constructor
  · intro i call task next found phase
    have hNext := h.scanning_lt (List.mem_of_getElem? found) phase
    refine ⟨hNext, fun now members after events hMove => ?_⟩
    cases moves_of_proceed hMove <;> simp_all
  · intro i j device first second hFirst hSecond hi hj
    have hOne : c.holders device ≤ 1 := by
      rw [h.holders device]
      exact Bool.toNat_le _
    exact List.index_unique_of_countP_le_one hOne hFirst hSecond (by simpa using hi)
      (by simpa using hj)

/-- Two tasks have just begun to scan the same two devices. -/
def scanningRun : List Action :=
  [.request generateOne, .proceed 0 0, .proceed 0 0, .proceed 0 0,
    .request generateTwo, .proceed 1 0, .proceed 1 0, .proceed 1 0]

/-- Both find a device, each a different one. -/
theorem acquisition_succeeds_two :
    ∃ (c later : System JobQueue) (first second : Call) (one two : Task),
      runActions (System.step pairEnvironment) (System.initial pairEnvironment) scanningRun =
        some c ∧
      c.calls = [first, second] ∧ first.phase = .scanning one 0 ∧ second.phase = .scanning two 0 ∧
      (∀ now members after events,
        second.proceed pairEnvironment c 1 now = some (members, after, events) →
          after.phase = .scanning two 1 ∨ after.phase = .acquired two 0) ∧
      runActions (System.step pairEnvironment) c [.proceed 0 0, .proceed 1 0, .proceed 1 0] =
        some later ∧
      later.calls.map (·.phase.device?) = [some 0, some 1] ∧
      ∀ (i j device : Nat) (first second : Call), later.calls[i]? = some first →
        later.calls[j]? = some second → first.phase.device? = some device →
        second.phase.device? = some device → i = j := by
  have hRuns : ∃ (c later : System JobQueue) (first second : Call) (one two : Task),
      runActions (System.step pairEnvironment) (System.initial pairEnvironment) scanningRun =
        some c ∧
      c.calls = [first, second] ∧ first.phase = .scanning one 0 ∧ second.phase = .scanning two 0 ∧
      runActions (System.step pairEnvironment) c [.proceed 0 0, .proceed 1 0, .proceed 1 0] =
        some later ∧
      later.calls.map (·.phase.device?) = [some 0, some 1] :=
    ⟨_, _, _, _, _, _, rfl, rfl, rfl, rfl, rfl, rfl⟩
  obtain ⟨c, later, first, second, one, two, hRun, hCalls, hFirst, hSecond, hRest, hDevices⟩ := hRuns
  have run : Reaches (System.step pairEnvironment) raisesReleased (System.initial pairEnvironment) c :=
    reaches_of_runActions _ hRun (by decide)
  have hAllowed : ∀ action ∈ [Action.proceed 0 0, .proceed 1 0, .proceed 1 0],
      ∀ c : System JobQueue, raisesReleased c action := by
    intro action hAction c
    cases action with
    | raise i what => simp at hAction
    | _ => trivial
  have rest := reaches_of_runActions _ hRest (.of_forall hAllowed)
  have hScan := (acquisition_succeeds pairEnvironment run).1 1 second two 0 (by rw [hCalls]; rfl) hSecond
  exact ⟨c, later, first, second, one, two, hRun, hCalls, hFirst, hSecond, hScan.2, hRest, hDevices,
    (acquisition_succeeds pairEnvironment (run.trans rest)).2⟩

end NanoPowServer.WorkHandler
