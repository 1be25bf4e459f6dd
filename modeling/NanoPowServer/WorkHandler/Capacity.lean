import Mathlib.Data.Finset.Card
import NanoPowServer.WorkHandler.Completion
import NanoPowServer.WorkHandler.Failures

/-! How many devices are left to work with. Each error that is raised by a task with a
device takes this device out of service for good, and a server that has lost all of
them still accepts requests but does no work for them. -/
namespace NanoPowServer.WorkHandler

open PriorityQueue Execution

variable {Queue : Type}

instance (c : System Queue) (index : Nat) : Decidable (Leaked c index) :=
  inferInstanceAs (Decidable (_ ∧ _))

/-- The devices that are lost. -/
def System.leaked (c : System Queue) : Finset Nat :=
  (Finset.range c.members.devices.length).filter fun index => Leaked c index

/-- The device of the task that an error is raised by. -/
def lostBy (c : System Queue) : Action → Option Nat
  | .raise i _ => (c.calls[i]?).bind (·.phase.device?)
  | _ => none

/-- The task of the call has not come as far as a device, and nothing that was passed to
the response handler carries work. -/
structure DoesNoWork (call : Call) : Prop where
  apart : call.phase.device? = none ∧ call.phase.isInserted = false
  responses : ∀ response ∈ call.responses, response.getOptional "work" = none

theorem lt_of_busyAt {devices : List RegisteredDevice} {index : Nat}
    (h : busyAt devices index = true) : index < devices.length := by
  unfold busyAt at h
  split at h
  · rename_i found
    exact (List.getElem?_eq_some_iff.mp found).1
  · cases h

theorem mem_leaked {c : System Queue} {index : Nat} : index ∈ c.leaked ↔ Leaked c index := by
  unfold System.leaked
  rw [Finset.mem_filter, Finset.mem_range]
  constructor
  · exact And.right
  · intro h
    exact ⟨lt_of_busyAt h.1, h⟩

section Steps

variable {env : Environment} {c : System Queue} {i : Nat} {call after : Call}
  {members : Members Queue}

/-- A task gives its device back in all its moves, so that none is lost. -/
theorem leaked_handles (found : c.calls[i]? = some call)
    (effect : Handles c call members after) (events : List Event) (index : Nat) :
    Leaked (c.commit i members after events) index ↔ Leaked c index := by
  constructor
  · rintro ⟨hBusy, hNone⟩
    have hCount := System.holders_commit found members after events index
    rw [System.commit_members] at hBusy
    cases effect with
    | keeps devices holds =>
        rw [devices] at hBusy
        rw [holds, hNone] at hCount
        exact ⟨hBusy, by omega⟩
    | @passes other device hDevice taken devices before holds =>
        rw [devices, busyAt_tryAquire hDevice] at hBusy
        rw [before, holds, hNone] at hCount
        refine ⟨?_, by omega⟩
        split at hBusy
        · next hSame =>
            rw [← hSame, busyAt_of_found hDevice]
            exact taken
        · exact hBusy
    | @takes other device hDevice free devices before holds =>
        rw [devices, busyAt_tryAquire hDevice] at hBusy
        rw [before, holds, hNone] at hCount
        have hOther : other ≠ index := by
          rintro rfl
          simp at hCount
        rw [if_neg hOther] at hBusy
        simp [hOther] at hCount
        exact ⟨hBusy, hCount.symm⟩
    | @returns other device hDevice devices before holds =>
        rw [devices, busyAt_release hDevice] at hBusy
        have hOther : other ≠ index := by
          rintro rfl
          simp at hBusy
        rw [if_neg hOther] at hBusy
        rw [before, holds, hNone] at hCount
        simp [hOther] at hCount
        exact ⟨hBusy, hCount.symm⟩
  · intro h
    exact h.handles found effect events

/-- The task that an error is raised by loses its device. -/
theorem leaked_raise (hHeld : HeldBusy c) (found : c.calls[i]? = some call) (task : Task)
    (what : String) (index : Nat) :
    Leaked (c.commit i c.members (call.fail (.failed task) what) []) index ↔
      Leaked c index ∨ call.phase.device? = some index := by
  have hCount := System.holders_commit found c.members (call.fail (.failed task) what) [] index
  have hIndex := hHeld index
  have hOne := Bool.toNat_le (busyAt c.members.devices index)
  have hFailed : (Phase.failed task).device? = none := rfl
  rw [Call.fail_phase, hFailed] at hCount
  simp only [reduceCtorEq, decide_false, Bool.toNat_false, Nat.add_zero] at hCount
  constructor
  · rintro ⟨hBusy, hNone⟩
    by_cases hHolds : call.phase.device? = some index
    · exact .inr hHolds
    · simp only [hHolds, decide_false, Bool.toNat_false, Nat.add_zero] at hCount
      exact .inl ⟨hBusy, by omega⟩
  · rintro (h | hHolds)
    · exact h.raise found task what
    · have hPos := holders_pos found hHolds
      simp only [hHolds, decide_true, Bool.toNat_true] at hCount
      refine ⟨Bool.toNat_eq_one.mp ?_, by omega⟩
      rw [System.commit_members]
      omega

variable [PriorityQueue Queue Job Job.comparator] {next : System Queue} {action : Action}

/-- A device is lost exactly in a step that raises an error in the task that holds it. -/
theorem leaked_of_step (hHeld : HeldBusy c) (hStep : Step env c action next) (index : Nat) :
    Leaked next index ↔ Leaked c index ∨ lostBy c action = some index := by
  cases hStep with
  | request body => simp [Leaked, lostBy, holders_arrive]
  | clear => simp [Leaked, lostBy, System.holders]
  | proceed found moves =>
      rw [leaked_handles found (handles_of_moves moves)]
      simp [lostBy]
  | raise what found _ =>
      rw [leaked_raise hHeld found, lostBy, found, Option.bind_some]

/-- The devices that are free, held and lost change together. -/
theorem capacity_of_step (hHeld : HeldBusy c) (hStep : Step env c action next) :
    next.freeDevices + next.working + next.leaked.card =
      c.freeDevices + c.working + c.leaked.card := by
  have hLeaked : next.leaked =
      (lostBy c action).elim c.leaked fun index => insert index c.leaked := by
    ext index
    rw [mem_leaked, leaked_of_step hHeld hStep]
    cases lostBy c action <;> simp [mem_leaked, eq_comm, or_comm]
  rw [hLeaked]
  cases hStep with
  | request body => simp [System.freeDevices, working_arrive, lostBy]
  | clear => simp [System.freeDevices, System.working, lostBy]
  | proceed found moves =>
      rw [free_handles hHeld found (handles_of_moves moves)]
      rfl
  | @raise i call task what found _ =>
      have hWorking := working_commit found c.members (call.fail (.failed task) what) []
      have hFree : (c.commit i c.members (call.fail (.failed task) what) []).freeDevices =
          c.freeDevices := rfl
      rw [hFree, lostBy, found, Option.bind_some]
      cases hHolds : call.phase.device? with
      | none =>
          rw [hHolds] at hWorking
          simp [Phase.device?] at hWorking
          rw [Option.elim_none]
          omega
      | some index =>
          have hNot : index ∉ c.leaked := by
            intro hMem
            have hNone := (mem_leaked.mp hMem).2
            have := holders_pos found hHolds
            omega
          rw [hHolds] at hWorking
          simp [Phase.device?] at hWorking
          rw [Option.elim_some, Finset.card_insert_of_notMem hNot]
          omega

theorem capacity_of_reaches {guard : System Queue → Action → Prop}
    (run : Reaches (System.step env) guard (System.initial env) c) :
    c.freeDevices + c.working + c.leaked.card = env.config.devices.length := by
  refine run.invariant (fun c => c.freeDevices + c.working + c.leaked.card =
    env.config.devices.length) ?_ ?_
  · have hNone : (System.initial env : System Queue).leaked = ∅ := by
      apply Finset.eq_empty_iff_forall_notMem.mpr
      intro index hMem
      have hIndex := ((DeviceInv.initial env : DeviceInv env (System.initial env : System Queue)).holders
        index)
      rw [(mem_leaked.mp hMem).1, (mem_leaked.mp hMem).2] at hIndex
      cases hIndex
    rw [hNone]
    simp [System.freeDevices, System.working, System.initial, List.countP_map]
  · intro c action next prior h _ hStep
    exact (capacity_of_step (.of_reaches prior) (step_cases hStep)).trans h

/-- A device once lost is lost in every later state. -/
theorem leaked_subset {guard : System Queue → Action → Prop} {later : System Queue}
    (run : Reaches (System.step env) guard c later) : c.leaked ⊆ later.leaked := by
  intro index hMem
  exact mem_leaked.mpr ((mem_leaked.mp hMem).persists run)

theorem doesNoWork_of_arrives {jobId : UInt32} {body : String} (h : Arrives env jobId body call) :
    DoesNoWork call := by
  cases h with
  | answered response _ work => exact ⟨⟨rfl, rfl⟩, by simpa using work⟩
  | admitting own _ _ => exact ⟨⟨rfl, rfl⟩, by simp⟩
  | cancelling rootHash => exact ⟨⟨rfl, rfl⟩, by simp⟩
  | escaped exception => exact ⟨⟨rfl, rfl⟩, by simp⟩

theorem DoesNoWork.goto {phase : Phase} (h : DoesNoWork call)
    (apart : phase.device? = none ∧ phase.isInserted = false) : DoesNoWork (call.goto phase) :=
  ⟨apart, h.responses⟩

theorem DoesNoWork.answer {phase : Phase} {response : Ptree} (h : DoesNoWork call)
    (apart : phase.device? = none ∧ phase.isInserted = false)
    (work : response.getOptional "work" = none) : DoesNoWork (call.answer phase response) := by
  refine ⟨apart, ?_⟩
  intro other hMem
  rcases List.mem_append.mp hMem with hOld | hNew
  · exact h.responses other hOld
  · obtain rfl := List.mem_singleton.mp hNew
    exact work

/-- While all devices are busy, a task that has none does not get one. -/
theorem DoesNoWork.moves {now : Nat} {events : List Event} (h : DoesNoWork call)
    (busy : ∀ index, index < c.members.devices.length → busyAt c.members.devices index = true)
    (moves : Moves env c i now call members after events) : DoesNoWork after := by
  have hDevice := h.apart.1
  have hInserted := h.apart.2
  cases moves with
  | cancelled phase _ =>
      apply h.answer ⟨rfl, rfl⟩
      rw [getOptional_attachCorrelationId (by decide)]
      rfl
  | notFound phase _ | rejected phase _ | starved phase _ _ | noDevice phase _ =>
      exact h.answer ⟨rfl, rfl⟩ (createErrorResponse_work _ _)
  | admitted phase _ | posted phase | popped phase _ _ | busy phase _ _ => exact h.goto ⟨rfl, rfl⟩
  | acquired phase found free =>
      obtain ⟨hBound, -⟩ := List.getElem?_eq_some_iff.mp found
      have hTaken := busy _ hBound
      rw [busyAt_of_found found, free] at hTaken
      cases hTaken
  | inserted phase | answered phase | released phase _ =>
      rw [phase] at hDevice
      cases hDevice
  | finished phase =>
      rw [phase] at hInserted
      cases hInserted

/-- A call that is made when all devices are lost does no work in any later state. -/
theorem doesNoWork_of_leaked {guard : System Queue → Action → Prop} {later : System Queue}
    (lost : ∀ index, index < c.members.devices.length → Leaked c index)
    (run : Reaches (System.step env) guard c later) :
    ∀ i call, c.calls.length ≤ i → later.calls[i]? = some call → DoesNoWork call := by
  have hLater : (∀ index, index < later.members.devices.length → Leaked later index) ∧
      ∀ i call, c.calls.length ≤ i → later.calls[i]? = some call → DoesNoWork call := by
    apply run.invariant fun later =>
      (∀ index, index < later.members.devices.length → Leaked later index) ∧
        ∀ i call, c.calls.length ≤ i → later.calls[i]? = some call → DoesNoWork call
    · refine ⟨lost, ?_⟩
      intro i call hBeyond hCall
      rw [List.getElem?_eq_none hBeyond] at hCall
      cases hCall
    · rintro state action next _ ⟨hLost, hIdle⟩ _ hStep
      have hCases := step_cases hStep
      constructor
      · intro index hIndex
        rw [devices_length_of_step hCases] at hIndex
        exact (hLost index hIndex).step hCases
      · intro i call hBeyond hCall
        cases hCases with
        | request body =>
            rw [System.arrive_calls, List.getElem?_append] at hCall
            split at hCall
            · exact hIdle i call hBeyond hCall
            · obtain rfl := List.mem_singleton.mp (List.mem_of_getElem? hCall)
              exact doesNoWork_of_arrives (arrives env state.jobIdDispenser body)
        | clear => exact hIdle i call hBeyond (by simpa using hCall)
        | @proceed j now old after members events found moves =>
            by_cases hSame : j = i
            · subst hSame
              rw [System.getElem?_commit_self _ _ _ (by simp [found])] at hCall
              obtain rfl := Option.some.inj hCall
              have hBusy : ∀ index, index < state.members.devices.length →
                  busyAt state.members.devices index = true := fun index hIndex =>
                (hLost index hIndex).1
              exact (hIdle j old hBeyond found).moves hBusy moves
            · rw [System.getElem?_commit_ne _ _ _ hSame] at hCall
              exact hIdle i call hBeyond hCall
        | @raise j old task what found raises =>
            by_cases hSame : j = i
            · subst hSame
              rw [System.getElem?_commit_self _ _ _ (by simp [found])] at hCall
              obtain rfl := Option.some.inj hCall
              exact (hIdle j old hBeyond found).answer ⟨rfl, rfl⟩ (createErrorResponse_work _ _)
            · rw [System.getElem?_commit_ne _ _ _ hSame] at hCall
              exact hIdle i call hBeyond hCall
  exact hLater.2

end Steps

variable [PriorityQueue Queue Job Job.comparator]

/-- Each device is free, held by a task, or lost. A step loses a device exactly if it
raises an error in the task that holds it, and what is lost stays lost. Once all devices
are lost, no request made from then on is ever answered with work. -/
theorem capacity {env : Environment} {c : System Queue}
    (run : Reaches (System.step env) anyAction (System.initial env) c) :
    c.freeDevices + c.working + c.leaked.card = env.config.devices.length ∧
      (∀ action next, System.step env c action = some next → ∀ index,
        index ∈ next.leaked ↔ index ∈ c.leaked ∨ lostBy c action = some index) ∧
      ∀ later, Reaches (System.step env) anyAction c later →
        later.freeDevices + later.working + c.leaked.card ≤ env.config.devices.length ∧
        (c.leaked.card = env.config.devices.length →
          ∀ i call, c.calls.length ≤ i → later.calls[i]? = some call →
            ∀ response ∈ call.responses, response.getOptional "work" = none) := by
  refine ⟨capacity_of_reaches run, ?_, ?_⟩
  · intro action next hStep index
    rw [mem_leaked, mem_leaked]
    exact leaked_of_step (.of_reaches run) (step_cases hStep) index
  · intro later rest
    constructor
    · have hLater := capacity_of_reaches (run.trans rest)
      have hMore := Finset.card_le_card (leaked_subset rest)
      omega
    · intro hAll i call hBeyond hCall
      have hRange : c.leaked = Finset.range c.members.devices.length := by
        apply Finset.eq_of_subset_of_card_le (Finset.filter_subset _ _)
        show (Finset.range c.members.devices.length).card ≤ c.leaked.card
        rw [Finset.card_range, devices_length run, hAll]
      have hLost : ∀ index, index < c.members.devices.length → Leaked c index := by
        intro index hIndex
        rw [← mem_leaked, hRange]
        exact Finset.mem_range.mpr hIndex
      exact (doesNoWork_of_leaked hLost rest i call hBeyond hCall).responses

/-- The response handler of the first task raises, which loses the device. The second
request is accepted, and its task is answered that there are no devices. -/
theorem capacity_two :
    let failing : Action := .raise 0 "write error"
    let more : List Action :=
      [.request generateTwo, .proceed 1 0, .proceed 1 0, .proceed 1 0, .proceed 1 0, .proceed 1 0]
    ∃ before c later : System JobQueue, sampleRun insertedRun = some before ∧
      before.step sampleEnvironment failing = some c ∧
      runActions (System.step sampleEnvironment) c more = some later ∧
      before.freeDevices + before.working + before.leaked.card = 1 ∧ before.leaked = ∅ ∧
      (∀ index, index ∈ c.leaked ↔ index ∈ before.leaked ∨ lostBy before failing = some index) ∧
      c.leaked.card = 1 ∧ later.freeDevices + later.working = 0 ∧
      (later.calls[1]?).map Call.responses =
        some [createErrorResponse (some "7") "No available devices"] ∧
      ∀ i call, 1 ≤ i → later.calls[i]? = some call →
        ∀ response ∈ call.responses, response.getOptional "work" = none := by
  intro failing more
  have hRuns : ∃ before c later : System JobQueue, sampleRun insertedRun = some before ∧
      before.step sampleEnvironment failing = some c ∧
      runActions (System.step sampleEnvironment) c more = some later ∧ before.leaked = ∅ ∧
      c.leaked.card = 1 ∧ c.calls.length = 1 ∧ (later.calls[1]?).map Call.responses =
        some [createErrorResponse (some "7") "No available devices"] :=
    ⟨_, _, _, rfl, rfl, rfl, by decide, by decide, rfl, by decide⟩
  obtain ⟨before, c, later, hInserted, hFailing, hMore, hNone, hLost, hOne, hResponses⟩ := hRuns
  have run := reaches_of_runActions insertedRun hInserted (allAllowed_anyAction _ _)
  have rest := reaches_of_runActions more hMore (allAllowed_anyAction _ _)
  obtain ⟨hAll, hLoses, -⟩ := capacity run
  obtain ⟨hFew, hIdle⟩ := (capacity (run.tail trivial hFailing)).2.2 later rest
  have hDevices : sampleEnvironment.config.devices.length = 1 := rfl
  have hIdle := hIdle hLost
  rw [hOne] at hIdle
  exact ⟨before, c, later, hInserted, hFailing, hMore, hAll, hNone, hLoses failing c hFailing, hLost,
    by omega, hResponses, hIdle⟩

end NanoPowServer.WorkHandler
