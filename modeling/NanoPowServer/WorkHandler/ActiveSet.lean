import NanoPowServer.WorkHandler.Ledger

/-! The active set refers to jobs that are local variables of tasks. As long as no task
ends by an exception while its job is in the set, what it refers to is there, in the
order of the comparator, and while ids are distinct it refers to every task between
insert and erase, once. -/
namespace NanoPowServer.WorkHandler

open PriorityQueue Execution

variable {Queue : Type}

/-- Errors are raised only by tasks whose job is not in the active set. -/
def raisesInactive (c : System Queue) : Action → Prop
  | .raise i _ => i ∉ c.members.activeJobs
  | _ => True

instance (c : System Queue) (action : Action) : Decidable (raisesInactive c action) :=
  match action with
  | .raise i _ => inferInstanceAs (Decidable (i ∉ c.members.activeJobs))
  | .request _ | .clear | .proceed _ _ => isTrue trivial

theorem taskJob_of_active {env : Environment} {calls : List Call} {i : Nat} {call : Call} {job : Job}
    (found : calls[i]? = some call) (hActive : call.phase.active? = some job) :
    taskJob env calls i = job := by
  simp [taskJob, found, hActive]

section Copies

variable [PriorityQueue Queue Job Job.comparator] {env : Environment} {c next : System Queue}

/-- How many jobs with this id there are, apart from those that were removed and those
whose task has failed. -/
def System.copies (c : System Queue) (jobId : UInt32) : Nat :=
  c.callsAt Phase.admitting? (withId jobId) + c.pending (withId jobId) +
    c.callsAt Phase.held? (withId jobId) + c.callsAt Phase.active? (withId jobId) +
    c.eventsOf Event.finished? (withId jobId)

/-- There is one more only if the id is taken from the dispenser. -/
theorem copies_of_step (jobId : UInt32) {action : Action} (hStep : Step env c action next) :
    next.copies jobId + c.created.count jobId ≤ c.copies jobId + next.created.count jobId := by
  obtain ⟨flow, hAlong, hArrived⟩ := flow_of_id jobId hStep
  unfold System.copies
  have := hAlong.admitting
  have := hAlong.pending
  have := hAlong.held
  have := hAlong.active
  have := hAlong.finishedEvents
  omega

theorem copies_initial (env : Environment) (jobId : UInt32) :
    (System.initial env : System Queue).copies jobId = 0 := by
  simp [System.copies, System.initial, System.callsAt, System.pending, System.eventsOf]

theorem copies_le_created {guard : System Queue → Action → Prop}
    (run : Reaches (System.step env) guard (System.initial env) c) (jobId : UInt32) :
    c.copies jobId ≤ c.created.count jobId := by
  refine run.invariant (fun c => c.copies jobId ≤ c.created.count jobId) ?_ ?_
  · rw [copies_initial]
    exact Nat.zero_le _
  · intro c action next _ ih _ hStep
    have := copies_of_step jobId (step_cases hStep)
    omega

end Copies

/-- Two calls at one place have jobs with different ids. -/
theorem jobId_ne_of_callsAt {c : System Queue} {place : Phase → Option Job}
    (hOne : ∀ jobId, c.callsAt place (withId jobId) ≤ 1) {i j : Nat}
    (hne : i ≠ j) {first second : Call} (hi : c.calls[i]? = some first)
    (hj : c.calls[j]? = some second) {a b : Job} (ha : place first.phase = some a)
    (hb : place second.phase = some b) : a.jobId ≠ b.jobId := by
  intro hSame
  apply hne
  exact List.index_unique_of_countP_le_one (hOne b.jobId) hi hj (by simp [ha, hSame])
    (by simp [hb])

theorem callsAt_pos {c : System Queue} {place : Phase → Option Job} {i : Nat} {call : Call}
    {job : Job} (found : c.calls[i]? = some call) (hPlace : place call.phase = some job)
    {q : Job.Ticket → Bool} (hq : q job.ticket = true) : 0 < c.callsAt place q :=
  List.countP_pos_iff.mpr ⟨call, List.mem_of_getElem? found, by simp [hPlace, hq]⟩

/-- The active set refers to the tasks between insert and erase, to each of them once. -/
structure ActiveSet (c : System Queue) : Prop where
  nodup : c.members.activeJobs.Nodup
  mem_iff : ∀ i, i ∈ c.members.activeJobs ↔
    ∃ call, c.calls[i]? = some call ∧ call.phase.active?.isSome = true

namespace ActiveSet

variable {c : System Queue} {i : Nat} {call : Call}

theorem exists_of_mem (h : ActiveSet c) {j : Nat} (hj : j ∈ c.members.activeJobs) :
    ∃ call, c.calls[j]? = some call ∧ ∃ job, call.phase.active? = some job := by
  obtain ⟨call, hCall, hActive⟩ := (h.mem_iff j).mp hj
  exact ⟨call, hCall, Option.isSome_iff_exists.mp hActive⟩

theorem mem_of_active (h : ActiveSet c) (found : c.calls[i]? = some call) {job : Job}
    (hActive : call.phase.active? = some job) : i ∈ c.members.activeJobs :=
  (h.mem_iff i).mpr ⟨call, found, by simp [hActive]⟩

/-- A task that is not in the set has no job between insert and erase. -/
theorem active_eq_none (h : ActiveSet c) (found : c.calls[i]? = some call)
    (hAbsent : i ∉ c.members.activeJobs) : call.phase.active? = none := by
  cases hActive : call.phase.active? with
  | none => rfl
  | some job => exact absurd (h.mem_of_active found hActive) hAbsent

/-- A step that changes the set by the call itself at most. -/
theorem change (h : ActiveSet c) (found : c.calls[i]? = some call) {members : Members Queue}
    {after : Call} (events : List Event) (hNodup : members.activeJobs.Nodup)
    (hSelf : i ∈ members.activeJobs ↔ after.phase.active?.isSome = true)
    (hOther : ∀ j, j ≠ i → (j ∈ members.activeJobs ↔ j ∈ c.members.activeJobs)) :
    ActiveSet (c.commit i members after events) where
  nodup := hNodup
  mem_iff j := by
    rw [System.commit_members]
    by_cases hSame : j = i
    · subst hSame
      rw [hSelf, System.getElem?_commit_self _ _ _ (by simp [found])]
      simp
    · rw [hOther j hSame, h.mem_iff j, System.getElem?_commit_ne _ _ _ (Ne.symm hSame)]

/-- A step that leaves the set alone and the call inside or outside of it. -/
theorem frame (h : ActiveSet c) (found : c.calls[i]? = some call) {members : Members Queue}
    {after : Call} (events : List Event) (hSet : members.activeJobs = c.members.activeJobs)
    (hActive : after.phase.active?.isSome = call.phase.active?.isSome) :
    ActiveSet (c.commit i members after events) := by
  apply h.change found events
  · rw [hSet]
    exact h.nodup
  · rw [hSet, hActive, h.mem_iff i, found]
    simp
  · intro j _
    rw [hSet]

/-- Insertion by key adds the call: no job that the set refers to has this id. -/
theorem insert {env : Environment} (h : ActiveSet c) (found : c.calls[i]? = some call) {after : Call}
    {job : Job} (hOut : call.phase.active? = none) (hIn : after.phase.active? = some job)
    (hNew : ∀ (j : Nat) (other : Call) (own : Job), c.calls[j]? = some other →
      other.phase.active? = some own → own.jobId ≠ job.jobId) (events : List Event) :
    ActiveSet (c.commit i
      { c.members with
        activeJobs := OrderedSet.insert (activeBefore env (c.calls.set i after)) i
          c.members.activeJobs } after events) := by
  have hAbsent : i ∉ c.members.activeJobs := by
    intro hMem
    obtain ⟨other, hOther, own, hOwn⟩ := h.exists_of_mem hMem
    obtain rfl := Option.some.inj (found.symm.trans hOther)
    simp [hOut] at hOwn
  have hSelf : taskJob env (c.calls.set i after) i = job := by
    have hFound : (c.calls.set i after)[i]? = some after :=
      c.getElem?_commit_self c.members after events (by simp [found])
    exact taskJob_of_active hFound hIn
  have hPerm : (OrderedSet.insert (activeBefore env (c.calls.set i after)) i
      c.members.activeJobs).Perm (i :: c.members.activeJobs) := by
    apply OrderedSet.insert_perm
    intro j hj
    have hne : i ≠ j := fun hSame => hAbsent (hSame ▸ hj)
    obtain ⟨other, hOther, own, hOwn⟩ := h.exists_of_mem hj
    have hStays : (c.calls.set i after)[j]? = some other := by
      rw [List.getElem?_set_ne hne]
      exact hOther
    apply Job.comparator_total
    rw [hSelf, taskJob_of_active hStays hOwn]
    exact (hNew j other own hOther hOwn).symm
  apply h.change found events
  · exact hPerm.nodup_iff.mpr (List.nodup_cons.mpr ⟨hAbsent, h.nodup⟩)
  · simp [hPerm.mem_iff, hIn]
  · intro j hj
    simp [hPerm.mem_iff, hj]

/-- Erasure by key takes out the call itself. -/
theorem erase {env : Environment} (h : ActiveSet c) (found : c.calls[i]? = some call)
    {members : Members Queue} {after : Call} {job : Job} (hIn : call.phase.active? = some job)
    (hOut : after.phase.active? = none)
    (hSet : members.activeJobs =
      OrderedSet.erase (activeBefore env c.calls) i c.members.activeJobs)
    (hNew : ∀ (j : Nat) (other : Call) (own : Job), j ≠ i → c.calls[j]? = some other →
      other.phase.active? = some own → own.jobId ≠ job.jobId)
    (events : List Event) : ActiveSet (c.commit i members after events) := by
  have hPresent : i ∈ c.members.activeJobs := h.mem_of_active found hIn
  have hPerm : c.members.activeJobs.Perm (i :: members.activeJobs) := by
    rw [hSet]
    apply OrderedSet.erase_perm hPresent (Job.comparator_self _)
    intro j hj hne
    obtain ⟨other, hOther, own, hOwn⟩ := h.exists_of_mem hj
    apply Job.comparator_total
    rw [taskJob_of_active found hIn, taskJob_of_active hOther hOwn]
    exact (hNew j other own hne hOther hOwn).symm
  have hNodup := List.nodup_cons.mp (hPerm.nodup_iff.mp h.nodup)
  apply h.change found events hNodup.2
  · simp [hNodup.1, hOut]
  · intro j hj
    simp [hPerm.mem_iff, hj]

variable [PriorityQueue Queue Job Job.comparator] {env : Environment}

theorem initial (env : Environment) : ActiveSet (System.initial env : System Queue) where
  nodup := List.nodup_nil
  mem_iff i := by simp [System.initial]

/-- A step keeps the set in order if no id is at two places among the tasks. -/
theorem step (h : ActiveSet c)
    (hOne : ∀ jobId, c.callsAt Phase.held? (withId jobId) +
      c.callsAt Phase.active? (withId jobId) ≤ 1)
    {action : Action} {next : System Queue} (allowed : raisesInactive c action)
    (hStep : Step env c action next) : ActiveSet next := by
  cases hStep with
  | request body =>
      have hArrives := arrives env c.jobIdDispenser body
      generalize hCall : Call.handleRequestAsync env c.jobIdDispenser body = arrived at hArrives
      refine ⟨by rw [System.arrive_members]; exact h.nodup, fun i => ?_⟩
      rw [System.arrive_members, h.mem_iff, System.arrive_calls, hCall]
      constructor
      · rintro ⟨call, found, hActive⟩
        obtain ⟨hBound, -⟩ := List.getElem?_eq_some_iff.mp found
        exact ⟨call, by rw [List.getElem?_append_left hBound]; exact found, hActive⟩
      · rintro ⟨call, found, hActive⟩
        rw [List.getElem?_append] at found
        split at found
        · exact ⟨call, found, hActive⟩
        · obtain rfl := List.mem_singleton.mp (List.mem_of_getElem? found)
          cases hArrives <;> simp [Phase.active?] at hActive
  | clear =>
      refine ⟨?_, fun i => ?_⟩ <;> rw [System.clear_members]
      · exact h.nodup
      · rw [System.clear_calls]
        exact h.mem_iff i
  | @raise i call task what found raises =>
      refine h.frame found _ rfl ?_
      rw [h.active_eq_none found allowed]
      rfl
  | @proceed i now call members after events found moves =>
      cases moves with
      | @inserted task device phase =>
          refine h.insert found (by rw [phase]; rfl) rfl ?_ _
          intro j other own hOther hOwn hSame
          have hHeld : call.phase.held? = some task.job := by rw [phase]; rfl
          have hFirst := callsAt_pos found hHeld ((withId_iff task.job.jobId _).mpr rfl)
          have hSecond := callsAt_pos hOther hOwn ((withId_iff task.job.jobId _).mpr hSame)
          have := hOne task.job.jobId
          omega
      | @finished task phase =>
          have hIn : call.phase.active? = some task.job := by rw [phase]; rfl
          refine h.erase found hIn rfl rfl ?_ _
          intro j other own hne hOther hOwn
          exact jobId_ne_of_callsAt (fun jobId => by have := hOne jobId; omega) hne hOther found
            hOwn hIn
      | cancelled phase _ | notFound phase _ | admitted phase _ | rejected phase _ | posted phase
      | popped phase _ _ | starved phase _ _ | busy phase _ _ | acquired phase _ _
      | noDevice phase _ | answered phase | released phase _ =>
          exact h.frame found _ rfl (by rw [phase]; rfl)

/-- The set is in order as long as ids are distinct. -/
theorem of_reaches (run : Reaches (System.step env) raisesInactive (System.initial env) c)
    (hFew : c.created.length < 2 ^ 32) : ActiveSet c := by
  revert hFew
  refine run.invariant (fun c => c.created.length < 2 ^ 32 → ActiveSet c)
    (fun _ => ActiveSet.initial env) ?_
  intro c action next prior ih allowed hStep hFew
  have hBefore := Nat.lt_of_le_of_lt (created_length_le (step_cases hStep)) hFew
  refine (ih hBefore).step (fun jobId => ?_) allowed (step_cases hStep)
  have hCopies := copies_le_created prior jobId
  have hCreated := List.nodup_iff_count_le_one.mp (created_nodup prior hBefore) jobId
  unfold System.copies at hCopies
  omega

end ActiveSet

/-- Whatever ids the jobs have, the active set refers to tasks between insert and erase
only, in the order of the comparator. -/
structure Registered (env : Environment) (c : System Queue) : Prop where
  sorted : c.members.activeJobs.Pairwise fun i j => activeBefore env c.calls i j = true
  active : ∀ i ∈ c.members.activeJobs,
    ∃ call, c.calls[i]? = some call ∧ ∃ job, call.phase.active? = some job

namespace Registered

variable {env : Environment} {c : System Queue} {i : Nat} {call : Call}

/-- The comparator looks at tickets only, and these do not change. -/
theorem of_tickets (h : Registered env c) {next : System Queue}
    (hSublist : next.members.activeJobs.Sublist c.members.activeJobs)
    (hTickets : ∀ j ∈ next.members.activeJobs, ∃ call, next.calls[j]? = some call ∧
      ∃ job, call.phase.active? = some job ∧ job.ticket = (taskJob env c.calls j).ticket) :
    Registered env next where
  sorted := by
    refine (h.sorted.sublist hSublist).imp_of_mem ?_
    intro j k hj hk hBefore
    obtain ⟨first, hFirst, a, ha, hTicket⟩ := hTickets j hj
    obtain ⟨second, hSecond, b, hb, hOther⟩ := hTickets k hk
    rw [activeBefore, taskJob_of_active hFirst ha, taskJob_of_active hSecond hb,
      Job.comparator_of_ticket hTicket hOther]
    exact hBefore
  active j hj := by
    obtain ⟨call, found, job, hJob, -⟩ := hTickets j hj
    exact ⟨call, found, job, hJob⟩

theorem commit (h : Registered env c) (found : c.calls[i]? = some call) {members : Members Queue}
    {after : Call} (events : List Event)
    (hSublist : members.activeJobs.Sublist c.members.activeJobs)
    (hKeeps : i ∈ members.activeJobs → ∀ job, call.phase.active? = some job →
      (after.phase.active?).map Job.ticket = some job.ticket) :
    Registered env (c.commit i members after events) := by
  apply h.of_tickets hSublist
  intro j hj
  obtain ⟨other, hOther, job, hJob⟩ := h.active j (hSublist.subset hj)
  rw [taskJob_of_active hOther hJob]
  by_cases hSame : i = j
  · subst hSame
    obtain rfl := Option.some.inj (found.symm.trans hOther)
    obtain ⟨kept, hKept, hTicket⟩ := Option.map_eq_some_iff.mp (hKeeps hj job hJob)
    exact ⟨after, System.getElem?_commit_self _ _ _ (by simp [found]), kept, hKept, hTicket⟩
  · rw [System.getElem?_commit_ne _ _ _ hSame]
    exact ⟨other, hOther, job, hJob, rfl⟩

/-- A task that has no job between insert and erase is not in the set. -/
theorem not_mem (h : Registered env c) (found : c.calls[i]? = some call)
    (hOut : call.phase.active? = none) : i ∉ c.members.activeJobs := by
  intro hMem
  obtain ⟨other, hOther, job, hJob⟩ := h.active i hMem
  obtain rfl := Option.some.inj (found.symm.trans hOther)
  simp [hOut] at hJob

theorem insert (h : Registered env c) (found : c.calls[i]? = some call) {after : Call} {job : Job}
    (hOut : call.phase.active? = none) (hIn : after.phase.active? = some job)
    (events : List Event) :
    Registered env (c.commit i
      { c.members with
        activeJobs := OrderedSet.insert (activeBefore env (c.calls.set i after)) i
          c.members.activeJobs } after events) := by
  have hBefore : Registered env (c.commit i c.members after events) :=
    h.commit found events (List.Sublist.refl _) fun hMem => absurd hMem (h.not_mem found hOut)
  constructor
  · exact OrderedSet.pairwise_insert (fun _ _ => Job.comparator_trans) hBefore.sorted
  · intro j hj
    rcases OrderedSet.mem_of_mem_insert hj with rfl | hMem
    · exact ⟨after, System.getElem?_commit_self _ _ _ (by simp [found]), job, hIn⟩
    · exact hBefore.active j hMem

variable [PriorityQueue Queue Job Job.comparator]

theorem step (h : Registered env c) {action : Action} {next : System Queue}
    (allowed : raisesInactive c action) (hStep : Step env c action next) : Registered env next := by
  cases hStep with
  | request body =>
      apply h.of_tickets
      · rw [System.arrive_members]
      · intro j hj
        rw [System.arrive_members] at hj
        obtain ⟨call, found, job, hJob⟩ := h.active j hj
        obtain ⟨hBound, -⟩ := List.getElem?_eq_some_iff.mp found
        rw [System.arrive_calls, List.getElem?_append_left hBound, taskJob_of_active found hJob]
        exact ⟨call, found, job, hJob, rfl⟩
  | clear =>
      refine ⟨?_, ?_⟩ <;> rw [System.clear_members, System.clear_calls]
      · exact h.sorted
      · exact h.active
  | raise what found raises =>
      exact h.commit found _ (List.Sublist.refl _) fun hMem => absurd hMem allowed
  | proceed found moves =>
      cases moves with
      | inserted phase => exact h.insert found (by rw [phase]; rfl) rfl _
      | finished phase =>
          refine h.commit found _ (OrderedSet.erase_sublist _ _) fun hMem => absurd hMem ?_
          exact OrderedSet.not_mem_erase (Job.comparator_self _) h.sorted
      | cancelled phase _ | notFound phase _ | admitted phase _ | rejected phase _ | posted phase
      | popped phase _ _ | starved phase _ _ | busy phase _ _ | acquired phase _ _
      | noDevice phase _ | answered phase | released phase _ =>
          refine h.commit found _ (List.Sublist.refl _) fun _ job hJob => ?_
          rw [phase] at hJob
          cases hJob <;> rfl

theorem of_reaches (run : Reaches (System.step env) raisesInactive (System.initial env) c) :
    Registered env c :=
  run.invariant (Registered env) ⟨List.Pairwise.nil, fun _ hMem => absurd hMem List.not_mem_nil⟩
    fun _ _ _ _ h allowed hStep => h.step allowed (step_cases hStep)

end Registered

/-- The set refers to calls in phases with this property. -/
def System.ActiveIn (c : System Queue) (p : Phase → Bool) : Prop :=
  ∀ i ∈ c.members.activeJobs, ∃ call, c.calls[i]? = some call ∧ p call.phase = true

section ActiveIn

variable {p : Phase → Bool} {c : System Queue} {i : Nat} {call after : Call}
  {members : Members Queue}

/-- The set grows by the call that moves at most, and this one keeps the property. -/
theorem System.ActiveIn.commit (h : c.ActiveIn p) (found : c.calls[i]? = some call)
    (events : List Event)
    (hSet : ∀ j ∈ members.activeJobs, j ≠ i → j ∈ c.members.activeJobs)
    (hSelf : i ∈ members.activeJobs → p after.phase = true) :
    (c.commit i members after events).ActiveIn p := by
  intro j hj
  rw [System.commit_members] at hj
  by_cases hSame : j = i
  · subst hSame
    exact ⟨after, System.getElem?_commit_self _ _ _ (by simp [found]), hSelf hj⟩
  · rw [System.getElem?_commit_ne _ _ _ (Ne.symm hSame)]
    exact h j (hSet j hj hSame)

variable [PriorityQueue Queue Job Job.comparator] {env : Environment} {next : System Queue}
  {action : Action}

theorem System.ActiveIn.moves (h : c.ActiveIn p) (found : c.calls[i]? = some call) {now : Nat}
    {events : List Event} (moves : Moves env c i now call members after events)
    (hActive : ∀ task device, p (.active task device) = true)
    (hKeeps : p call.phase = true → p after.phase = true) :
    (c.commit i members after events).ActiveIn p := by
  have hStays : i ∈ c.members.activeJobs → p after.phase = true := by
    intro hMem
    obtain ⟨other, hOther, hBefore⟩ := h i hMem
    obtain rfl := Option.some.inj (found.symm.trans hOther)
    exact hKeeps hBefore
  cases moves with
  | inserted phase =>
      refine h.commit found _ (fun j hj hne => ?_) (fun _ => hActive _ _)
      exact (OrderedSet.mem_of_mem_insert hj).resolve_left hne
  | finished phase =>
      refine h.commit found _ (fun j hj _ => OrderedSet.mem_of_mem_erase hj) (fun hj => ?_)
      exact hStays (OrderedSet.mem_of_mem_erase hj)
  | cancelled phase _ | notFound phase _ | admitted phase _ | rejected phase _ | posted phase
  | popped phase _ _ | starved phase _ _ | busy phase _ _ | acquired phase _ _
  | noDevice phase _ | answered phase | released phase _ =>
      exact h.commit found _ (fun j hj _ => hj) hStays

/-- A property that steps keep, and exceptions of tasks in the set as well. -/
theorem System.ActiveIn.step (h : c.ActiveIn p) (hStep : Step env c action next)
    (hActive : ∀ task device, p (.active task device) = true)
    (hKeeps : ∀ {i now call members after events}, Moves env c i now call members after events →
      p call.phase = true → p after.phase = true)
    (hRaises : ∀ i what task, action = .raise i what → i ∈ c.members.activeJobs →
      p (.failed task) = true) : next.ActiveIn p := by
  cases hStep with
  | request body =>
      intro j hj
      rw [System.arrive_members] at hj
      obtain ⟨call, found, hPhase⟩ := h j hj
      obtain ⟨hBound, -⟩ := List.getElem?_eq_some_iff.mp found
      exact ⟨call, by rw [System.arrive_calls, List.getElem?_append_left hBound]; exact found,
        hPhase⟩
  | clear =>
      rw [System.ActiveIn, System.clear_members, System.clear_calls]
      exact h
  | proceed found moves => exact h.moves found moves hActive (hKeeps moves)
  | raise what found raises =>
      exact h.commit found _ (fun j hj _ => hj) (fun hMem => hRaises _ what _ rfl hMem)

end ActiveIn

end NanoPowServer.WorkHandler
