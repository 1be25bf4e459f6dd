import NanoPowServer.WorkHandler.Lifecycle
import NanoPowServer.WorkHandler.Threads

/-! What threads make of the data they share. Each container changes under its mutex
only, and as long as every pushed job is a new one, no id is found twice in them.
The threads of the server refine the system of calls, and it has no other runs. -/
namespace NanoPowServer.WorkHandler

open PriorityQueue Execution Locking

variable {Queue : Type}

/-- No thread pushes a job that was there before: what is pushed apart from requests
is constructed for it. -/
def pushesNew (_ : Server Queue) : Locking.Action Thread Effect Operation → Prop
  | .start _ (.pushJob _) => False
  | _ => True

instance (s : Server Queue) (action : Locking.Action Thread Effect Operation) :
    Decidable (pushesNew s action) :=
  match action with
  | .start _ (.pushJob _) => isFalse id
  | .start _ (.request _) | .start _ (.proceed _) | .start _ .clear | .start _ .report
  | .start _ (.pushNewJob _) | .start _ (.removeJob _) | .start _ .popJob
  | .run _ | .throw _ _ => isTrue trivial

/-- No task ends by an exception while its job is in the active set. -/
def throwsInactive (s : Server Queue) : Locking.Action Thread Effect Operation → Prop
  | .throw (.call i) (.raise _) => i ∉ s.shared.system.members.activeJobs
  | _ => True

instance (s : Server Queue) (action : Locking.Action Thread Effect Operation) :
    Decidable (throwsInactive s action) :=
  match action with
  | .throw (.call i) (.raise _) =>
      inferInstanceAs (Decidable (i ∉ s.shared.system.members.activeJobs))
  | .throw (.call _) (.arrive _) | .throw (.call _) (.proceed _ _) | .throw (.call _) .clear
  | .throw (.call _) .refuse | .throw (.call _) .copyJobs | .throw (.call _) .listQueued
  | .throw (.call _) .listActive | .throw (.call _) .listCompleted | .throw (.call _) .respond
  | .throw (.call _) (.construct _) | .throw (.call _) .pushOwn | .throw (.call _) (.pushJob _)
  | .throw (.call _) (.removeJob _) | .throw (.call _) .popJob | .throw (.call _) .reject
  | .throw (.call _) .escape | .throw (.control _) _ | .throw (.report _) _ | .throw (.direct _) _
  | .start _ _ | .run _ => isTrue trivial

/-- Both hold in the runs in which every id can be accounted for. -/
def accountable (s : Server Queue) (action : Locking.Action Thread Effect Operation) : Prop :=
  pushesNew s action ∧ throwsInactive s action

def System.activeIds (env : Environment) (c : System Queue) : List UInt32 :=
  c.members.activeJobs.map fun current => (taskJob env c.calls current).jobId

def System.completedIds (c : System Queue) : List UInt32 :=
  c.members.completedJobs.map Job.jobId

/-- The mutexes under which a step of the system is taken. -/
def System.mutexes (c : System Queue) : Action → List Mutex
  | .proceed i _ => ((c.phase? i).bind Phase.mutexes?).getD []
  | .clear => [.jobs]
  | .request _ | .raise _ _ => []

theorem System.mutexes_proceed {c : System Queue} {i : Nat} {call : Call}
    (found : c.calls[i]? = some call) (now : Nat) :
    c.mutexes (.proceed i now) = call.phase.mutexes?.getD [] := by
  simp [System.mutexes, System.phase?, found]

/-- A call that stays outside of the active set, or keeps its job, does not change
the ids in it. -/
theorem ActiveSet.activeIds_commit {env : Environment} {c : System Queue} (h : ActiveSet c) {i : Nat}
    {call : Call} (found : c.calls[i]? = some call) {members : Members Queue} {after : Call}
    (events : List Event) (hSet : members.activeJobs = c.members.activeJobs)
    (hJob : ∀ job, call.phase.active? = some job →
      (after.phase.active?).map Job.jobId = some job.jobId) :
    (c.commit i members after events).activeIds env = c.activeIds env := by
  unfold System.activeIds
  rw [System.commit_members, hSet]
  apply List.map_congr_left
  intro j hj
  obtain ⟨other, hOther, job, hActive⟩ := h.exists_of_mem hj
  rw [taskJob_of_active hOther hActive]
  by_cases hSame : i = j
  · subst hSame
    obtain rfl := Option.some.inj (found.symm.trans hOther)
    obtain ⟨kept, hKept, hId⟩ := Option.map_eq_some_iff.mp (hJob job hActive)
    have hAfter : (c.commit i members after events).calls[i]? = some after :=
      System.getElem?_commit_self members after events (by simp [found])
    rw [taskJob_of_active hAfter hKept, hId]
  · have hStays : (c.commit i members after events).calls[j]? = some other := by
      rw [System.getElem?_commit_ne _ _ _ hSame]
      exact hOther
    rw [taskJob_of_active hStays hActive]

theorem ActiveSet.count_activeIds_le {env : Environment} {c : System Queue} (h : ActiveSet c)
    (jobId : UInt32) :
    (c.activeIds env).count jobId ≤ c.callsAt Phase.active? (withId jobId) := by
  rw [System.activeIds, List.count_eq_countP, List.countP_map, List.countP_eq_length_filter]
  apply List.length_le_countP (h.nodup.filter _)
  intro i hi
  obtain ⟨hMem, hId⟩ := List.mem_filter.mp hi
  obtain ⟨call, found, job, hJob⟩ := h.exists_of_mem hMem
  refine ⟨call, found, ?_⟩
  rw [Function.comp_apply, taskJob_of_active found hJob] at hId
  simpa [hJob] using hId

/-- The buffer of completed jobs lists them as often as they were finished, at most. -/
theorem count_completedIds_le {c : System Queue}
    (h : c.members.completedJobs = c.finishedJobs.rtake 128) (jobId : UInt32) :
    c.completedIds.count jobId ≤ c.eventsOf Event.finished? (withId jobId) := by
  have hSublist : (c.finishedJobs.rtake 128).Sublist c.finishedJobs :=
    List.drop_sublist _ _
  have hFinished : (c.finishedJobs.map Job.jobId).count jobId =
      c.eventsOf Event.finished? (withId jobId) := by
    rw [List.count_eq_countP, List.countP_map, System.finishedJobs, List.countP_reverse,
      List.countP_filterMap]
    apply List.countP_congr
    intro event _
    cases event.finished? <;> simp
  rw [← hFinished, System.completedIds, h]
  exact (hSublist.map Job.jobId).count_le jobId

variable [PriorityQueue Queue Job Job.comparator]

def System.pendingIds (c : System Queue) : List UInt32 := (drain c.members.jobs).map Job.jobId

theorem count_pendingIds (c : System Queue) (jobId : UInt32) :
    c.pendingIds.count jobId = c.pending (withId jobId) := by
  rw [System.pendingIds, System.pending, ← coe_drain, Multiset.coe_countP, List.count_eq_countP,
    List.countP_map]
  apply List.countP_congr
  intro job _
  simp

section

variable {env : Environment} {c next : System Queue} {action : Action}

/-- The active set changes under its mutex only. -/
theorem activeIds_of_step (h : ActiveSet c) (allowed : raisesInactive c action)
    (hStep : Step env c action next) (hOutside : .active ∉ c.mutexes action) :
    next.activeIds env = c.activeIds env := by
  cases hStep with
  | request body =>
      unfold System.activeIds
      rw [System.arrive_members, System.arrive_calls]
      apply List.map_congr_left
      intro i hi
      obtain ⟨call, found, job, hJob⟩ := h.exists_of_mem hi
      obtain ⟨hBound, -⟩ := List.getElem?_eq_some_iff.mp found
      rw [taskJob_of_active found hJob,
        taskJob_of_active ((List.getElem?_append_left hBound).trans found) hJob]
  | clear =>
      unfold System.activeIds
      rw [System.clear_members, System.clear_calls]
  | raise what found raises =>
      apply h.activeIds_commit found [] rfl
      intro job hJob
      rw [h.active_eq_none found allowed] at hJob
      cases hJob
  | proceed found moves =>
      rw [System.mutexes_proceed found] at hOutside
      cases moves with
      | inserted phase | finished phase => simp [phase, Phase.mutexes?] at hOutside
      | cancelled phase _ | notFound phase _ | admitted phase _ | rejected phase _ | posted phase
      | popped phase _ _ | starved phase _ _ | busy phase _ _ | acquired phase _ _
      | noDevice phase _ | answered phase | released phase _ =>
          refine h.activeIds_commit found _ rfl fun job hJob => ?_
          rw [phase] at hJob
          cases hJob <;> rfl

/-- The buffer of completed jobs changes under its mutex only. -/
theorem completedIds_of_step (hStep : Step env c action next)
    (hOutside : .completed ∉ c.mutexes action) : next.completedIds = c.completedIds := by
  unfold System.completedIds
  cases hStep with
  | request body => rw [System.arrive_members]
  | clear => rw [System.clear_members]
  | raise => rfl
  | proceed found moves =>
      rw [System.mutexes_proceed found] at hOutside
      cases moves with
      | finished phase => simp [phase, Phase.mutexes?] at hOutside
      | _ => rfl

end

/-- What an effect of a thread makes of the shared data. The mutexes are the ones that
guard the effect. -/
inductive Change (env : Environment) (guard : System Queue → Action → Prop) (shared : Shared Queue)
    (mutexes : List Mutex) : Thread → Shared Queue → Prop where
  | system {k : Thread} {action : Action} {system : System Queue}
      (allowed : guard shared.system action) (takes : shared.system.step env action = some system)
      (guarded : shared.system.mutexes action ⊆ mutexes) :
      Change env guard shared mutexes k { shared with system }
  | report {n : Nat} (next : Report Queue) :
      Change env guard shared mutexes (.report n) (shared.onReport n next)
  | construct {n : Nat} (job : Job) :
      Change env guard shared mutexes (.direct n) (shared.construct n job)
  | pushOwn {n : Nat} {job : Job} (constructed : (n, job) ∈ shared.own) :
      Change env guard shared mutexes (.direct n) (shared.pushOwn n job)
  | removed {n : Nat} {jobs : Queue} (fewer : items jobs ≤ items shared.system.members.jobs) :
      Change env guard shared mutexes (.direct n) (shared.onJobs jobs)
  | nothing {k : Thread} : Change env guard shared mutexes k shared

section Change

variable {env : Environment} {guard : System Queue → Action → Prop} {shared next : Shared Queue}

theorem Change.of_onSystem {action : Action} {mutexes : List Mutex}
    (allowed : guard shared.system action) (h : shared.onSystem env action = some next)
    (guarded : shared.system.mutexes action ⊆ mutexes) (k : Thread) :
    Change env guard shared mutexes k next := by
  obtain ⟨system, hStep, rfl⟩ := Option.map_eq_some_iff.mp h
  exact .system allowed hStep guarded

theorem items_popJob_le (jobs : Queue) : items (popJob jobs).1 ≤ items jobs := by
  cases hTop : top jobs with
  | none => rw [popJob_of_top_none hTop]
  | some job =>
      rw [popJob_of_top hTop, ← cons_items_pop jobs job hTop]
      exact Multiset.le_cons_self _ _

omit [PriorityQueue Queue Job Job.comparator] in
theorem mutexes_subset {c : System Queue} {i : Nat} {phase : Phase}
    (h : c.phase? i = some phase) (now : Nat) :
    c.mutexes (.proceed i now) ⊆ guards (.proceed phase now) := by
  simp [System.mutexes, guards, h]

theorem change_of_perform {k : Thread} {effect : Effect}
    (hGuard : ∀ action, noRaise shared.system action → guard shared.system action)
    (hNew : ∀ n, k = .direct n → ∀ job, effect ≠ .pushJob job)
    (h : perform env k effect shared = some next) :
    Change env guard shared (guards effect) k next := by
  unfold perform at h
  split at h
  case h_1 i body =>
      obtain ⟨-, hSystem⟩ := Option.ite_none_right_eq_some.mp h
      exact .of_onSystem (hGuard (.request body) trivial) hSystem (List.nil_subset _) _
  case h_2 i phase now =>
      obtain ⟨⟨hPhase, -⟩, hSystem⟩ := Option.ite_none_right_eq_some.mp h
      exact .of_onSystem (hGuard (.proceed i now) trivial) hSystem (mutexes_subset hPhase now) _
  case h_3 n => exact .of_onSystem (hGuard .clear trivial) h (List.Subset.refl _) _
  case h_4 n =>
      cases h
      exact .nothing
  case h_5 n =>
      unfold performReport at h
      split at h
      case h_2 =>
          obtain ⟨jobsL, -, rfl⟩ := Option.map_eq_some_iff.mp h
          exact .report _
      case h_6 => cases h
      all_goals
        cases h
        exact .report _
  case h_6 n job =>
      cases h
      exact .construct job
  case h_7 n =>
      obtain ⟨job, hJob, rfl⟩ := Option.map_eq_some_iff.mp h
      obtain ⟨front, back, hOwn, -⟩ := List.lookup_eq_some_iff.mp hJob
      exact .pushOwn (by simp [hOwn])
  case h_8 n job => exact absurd rfl (hNew n rfl job)
  case h_9 n rootHash =>
      cases h
      apply Change.removed
      rw [items_removeJob]
      exact Multiset.filter_le _ _
  case h_10 n =>
      cases h
      exact .removed (items_popJob_le _)
  case h_11 => cases h

theorem change_of_catches {k : Thread} {effect caught : Effect}
    (hGuard : ∀ action, noRaise shared.system action → guard shared.system action)
    (hRaise : ∀ i what, k = .call i → caught = .raise what →
      guard shared.system (.raise i what))
    (h : catches env k effect caught shared = some next) :
    Change env guard shared (guards effect) k next := by
  unfold catches at h
  split at h
  case h_1 i phase now =>
      obtain ⟨⟨hPhase, -⟩, hSystem⟩ := Option.ite_none_right_eq_some.mp h
      exact .of_onSystem (hGuard (.proceed i now) trivial) hSystem (mutexes_subset hPhase now) _
  case h_2 i phase now what => exact .of_onSystem (hRaise i what rfl rfl) h (List.nil_subset _) _
  case h_3 => cases h
  case h_4 =>
      cases h
      exact .nothing
  case h_5 => cases h

/-- The number of ids handed out does not decrease. -/
theorem Change.created_length_le {k : Thread} {mutexes : List Mutex}
    (h : Change env guard shared mutexes k next) :
    shared.system.created.length ≤ next.system.created.length := by
  cases h with
  | system _ takes _ => exact WorkHandler.created_length_le (step_cases takes)
  | construct job => exact Nat.le_succ _
  | report _ | pushOwn _ | removed _ | nothing => exact Nat.le_refl _

theorem Change.activeIds {k : Thread} {mutexes : List Mutex}
    (h : Change env raisesInactive shared mutexes k next) (hSet : ActiveSet shared.system)
    (hOutside : .active ∉ mutexes) :
    next.system.activeIds env = shared.system.activeIds env := by
  cases h with
  | system allowed takes guarded =>
      exact activeIds_of_step hSet allowed (step_cases takes) fun hMem => hOutside (guarded hMem)
  | report _ | construct _ | pushOwn _ | removed _ | nothing => rfl

theorem Change.completedIds {k : Thread} {mutexes : List Mutex}
    (h : Change env guard shared mutexes k next) (hOutside : .completed ∉ mutexes) :
    next.system.completedIds = shared.system.completedIds := by
  cases h with
  | system _ takes guarded =>
      exact completedIds_of_step (step_cases takes) fun hMem => hOutside (guarded hMem)
  | report _ | construct _ | pushOwn _ | removed _ | nothing => rfl

/-- The local variables of a report are its own. -/
theorem Change.reports {k : Thread} {mutexes : List Mutex}
    (h : Change env guard shared mutexes k next) {n : Nat} (hOther : .report n ≠ k) :
    next.reports n = shared.reports n := by
  cases h with
  | report _ => exact Function.update_of_ne (fun hSame => hOther (congrArg _ hSame)) _ _
  | system _ _ _ | construct _ | pushOwn _ | removed _ | nothing => rfl

/-- What holds as long as every pushed job is a new one and no task fails while its job is
in the active set: an id that was handed out
belongs to one job at most, wherever the job is, the completed jobs are those that
were finished last, and the active set is in order. -/
structure Accounted (shared : Shared Queue) : Prop where
  dispensed : Dispensed shared.system
  copies : ∀ jobId, shared.system.copies jobId +
    shared.own.countP (fun own => own.2.jobId = jobId) ≤ shared.system.created.count jobId
  completed : shared.system.members.completedJobs = shared.system.finishedJobs.rtake 128
  active : shared.system.created.length < 2 ^ 32 → ActiveSet shared.system

namespace Accounted

theorem initial (env : Environment) : Accounted (Shared.initial env : Shared Queue) where
  dispensed := Dispensed.initial env
  copies jobId := Nat.le_of_eq (copies_initial env jobId)
  completed := (List.rtake_nil 128).symm
  active _ := ActiveSet.initial env

theorem copies_le_one (h : Accounted shared) (hFew : shared.system.created.length < 2 ^ 32)
    (jobId : UInt32) : shared.system.copies jobId ≤ 1 := by
  have hCopies := h.copies jobId
  have hCreated := List.nodup_iff_count_le_one.mp (h.dispensed.nodup hFew) jobId
  omega

theorem system (h : Accounted shared) {action : Action} {after : System Queue}
    (allowed : raisesInactive shared.system action) (hStep : Step env shared.system action after) :
    Accounted { shared with system := after } where
  dispensed := h.dispensed.step hStep
  copies jobId := by
    have hBefore := h.copies jobId
    have hCopies := copies_of_step jobId hStep
    show after.copies jobId + shared.own.countP (fun own => own.2.jobId = jobId) ≤
      after.created.count jobId
    omega
  completed := by
    show after.members.completedJobs = after.finishedJobs.rtake 128
    rcases completed_of_step hStep with ⟨hBuffer, hFinished⟩ | ⟨job, hBuffer, hFinished⟩
    · rw [hBuffer, hFinished, h.completed]
    · rw [hBuffer, hFinished, h.completed, CircularBuffer.pushBack_rtake]
  active hFew := by
    have hBefore := Nat.lt_of_le_of_lt (WorkHandler.created_length_le hStep) hFew
    refine (h.active hBefore).step (fun jobId => ?_) allowed hStep
    have hOne := h.copies_le_one hBefore jobId
    unfold System.copies at hOne
    omega

theorem construct (h : Accounted shared) (n : Nat) (job : Job) :
    Accounted (shared.construct n job) where
  dispensed := h.dispensed.construct rfl rfl
  copies jobId := by
    have hBefore := h.copies jobId
    have hCopies : (shared.construct n job).system.copies jobId = shared.system.copies jobId := rfl
    have hCreated : (shared.construct n job).system.created =
        shared.system.jobIdDispenser :: shared.system.created := rfl
    have hOwn : (shared.construct n job).own =
        (n, { job with jobId := shared.system.jobIdDispenser }) :: shared.own := rfl
    rw [hCopies, hCreated, hOwn, List.countP_cons, List.count_cons]
    by_cases hSame : shared.system.jobIdDispenser = jobId <;> simp [hSame] <;> omega
  completed := h.completed
  active hFew := by
    have hSet := h.active (Nat.lt_of_succ_lt hFew)
    exact ⟨hSet.nodup, hSet.mem_iff⟩

/-- The queue gets no more jobs than the ones that are its own no longer. -/
theorem onJobs (h : Accounted shared) {jobs : Queue} {own : List (Nat × Job)}
    (hJobs : ∀ jobId, (items jobs).countP (fun job => withId jobId job.ticket = true) +
        own.countP (fun own => own.2.jobId = jobId) ≤
      shared.system.pending (withId jobId) +
        shared.own.countP (fun own => own.2.jobId = jobId)) :
    Accounted { shared.onJobs jobs with own } where
  dispensed := ⟨h.dispensed.created, h.dispensed.next⟩
  copies jobId := by
    have hBefore := h.copies jobId
    have hPending := hJobs jobId
    unfold System.copies at hBefore ⊢
    show _ + (items jobs).countP _ + shared.system.callsAt _ _ + shared.system.callsAt _ _ +
      shared.system.eventsOf _ _ + own.countP _ ≤ shared.system.created.count jobId
    have hAdmitting : ({ shared.onJobs jobs with own } : Shared Queue).system.callsAt
        Phase.admitting? (withId jobId) =
          shared.system.callsAt Phase.admitting? (withId jobId) := rfl
    omega
  completed := h.completed
  active hFew := by
    have hSet := h.active hFew
    exact ⟨hSet.nodup, hSet.mem_iff⟩

theorem change (h : Accounted shared) {k : Thread} {mutexes : List Mutex}
    (hChange : Change env raisesInactive shared mutexes k next) : Accounted next := by
  cases hChange with
  | system allowed takes _ => exact h.system allowed (step_cases takes)
  | report _ => exact ⟨h.dispensed, h.copies, h.completed, h.active⟩
  | @construct n job => exact h.construct n job
  | @pushOwn n job constructed =>
      refine h.onJobs fun jobId => ?_
      have hErase := (List.perm_cons_erase constructed).countP_eq fun own => own.2.jobId = jobId
      rw [List.countP_cons] at hErase
      rw [pushJob, items_push, Multiset.countP_cons, hErase, System.pending]
      by_cases hSame : job.jobId = jobId
      · simp [hSame]
        omega
      · simp [hSame]
  | @removed n jobs fewer =>
      refine h.onJobs fun jobId => ?_
      have := Multiset.countP_le_of_le (fun job => withId jobId job.ticket = true) fewer
      exact Nat.add_le_add_right this _
  | nothing => exact h

/-- No id is pending, active and completed at once, or one of them twice. -/
theorem nodup_ids (h : Accounted shared) (hFew : shared.system.created.length < 2 ^ 32) :
    (shared.system.pendingIds ++ shared.system.activeIds env ++
      shared.system.completedIds).Nodup := by
  rw [List.nodup_iff_count_le_one]
  intro jobId
  have hOne := h.copies_le_one hFew jobId
  have hPending := count_pendingIds shared.system jobId
  have hActive := @ActiveSet.count_activeIds_le _ env _ (h.active hFew) jobId
  have hCompleted := count_completedIds_le h.completed jobId
  rw [List.count_append, List.count_append]
  unfold System.copies at hOne
  omega

end Accounted

end Change

section Run

variable {env : Environment} {s : Server Queue}

omit [PriorityQueue Queue Job Job.comparator] in
theorem eq_pushJob_of_program {k : Thread} {operation : Operation} {instrs : Program} {job : Job}
    (h : program env s k operation = some instrs) (hMem : .act (.pushJob job) ∈ instrs) :
    operation = .pushJob job := by
  unfold program at h
  split at h
  case h_1 =>
      obtain ⟨-, hProgram⟩ := Option.ite_none_right_eq_some.mp h
      cases hProgram
      simp at hMem
  case h_2 i now =>
      obtain ⟨phase, -, hPhase⟩ := Option.bind_eq_some_iff.mp h
      obtain ⟨-, hProgram⟩ := Option.ite_none_right_eq_some.mp hPhase
      obtain ⟨mutexes, -, rfl⟩ := Option.map_eq_some_iff.mp hProgram
      simp [underLocks] at hMem
  case h_3 => split at h <;> cases h <;> simp [underLocks] at hMem
  case h_4 =>
      obtain ⟨-, hProgram⟩ := Option.ite_none_right_eq_some.mp h
      cases hProgram
      simp [reportProgram] at hMem
  case h_6 n other =>
      cases h
      obtain rfl : job = other := by simpa [underLocks] using hMem
      rfl
  case h_9 => cases h
  all_goals
    cases h
    simp [underLocks] at hMem

omit [PriorityQueue Queue Job Job.comparator] in
theorem eq_reportProgram_of_program {n : Nat} {operation : Operation} {instrs : Program}
    (h : program env s (.report n) operation = some instrs) :
    instrs = reportProgram ∧ (s.shared.reports n).snapshot = none := by
  cases operation with
  | report =>
      obtain ⟨hNone, hProgram⟩ := Option.ite_none_right_eq_some.mp h
      exact ⟨(Option.some.inj hProgram).symm, Option.isNone_iff_eq_none.mp hNone⟩
  | _ => cases h

/-- What a report has still to do is the rest of its program. -/
theorem suffix_reportProgram {guard : Server Queue → Locking.Action Thread Effect Operation → Prop}
    (run : Reaches (Server.step env) guard (Server.initial env) s) (n : Nat) :
    s.threads (.report n) <:+ reportProgram := by
  rcases State.suffix_of_reaches run (.report n) with hNil | ⟨_, _, _, -, hProgram, hSuffix⟩
  · rw [hNil]
    exact List.nil_suffix
  · rwa [(eq_reportProgram_of_program hProgram).1] at hSuffix

theorem ne_pushJob (run : Reaches (Server.step env) pushesNew (Server.initial env) s) {k : Thread}
    {effect : Effect} {rest : Program} (hNext : s.threads k = .act effect :: rest) (job : Job) :
    effect ≠ .pushJob job := by
  rintro rfl
  rcases State.suffix_of_reaches run k with hNil | ⟨_, _, _, hGuard, hProgram, hSuffix⟩
  · simp [hNext] at hNil
  · have hMem := hSuffix.subset (hNext ▸ List.mem_cons_self)
    rw [eq_pushJob_of_program hProgram hMem] at hGuard
    exact hGuard

/-- What a thread does next is a change that leaves the jobs of the active set alone. -/
theorem change_of_accountable (run : Reaches (Server.step env) pushesNew (Server.initial env) s)
    {k : Thread} {effect : Effect} {rest : Program} (hNext : s.threads k = .act effect :: rest)
    {shared : Shared Queue} :
    (perform env k effect s.shared = some shared →
      Change env raisesInactive s.shared (guards effect) k shared) ∧
    ∀ caught, throwsInactive s (.throw k caught) → catches env k effect caught s.shared = some shared →
      Change env raisesInactive s.shared (guards effect) k shared := by
  have hGuard : ∀ action, noRaise s.shared.system action → raisesInactive s.shared.system action :=
    fun _ => raisesInactive_of_noRaise
  refine ⟨change_of_perform hGuard fun _ _ => ne_pushJob run hNext, ?_⟩
  intro caught allowed
  apply change_of_catches hGuard
  rintro i what rfl rfl
  exact allowed

theorem accounted (run : Reaches (Server.step env) accountable (Server.initial env) s) :
    Accounted s.shared := by
  refine run.invariant (fun s => Accounted s.shared) (Accounted.initial env) ?_
  intro s action next prior ih allowed hStep
  have hNew := prior.mono fun _ _ both => both.1
  cases State.step_cases hStep with
  | start _ _ | lock _ _ | unlock _ _ => exact ih
  | act hNext performs => exact ih.change ((change_of_accountable hNew hNext).1 performs)
  | throw hNext catches =>
      exact ih.change ((change_of_accountable hNew hNext).2 _ allowed.2 catches)

/-- The server is left to itself: no thread works on the queue directly. -/
def servesOnly (_ : Server Queue) : Locking.Action Thread Effect Operation → Prop
  | .start (.direct _) _ => False
  | _ => True

theorem not_direct (run : Reaches (Server.step env) servesOnly (Server.initial env) s) {k : Thread}
    {instr : Instr Mutex Effect} {rest : Program} (hNext : s.threads k = instr :: rest) (n : Nat) :
    k ≠ .direct n := by
  rintro rfl
  rcases State.suffix_of_reaches run (.direct n) with hNil | ⟨_, _, _, hGuard, -, -⟩
  · simp [hNext] at hNil
  · exact hGuard

theorem Change.reaches {k : Thread} {mutexes : List Mutex} {shared next : Shared Queue}
    (h : Change env anyAction shared mutexes k next) (hServer : ∀ n, k ≠ .direct n)
    (run : Reaches (System.step env) anyAction (System.initial env) shared.system) :
    Reaches (System.step env) anyAction (System.initial env) next.system := by
  cases h with
  | system _ takes _ => exact run.tail trivial takes
  | report _ | nothing => exact run
  | construct _ | pushOwn _ | removed _ => exact absurd rfl (hServer _)

/-- The threads refine the system of calls: with all locks taken one by one, the
shared data still goes through states of that system. -/
theorem reaches_system (run : Reaches (Server.step env) servesOnly (Server.initial env) s) :
    Reaches (System.step env) anyAction (System.initial env) s.shared.system := by
  refine run.invariant (fun s =>
    Reaches (System.step env) anyAction (System.initial env) s.shared.system) .refl ?_
  intro s action next prior ih _ hStep
  cases State.step_cases hStep with
  | start _ _ | lock _ _ | unlock _ _ => exact ih
  | act hNext performs =>
      have hServer := not_direct prior hNext
      exact (change_of_perform (fun _ _ => trivial)
        (fun n hSame => absurd hSame (hServer n)) performs).reaches hServer ih
  | throw hNext catches =>
      exact (change_of_catches (fun _ _ => trivial) (fun _ _ _ _ => trivial) catches).reaches
        (not_direct prior hNext) ih

theorem mutexes_of_moves {c : System Queue} {i now : Nat} {call next : Call}
    {members : Members Queue} {events : List Event}
    (moves : Moves env c i now call members next events) :
    ∃ mutexes, call.phase.mutexes? = some mutexes ∧ mutexes.Nodup := by
  cases moves <;> simp [*, Phase.mutexes?]

omit [PriorityQueue Queue Job Job.comparator] in
/-- While all threads are idle, a task that may run can start. -/
theorem program_proceed (idle : s.Idle) {i : Nat} {phase : Phase}
    (hPhase : s.shared.system.phase? i = some phase) {mutexes : List Mutex}
    (hMutexes : phase.mutexes? = some mutexes)
    (hThread : ∀ own, phase = .posted own →
      s.shared.system.running < env.config.devices.length) (now : Nat) :
    program env s (.call i) (.proceed now) =
      some (underLocks mutexes (.proceed phase now)) := by
  have hStart : s.canStart env phase = true := by
    cases phase with
    | posted own =>
        have hStarting : s.starting = 0 := by simp [Server.starting, idle.threads]
        simpa [Server.canStart, hStarting] using hThread own rfl
    | _ => rfl
  simp [program, hPhase, hStart, hMutexes]

omit [PriorityQueue Queue Job Job.comparator] in
theorem servesOnly_start {k : Thread} (hServer : ∀ n, k ≠ .direct n) (operation : Operation) :
    servesOnly s (.start k operation) := by
  cases k with
  | direct n => exact absurd rfl (hServer n)
  | _ => trivial

section Uninterrupted

variable {k : Thread} {operation : Operation} {mutexes : List Mutex} {effect : Effect}
  {shared : Shared Queue}

theorem reaches_performed (idle : s.Idle) (hServer : ∀ n, k ≠ .direct n) (nodup : mutexes.Nodup)
    (hProgram : program env s k operation = some (underLocks mutexes effect))
    (hPerforms : perform env k effect s.shared = some shared) :
    Reaches (Server.step env) servesOnly s { s with shared } := by
  have hProgram : (operations env).program s k operation =
      some (mutexes.map .lock ++ .act effect :: mutexes.reverse.map .unlock) := hProgram
  have hPerforms : (operations env).perform k effect s.shared = some shared := hPerforms
  exact State.reaches_performed (fun _ => trivial) idle nodup (servesOnly_start hServer operation)
    hProgram hPerforms

theorem reaches_caught (idle : s.Idle) (hServer : ∀ n, k ≠ .direct n) (nodup : mutexes.Nodup)
    (hProgram : program env s k operation = some (underLocks mutexes effect)) {caught : Effect}
    (hCatches : catches env k effect caught s.shared = some shared) :
    Reaches (Server.step env) servesOnly s { s with shared } := by
  have hProgram : (operations env).program s k operation =
      some (mutexes.map .lock ++ .act effect :: mutexes.reverse.map .unlock) := hProgram
  have hCatches : (operations env).catches k effect caught s.shared = some shared := hCatches
  exact State.reaches_caught (fun _ => trivial) idle nodup (servesOnly_start hServer operation)
    (fun _ => trivial) hProgram hCatches

end Uninterrupted

/-- Each step of the system of calls is an operation of a thread that goes through it
without being interrupted. -/
theorem reaches_of_step (idle : s.Idle) {action : Action} {after : System Queue}
    (hStep : s.shared.system.step env action = some after) :
    Reaches (Server.step env) servesOnly s
      { s with shared := { s.shared with system := after } } := by
  have hSystem : s.shared.onSystem env action = some { s.shared with system := after } := by
    simp [Shared.onSystem, hStep]
  cases action with
  | request body =>
      have hProgram : program env s (.call s.shared.system.calls.length) (.request body) =
          some (underLocks [] (.arrive body)) := by
        simp [program, underLocks]
      have hPerforms : perform env (.call s.shared.system.calls.length) (.arrive body) s.shared =
          some { s.shared with system := after } := by
        simpa [perform] using hSystem
      exact reaches_performed idle (by simp) List.nodup_nil hProgram hPerforms
  | clear =>
      cases hControl : env.config.server.allowControl with
      | true =>
          have hProgram : program env s (.control 0) .clear =
              some (underLocks [.jobs] .clear) := by
            simp [program, hControl]
          exact reaches_performed idle (by simp) (List.nodup_singleton _) hProgram hSystem
      | false =>
          have hProgram : program env s (.control 0) .clear = some (underLocks [] .refuse) := by
            simp [program, hControl, underLocks]
          obtain rfl : s.shared.system = after := by
            simpa [System.step, System.clear, System.handleQueueDeleteRequest, hControl] using hStep
          exact reaches_performed idle (by simp) List.nodup_nil hProgram rfl
  | proceed i now =>
      obtain ⟨call, members, finish, events, found, moves⟩ : ∃ call members finish events,
          s.shared.system.calls[i]? = some call ∧
            Moves env s.shared.system i now call members finish events := by
        cases step_cases hStep with
        | proceed found moves => exact ⟨_, _, _, _, found, moves⟩
      obtain ⟨mutexes, hMutexes, hNodup⟩ := mutexes_of_moves moves
      have hPhase : s.shared.system.phase? i = some call.phase := by
        simp [System.phase?, found]
      have hThread : ∀ own, call.phase = .posted own →
          s.shared.system.running < env.config.devices.length := by
        intro own hPosted
        cases moves <;> simp_all
      have hProgram := program_proceed idle hPhase hMutexes hThread now
      cases hRejects : rejects env s.shared.system call.phase with
      | false =>
          refine reaches_performed idle (by simp) hNodup hProgram ?_
          simp only [perform, hPhase, hRejects, and_self, if_true]
          exact hSystem
      | true =>
          have hCatches : catches env (.call i) (.proceed call.phase now) .reject s.shared =
              some { s.shared with system := after } := by
            simp only [catches, hPhase, hRejects, and_self, if_true]
            exact hSystem
          exact reaches_caught idle (by simp) hNodup hProgram hCatches
  | raise i what =>
      obtain ⟨call, task, found, raises⟩ : ∃ call task,
          s.shared.system.calls[i]? = some call ∧ Raises call task := by
        cases step_cases hStep with
        | raise _ found raises => exact ⟨_, _, found, raises⟩
      obtain ⟨mutexes, hMutexes, hNodup⟩ :
          ∃ mutexes, call.phase.mutexes? = some mutexes ∧ mutexes.Nodup := by
        cases raises <;> simp [*, Phase.mutexes?]
      have hPhase : s.shared.system.phase? i = some call.phase := by
        simp [System.phase?, found]
      have hThread : ∀ own, call.phase = .posted own →
          s.shared.system.running < env.config.devices.length := by
        intro own hPosted
        cases raises <;> simp_all
      have hProgram := program_proceed idle hPhase hMutexes hThread 0
      have hCatches : catches env (.call i) (.proceed call.phase 0) (.raise what) s.shared =
          some { s.shared with system := after } := hSystem
      exact reaches_caught idle (by simp) hNodup hProgram hCatches

/-- What the system of calls reaches, threads that run one at a time reach too. -/
theorem reaches_server {c : System Queue}
    (run : Reaches (System.step env) anyAction (System.initial env) c) :
    ∃ s : Server Queue, Reaches (Server.step env) servesOnly (Server.initial env) s ∧
      s.Idle ∧ s.shared.system = c := by
  induction run with
  | refl => exact ⟨Server.initial env, .refl, ⟨fun _ => rfl, fun _ => rfl⟩, rfl⟩
  | @tail middle finish action _ _ last ih =>
      obtain ⟨s, hRun, hIdle, rfl⟩ := ih
      exact ⟨_, hRun.trans (reaches_of_step hIdle last), ⟨hIdle.threads, hIdle.owner⟩, rfl⟩

end Run

end NanoPowServer.WorkHandler
