import NanoPowServer.WorkHandler.QueueReport
import NanoPowServer.WorkHandler.Steps

/-! The order in which jobs are served. The log of a sequence of queue
operations determines which jobs are still pending, and each pop takes the
first of these in the order of priority and then of age. -/
namespace NanoPowServer.WorkHandler

open PriorityQueue

/-- An operation on the queue, each in one critical section. -/
inductive QueueOperation where
  | push (job : Job)
  | pop
  | remove (rootHash : U256)
  | clear

/-- What was done: a pop is logged with the job it returned, a clear with
whether the request succeeded. -/
inductive QueueRecord where
  | pushed (job : Job)
  | popped (result : Option Job)
  | removed (rootHash : U256)
  | cleared (success : Bool)
  deriving DecidableEq

/-- The pending jobs after an operation, from those before it. -/
def QueueRecord.after (pending : Multiset Job) : QueueRecord → Multiset Job
  | .pushed job => job ::ₘ pending
  | .popped (some job) => pending.erase job
  | .popped none => pending
  | .removed rootHash => pending.filter fun job => hasHash rootHash job = false
  | .cleared success => if success then 0 else pending

/-- The jobs pushed and not yet popped or removed. -/
def remaining (log : List QueueRecord) : Multiset Job := log.foldl QueueRecord.after 0

def QueueRecord.pushed? : QueueRecord → Option Job
  | .pushed job => some job
  | _ => none

def QueueOperation.pushed? : QueueOperation → Option Job
  | .push job => some job
  | _ => none

/-- The job that is next in line: the highest priority, and within it the
smallest job id. There is none only if nothing is pending. -/
def IsNext (pending : Multiset Job) : Option Job → Prop
  | none => pending = 0
  | some job => job ∈ pending ∧ ∀ other ∈ pending, other ≠ job →
      other.priority < job.priority ∨ other.priority = job.priority ∧ job.jobId < other.jobId

section

variable {Queue : Type} [PriorityQueue Queue Job Job.comparator]

/-- The queue and the record of an operation. A clear is a queue delete request
and succeeds if control requests are allowed. -/
def QueueOperation.perform (env : Environment) (jobs : Queue) :
    QueueOperation → Queue × QueueRecord
  | .push job => (pushJob jobs job, .pushed job)
  | .pop => ((popJob jobs).1, .popped (popJob jobs).2)
  | .remove rootHash => ((removeJob jobs rootHash).1, .removed rootHash)
  | .clear =>
      ((System.handleQueueDeleteRequest env jobs).1, .cleared env.config.server.allowControl)

def performNext (env : Environment) (state : Queue × List QueueRecord)
    (operation : QueueOperation) : Queue × List QueueRecord :=
  let (jobs, record) := operation.perform env state.1
  (jobs, state.2 ++ [record])

/-- The queue and the log after the operations, from an empty queue. -/
def performAll (env : Environment) (operations : List QueueOperation) :
    Queue × List QueueRecord :=
  operations.foldl (performNext env) (empty, [])

/-- What the next pops return. -/
def popTimes : Nat → Queue → List (Option Job)
  | 0, _ => []
  | count + 1, jobs => (popJob jobs).2 :: popTimes count (popJob jobs).1

end

theorem remaining_append_singleton (log : List QueueRecord) (record : QueueRecord) :
    remaining (log ++ [record]) = record.after (remaining log) := by
  simp [remaining]

/-- Only pushed jobs are pending, each at most as often as it was pushed. -/
theorem remaining_le (log : List QueueRecord) :
    remaining log ≤ (log.filterMap QueueRecord.pushed? : Multiset Job) := by
  induction log using List.reverseRecOn with
  | nil => exact Multiset.zero_le _
  | append_singleton log record ih =>
      rw [remaining_append_singleton, List.filterMap_append, ← Multiset.coe_add]
      cases record with
      | pushed job =>
          change job ::ₘ remaining log ≤ _ + {job}
          rw [Multiset.add_comm, Multiset.singleton_add]
          exact Multiset.cons_le_cons job ih
      | popped result =>
          cases result with
          | some job => exact (Multiset.erase_le job _).trans (ih.trans (Multiset.le_add_right _ _))
          | none => exact ih.trans (Multiset.le_add_right _ _)
      | removed rootHash =>
          exact (Multiset.filter_le _ _).trans (ih.trans (Multiset.le_add_right _ _))
      | cleared success =>
          cases success with
          | true => exact Multiset.zero_le _
          | false => exact ih.trans (Multiset.le_add_right _ _)

variable {Queue : Type} [PriorityQueue Queue Job Job.comparator]

/-- One operation does to the queue what its record says. -/
theorem items_perform (env : Environment) (jobs : Queue) (operation : QueueOperation) :
    items (operation.perform env jobs).1 = (operation.perform env jobs).2.after (items jobs) := by
  cases operation with
  | push job => exact items_push jobs job
  | pop =>
      cases hTop : top jobs with
      | some job =>
          simp only [QueueOperation.perform, popJob_of_top hTop]
          exact items_pop hTop
      | none =>
          simp only [QueueOperation.perform, popJob_of_top_none hTop]
          rfl
  | remove rootHash => exact items_removeJob jobs rootHash
  | clear => exact System.items_handleQueueDeleteRequest env jobs

theorem performAll_append_singleton (env : Environment) (operations : List QueueOperation)
    (operation : QueueOperation) :
    (performAll env (operations ++ [operation]) : Queue × List QueueRecord) =
      performNext env (performAll env operations) operation := by
  simp [performAll]

/-- The queue holds exactly the jobs that the log leaves pending. -/
theorem items_performAll (env : Environment) (operations : List QueueOperation) :
    items (performAll env operations : Queue × List QueueRecord).1 =
      remaining (performAll env operations : Queue × List QueueRecord).2 := by
  induction operations using List.reverseRecOn with
  | nil => exact items_empty
  | append_singleton operations operation ih =>
      rw [performAll_append_singleton]
      simp only [performNext, remaining_append_singleton]
      rw [items_perform, ih]

theorem pushed_performAll (env : Environment) (operations : List QueueOperation) :
    (performAll env operations : Queue × List QueueRecord).2.filterMap QueueRecord.pushed? =
      operations.filterMap QueueOperation.pushed? := by
  induction operations using List.reverseRecOn with
  | nil => rfl
  | append_singleton operations operation ih =>
      rw [performAll_append_singleton]
      simp only [performNext, List.filterMap_append, ih]
      congr 1
      cases operation <;> rfl

/-- With distinct ids pending, the job that a pop returns is next in line. -/
theorem isNext_popJob {jobs : Queue} (hIds : ((items jobs).map Job.jobId).Nodup) :
    IsNext (items jobs) (popJob jobs).2 := by
  cases hTop : top jobs with
  | none =>
      rw [popJob_of_top_none hTop]
      exact items_of_top_none jobs hTop
  | some job =>
      rw [popJob_of_top hTop]
      refine ⟨top_mem hTop, fun other hOther hne => ?_⟩
      have hApart : job.jobId ≠ other.jobId := fun hSame =>
        hne (Multiset.inj_on_of_nodup_map hIds other hOther job (top_mem hTop) hSame.symm)
      have hAbove := top_maximal jobs job hTop other hOther
      rcases (Job.comparator_eq_false_iff job other).mp hAbove with hPriority | ⟨hSame, hAge⟩
      · exact .inl hPriority
      · exact .inr ⟨hSame.symm, UInt32.lt_of_le_of_ne hAge hApart⟩

theorem popTimes_eq (count : Nat) (jobs : Queue) :
    popTimes count jobs = (List.range count).map fun k => (drain jobs)[k]? := by
  induction count generalizing jobs with
  | zero => rfl
  | succ count ih =>
      rw [popTimes, ih, List.range_succ_eq_map, List.map_cons, List.map_map]
      cases hTop : top jobs with
      | none =>
          rw [popJob_of_top_none hTop, drain_of_top_none hTop]
          rfl
      | some job =>
          rw [popJob_of_top hTop, drain_of_top hTop]
          rfl

theorem nodup_performAll (env : Environment) {operations : List QueueOperation}
    (hIds : ((operations.filterMap QueueOperation.pushed?).map Job.jobId).Nodup) :
    ((items (performAll env operations : Queue × List QueueRecord).1).map Job.jobId).Nodup := by
  rw [items_performAll]
  refine Multiset.nodup_of_le (Multiset.map_le_map (remaining_le _)) ?_
  rw [pushed_performAll, Multiset.map_coe, Multiset.coe_nodup]
  exact hIds

/-- Every pop of a sequence returns the job that was next in line. -/
theorem isNext_of_popped (env : Environment) {operations : List QueueOperation}
    (hIds : ((operations.filterMap QueueOperation.pushed?).map Job.jobId).Nodup)
    {before after : List QueueRecord} {result : Option Job}
    (hLog : (performAll env operations : Queue × List QueueRecord).2 =
      before ++ .popped result :: after) :
    IsNext (remaining before) result := by
  induction operations using List.reverseRecOn generalizing after with
  | nil => simp [performAll] at hLog
  | append_singleton operations operation ih =>
      rw [List.filterMap_append, List.map_append] at hIds
      have hPrior := hIds.of_append_left
      rw [performAll_append_singleton] at hLog
      rcases List.eq_nil_or_concat after with rfl | ⟨earlier, last, rfl⟩
      · obtain ⟨rfl, hRecord⟩ := List.append_inj' hLog rfl
        cases operation with
        | pop =>
            obtain rfl : (popJob (performAll env operations : Queue × _).1).2 = result := by
              simpa [QueueOperation.perform] using hRecord
            rw [← items_performAll]
            exact isNext_popJob (nodup_performAll env hPrior)
        | push _ | remove _ | clear => simp at hRecord
      · rw [List.concat_eq_append, ← List.cons_append, ← List.append_assoc] at hLog
        exact ih hPrior (List.append_inj' hLog rfl).1

/-- Each pop returns the pending job of highest priority, and of the smallest
id within that priority, and none only if nothing is pending. A queue request
leaves the queue as it is and lists the jobs that repeated pops would return,
in this order. -/
theorem service_order (env : Environment) (operations : List QueueOperation)
    (hIds : ((operations.filterMap QueueOperation.pushed?).map Job.jobId).Nodup) :
    let state : Queue × List QueueRecord := performAll env operations
    (∀ before result after, state.2 = before ++ .popped result :: after →
      IsNext (remaining before) result) ∧
    ∀ (members : Members Queue) (calls : List Call), members.jobs = state.1 →
      (handleQueueRequest env members calls).1.jobs = state.1 ∧
      ∀ count, (popTimes count state.1).map (Option.map (populateJson env)) =
        (List.range count).map fun k => (handleQueueRequest env members calls).2.queued[k]? := by
  intro state
  refine ⟨fun before result after hLog => isNext_of_popped env hIds hLog, ?_⟩
  intro members calls hJobs
  refine ⟨hJobs, fun count => ?_⟩
  rw [popTimes_eq, List.map_map]
  apply List.map_congr_left
  intro k _
  rw [queued_handleQueueRequest, List.getElem?_map, hJobs]
  rfl

/-- The younger of two jobs has the higher priority, and the oldest of three was
cancelled. -/
theorem service_order_three :
    let job (id : UInt32) (priority : UInt32) : Job := { jobId := id, priority }
    let cancelled : Job := { jobId := 1, request := { rootHash := Bigint.set 1 } }
    let operations : List QueueOperation :=
      [.push cancelled, .push (job 2 0), .push (job 3 1), .remove (Bigint.set 1), .pop]
    let state : JobQueue × List QueueRecord := performAll sampleEnvironment operations
    state.2.getLast? = some (.popped (some (job 3 1))) ∧
    ∀ before result after, state.2 = before ++ .popped result :: after →
      IsNext (remaining before) result :=
  ⟨by decide, (service_order sampleEnvironment _ (by decide)).1⟩

end NanoPowServer.WorkHandler
