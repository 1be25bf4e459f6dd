import NanoPowServer.WorkHandler.Job

/-! The operations on the queue of pending jobs. Each of them runs in one
critical section of `jobs_mutex`. -/
namespace NanoPowServer.WorkHandler

open PriorityQueue

variable {Queue : Type} [PriorityQueue Queue Job Job.comparator]

/-- The job was queued for this root hash. -/
def hasHash (rootHash : U256) (job : Job) : Bool :=
  job.request.rootHash.number = rootHash.number

/-- Push a copy of the job. -/
def pushJob (jobs : Queue) (job : Job) : Queue := push jobs job

/-- The loop of `remove_job`: take every job out of `jobs` and push the ones
with another root hash into `jobs_l`. -/
def removeLoop (rootHash : U256) : Nat → Queue → Queue → Bool → Queue × Queue × Bool
  | 0, jobs, jobsL, removed => (jobs, jobsL, removed)
  | fuel + 1, jobs, jobsL, removed =>
      match top jobs with
      | none => (jobs, jobsL, removed)
      | some current =>
          if hasHash rootHash current then removeLoop rootHash fuel (pop jobs) jobsL true
          else removeLoop rootHash fuel (pop jobs) (push jobsL current) removed

/-- It's not possible to remove from priority queues, so the queue is rebuilt
through a filter. One iteration for each job is enough. -/
def removeJob (jobs : Queue) (rootHash : U256) : Queue × Bool :=
  let (_, jobsL, removed) := removeLoop rootHash (size jobs) jobs empty false
  (jobsL, removed)

/-- The next highest priority job, or none if no jobs are available. -/
def popJob (jobs : Queue) : Queue × Option Job :=
  match top jobs with
  | some job => (pop jobs, some job)
  | none => (jobs, none)

/-- What the loop returns: it ends with an empty queue, has kept exactly the
jobs with another hash, and knows whether there was one with this hash. -/
theorem removeLoop_spec (rootHash : U256) (fuel : Nat) (jobs jobsL : Queue) (removed : Bool)
    (hFuel : size jobs ≤ fuel) :
    items (removeLoop rootHash fuel jobs jobsL removed).1 = 0 ∧
    items (removeLoop rootHash fuel jobs jobsL removed).2.1 =
      items jobsL + (items jobs).filter (fun job => hasHash rootHash job = false) ∧
    ((removeLoop rootHash fuel jobs jobsL removed).2.2 = true ↔
      removed = true ∨ ∃ job ∈ items jobs, hasHash rootHash job = true) := by
  induction fuel generalizing jobs jobsL removed with
  | zero =>
      have hItems := items_of_top_none jobs (top_of_size_zero (Nat.le_zero.mp hFuel))
      simp [removeLoop, hItems]
  | succ fuel ih =>
      cases hTop : top jobs with
      | none => simp [removeLoop, hTop, items_of_top_none jobs hTop]
      | some current =>
          have hRest : size (pop jobs) ≤ fuel := by
            have := size_pop hTop
            omega
          rw [← cons_items_pop jobs current hTop]
          cases hHash : hasHash rootHash current with
          | true =>
              simp only [removeLoop, hTop, hHash, if_true]
              obtain ⟨hEmpty, hKept, hFound⟩ := ih (pop jobs) jobsL true hRest
              refine ⟨hEmpty, ?_, ?_⟩
              · simpa [hHash] using hKept
              · simp [hFound, hHash]
          | false =>
              simp only [removeLoop, hTop, hHash, Bool.false_eq_true, if_false]
              obtain ⟨hEmpty, hKept, hFound⟩ := ih (pop jobs) (push jobsL current) removed hRest
              refine ⟨hEmpty, ?_, ?_⟩
              · simpa [hHash] using hKept
              · simpa [hHash] using hFound

@[simp] theorem items_removeJob (jobs : Queue) (rootHash : U256) :
    items (removeJob jobs rootHash).1 =
      (items jobs).filter (fun job => hasHash rootHash job = false) := by
  have h := (removeLoop_spec rootHash (size jobs) jobs empty false (Nat.le_refl _)).2.1
  simpa [removeJob] using h

theorem removeJob_eq_true_iff (jobs : Queue) (rootHash : U256) :
    (removeJob jobs rootHash).2 = true ↔ ∃ job ∈ items jobs, hasHash rootHash job = true := by
  have h := (removeLoop_spec rootHash (size jobs) jobs empty false (Nat.le_refl _)).2.2
  simpa [removeJob] using h

theorem size_removeJob_le (jobs : Queue) (rootHash : U256) :
    size (removeJob jobs rootHash).1 ≤ size jobs := by
  rw [size_eq, size_eq, items_removeJob]
  exact Multiset.card_le_card (Multiset.filter_le _ _)

@[simp] theorem size_pushJob (jobs : Queue) (job : Job) :
    size (pushJob jobs job) = size jobs + 1 := by
  simp [size_eq, pushJob]

theorem popJob_of_top {jobs : Queue} {job : Job} (h : top jobs = some job) :
    popJob jobs = (pop jobs, some job) := by
  simp [popJob, h]

theorem popJob_of_top_none {jobs : Queue} (h : top jobs = none) : popJob jobs = (jobs, none) := by
  simp [popJob, h]

theorem popJob_snd (jobs : Queue) : (popJob jobs).2 = top jobs := by
  unfold popJob
  cases hTop : top jobs with
  | some job => rfl
  | none => rfl

/-- Where no two pending jobs share an id, the queue is drained in the order of
priority, and within a priority in the order of ids. -/
theorem drain_eq {jobs : Queue} {order : List Job} (hItems : (order : Multiset Job) = items jobs)
    (hOrder : order.Pairwise fun job other => Job.comparator job other = false)
    (hIds : (order.map Job.jobId).Nodup) : drain jobs = order := by
  apply drain_unique hItems hOrder
  intro job hJob other hOther hne
  apply Job.comparator_total
  intro hSame
  exact hne (List.inj_on_of_nodup_map hIds hJob hOther hSame)

end NanoPowServer.WorkHandler
