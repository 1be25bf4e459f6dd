import NanoPowServer.Util.HexCodec
import NanoPowServer.WorkHandler.Queue

/-! Cancelling as a filter: the queue that `remove_job` rebuilds holds the jobs for
other root hashes, and pops return them in the order they had before. -/
namespace NanoPowServer.WorkHandler

open PriorityQueue

variable {Queue : Type} [PriorityQueue Queue Job Job.comparator]

/-- Two queues hold the same jobs and return them in the same order. -/
def SameJobs (jobs other : Queue) : Prop := items jobs = items other ∧ drain jobs = drain other

theorem hasHash_iff {rootHash : U256} {job : Job} :
    hasHash rootHash job = true ↔ job.request.rootHash = rootHash := by
  constructor
  · intro h
    have hNumber : job.request.rootHash.number = rootHash.number := by simpa [hasHash] using h
    rw [← Bigint.set_number job.request.rootHash, hNumber, Bigint.set_number]
  · rintro rfl
    simp [hasHash]

theorem hasHash_eq_false_iff {rootHash : U256} {job : Job} :
    hasHash rootHash job = false ↔ job.request.rootHash ≠ rootHash := by
  rw [ne_eq, ← hasHash_iff, Bool.not_eq_true]

theorem items_removeJob_eq (jobs : Queue) (rootHash : U256) :
    items (removeJob jobs rootHash).1 =
      (items jobs).filter fun job => job.request.rootHash ≠ rootHash := by
  rw [items_removeJob]
  exact Multiset.filter_congr fun job _ => hasHash_eq_false_iff

section

variable {jobs : Queue}

/-- Jobs with different ids are never equivalent. -/
theorem comparator_total_items (hIds : ((items jobs).map Job.jobId).Nodup) :
    ∀ job ∈ items jobs, ∀ other ∈ items jobs, job ≠ other →
      Job.comparator job other = true ∨ Job.comparator other job = true := by
  intro job hJob other hOther hne
  apply Job.comparator_total
  intro hSame
  exact hne (Multiset.inj_on_of_nodup_map hIds job hJob other hOther hSame)

theorem drain_removeJob (hIds : ((items jobs).map Job.jobId).Nodup) (rootHash : U256) :
    drain (removeJob jobs rootHash).1 =
      (drain jobs).filter fun job => job.request.rootHash ≠ rootHash :=
  drain_filter (items_removeJob_eq jobs rootHash) (comparator_total_items hIds)

theorem nodup_removeJob (hIds : ((items jobs).map Job.jobId).Nodup) (rootHash : U256) :
    ((items (removeJob jobs rootHash).1).map Job.jobId).Nodup := by
  rw [items_removeJob_eq]
  exact Multiset.nodup_of_le (Multiset.map_le_map (Multiset.filter_le _ _)) hIds

/-- Removing again finds nothing. -/
theorem removeJob_removeJob_self (hIds : ((items jobs).map Job.jobId).Nodup) (rootHash : U256) :
    (removeJob (removeJob jobs rootHash).1 rootHash).2 = false ∧
      SameJobs (removeJob (removeJob jobs rootHash).1 rootHash).1 (removeJob jobs rootHash).1 := by
  refine ⟨?_, ?_, ?_⟩
  · rw [← Bool.not_eq_true, removeJob_eq_true_iff, items_removeJob_eq]
    rintro ⟨job, hJob, hHash⟩
    exact (Multiset.mem_filter.mp hJob).2 (hasHash_iff.mp hHash)
  · simp
  · rw [drain_removeJob (nodup_removeJob hIds rootHash), drain_removeJob hIds]
    simp

theorem removeJob_comm (hIds : ((items jobs).map Job.jobId).Nodup) (rootHash other : U256) :
    SameJobs (removeJob (removeJob jobs rootHash).1 other).1
      (removeJob (removeJob jobs other).1 rootHash).1 := by
  constructor
  · simp only [items_removeJob]
    exact Multiset.filter_comm _ _ _
  · rw [drain_removeJob (nodup_removeJob hIds rootHash), drain_removeJob hIds,
      drain_removeJob (nodup_removeJob hIds other), drain_removeJob hIds]
    simp [List.filter_filter, Bool.and_comm]

end

/-- The loop ends, and it has filtered the queue: nothing is lost, nothing is there
twice, and the order of pops is kept. -/
theorem removeJob_filters {jobs : Queue} (hIds : ((items jobs).map Job.jobId).Nodup)
    (rootHash : U256) :
    top (removeLoop rootHash (size jobs) jobs empty false).1 = none ∧
      ((removeJob jobs rootHash).2 = true ↔
        ∃ job ∈ items jobs, job.request.rootHash = rootHash) ∧
      items (removeJob jobs rootHash).1 =
        (items jobs).filter (fun job => job.request.rootHash ≠ rootHash) ∧
      drain (removeJob jobs rootHash).1 =
        (drain jobs).filter (fun job => job.request.rootHash ≠ rootHash) ∧
      (items (removeJob jobs rootHash).1).Nodup ∧
      (removeJob (removeJob jobs rootHash).1 rootHash).2 = false ∧
      SameJobs (removeJob (removeJob jobs rootHash).1 rootHash).1 (removeJob jobs rootHash).1 ∧
      ∀ other : U256, SameJobs (removeJob (removeJob jobs rootHash).1 other).1
        (removeJob (removeJob jobs other).1 rootHash).1 := by
  obtain ⟨hAgain, hSame⟩ := removeJob_removeJob_self hIds rootHash
  have hEnds := (removeLoop_spec rootHash (size jobs) jobs empty false (Nat.le_refl _)).1
  refine ⟨(top_eq_none_iff _).mpr hEnds, ?_, items_removeJob_eq jobs rootHash,
    drain_removeJob hIds rootHash, ?_, hAgain, hSame, removeJob_comm hIds rootHash⟩
  · simp [removeJob_eq_true_iff, hasHash_iff]
  · exact (nodup_removeJob hIds rootHash).of_map _

/-- Two of three jobs were queued for one root hash. -/
theorem removeJob_filters_three :
    let queued (jobId : UInt32) (rootHash : U256) : Job := { jobId, request := { rootHash } }
    let jobs : SortedQueue Job.comparator :=
      pushJob (pushJob (pushJob empty (queued 1 (.set 5))) (queued 2 (.set 6))) (queued 3 (.set 5))
    (drain jobs).map Job.jobId = [1, 2, 3] ∧
      drain (removeJob jobs (.set 5)).1 =
        (drain jobs).filter (fun job => job.request.rootHash ≠ .set 5) := by
  intro queued jobs
  exact ⟨by decide, (removeJob_filters (by decide) (.set 5)).2.2.2.1⟩

end NanoPowServer.WorkHandler
