import NanoPowServer.Library.PriorityQueue
import NanoPowServer.Util.Multiplier

/-! Queued work generation requests and the order in which they are served. -/
namespace NanoPowServer

namespace Job

structure Request where
  rootHash : U256 := Bigint.set 0
  difficulty : U128 := Bigint.set 0
  multiplier : ℚ := 1
  deriving DecidableEq

structure Result where
  work : U128 := Bigint.set 0
  difficulty : U128 := Bigint.set 0
  multiplier : ℚ := 1
  deriving DecidableEq

end Job

/-- Times are clock readings in milliseconds since the epoch. -/
structure Job where
  startTime : Nat := 0
  endTime : Nat := 0
  request : Job.Request := {}
  result : Job.Result := {}
  priority : UInt32 := 0
  jobId : UInt32
  deriving DecidableEq

namespace Job

def start (job : Job) (now : Nat) : Job := { job with startTime := now }

def stop (job : Job) (now : Nat) : Job := { job with endTime := now }

/-- Stable sorted priority queue. -/
def comparator (job1 job2 : Job) : Bool :=
  if job1.priority ≠ job2.priority then job2.priority > job1.priority
  else job1.jobId > job2.jobId

theorem comparator_iff (job1 job2 : Job) :
    comparator job1 job2 = true ↔
      job1.priority < job2.priority ∨
        job1.priority = job2.priority ∧ job2.jobId < job1.jobId := by
  unfold comparator
  by_cases h : job1.priority = job2.priority
  · simp [h]
  · simp [h]

theorem comparator_eq_false_iff (job1 job2 : Job) :
    comparator job1 job2 = false ↔
      job2.priority < job1.priority ∨
        job1.priority = job2.priority ∧ job1.jobId ≤ job2.jobId := by
  rw [← Bool.not_eq_true, comparator_iff]
  grind

instance : StrictWeakOrder comparator where
  asymm job1 job2 := by
    rw [comparator_iff, comparator_eq_false_iff]
    grind
  negTrans job1 job2 job3 := by
    simp only [comparator_eq_false_iff]
    grind

/-- Jobs with different ids are never equivalent. -/
theorem comparator_total {job1 job2 : Job} (h : job1.jobId ≠ job2.jobId) :
    comparator job1 job2 = true ∨ comparator job2 job1 = true := by
  simp only [comparator_iff]
  grind

theorem comparator_trans {job1 job2 job3 : Job} (h : comparator job1 job2 = true)
    (hNext : comparator job2 job3 = true) : comparator job1 job3 = true := by
  rw [comparator_iff] at h hNext ⊢
  grind

theorem comparator_self (job : Job) : comparator job job = false := by
  simp [comparator]

/-- What a job keeps from the moment it is queued until it is completed: its
identity, its rank and what was requested. -/
structure Ticket where
  request : Request
  priority : UInt32
  jobId : UInt32
  deriving DecidableEq

def ticket (job : Job) : Ticket := ⟨job.request, job.priority, job.jobId⟩

@[simp] theorem ticket_jobId (job : Job) : job.ticket.jobId = job.jobId := rfl

/-- The rank of a job is part of its ticket. -/
theorem comparator_of_ticket {job1 job2 other1 other2 : Job} (h1 : job1.ticket = other1.ticket)
    (h2 : job2.ticket = other2.ticket) : comparator job1 job2 = comparator other1 other2 := by
  simp only [ticket, Ticket.mk.injEq] at h1 h2
  simp [comparator, h1, h2]

@[simp] theorem ticket_start (job : Job) (now : Nat) : (job.start now).ticket = job.ticket := rfl

@[simp] theorem ticket_stop (job : Job) (now : Nat) : (job.stop now).ticket = job.ticket := rfl

end Job

end NanoPowServer
