import NanoPowServer.WorkHandler.System

/-! The report of `handle_queue_request`, as the JSON document it writes. -/
namespace NanoPowServer.WorkHandler

open PriorityQueue

/-- The entry of one job: its own fields and its two children. -/
structure JobReport where
  fields : Ptree
  request : Ptree
  result : Ptree
  deriving DecidableEq

structure QueueReport where
  queued : List JobReport
  active : List JobReport
  completed : List JobReport
  deriving DecidableEq

def populateJson (env : Environment) (job : Job) : JobReport where
  fields :=
    (((Ptree.put "id" (toString job.jobId.toNat) []).put "priority"
      (toString job.priority.toNat)).put "start" (toString job.startTime)).put "end"
      (toString job.endTime)
  request :=
    ((Ptree.put "hash" job.request.rootHash.toHex []).put "difficulty"
      job.request.difficulty.toHex).put "multiplier" (env.writeDouble job.request.multiplier)
  result :=
    ((Ptree.put "work" job.result.work.toHex []).put "difficulty"
      job.result.difficulty.toHex).put "multiplier" (env.writeDouble job.result.multiplier)

variable {Queue : Type} [PriorityQueue Queue Job Job.comparator]

/-- The loop over `jobs_l`: report the top job and pop it, until none is left. -/
def queuedLoop (env : Environment) : Nat → Queue → List JobReport → Queue × List JobReport
  | 0, jobsL, queued => (jobsL, queued)
  | fuel + 1, jobsL, queued =>
      match top jobsL with
      | none => (jobsL, queued)
      | some current => queuedLoop env fuel (pop jobsL) (queued ++ [populateJson env current])

/-- `jobs_l` is a copy of the queue, and one iteration for each job is enough. What the
active set refers to is read where the tasks have it. -/
def handleQueueRequest (env : Environment) (members : Members Queue) (calls : List Call) :
    Members Queue × QueueReport :=
  let jobsL := members.jobs
  (members,
    { queued := (queuedLoop env (size jobsL) jobsL []).2
      active := members.activeJobs.map fun current => populateJson env (taskJob env calls current)
      completed := members.completedJobs.map (populateJson env) })

/-- The loop takes the copy apart and reports what it takes out, in this order. -/
theorem queuedLoop_spec (env : Environment) (fuel : Nat) (jobsL : Queue) (queued : List JobReport)
    (hFuel : size jobsL ≤ fuel) :
    items (queuedLoop env fuel jobsL queued).1 = 0 ∧
      (queuedLoop env fuel jobsL queued).2 = queued ++ (drain jobsL).map (populateJson env) := by
  induction fuel generalizing jobsL queued with
  | zero =>
      have hTop := top_of_size_zero (Nat.le_zero.mp hFuel)
      simp [queuedLoop, drain_of_top_none hTop, items_of_top_none jobsL hTop]
  | succ fuel ih =>
      cases hTop : top jobsL with
      | none => simp [queuedLoop, hTop, drain_of_top_none hTop, items_of_top_none jobsL hTop]
      | some current =>
          have hRest : size (pop jobsL) ≤ fuel := by
            have := size_pop hTop
            omega
          have hLoop := ih (pop jobsL) (queued ++ [populateJson env current]) hRest
          simp only [queuedLoop, hTop]
          refine ⟨hLoop.1, ?_⟩
          rw [hLoop.2, drain_of_top hTop, List.map_cons, List.append_assoc, List.singleton_append]

theorem queued_handleQueueRequest (env : Environment) (members : Members Queue)
    (calls : List Call) :
    (handleQueueRequest env members calls).2.queued =
      (drain members.jobs).map (populateJson env) :=
  (queuedLoop_spec env _ members.jobs [] (Nat.le_refl _)).2

end NanoPowServer.WorkHandler
