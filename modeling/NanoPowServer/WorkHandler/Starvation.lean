import NanoPowServer.WorkHandler.Devices
import NanoPowServer.WorkHandler.Overtaking

/-! A job can wait for ever. One client that keeps asking for a larger priority has its
requests served one after the other, and nothing is ever done for a job below them. -/
namespace NanoPowServer.WorkHandler

open PriorityQueue Execution

variable {Queue : Type} [PriorityQueue Queue Job Job.comparator]

/-- The job is pending before each step. -/
def waiting (job : Job) (c : System Queue) (_ : Action) : Prop := job ∈ items c.members.jobs

/-- Only this call may occupy a thread of the pool. -/
structure Alone (c : System Queue) (i : Nat) (call : Call) : Prop where
  found : c.calls[i]? = some call
  others : c.running = call.phase.isRunning.toNat

variable {env : Environment} {c : System Queue} {i : Nat} {call after : Call}
  {members : Members Queue} {events : List Event}

/-- The call goes on, and stays the only one that may run. -/
theorem Alone.proceed (h : Alone c i call) (env : Environment)
    (moves : call.proceed env c i 0 = some (members, after, events)) :
    System.step env c (.proceed i 0) = some (c.commit i members after events) ∧
      Alone (c.commit i members after events) i after := by
  refine ⟨?_, System.getElem?_commit_self _ _ _ (by simp [h.found]), ?_⟩
  · simp [System.step, h.found, moves]
  · have := System.running_commit h.found members after events
    have := h.others
    omega

end NanoPowServer.WorkHandler
