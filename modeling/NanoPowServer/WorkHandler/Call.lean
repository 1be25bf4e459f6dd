import NanoPowServer.WorkHandler.Job

/-! The data of a call of `handle_request_async` and of the pool task that it posts. -/
namespace NanoPowServer.WorkHandler

/-- The children of a property tree with their data, which is all that the
requests and the responses of the work handler use of one. -/
abbrev Ptree := List (String × String)

namespace Ptree

def getOptional (tree : Ptree) (key : String) : Option String := tree.lookup key

/-- Replace the data of the first child with this key, or add a child. -/
def put (key value : String) : Ptree → Ptree
  | [] => [(key, value)]
  | (other, data) :: rest =>
      if key == other then (key, value) :: rest else (other, data) :: put key value rest

@[simp] theorem getOptional_put (key value : String) (tree : Ptree) :
    getOptional (put key value tree) key = some value := by
  induction tree with
  | nil => simp [getOptional, put]
  | cons child rest ih =>
      rcases child with ⟨childKey, data⟩
      by_cases hKey : key = childKey
      · simp [getOptional, put, hKey]
      · have hOther : (key == childKey) = false := by simpa using hKey
        simpa [getOptional, put, hOther, List.lookup_cons] using ih

theorem getOptional_put_of_ne {key other : String} (hne : other ≠ key) (value : String)
    (tree : Ptree) : getOptional (put key value tree) other = getOptional tree other := by
  have hOther : (other == key) = false := by simpa using hne
  induction tree with
  | nil => simp [getOptional, put, hOther, List.lookup_cons]
  | cons child rest ih =>
      rcases child with ⟨childKey, data⟩
      by_cases hKey : key = childKey
      · subst hKey
        simp [getOptional, put, hOther, List.lookup_cons]
      · have hStay : (key == childKey) = false := by simpa using hKey
        simp only [getOptional, put, hStay, Bool.false_eq_true, if_false, List.lookup_cons]
        split
        · rfl
        · exact ih

end Ptree

/-- A pool task that has popped a job. `own` is the job that the call which
posted the task had pushed; the task itself does not know it. -/
structure Task where
  own : Job
  job : Job
  deriving DecidableEq

/-- Where a call, or the pool task it has posted, stands. -/
inductive Phase where
  | returned
  | escaped (exception : Exception)
  | cancelling (rootHash : U256)
  | admitting (own : Job)
  | pushed (own : Job)
  | posted (own : Job)
  | scanning (task : Task) (next : Nat)
  | acquired (task : Task) (device : Nat)
  | active (task : Task) (device : Nat)
  | answered (task : Task) (device : Nat)
  | released (task : Task)
  | finished (task : Task)
  | starved (own : Job)
  | failed (task : Task)
  deriving DecidableEq

namespace Phase

/-- The task that a phase belongs to, once it has popped a job. -/
def task? : Phase → Option Task
  | .scanning task _ | .acquired task _ | .active task _ | .answered task _ => some task
  | .released task | .finished task | .failed task => some task
  | _ => none

/-- The job that the call has pushed. -/
def own? : Phase → Option Job
  | .pushed own | .posted own | .starved own => some own
  | .scanning task _ | .acquired task _ | .active task _ | .answered task _ => some task.own
  | .released task | .finished task | .failed task => some task.own
  | _ => none

/-- The task occupies a thread of the pool. -/
def isRunning : Phase → Bool
  | .scanning _ _ | .acquired _ _ | .active _ _ | .answered _ _ | .released _ => true
  | _ => false

/-- The job was pushed, and the task has not taken its turn at the queue. -/
def waiting? : Phase → Option Job
  | .pushed own | .posted own => some own
  | _ => none

/-- The job was popped and is not yet in the active set. -/
def held? : Phase → Option Job
  | .scanning task _ | .acquired task _ => some task.job
  | _ => none

/-- The job was inserted into the active set and is not yet erased. -/
def active? : Phase → Option Job
  | .active task _ | .answered task _ | .released task => some task.job
  | _ => none

/-- The device that the task holds. -/
def device? : Phase → Option Nat
  | .acquired _ device | .active _ device | .answered _ device => some device
  | _ => none

end Phase

/-- One call of `handle_request_async`, with the responses that it and its task
have passed to the response handler so far. -/
structure Call where
  body : String
  correlationId : Option String
  phase : Phase
  responses : List Ptree

end NanoPowServer.WorkHandler
