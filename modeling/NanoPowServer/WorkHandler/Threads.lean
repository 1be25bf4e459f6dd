import NanoPowServer.Library.Locking
import NanoPowServer.WorkHandler.QueueReport
import NanoPowServer.WorkHandler.Steps

/-! The work handler with its mutexes: every acquisition and every release is a
step, and so is what the operations do in between. The sections of a call and of
its task are those of the system of calls, and the queue report is taken apart. -/
namespace NanoPowServer.WorkHandler

open PriorityQueue Execution Locking

inductive Mutex where
  | jobs
  | active
  | completed
  deriving DecidableEq

namespace Mutex

/-- The order in which the source takes them. -/
def rank : Mutex → Nat
  | .jobs => 0
  | .active => 1
  | .completed => 2

instance : Preorder Mutex := Preorder.lift rank

theorem rank_le (m : Mutex) : m.rank ≤ 2 := by
  cases m <;> decide

instance : WellFoundedGT Mutex where
  wf := by
    refine Subrelation.wf ?_ (measure fun m : Mutex => 2 - m.rank).wf
    intro m n hGreater
    have hLt : n.rank < m.rank := hGreater
    have hBound := m.rank_le
    show 2 - m.rank < 2 - n.rank
    omega

instance (m n : Mutex) : Decidable (m < n) := inferInstanceAs (Decidable (m.rank < n.rank))

end Mutex

/-- Who executes an operation: the IO thread of a call of `handle_request_async`
and then the pool thread of its task, or a thread that executes one of the other
operations. -/
inductive Thread where
  | call (i : Nat)
  | control (n : Nat)
  | report (n : Nat)
  | direct (n : Nat)
  deriving DecidableEq

/-- The local variables of `handle_queue_request`. `snapshot` records the state in
which the queue was copied. -/
structure Report (Queue : Type) where
  snapshot : Option (System Queue) := none
  jobsL : Option Queue := none
  queued : List JobReport := []
  active : List JobReport := []
  completed : List JobReport := []
  response : Option QueueReport := none

/-- `own` lists the jobs that threads other than those of calls have constructed
and not yet pushed, the newest first. -/
structure Shared (Queue : Type) where
  system : System Queue
  reports : Nat → Report Queue
  own : List (Nat × Job)

/-- What a thread does between taking and releasing mutexes. A step of a call
names the phase that its program was started in. The last three are what catch
blocks do. -/
inductive Effect where
  | arrive (body : String)
  | proceed (phase : Phase) (now : Nat)
  | clear
  | refuse
  | copyJobs
  | listQueued
  | listActive
  | listCompleted
  | respond
  | construct (job : Job)
  | pushOwn
  | pushJob (job : Job)
  | removeJob (rootHash : U256)
  | popJob
  | reject
  | raise (what : String)
  | escape

/-- What a thread is asked to do. A job that is pushed may have been pushed before,
or it is constructed to be pushed, and then its id is the next one. -/
inductive Operation where
  | request (body : String)
  | proceed (now : Nat)
  | clear
  | report
  | pushNewJob (job : Job)
  | pushJob (job : Job)
  | removeJob (rootHash : U256)
  | popJob

abbrev Program := List (Instr Mutex Effect)

/-- The mutexes that the next section of a call takes, in this order, or none if
the call and its task are over. -/
def Phase.mutexes? : Phase → Option (List Mutex)
  | .cancelling _ | .admitting _ | .posted _ => some [.jobs]
  | .acquired _ _ => some [.active]
  | .released _ => some [.active, .completed]
  | .pushed _ | .scanning _ _ | .active _ _ | .answered _ _ => some []
  | .returned | .escaped _ | .finished _ | .starved _ | .failed _ => none

/-- The mutexes that guard an effect. -/
def guards : Effect → List Mutex
  | .proceed phase _ => phase.mutexes?.getD []
  | .clear | .pushOwn | .pushJob _ | .removeJob _ | .popJob => [.jobs]
  | .copyJobs => [.jobs, .active, .completed]
  | .listActive => [.active]
  | .listCompleted => [.completed]
  | _ => []

/-- One effect in the scope of locks. -/
def underLocks (mutexes : List Mutex) (effect : Effect) : Program :=
  mutexes.map .lock ++ .act effect :: mutexes.reverse.map .unlock

/-- `handle_queue_request`, with the early unlock of `jobs_mutex`. -/
def reportProgram : Program :=
  [.lock .jobs, .lock .active, .lock .completed, .act .copyJobs, .unlock .jobs,
    .act .listQueued, .act .listActive, .act .listCompleted, .act .respond,
    .unlock .completed, .unlock .active]

theorem disciplined_underLocks (phase : Phase) (now : Nat) :
    Disciplined guards [] (underLocks (phase.mutexes?.getD []) (.proceed phase now)) := by
  cases phase <;> simp [underLocks, Disciplined, guards, Phase.mutexes?]
  decide

theorem disciplined_jobs {effect : Effect} (h : guards effect = [.jobs]) :
    Disciplined guards [] (underLocks [.jobs] effect) := by
  simp [underLocks, Disciplined, h]

theorem disciplined_reportProgram : Disciplined guards [] reportProgram := by
  simp [reportProgram, Disciplined, guards]
  decide

variable {Queue : Type} [PriorityQueue Queue Job Job.comparator]

namespace Shared

def initial (env : Environment) : Shared Queue := ⟨System.initial env, fun _ => {}, []⟩

/-- A step of the system of calls. -/
def onSystem (env : Environment) (shared : Shared Queue) (action : Action) :
    Option (Shared Queue) :=
  (shared.system.step env action).map fun system => { shared with system }

/-- An assignment to the local variables of a report. -/
def onReport (shared : Shared Queue) (n : Nat) (next : Report Queue) : Shared Queue :=
  { shared with reports := Function.update shared.reports n next }

omit [PriorityQueue Queue Job Job.comparator] in
@[simp] theorem onReport_system (shared : Shared Queue) (n : Nat) (next : Report Queue) :
    (shared.onReport n next).system = shared.system := rfl

omit [PriorityQueue Queue Job Job.comparator] in
@[simp] theorem onReport_self (shared : Shared Queue) (n : Nat) (next : Report Queue) :
    (shared.onReport n next).reports n = next :=
  Function.update_self _ _ _

def onJobs (shared : Shared Queue) (jobs : Queue) : Shared Queue :=
  { shared with system :=
      { shared.system with members := { shared.system.members with jobs } } }

/-- A thread constructs a job. -/
def construct (shared : Shared Queue) (n : Nat) (job : Job) : Shared Queue :=
  let c := shared.system
  { shared with
    system := { c with
      jobIdDispenser := c.jobIdDispenser + 1
      trace := .constructed c.jobIdDispenser :: c.trace }
    own := (n, { job with jobId := c.jobIdDispenser }) :: shared.own }

/-- It pushes the job that it has constructed. -/
def pushOwn (shared : Shared Queue) (n : Nat) (job : Job) : Shared Queue :=
  { shared.onJobs (pushJob shared.system.members.jobs job) with
    own := shared.own.erase (n, job) }

end Shared

/-- The phase in which a call stands. -/
def System.phase? (c : System Queue) (i : Nat) : Option Phase := (c.calls[i]?).map (·.phase)

/-- The request finds the queue full. -/
def rejects (env : Environment) (c : System Queue) : Phase → Bool
  | .admitting _ => env.config.server.requestLimit.toNat ≤ size c.members.jobs
  | _ => false

abbrev Server (Queue : Type) : Type := State Thread Mutex Effect (Shared Queue)

/-- The tasks that have got a thread of the pool and not yet taken their turn at the
queue. -/
def Server.starting (s : Server Queue) : Nat :=
  (List.range s.shared.system.calls.length).countP fun i =>
    (s.shared.system.phase? i).any (fun phase => phase.waiting?.isSome) &&
      !(s.threads (.call i)).isEmpty

/-- A task that has been posted starts when a thread of the pool is free. -/
def Server.canStart (env : Environment) (s : Server Queue) : Phase → Bool
  | .posted _ => s.shared.system.running + s.starting < env.config.devices.length
  | _ => true

/-- What a thread runs for an operation. -/
def program (env : Environment) (s : Server Queue) : Thread → Operation → Option Program
  | .call i, .request body =>
      if i = s.shared.system.calls.length then some [.act (.arrive body)] else none
  | .call i, .proceed now =>
      (s.shared.system.phase? i).bind fun phase =>
        if s.canStart env phase then
          phase.mutexes?.map fun mutexes => underLocks mutexes (.proceed phase now)
        else none
  | .control _, .clear =>
      if env.config.server.allowControl then some (underLocks [.jobs] .clear)
      else some [.act .refuse]
  | .report n, .report =>
      if (s.shared.reports n).snapshot.isNone then some reportProgram else none
  | .direct _, .pushNewJob job => some (.act (.construct job) :: underLocks [.jobs] .pushOwn)
  | .direct _, .pushJob job => some (underLocks [.jobs] (.pushJob job))
  | .direct _, .removeJob rootHash => some (underLocks [.jobs] (.removeJob rootHash))
  | .direct _, .popJob => some (underLocks [.jobs] .popJob)
  | _, _ => none

/-- The steps of a report between its locks. -/
def performReport (env : Environment) (shared : Shared Queue) (n : Nat) :
    Effect → Option (Shared Queue)
  | .copyJobs =>
      some (shared.onReport n { shared.reports n with
        snapshot := some shared.system, jobsL := some shared.system.members.jobs })
  | .listQueued =>
      (shared.reports n).jobsL.map fun jobsL =>
        shared.onReport n { shared.reports n with queued := (queuedLoop env (size jobsL) jobsL []).2 }
  | .listActive =>
      some (shared.onReport n { shared.reports n with
        active := shared.system.members.activeJobs.map fun current =>
          populateJson env (taskJob env shared.system.calls current) })
  | .listCompleted =>
      some (shared.onReport n { shared.reports n with
        completed := shared.system.members.completedJobs.map (populateJson env) })
  | .respond =>
      let report := shared.reports n
      some (shared.onReport n { report with
        response := some ⟨report.queued, report.active, report.completed⟩ })
  | _ => none

def perform (env : Environment) : Thread → Effect → Shared Queue → Option (Shared Queue)
  | .call i, .arrive body, shared =>
      if i = shared.system.calls.length then shared.onSystem env (.request body) else none
  | .call i, .proceed phase now, shared =>
      if shared.system.phase? i = some phase ∧ rejects env shared.system phase = false then
        shared.onSystem env (.proceed i now)
      else none
  | .control _, .clear, shared => shared.onSystem env .clear
  | .control _, .refuse, shared => some shared
  | .report n, effect, shared => performReport env shared n effect
  | .direct n, .construct job, shared => some (shared.construct n job)
  | .direct n, .pushOwn, shared => (shared.own.lookup n).map (shared.pushOwn n)
  | .direct _, .pushJob job, shared => some (shared.onJobs (pushJob shared.system.members.jobs job))
  | .direct _, .removeJob rootHash, shared =>
      some (shared.onJobs (removeJob shared.system.members.jobs rootHash).1)
  | .direct _, .popJob, shared => some (shared.onJobs (popJob shared.system.members.jobs).1)
  | _, _, _ => none

/-- A request that finds the queue full throws while it holds the lock, and the
catch block answers; a task answers in its own catch block; what other threads
throw leaves the operation. -/
def catches (env : Environment) : Thread → Effect → Effect → Shared Queue → Option (Shared Queue)
  | .call i, .proceed phase now, .reject, shared =>
      if shared.system.phase? i = some phase ∧ rejects env shared.system phase = true then
        shared.onSystem env (.proceed i now)
      else none
  | .call i, .proceed _ _, .raise what, shared => shared.onSystem env (.raise i what)
  | .call _, _, _, _ => none
  | _, _, .escape, shared => some shared
  | _, _, _, _ => none

def operations (env : Environment) :
    Operations Thread Mutex Effect (Shared Queue) Operation :=
  ⟨program env, perform env, catches env⟩

def Server.initial (env : Environment) : Server Queue := State.initial (Shared.initial env)

abbrev Server.step (env : Environment) (s : Server Queue) :
    Locking.Action Thread Effect Operation → Option (Server Queue) :=
  State.step (operations env) s

omit [PriorityQueue Queue Job Job.comparator] in
/-- Whatever a thread is asked to do, it takes the mutexes in one order, holds those
that guard what it does, and gives all of them back. -/
theorem disciplined_program {env : Environment} {s : Server Queue} {k : Thread}
    {operation : Operation} {instrs : Program} (h : program env s k operation = some instrs) :
    Disciplined guards [] instrs := by
  unfold program at h
  split at h
  case h_1 i body =>
      obtain ⟨-, hProgram⟩ := Option.ite_none_right_eq_some.mp h
      cases hProgram
      exact ⟨fun _ hMem => hMem, rfl⟩
  case h_2 i now =>
      obtain ⟨phase, -, hPhase⟩ := Option.bind_eq_some_iff.mp h
      obtain ⟨-, hProgram⟩ := Option.ite_none_right_eq_some.mp hPhase
      obtain ⟨mutexes, hMutexes, rfl⟩ := Option.map_eq_some_iff.mp hProgram
      have hDisciplined := disciplined_underLocks phase now
      rw [hMutexes] at hDisciplined
      exact hDisciplined
  case h_3 n =>
      split at h <;> cases h
      · exact disciplined_jobs rfl
      · exact ⟨fun _ hMem => hMem, rfl⟩
  case h_4 n =>
      obtain ⟨-, hProgram⟩ := Option.ite_none_right_eq_some.mp h
      cases hProgram
      exact disciplined_reportProgram
  case h_5 n job =>
      cases h
      exact ⟨fun _ hMem => absurd hMem List.not_mem_nil, disciplined_jobs rfl⟩
  case h_9 => cases h
  all_goals
    cases h
    exact disciplined_jobs rfl

section

variable {env : Environment} {s : Server Queue}

theorem ordered {guard : Server Queue → Locking.Action Thread Effect Operation → Prop}
    (run : Reaches (Server.step env) guard (Server.initial env) s) : Ordered guards s :=
  Ordered.of_reaches (fun _ _ _ _ => disciplined_program) run

/-- The three mutexes cannot deadlock. However the steps of any number of threads
interleave, no set of threads is stuck waiting for each other, no thread requests
a mutex that it holds, and a thread holds none when its operation is over, whether
it ran to its end or was left by an exception. -/
theorem no_deadlock (env : Environment) {s : Server Queue}
    (run : Reaches (Server.step env) anyAction (Server.initial env) s) :
    (∀ waiting, ¬ Deadlocked s waiting) ∧
    (∀ k mutex, Requests s k mutex → s.owner mutex ≠ some k) ∧
    (∀ k, s.threads k = [] → ∀ mutex, s.owner mutex ≠ some k) :=
  ⟨(ordered run).not_deadlocked, fun _ _ => (ordered run).not_held_of_requests,
    fun _ => (ordered run).owner_of_idle⟩

end

/-- The state of the sample server after the listed steps of its threads. -/
def sampleServer (actions : List (Locking.Action Thread Effect Operation)) :
    Option (Server JobQueue) :=
  runActions (Server.step sampleEnvironment) (Server.initial sampleEnvironment) actions

/-- A report holds all three mutexes while a call waits for the first of them. -/
theorem no_deadlock_two :
    let actions : List (Locking.Action Thread Effect Operation) :=
      [.start (.call 0) (.request generateOne), .run (.call 0), .start (.report 0) .report,
        .run (.report 0), .run (.report 0), .run (.report 0), .start (.call 0) (.proceed 0)]
    ∃ h : (sampleServer actions).isSome = true,
      ((sampleServer actions).get h).owner .jobs = some (.report 0) ∧
      Requests ((sampleServer actions).get h) (.call 0) .jobs ∧
      ∀ waiting, ¬ Deadlocked ((sampleServer actions).get h) waiting := by
  refine ⟨by decide, by decide, ⟨_, rfl⟩, ?_⟩
  exact (no_deadlock sampleEnvironment
    (reaches_get (by decide) (allAllowed_anyAction _ _))).1

end NanoPowServer.WorkHandler
