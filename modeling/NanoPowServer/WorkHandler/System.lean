import NanoPowServer.Library.Containers
import NanoPowServer.Library.Execution
import NanoPowServer.WorkHandler.Queue
import NanoPowServer.WorkHandler.Request

/-! The work handler as a system of calls. A call of `handle_request_async` runs
on some IO thread and may post a task to the pool, so each step below is one
critical section, one atomic operation or one call of the response handler, and
the steps of different calls interleave arbitrarily. The devices are scanned
with one atomic exchange a step. -/
namespace NanoPowServer.WorkHandler

open PriorityQueue

structure RegisteredDevice where
  deviceConfig : Config.Device
  busy : Bool := false
  deriving DecidableEq

/-- Sets the busy flag and returns the previous busy state. -/
def RegisteredDevice.tryAquire (device : RegisteredDevice) : Bool × RegisteredDevice :=
  (device.busy, { device with busy := true })

/-- Clears the busy flag and returns the previous busy state. -/
def RegisteredDevice.release (device : RegisteredDevice) : Bool × RegisteredDevice :=
  (device.busy, { device with busy := false })

/-- The state that the calls share, each container under a mutex of its own.
The active set refers to the jobs held by tasks, so it is a list of calls. -/
structure Members (Queue : Type) where
  jobs : Queue
  activeJobs : List Nat
  completedJobs : List Job
  devices : List RegisteredDevice

/-- What happened to jobs, as far as the state alone does not tell. -/
inductive Event where
  | constructed (jobId : UInt32)
  | accepted (call : Nat) (job : Job)
  | popped (call : Nat) (job : Job)
  | removed (job : Job)
  | cancelled (rootHash : U256)
  | cleared
  | finished (job : Job)

/-- The calls are listed in the order in which they were made, the events with
the newest first. -/
structure System (Queue : Type) where
  jobIdDispenser : UInt32
  members : Members Queue
  calls : List Call
  trace : List Event

/-- The choices of the environment: which request arrives, which call takes its
next step and what it reads from the clock, and at which point of the try block
of a task a `std::runtime_error` is raised. -/
inductive Action where
  | request (body : String)
  | clear
  | proceed (call : Nat) (now : Nat)
  | raise (call : Nat) (what : String)

variable {Queue : Type} [PriorityQueue Queue Job Job.comparator]

namespace Call

def goto (call : Call) (phase : Phase) : Call := { call with phase }

/-- Call the response handler. -/
def answer (call : Call) (phase : Phase) (response : Ptree) : Call :=
  { call with phase, responses := call.responses ++ [response] }

/-- The error reply of a catch block. -/
def fail (call : Call) (phase : Phase) (what : String) : Call :=
  call.answer phase (createErrorResponse call.correlationId what)

/-- Read a request. The catch block takes `std::runtime_error` and nothing else. -/
def handleRequestAsync (env : Environment) (jobId : UInt32) (body : String) : Call :=
  let call : Call := ⟨body, correlationIdOf env body, .returned, []⟩
  match env.readJson body with
  | .error what => call.fail .returned what
  | .ok request =>
      match dispatch env jobId request with
      | .ok (.admitting job) => call.goto (.admitting job)
      | .ok (.cancelling rootHash) => call.goto (.cancelling rootHash)
      | .ok (.answering response) =>
          call.answer .returned (attachCorrelationId call.correlationId response)
      | .error (.runtimeError what) => call.fail .returned what
      | .error exception => call.goto (.escaped exception)

end Call

/-- A number written as a literal in the source. -/
def literal (text : String) : U128 := (Bigint.fromHex (Bigint.set 0) text).1

/-- The result every job gets until work is generated on a device. The second
multiplier is the double nearest to 1.3847. -/
def mockResult (env : Environment) : Job.Result :=
  if env.config.work.mockWorkGenerationDelay = 0 then
    { work := literal "2feaeaa000000000", difficulty := literal "2000000000000000", multiplier := 1 }
  else
    { work := literal "2feaeaa000000000", difficulty := literal "0x2ffee0000000000"
      multiplier := 3118067202009963 / 2251799813685248 }

def workResponse (env : Environment) (id : Option String) (result : Job.Result) : Ptree :=
  let response : Ptree :=
    if env.config.work.mockWorkGenerationDelay = 0 then []
    else Ptree.put "testing" "true" []
  attachCorrelationId id
    (((response.put "work" result.work.toHex).put "difficulty" result.difficulty.toHex).put
      "multiplier" (env.writeDouble result.multiplier))

/-- The job that an element of the active set refers to. It is a local variable of
the task, so it is gone when the task has ended. -/
def taskJob (env : Environment) (calls : List Call) (i : Nat) : Job :=
  ((calls[i]?).bind (·.phase.active?)).getD (env.destroyedJob calls i)

/-- The comparator of the active set. -/
def activeBefore (env : Environment) (calls : List Call) (i j : Nat) : Bool :=
  Job.comparator (taskJob env calls i) (taskJob env calls j)

/-- What the queue loses when it becomes `kept`, as events. -/
def removedEvents (dropped : List Job) : List Event := dropped.map .removed

namespace System

def initial (env : Environment) : System Queue where
  jobIdDispenser := 1
  members := ⟨empty, [], [], env.config.devices.map fun device => { deviceConfig := device }⟩
  calls := []
  trace := []

/-- The number of tasks that occupy a thread of the pool. -/
def running (c : System Queue) : Nat := c.calls.countP (·.phase.isRunning)

/-- A new call, which takes a job id if it gets as far as constructing a job. -/
def arrive (env : Environment) (c : System Queue) (body : String) : System Queue :=
  let call := Call.handleRequestAsync env c.jobIdDispenser body
  if constructsJob env body then
    { c with
      jobIdDispenser := c.jobIdDispenser + 1
      calls := c.calls ++ [call]
      trace := .constructed c.jobIdDispenser :: c.trace }
  else { c with calls := c.calls ++ [call] }

/-- `handle_queue_delete_request`: the new queue and the response. -/
def handleQueueDeleteRequest (env : Environment) (jobs : Queue) : Queue × Ptree :=
  if env.config.server.allowControl then (empty, Ptree.put "success" "true" [])
  else
    (jobs, Ptree.put "error"
      "Control requests are not allowed. This must be enabled in the server configuration." [])

def clear (env : Environment) (c : System Queue) : System Queue :=
  let members := { c.members with jobs := (handleQueueDeleteRequest env c.members.jobs).1 }
  if env.config.server.allowControl then
    { c with members, trace := .cleared :: (removedEvents (drain c.members.jobs) ++ c.trace) }
  else { c with members }

/-- The state after a step of call `i`. -/
def commit (c : System Queue) (i : Nat) (members : Members Queue) (call : Call)
    (events : List Event) : System Queue :=
  { c with members, calls := c.calls.set i call, trace := events ++ c.trace }

end System

namespace Call

/-- The next step of a call: what it makes of the shared state and of itself,
and the events it adds. -/
def proceed (env : Environment) (c : System Queue) (i : Nat) (now : Nat) (call : Call) :
    Option (Members Queue × Call × List Event) :=
  let m := c.members
  match call.phase with
  | .cancelling rootHash =>
      let (jobs, removed) := removeJob m.jobs rootHash
      if removed then
        some ({ m with jobs },
          call.answer .returned
            (attachCorrelationId call.correlationId (Ptree.put "status" "cancelled" [])),
          .cancelled rootHash :: removedEvents ((drain m.jobs).filter (hasHash rootHash)))
      else some ({ m with jobs }, call.fail .returned "Hash not found in work queue", [])
  | .admitting own =>
      if size m.jobs < env.config.server.requestLimit.toNat then
        some ({ m with jobs := pushJob m.jobs own }, call.goto (.pushed own), [.accepted i own])
      else some (m, call.fail .returned "Work request limit exceeded", [])
  | .pushed own => some (m, call.goto (.posted own), [])
  | .posted own =>
      if c.running < env.config.devices.length then
        match popJob m.jobs with
        | (jobs, some job) =>
            some ({ m with jobs }, call.goto (.scanning ⟨own, job⟩ 0), [.popped i job])
        | (_, none) => some (m, call.fail (.starved own) "No jobs available", [])
      else none
  | .scanning task next =>
      match m.devices[next]? with
      | some device =>
          let (wasBusy, device) := device.tryAquire
          let m := { m with devices := m.devices.set next device }
          if wasBusy then some (m, call.goto (.scanning task (next + 1)), [])
          else some (m, call.goto (.acquired task next), [])
      | none => some (m, call.fail (.failed task) "No available devices", [])
  | .acquired task device =>
      let task := { task with job := task.job.start now }
      let calls := c.calls.set i (call.goto (.active task device))
      some ({ m with activeJobs := OrderedSet.insert (activeBefore env calls) i m.activeJobs },
        call.goto (.active task device), [])
  | .active task device =>
      let result := mockResult env
      some (m, call.answer (.answered { task with job := { task.job with result } } device)
        (workResponse env call.correlationId result), [])
  | .answered task device =>
      match m.devices[device]? with
      | some held =>
          some ({ m with devices := m.devices.set device held.release.2 },
            call.goto (.released task), [])
      | none => none
  | .released task =>
      let job := task.job.stop now
      some ({ m with
          activeJobs := OrderedSet.erase (activeBefore env c.calls) i m.activeJobs
          completedJobs := CircularBuffer.pushBack 128 m.completedJobs job },
        call.goto (.finished { task with job }), [.finished job])
  | _ => none

/-- A `std::runtime_error` leaves the rest of the try block undone. -/
def raise (what : String) (call : Call) : Option Call :=
  match call.phase with
  | .acquired task _ | .active task _ | .answered task _ | .released task =>
      some (call.fail (.failed task) what)
  | _ => none

end Call

def System.step (env : Environment) (c : System Queue) (action : Action) :
    Option (System Queue) :=
  match action with
  | .request body => some (c.arrive env body)
  | .clear => some (c.clear env)
  | .proceed i now =>
      (c.calls[i]?).bind fun call =>
        (call.proceed env c i now).map fun (members, next, events) =>
          c.commit i members next events
  | .raise i what =>
      (c.calls[i]?).bind fun call =>
        (call.raise what).map fun next => c.commit i c.members next []

abbrev JobQueue : Type := SortedQueue Job.comparator

def generateOne : String := "\x7b\"action\": \"work_generate\", \"hash\": \"1\"\x7d"

def generateTwo : String :=
  "\x7b\"action\": \"work_generate\", \"hash\": \"2\", \"priority\": \"1\", \"id\": \"7\"\x7d"

def generateNothing : String := "\x7b\"action\": \"work_generate\"\x7d"

def generateSign : String := "\x7b\"action\": \"work_generate\", \"hash\": \"-\"\x7d"

def cancelOne : String := "\x7b\"action\": \"work_cancel\", \"hash\": \"1\"\x7d"

/-- What the JSON reader makes of these bodies. -/
def sampleBodies : List (String × Ptree) :=
  [(generateOne, [("action", "work_generate"), ("hash", "1")]),
   (generateTwo, [("action", "work_generate"), ("hash", "2"), ("priority", "1"), ("id", "7")]),
   (generateNothing, [("action", "work_generate")]),
   (generateSign, [("action", "work_generate"), ("hash", "-")]),
   (cancelOne, [("action", "work_cancel"), ("hash", "1")])]

/-- A server with one device that honours priorities, for worked runs. -/
def sampleEnvironment : Environment where
  config := { server := { threads := 1, allowPrioritization := true }, devices := [{}] }
  readJson body :=
    match sampleBodies.lookup body with
    | some request => .ok request
    | none => .error "<unspecified file>(1): expected value"
  readDouble _ := none
  writeDouble _ := "1"
  destroyedJob _ _ := { jobId := 0 }

/-- The same server with two devices. -/
def pairEnvironment : Environment :=
  { sampleEnvironment with config := { sampleEnvironment.config with devices := [{}, {}] } }

/-- The state after the listed actions, if they are all enabled. -/
def sampleRun (actions : List Action) : Option (System JobQueue) :=
  Execution.runActions (System.step sampleEnvironment) (System.initial sampleEnvironment) actions

end NanoPowServer.WorkHandler
