import NanoPowServer.Config
import NanoPowServer.WorkHandler.Call

/-! How `handle_request_async` reads a request, up to its first critical
section. Nothing here touches the queue: the only shared state is the counter
from which a `work_generate` request takes its job id. -/
namespace NanoPowServer.WorkHandler

/-- The configuration and the parts of Boost and of the standard library that
the requests go through: the JSON reader, whose errors derive from
`std::runtime_error`, and the conversions between text and doubles. The last
field is what is read through a reference to the job of a task when this job is
destroyed: nothing is known of it, and it may change with every step. -/
structure Environment where
  config : Config
  readJson : String → Except String Ptree
  readDouble : String → Option ℚ
  writeDouble : ℚ → String
  destroyedJob : List Call → Nat → Job

/-- Stream extraction into an `unsigned`, with the rest of the text white
space. A minus sign negates modulo 2^32. -/
def readUnsigned (text : String) : Option UInt32 :=
  let rest := text.toList.dropWhile Bigint.isSpace
  let (negative, unsigned) :=
    match rest with
    | '-' :: tail => (true, tail)
    | '+' :: tail => (false, tail)
    | _ => (false, rest)
  let digits := unsigned.takeWhile Char.isDigit
  let trailing := (unsigned.dropWhile Char.isDigit).dropWhile Bigint.isSpace
  let value := digits.foldl (fun value c => value * 10 + (c.toNat - '0'.toNat)) 0
  if digits ≠ [] ∧ trailing = [] ∧ value < 2 ^ 32 then
    some (if negative then -(UInt32.ofNat value) else UInt32.ofNat value)
  else none

def attachCorrelationId (id : Option String) (response : Ptree) : Ptree :=
  match id with
  | some text => response.put "id" text
  | none => response

def createErrorResponse (id : Option String) (error : String) : Ptree :=
  attachCorrelationId id (Ptree.put "error" error [])

theorem getOptional_attachCorrelationId_id {response : Ptree}
    (hNone : response.getOptional "id" = none) (id : Option String) :
    (attachCorrelationId id response).getOptional "id" = id := by
  cases id with
  | none => exact hNone
  | some text => simp [attachCorrelationId]

theorem getOptional_attachCorrelationId {key : String} (hne : key ≠ "id") (id : Option String)
    (response : Ptree) :
    (attachCorrelationId id response).getOptional key = response.getOptional key := by
  cases id with
  | none => rfl
  | some text => exact Ptree.getOptional_put_of_ne hne text response

@[simp] theorem createErrorResponse_id (id : Option String) (error : String) :
    (createErrorResponse id error).getOptional "id" = id :=
  getOptional_attachCorrelationId_id (by rfl) id

@[simp] theorem createErrorResponse_work (id : Option String) (error : String) :
    (createErrorResponse id error).getOptional "work" = none := by
  unfold createErrorResponse
  rw [getOptional_attachCorrelationId (by decide)]
  rfl

/-- A field without which the request fails. -/
def required (request : Ptree) (key missing : String) : Except Exception String :=
  match request.getOptional key with
  | some text => .ok text
  | none => .error (.runtimeError missing)

/-- The base difficulty, unless a difficulty is given, unless a positive
multiplier is. -/
def requestedDifficulty (env : Environment) (request : Ptree) : Except Exception U128 := do
  let base := env.config.work.baseDifficulty
  let difficulty ←
    match request.getOptional "difficulty" with
    | some text => Bigint.readHex base text
    | none => .ok base
  let multiplier := ((request.getOptional "multiplier").bind env.readDouble).getD 0
  .ok (if multiplier > 0 then fromMultiplier multiplier base else difficulty)

/-- `work_generate`: the job that is going to be queued. -/
def workGenerate (env : Environment) (jobId : UInt32) (request : Ptree) :
    Except Exception Job := do
  let text ← required request "hash" "work_generate failed: missing hash value"
  let rootHash ← Bigint.ofHex text
  let difficulty ← requestedDifficulty env request
  let pri := ((request.getOptional "priority").bind readUnsigned).getD 0
  let priority := if env.config.server.allowPrioritization then pri else 0
  .ok { jobId, priority, request := { rootHash, difficulty } }

/-- `work_validate`: the fields are read, the work itself is not checked yet. -/
def workValidate (env : Environment) (request : Ptree) : Except Exception Ptree := do
  let hashText ← required request "hash" "work_generate failed: missing hash value"
  let _hash : U256 ← Bigint.ofHex hashText
  let workText ← required request "work" "work_generate failed: missing work value"
  let _work : U128 ← Bigint.ofHex workText
  let _difficulty ← requestedDifficulty env request
  let passes := true
  .ok ((Ptree.put "valid" (if passes then "1" else "0") []).put "difficulty" "0x2000000000000000"
    |>.put "multiplier" "1.0")

theorem workGenerate_jobId {env : Environment} {jobId : UInt32} {request : Ptree} {job : Job}
    (h : workGenerate env jobId request = .ok job) : job.jobId = jobId := by
  obtain ⟨text, -, h⟩ := bind_eq_ok.mp h
  obtain ⟨rootHash, -, h⟩ := bind_eq_ok.mp h
  obtain ⟨difficulty, -, h⟩ := bind_eq_ok.mp h
  cases h
  rfl

theorem workValidate_fields {env : Environment} {request response : Ptree}
    (h : workValidate env request = .ok response) :
    response.getOptional "id" = none ∧ response.getOptional "work" = none := by
  obtain ⟨hashText, -, h⟩ := bind_eq_ok.mp h
  obtain ⟨hash, -, h⟩ := bind_eq_ok.mp h
  obtain ⟨workText, -, h⟩ := bind_eq_ok.mp h
  obtain ⟨work, -, h⟩ := bind_eq_ok.mp h
  obtain ⟨difficulty, -, h⟩ := bind_eq_ok.mp h
  cases h
  exact ⟨rfl, rfl⟩

/-- `work_cancel`: the root hash to remove. -/
def workCancel (request : Ptree) : Except Exception U256 := do
  let text ← required request "hash" "work_cancel failed: missing hash value"
  Bigint.ofHex text

/-- Where a request goes on once its fields are read. -/
inductive Dispatched where
  | admitting (job : Job)
  | answering (response : Ptree)
  | cancelling (rootHash : U256)

/-- The three actions. `job_l` is constructed, and takes its id, only after the
test for a device. -/
def dispatch (env : Environment) (jobId : UInt32) (request : Ptree) :
    Except Exception Dispatched :=
  match request.getOptional "action" with
  | some action =>
      if action = "work_generate" then
        if env.config.devices = [] then
          .error (.runtimeError "No work device has been configured")
        else (workGenerate env jobId request).map .admitting
      else if action = "work_validate" then (workValidate env request).map .answering
      else if action = "work_cancel" then (workCancel request).map .cancelling
      else .error (.runtimeError "Invalid action field")
  | none => .error (.runtimeError "Invalid action field")

/-- The request takes a job id from the dispenser. -/
def constructsJob (env : Environment) (body : String) : Bool :=
  match env.readJson body with
  | .ok request =>
      request.getOptional "action" = some "work_generate" && !decide (env.config.devices = [])
  | .error _ => false

theorem dispatch_admitting {env : Environment} {jobId : UInt32} {request : Ptree} {job : Job}
    (h : dispatch env jobId request = .ok (.admitting job)) :
    request.getOptional "action" = some "work_generate" ∧ env.config.devices ≠ [] ∧
      workGenerate env jobId request = .ok job := by
  unfold dispatch at h
  cases hAction : request.getOptional "action" with
  | none => simp [hAction] at h
  | some action =>
      simp only [hAction] at h
      split_ifs at h with hGenerate hDevices hValidate hCancel
      · cases hJob : workGenerate env jobId request with
        | error exception => simp [hJob, Except.map] at h
        | ok made =>
            simp only [hJob, Except.map, Except.ok.injEq, Dispatched.admitting.injEq] at h
            exact ⟨by rw [hGenerate], hDevices, by rw [h]⟩
      · cases hValid : workValidate env request <;> simp [hValid, Except.map] at h
      · cases hHash : workCancel request <;> simp [hHash, Except.map] at h

theorem dispatch_answering {env : Environment} {jobId : UInt32} {request response : Ptree}
    (h : dispatch env jobId request = .ok (.answering response)) :
    workValidate env request = .ok response := by
  unfold dispatch at h
  cases hAction : request.getOptional "action" with
  | none => simp [hAction] at h
  | some action =>
      simp only [hAction] at h
      split_ifs at h with hGenerate hDevices hValidate hCancel
      · cases hJob : workGenerate env jobId request <;> simp [hJob, Except.map] at h
      · cases hValid : workValidate env request with
        | error exception => simp [hValid, Except.map] at h
        | ok made =>
            simp only [hValid, Except.map, Except.ok.injEq, Dispatched.answering.injEq] at h
            rw [h]
      · cases hHash : workCancel request <;> simp [hHash, Except.map] at h

/-- The request's own id: present exactly if the body parses and has one. -/
def correlationIdOf (env : Environment) (body : String) : Option String :=
  match env.readJson body with
  | .ok request => request.getOptional "id"
  | .error _ => none

end NanoPowServer.WorkHandler
