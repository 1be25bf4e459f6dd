import NanoPowServer.WorkHandler.Steps

/-! How each request is disposed of. Both catch blocks take `std::runtime_error`
only, and the one exception of another kind is the `std::out_of_range` of a
hexadecimal field without a digit. -/
namespace NanoPowServer.WorkHandler

open PriorityQueue Execution

/-- The computation ends with an exception that no catch block takes. -/
def Escapes {α : Type} (result : Except Exception α) : Prop :=
  ∃ what, result = .error (.outOfRange what)

theorem escapes_bind {α β : Type} (first : Except Exception α) (rest : α → Except Exception β) :
    Escapes (first >>= rest) ↔
      Escapes first ∨ ∃ value, first = .ok value ∧ Escapes (rest value) := by
  cases first with
  | error exception => simp [Escapes, bind, Except.bind]
  | ok value => simp [Escapes, bind, Except.bind]

@[simp] theorem escapes_ok {α : Type} (value : α) : ¬ Escapes (.ok value) := by
  simp [Escapes]

@[simp] theorem escapes_map {α β : Type} (f : α → β) (result : Except Exception α) :
    Escapes (result.map f) ↔ Escapes result := by
  cases result <;> simp [Escapes, Except.map]

@[simp] theorem escapes_required (request : Ptree) (key missing : String) :
    ¬ Escapes (required request key missing) := by
  unfold required
  split <;> simp [Escapes]

@[simp] theorem escapes_readHex {size : Nat} (x : Bigint size) (text : String) :
    Escapes (Bigint.readHex x text) ↔ Bigint.SignsOnly size text :=
  Bigint.readHex_outOfRange_iff x text

theorem required_eq_ok_iff (request : Ptree) (key missing text : String) :
    required request key missing = .ok text ↔ request.getOptional key = some text := by
  unfold required
  split <;> simp_all

/-- The field is given, and it has signs where its digits should be. -/
def SignField (request : Ptree) (key : String) (size : Nat) : Prop :=
  ∃ text, request.getOptional key = some text ∧ Bigint.SignsOnly size text

/-- The field is given and is accepted. -/
def HexField (request : Ptree) (key : String) (size : Nat) : Prop :=
  ∃ text value, request.getOptional key = some text ∧
    (Bigint.ofHex text : Except Exception (Bigint size)) = .ok value

/-- Reading the request comes to a field without a digit: the fields before it
are accepted. -/
def SignsReached (env : Environment) (request : Ptree) : Prop :=
  (request.getOptional "action" = some "work_generate" ∧ env.config.devices ≠ [] ∧
    (SignField request "hash" 32 ∨ HexField request "hash" 32 ∧
      SignField request "difficulty" 16)) ∨
  (request.getOptional "action" = some "work_validate" ∧
    (SignField request "hash" 32 ∨ HexField request "hash" 32 ∧
      (SignField request "work" 16 ∨ HexField request "work" 16 ∧
        SignField request "difficulty" 16))) ∨
  (request.getOptional "action" = some "work_cancel" ∧ SignField request "hash" 32)

/-- The body is a request on which reading comes to a field without a digit. -/
def SignsReachedBy (env : Environment) (body : String) : Prop :=
  ∃ request, env.readJson body = .ok request ∧ SignsReached env request

theorem escapes_requestedDifficulty (env : Environment) (request : Ptree) :
    Escapes (requestedDifficulty env request) ↔ SignField request "difficulty" 16 := by
  unfold requestedDifficulty
  cases hText : request.getOptional "difficulty" with
  | none => simp [escapes_bind, SignField, hText]
  | some text => simp [escapes_bind, SignField, hText]

/-- A hexadecimal field that a request must have, read before the rest. -/
theorem escapes_hexField {α : Type} {size : Nat} (request : Ptree) (key missing : String)
    (rest : Bigint size → Except Exception α) (P : Prop)
    (hRest : ∀ value, Escapes (rest value) ↔ P) :
    Escapes (required request key missing >>= fun text => Bigint.ofHex text >>= rest) ↔
      SignField request key size ∨ HexField request key size ∧ P := by
  simp only [escapes_bind, escapes_required, false_or, required_eq_ok_iff, hRest, Bigint.ofHex,
    escapes_readHex, SignField, HexField]
  grind

theorem escapes_workGenerate (env : Environment) (jobId : UInt32) (request : Ptree) :
    Escapes (workGenerate env jobId request) ↔
      SignField request "hash" 32 ∨ HexField request "hash" 32 ∧
        SignField request "difficulty" 16 := by
  apply escapes_hexField
  intro rootHash
  rw [escapes_bind, escapes_requestedDifficulty]
  simp

theorem escapes_workValidate (env : Environment) (request : Ptree) :
    Escapes (workValidate env request) ↔
      SignField request "hash" 32 ∨ HexField request "hash" 32 ∧
        (SignField request "work" 16 ∨ HexField request "work" 16 ∧
          SignField request "difficulty" 16) := by
  apply escapes_hexField
  intro hash
  apply escapes_hexField
  intro work
  rw [escapes_bind, escapes_requestedDifficulty]
  simp

theorem escapes_workCancel (request : Ptree) :
    Escapes (workCancel request) ↔ SignField request "hash" 32 := by
  simp only [workCancel, escapes_bind, escapes_required, false_or, required_eq_ok_iff, Bigint.ofHex,
    escapes_readHex, SignField]

theorem escapes_dispatch (env : Environment) (jobId : UInt32) (request : Ptree) :
    Escapes (dispatch env jobId request) ↔ SignsReached env request := by
  unfold dispatch SignsReached
  cases hAction : request.getOptional "action" with
  | none => simp [Escapes]
  | some action =>
      dsimp only
      split_ifs with hGenerate hDevices hValidate hCancel
      · simp [hGenerate, hDevices, Escapes]
      · simp [hGenerate, hDevices, escapes_workGenerate]
      · simp [hValidate, escapes_workValidate]
      · simp [hCancel, escapes_workCancel]
      · simp [hGenerate, hValidate, hCancel, Escapes]

/-- An exception leaves `handle_request_async` exactly on such bodies. -/
theorem handleRequestAsync_escaped_iff (env : Environment) (jobId : UInt32) (body : String) :
    (∃ exception, (Call.handleRequestAsync env jobId body).phase = .escaped exception) ↔
      SignsReachedBy env body := by
  unfold Call.handleRequestAsync SignsReachedBy
  cases hJson : env.readJson body with
  | error what => simp
  | ok request =>
      have hEscapes := escapes_dispatch env jobId request
      cases hDispatch : dispatch env jobId request with
      | ok dispatched => cases dispatched <;> simp_all
      | error exception => cases exception <;> simp_all [Escapes]

@[simp] theorem workResponse_id (env : Environment) (id : Option String) (result : Job.Result) :
    (workResponse env id result).getOptional "id" = id := by
  apply getOptional_attachCorrelationId_id
  rw [Ptree.getOptional_put_of_ne (by decide), Ptree.getOptional_put_of_ne (by decide),
    Ptree.getOptional_put_of_ne (by decide)]
  split <;> rfl

/-- The call is over, and so is its task if it posted one. -/
def Phase.isDone : Phase → Bool
  | .returned | .escaped _ | .finished _ | .starved _ | .failed _ => true
  | _ => false

/-- The response handler has been called. -/
def Phase.isAnswered : Phase → Bool
  | .returned | .answered _ _ | .released _ | .finished _ | .starved _ | .failed _ => true
  | _ => false

/-- What a client is owed: no exception escapes, there is at most one response,
there is one when the call and its task are over, and a response carries the id
of the request exactly if it has one. -/
structure Disposed (env : Environment) (call : Call) : Prop where
  returns : ∀ exception, call.phase ≠ .escaped exception
  atMostOnce : call.responses.length ≤ 1
  answered : call.phase.isDone = true → call.responses.length = 1
  id : ∀ response ∈ call.responses, response.getOptional "id" = correlationIdOf env call.body

/-- Response handlers return: what raises in the try block of a task raises
before the response handler was called. -/
def handlersReturn {Queue : Type} (c : System Queue) : Action → Prop
  | .raise i _ => (c.calls[i]?).all (·.responses.isEmpty) = true
  | _ => True

instance {Queue : Type} (c : System Queue) (action : Action) :
    Decidable (handlersReturn c action) := by
  unfold handlersReturn
  split <;> infer_instance

/-- The invariant of a call, whether or not an exception escaped from it. -/
structure Served (env : Environment) (call : Call) : Prop where
  correlationId : call.correlationId = correlationIdOf env call.body
  count : call.responses.length = call.phase.isAnswered.toNat
  id : ∀ response ∈ call.responses, response.getOptional "id" = call.correlationId
  escaped : (∃ exception, call.phase = .escaped exception) ↔ SignsReachedBy env call.body

namespace Served

variable {env : Environment} {call : Call} {phase : Phase}

/-- A step without a response. -/
theorem goto (h : Served env call) (hAnswered : phase.isAnswered = call.phase.isAnswered)
    (hBefore : ∀ exception, call.phase ≠ .escaped exception)
    (hAfter : ∀ exception, phase ≠ .escaped exception) : Served env (call.goto phase) where
  correlationId := h.correlationId
  count := by rw [Call.goto_responses, Call.goto_phase, hAnswered, h.count]
  id := h.id
  escaped := by
    have hEscaped := h.escaped
    simp only [hBefore, exists_false, false_iff] at hEscaped
    show (∃ exception, phase = .escaped exception) ↔ SignsReachedBy env call.body
    simpa [hAfter] using hEscaped

/-- The response of a call that has none yet. -/
theorem answer (h : Served env call) {response : Ptree} (hOpen : call.phase.isAnswered = false)
    (hPhase : phase.isAnswered = true) (hId : response.getOptional "id" = call.correlationId)
    (hBefore : ∀ exception, call.phase ≠ .escaped exception) :
    Served env (call.answer phase response) where
  correlationId := h.correlationId
  count := by
    have hCount := h.count
    rw [hOpen] at hCount
    simp [hCount, hPhase]
  id other hOther := by
    rcases List.mem_append.mp hOther with hOld | hNew
    · exact h.id other hOld
    · rw [List.mem_singleton.mp hNew]
      exact hId
  escaped := by
    have hEscaped := h.escaped
    simp only [hBefore, exists_false, false_iff] at hEscaped
    have hAfter : ∀ exception, phase ≠ .escaped exception := by
      intro exception hSame
      simp [hSame, Phase.isAnswered] at hPhase
    show (∃ exception, phase = .escaped exception) ↔ SignsReachedBy env call.body
    simpa [hAfter] using hEscaped

end Served

variable {Queue : Type} [PriorityQueue Queue Job Job.comparator]

theorem served_of_arrives {env : Environment} {jobId : UInt32} {body : String} {call : Call}
    (hCall : Call.handleRequestAsync env jobId body = call) (h : Arrives env jobId body call) :
    Served env call := by
  have hEscaped := handleRequestAsync_escaped_iff env jobId body
  rw [hCall] at hEscaped
  cases h with
  | answered response id work => exact ⟨rfl, rfl, by simpa using id, hEscaped⟩
  | admitting own id constructs => exact ⟨rfl, rfl, by simp, hEscaped⟩
  | cancelling rootHash => exact ⟨rfl, rfl, by simp, hEscaped⟩
  | escaped exception => exact ⟨rfl, rfl, by simp, hEscaped⟩

theorem served_of_moves {env : Environment} {c : System Queue} {i now : Nat} {call next : Call}
    {members : Members Queue} {events : List Event} (h : Served env call)
    (moves : Moves env c i now call members next events) : Served env next := by
  cases moves with
  | cancelled phase _ =>
      refine h.answer (by rw [phase]; rfl) rfl ?_ (by simp [phase])
      exact getOptional_attachCorrelationId_id rfl _
  | answered phase =>
      exact h.answer (by rw [phase]; rfl) rfl (workResponse_id env _ _) (by simp [phase])
  | notFound phase _ | rejected phase _ | starved phase _ _ | noDevice phase _ =>
      exact h.answer (by rw [phase]; rfl) rfl (createErrorResponse_id _ _) (by simp [phase])
  | admitted phase _ | posted phase | popped phase _ _ | busy phase _ _ | acquired phase _ _
  | inserted phase | released phase _ | finished phase =>
      exact h.goto (by rw [phase]; rfl) (by simp [phase]) (by simp)

theorem served_of_raises {env : Environment} {call : Call} {task : Task} {what : String}
    (h : Served env call) (raises : Raises call task) (hNone : call.responses.isEmpty = true) :
    Served env (call.fail (.failed task) what) := by
  have hCount := h.count
  rw [List.isEmpty_iff.mp hNone] at hCount
  refine h.answer ?_ rfl (createErrorResponse_id _ _) ?_
  · cases hAnswered : call.phase.isAnswered <;> simp_all
  · intro exception hSame
    cases raises <;> simp_all

/-- In every run whose response handlers return, a request is disposed of as it
should be unless reading its fields comes to one that has signs but no digit. -/
theorem disposed_iff (env : Environment) {c : System Queue}
    (run : Reaches (System.step env) handlersReturn (System.initial env) c) :
    ∀ call ∈ c.calls, Disposed env call ↔ ¬ SignsReachedBy env call.body := by
  intro call hCall
  have hServed : ∀ call ∈ c.calls, Served env call := by
    apply calls_invariant run (Served env)
    · intro jobId body call hSame hArrives
      exact served_of_arrives hSame hArrives
    · intro c i now call members next events _ _ _ h moves
      exact served_of_moves h moves
    · intro c i call task what allowed found h raises
      rw [handlersReturn, found] at allowed
      exact served_of_raises h raises (by simpa using allowed)
  have h := hServed call hCall
  rw [← h.escaped]
  constructor
  · rintro hDisposed ⟨exception, hEscaped⟩
    exact hDisposed.returns exception hEscaped
  · intro hStays
    refine ⟨fun exception hEscaped => hStays ⟨exception, hEscaped⟩, ?_, ?_, ?_⟩
    · rw [h.count]
      exact Bool.toNat_le _
    · intro hDone
      rw [h.count]
      cases hPhase : call.phase <;> simp_all [Phase.isDone, Phase.isAnswered]
    · intro response hResponse
      rw [h.id response hResponse, h.correlationId]

/-- A hash of a single sign takes the exception out of the call. -/
theorem not_disposed_sign :
    ¬ ∀ (env : Environment) (c : System JobQueue),
      Reaches (System.step env) handlersReturn (System.initial env) c →
      ∀ call ∈ c.calls, Disposed env call := by
  intro hAll
  have hSign : ∃ h : (sampleRun [.request generateSign]).isSome = true,
      ((sampleRun [.request generateSign]).get h).calls.map (·.phase) =
        [.escaped (.outOfRange "basic_string::insert")] := ⟨by decide, by decide⟩
  obtain ⟨hEnabled, hPhases⟩ := hSign
  have hRun := reaches_get hEnabled
    (show Execution.AllAllowed _ handlersReturn _ [.request generateSign] by decide)
  obtain ⟨call, hCall, hPhase⟩ := List.mem_map.mp (hPhases ▸ List.mem_singleton_self _)
  exact (hAll sampleEnvironment _ hRun call hCall).returns _ hPhase

/-- A request that is answered with work, and one from which an exception
escapes. -/
theorem disposed_iff_two :
    let actions : List Action :=
      [.request generateOne, .request generateSign, .proceed 0 0, .proceed 0 0, .proceed 0 0,
        .proceed 0 0, .proceed 0 0, .proceed 0 0]
    ∃ h : (sampleRun actions).isSome = true,
      ((sampleRun actions).get h).calls.map (·.responses.length) = [1, 0] ∧
      ∀ call ∈ ((sampleRun actions).get h).calls,
        Disposed sampleEnvironment call ↔ ¬ SignsReachedBy sampleEnvironment call.body :=
  ⟨by decide, by decide,
    disposed_iff sampleEnvironment (reaches_get (by decide) (by decide))⟩

end NanoPowServer.WorkHandler
