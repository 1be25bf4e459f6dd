import NanoPowServer.Util.HexInput
import NanoPowServer.Util.MultiplierRange
import NanoPowServer.WorkHandler.Ledger

/-! The difficulty of a queued job against the difficulty that its request asks for. -/
namespace NanoPowServer.WorkHandler

open Execution PriorityQueue

variable {Queue : Type} [PriorityQueue Queue Job Job.comparator]

/-- The multiplier of a request, zero if there is none. -/
def multiplierOf (env : Environment) (request : Ptree) : ℚ :=
  ((request.getOptional "multiplier").bind env.readDouble).getD 0

/-- The base difficulty times the multiplier, without its fraction. -/
def multiplied (env : Environment) (request : Ptree) : Nat :=
  ⌊(env.config.work.baseDifficulty.number.toNat : ℚ) * multiplierOf env request⌋₊

/-- The difficulty that a field stands for: the value of its numeral. A misread text, which is
none, stands for what `from_hex` makes of it. -/
def FieldStandsFor (env : Environment) (text : String) (difficulty : U128) : Prop :=
  Bigint.HexNumber 16 text difficulty.number.toNat ∨
    Bigint.Misread 16 text ∧ Bigint.readHex env.config.work.baseDifficulty text = .ok difficulty

/-- A positive multiplier decides, then the difficulty field, then the base. -/
def AsRequested (env : Environment) (request : Ptree) (difficulty : U128) : Prop :=
  if 0 < multiplierOf env request then difficulty.number.toNat = multiplied env request
  else
    match request.getOptional "difficulty" with
    | some text => FieldStandsFor env text difficulty
    | none => difficulty = env.config.work.baseDifficulty

/-- The difficulty that a positive multiplier asks for is a 128-bit number. -/
def MultiplierFits (env : Environment) (request : Ptree) : Prop :=
  0 < multiplierOf env request → multiplied env request < 2 ^ 128

section Reading

variable {env : Environment} {request : Ptree} {difficulty : U128}

/-- The difficulty field, or else the base, is read in any case. -/
theorem requestedDifficulty_cases (h : requestedDifficulty env request = .ok difficulty) :
    ∃ given, (match request.getOptional "difficulty" with
        | some text => Bigint.readHex env.config.work.baseDifficulty text
        | none => .ok env.config.work.baseDifficulty) = .ok given ∧
      difficulty = if 0 < multiplierOf env request then
        fromMultiplier (multiplierOf env request) env.config.work.baseDifficulty else given := by
  unfold requestedDifficulty at h
  cases hField : request.getOptional "difficulty" with
  | some text =>
      rw [hField] at h
      obtain ⟨given, hGiven, hResult⟩ := bind_eq_ok.mp h
      exact ⟨given, hGiven, (Except.ok.inj hResult).symm⟩
  | none =>
      rw [hField] at h
      exact ⟨_, rfl, (Except.ok.inj h).symm⟩

theorem requestedDifficulty_of_pos (h : requestedDifficulty env request = .ok difficulty)
    (hPositive : 0 < multiplierOf env request) :
    difficulty = fromMultiplier (multiplierOf env request) env.config.work.baseDifficulty := by
  obtain ⟨given, -, hResult⟩ := requestedDifficulty_cases h
  rwa [if_pos hPositive] at hResult

theorem fieldStandsFor_of_readHex {text : String}
    (h : Bigint.readHex env.config.work.baseDifficulty text = .ok difficulty) :
    FieldStandsFor env text difficulty := by
  have hAccepted := Bigint.fromHex_of_readHex h
  rcases Bigint.accepted_cases (congrArg Prod.snd hAccepted) with ⟨value, hNumber⟩ | hMisread
  · refine .inl ?_
    rw [hNumber.fromHex, Prod.mk.injEq] at hAccepted
    rwa [← hAccepted.1, hNumber.toNat_number]
  · exact .inr ⟨hMisread, h⟩

theorem requestedDifficulty_of_not_pos (h : requestedDifficulty env request = .ok difficulty)
    (hNone : ¬ 0 < multiplierOf env request) : AsRequested env request difficulty := by
  obtain ⟨given, hGiven, hResult⟩ := requestedDifficulty_cases h
  rw [if_neg hNone] at hResult
  subst hResult
  rw [AsRequested, if_neg hNone]
  cases hField : request.getOptional "difficulty" with
  | some text =>
      rw [hField] at hGiven
      exact fieldStandsFor_of_readHex hGiven
  | none =>
      rw [hField] at hGiven
      exact (Except.ok.inj hGiven).symm

/-- What is read is what is asked for, unless the multiplier asks for too much. -/
theorem asRequested_iff (h : requestedDifficulty env request = .ok difficulty) :
    AsRequested env request difficulty ↔ MultiplierFits env request := by
  by_cases hPositive : 0 < multiplierOf env request
  · rw [AsRequested, if_pos hPositive, requestedDifficulty_of_pos h hPositive, MultiplierFits,
      forall_prop_of_true hPositive]
    exact number_fromMultiplier_eq_iff hPositive.le
  · exact iff_of_true (requestedDifficulty_of_not_pos h hPositive) fun h => absurd h hPositive

/-- Among the multipliers that fit, a larger one gives no easier job. -/
theorem requestedDifficulty_mono {larger : Ptree} {other : U128}
    (h : requestedDifficulty env request = .ok difficulty)
    (hOther : requestedDifficulty env larger = .ok other) (hPositive : 0 < multiplierOf env request)
    (hLarger : multiplierOf env request ≤ multiplierOf env larger)
    (hFits : MultiplierFits env larger) : difficulty.number.toNat ≤ other.number.toNat := by
  have hOtherPositive : 0 < multiplierOf env larger := hPositive.trans_le hLarger
  rw [requestedDifficulty_of_pos h hPositive, requestedDifficulty_of_pos hOther hOtherPositive]
  exact number_fromMultiplier_mono hPositive.le hLarger (hFits hOtherPositive)

theorem workGenerate_difficulty {jobId : UInt32} {job : Job}
    (h : workGenerate env jobId request = .ok job) :
    requestedDifficulty env request = .ok job.request.difficulty := by
  obtain ⟨text, -, h⟩ := bind_eq_ok.mp h
  obtain ⟨rootHash, -, h⟩ := bind_eq_ok.mp h
  obtain ⟨difficulty, hDifficulty, h⟩ := bind_eq_ok.mp h
  obtain rfl := Except.ok.inj h
  exact hDifficulty

end Reading

/-- The job of the call, before and after it is pushed, was made from its body. -/
def FromBody (env : Environment) (call : Call) : Prop :=
  ∀ own, call.phase = .admitting own ∨ call.phase.own? = some own →
    ∃ request jobId, env.readJson call.body = .ok request ∧
      workGenerate env jobId request = .ok own

omit [PriorityQueue Queue Job Job.comparator] in
theorem fromBody_arrives (env : Environment) (jobId : UInt32) (body : String) :
    FromBody env (Call.handleRequestAsync env jobId body) := by
  intro own hOwn
  unfold Call.handleRequestAsync at hOwn ⊢
  cases hJson : env.readJson body with
  | error what => simp [hJson, Call.fail, Call.answer, Phase.own?] at hOwn
  | ok request =>
      cases hDispatch : dispatch env jobId request with
      | error exception =>
          cases exception <;>
            simp [hJson, hDispatch, Call.fail, Call.answer, Call.goto, Phase.own?] at hOwn
      | ok dispatched =>
          cases dispatched with
          | admitting job =>
              obtain ⟨-, -, hJob⟩ := dispatch_admitting hDispatch
              obtain rfl : job = own := by
                simpa [hJson, hDispatch, Call.goto, Phase.own?] using hOwn
              exact ⟨request, jobId, by simpa [hDispatch, Call.goto] using hJson, hJob⟩
          | answering response =>
              simp [hJson, hDispatch, Call.answer, Phase.own?] at hOwn
          | cancelling rootHash => simp [hJson, hDispatch, Call.goto, Phase.own?] at hOwn

theorem FromBody.of_reaches {env : Environment} {guard : System Queue → Action → Prop}
    {c : System Queue} (run : Reaches (System.step env) guard (System.initial env) c) :
    ∀ call ∈ c.calls, FromBody env call := by
  refine calls_invariant run (FromBody env) ?_ ?_ ?_
  · rintro jobId body call rfl -
    exact fromBody_arrives env jobId body
  · intro c i now call members next events _ _ _ h moves own hOwn
    cases moves with
    | admitted phase _ =>
        obtain rfl : _ = own := by simpa [Call.goto, Phase.own?] using hOwn
        exact h _ (.inl phase)
    | cancelled phase _ | notFound phase _ | rejected phase _ =>
        simp [Call.answer, Call.fail, Phase.own?] at hOwn
    | posted phase | popped phase _ _ | starved phase _ _ | busy phase _ _ | acquired phase _ _
    | noDevice phase _ | inserted phase | answered phase | released phase _ | finished phase =>
        refine h own (.inr ?_)
        simpa [phase, Call.goto, Call.answer, Call.fail, Phase.own?] using hOwn
  · intro c i call task what _ _ h raises own hOwn
    refine h own (.inr ?_)
    cases raises <;> simpa [*, Call.fail, Call.answer, Phase.own?] using hOwn

/-- The request that call `i` was made with. -/
def RequestOf (env : Environment) (c : System Queue) (i : Nat) (request : Ptree) : Prop :=
  ∃ call, c.calls[i]? = some call ∧ env.readJson call.body = .ok request

/-- An accepted job was made from the body of its call. -/
theorem made_of_accepted {env : Environment} {guard : System Queue → Action → Prop}
    {c : System Queue} (run : Reaches (System.step env) guard (System.initial env) c) {i : Nat}
    {job : Job} (hEvent : .accepted i job ∈ c.trace) :
    ∃ request jobId, RequestOf env c i request ∧ workGenerate env jobId request = .ok job := by
  obtain ⟨call, hCall, hOwn⟩ := own_of_accepted run hEvent
  obtain ⟨request, jobId, hJson, hJob⟩ :=
    FromBody.of_reaches run call (List.mem_of_getElem? hCall) job (.inr hOwn)
  exact ⟨request, jobId, ⟨call, hCall, hJson⟩, hJob⟩

/-- It has the difficulty that was read from there. -/
theorem difficulty_of_accepted {env : Environment} {guard : System Queue → Action → Prop}
    {c : System Queue} (run : Reaches (System.step env) guard (System.initial env) c) {i : Nat}
    {job : Job} (hEvent : .accepted i job ∈ c.trace) :
    ∃ request, RequestOf env c i request ∧
      requestedDifficulty env request = .ok job.request.difficulty := by
  obtain ⟨request, jobId, hRequest, hJob⟩ := made_of_accepted run hEvent
  exact ⟨request, hRequest, workGenerate_difficulty hJob⟩

omit [PriorityQueue Queue Job Job.comparator] in
theorem RequestOf.unique {env : Environment} {c : System Queue} {i : Nat} {request other : Ptree}
    (h : RequestOf env c i request) (hOther : RequestOf env c i other) : request = other := by
  obtain ⟨call, hCall, hJson⟩ := h
  obtain ⟨same, hSame, hOtherJson⟩ := hOther
  obtain rfl : call = same := Option.some.inj (hCall.symm.trans hSame)
  exact Except.ok.inj (hJson.symm.trans hOtherJson)

/-- A job is queued with the difficulty that its request asks for exactly if that is a
128-bit number, and as far as it is, larger multipliers give no easier jobs. -/
theorem queues_requested {env : Environment} {c : System Queue}
    (run : Reaches (System.step env) anyAction (System.initial env) c) :
    (∀ i job, .accepted i job ∈ c.trace → ∃ request, RequestOf env c i request ∧
      (AsRequested env request job.request.difficulty ↔ MultiplierFits env request)) ∧
      ∀ i job j other request larger, .accepted i job ∈ c.trace → .accepted j other ∈ c.trace →
        RequestOf env c i request → RequestOf env c j larger → 0 < multiplierOf env request →
        multiplierOf env request ≤ multiplierOf env larger → MultiplierFits env larger →
        job.request.difficulty.number.toNat ≤ other.request.difficulty.number.toNat := by
  constructor
  · intro i job hEvent
    obtain ⟨request, hRequest, hDifficulty⟩ := difficulty_of_accepted run hEvent
    exact ⟨request, hRequest, asRequested_iff hDifficulty⟩
  · intro i job j other request larger hEvent hOther hRequest hLargerRequest hPositive hLarger hFits
    obtain ⟨first, hFirst, hDifficulty⟩ := difficulty_of_accepted run hEvent
    obtain ⟨second, hSecond, hOtherDifficulty⟩ := difficulty_of_accepted run hOther
    obtain rfl := hFirst.unique hRequest
    obtain rfl := hSecond.unique hLargerRequest
    exact requestedDifficulty_mono hDifficulty hOtherDifficulty hPositive hLarger hFits

def multipliedRequest : Ptree :=
  [("action", "work_generate"), ("hash", "1"), ("multiplier", "147573952589676412928")]

/-- The default base difficulty is 2^61. -/
def multiplierEnvironment (multiplier : ℚ) : Environment :=
  { sampleEnvironment with
    readJson := fun _ => .ok multipliedRequest
    readDouble := fun _ => some multiplier }

theorem multiplierOf_sample (multiplier : ℚ) :
    multiplierOf (multiplierEnvironment multiplier) multipliedRequest = multiplier := rfl

theorem multiplied_sample (multiplier : ℚ) :
    multiplied (multiplierEnvironment multiplier) multipliedRequest = ⌊2 ^ 61 * multiplier⌋₊ := by
  have hBase : (multiplierEnvironment multiplier).config.work.baseDifficulty.number.toNat =
      2 ^ 61 := by
    change ({} : Config.Work).baseDifficulty.number.toNat = 2 ^ 61
    decide
  rw [multiplied, hBase, multiplierOf_sample]
  norm_num

/-- The run that queues the request. -/
theorem accepts_sample (multiplier : ℚ) :
    ∃ (c : System JobQueue) (job : Job),
      Reaches (System.step (multiplierEnvironment multiplier)) anyAction
        (System.initial (multiplierEnvironment multiplier)) c ∧
      .accepted 0 job ∈ c.trace ∧
      RequestOf (multiplierEnvironment multiplier) c 0 multipliedRequest :=
  ⟨_, _, reaches_of_runActions [.request "", .proceed 0 0] rfl (allAllowed_anyAction _ _),
    List.mem_cons_self, _, rfl, rfl⟩

/-- Twice the base is queued as asked for. -/
theorem queues_requested_double :
    ∃ (c : System JobQueue) (job : Job), .accepted 0 job ∈ c.trace ∧
      AsRequested (multiplierEnvironment 2) multipliedRequest job.request.difficulty := by
  obtain ⟨c, job, run, hEvent, hRequest⟩ := accepts_sample 2
  obtain ⟨request, hSame, hExact⟩ := (queues_requested run).1 0 job hEvent
  obtain rfl := hSame.unique hRequest
  refine ⟨c, job, hEvent, hExact.mpr fun _ => ?_⟩
  rw [multiplied_sample, Nat.floor_lt (by norm_num)]
  norm_num

/-- 2^67 times the base asks for 2^128, and the easiest of all jobs is queued. -/
theorem not_queues_requested :
    ¬ ∀ (env : Environment) (c : System JobQueue) (i : Nat) (job : Job) (request : Ptree),
      Reaches (System.step env) anyAction (System.initial env) c → .accepted i job ∈ c.trace →
      RequestOf env c i request → AsRequested env request job.request.difficulty := by
  intro hAll
  obtain ⟨c, job, run, hEvent, hRequest⟩ := accepts_sample (2 ^ 67)
  have hAsked := hAll _ c 0 job multipliedRequest run hEvent hRequest
  rw [AsRequested, multiplierOf_sample, if_pos (by norm_num), multiplied_sample] at hAsked
  have hWidth : job.request.difficulty.number.toNat < 2 ^ 128 :=
    job.request.difficulty.number.isLt
  norm_num at hAsked
  omega

end NanoPowServer.WorkHandler
