import Mathlib.Algebra.Group.Int.Defs
import NanoPowServer.WorkHandler.Difficulty

/-! The order in which jobs are served, against the priorities that their requests ask
for. A request asks for any integer, a job has an `unsigned`: a negative number is
taken modulo 2^32, and what does not fit counts as zero. -/
namespace NanoPowServer.WorkHandler

open Execution PriorityQueue

/-- The decimal texts of an integer, with any number of digits. -/
inductive DecimalInteger : List Char → Int → Prop where
  | unsigned {digits : List Char} (nonempty : digits ≠ [])
      (decimal : ∀ c ∈ digits, c.isDigit = true) :
      DecimalInteger digits (Nat.ofDigitChars 10 digits 0 : Nat)
  | plus {digits : List Char} (nonempty : digits ≠ [])
      (decimal : ∀ c ∈ digits, c.isDigit = true) :
      DecimalInteger ('+' :: digits) (Nat.ofDigitChars 10 digits 0 : Nat)
  | minus {digits : List Char} (nonempty : digits ≠ [])
      (decimal : ∀ c ∈ digits, c.isDigit = true) :
      DecimalInteger ('-' :: digits) (-(Nat.ofDigitChars 10 digits 0 : Nat))

/-- The priority of a job whose request asks for this one. -/
def extracted (a : Int) : UInt32 := if a.natAbs < 2 ^ 32 then UInt32.ofInt a else 0

/-- The conversion keeps the order of these two integers: both fit and the smaller one
does not turn into a large number, or the smaller one does not fit and counts as zero. -/
def KeepsOrder (a b : Int) : Prop :=
  (a.natAbs < 2 ^ 32 ∧ b.natAbs < 2 ^ 32 ∧ (0 ≤ a ∨ b < 0 ∨ a + 2 ^ 32 < b)) ∨
    (2 ^ 32 ≤ a.natAbs ∧ b.natAbs < 2 ^ 32 ∧ b ≠ 0)

section Reading

theorem toNat_extracted (a : Int) :
    ((extracted a).toNat : Int) = if a.natAbs < 2 ^ 32 then a % 2 ^ 32 else 0 := by
  unfold extracted
  split
  · have hMod : (a % 2 ^ 32).toNat < 2 ^ 32 := by omega
    rw [UInt32.ofInt, UInt32.toNat_ofNat_of_lt' hMod]
    omega
  · rfl

theorem extracted_lt_iff {a b : Int} (h : a < b) : extracted a < extracted b ↔ KeepsOrder a b := by
  have hFirst := toNat_extracted a
  have hSecond := toNat_extracted b
  rw [UInt32.lt_iff_toNat_lt, KeepsOrder]
  split at hFirst <;> split at hSecond <;> omega

theorem foldl_eq_ofDigitChars (digits : List Char) :
    digits.foldl (fun value c => value * 10 + (c.toNat - '0'.toNat)) 0 =
      Nat.ofDigitChars 10 digits 0 := by
  simp only [Nat.ofDigitChars, Nat.mul_comm]

/-- A run of digits is read as a whole, whatever stands before it. -/
theorem takeWhile_digits {digits : List Char} (decimal : ∀ c ∈ digits, c.isDigit = true) :
    digits.takeWhile Char.isDigit = digits ∧ digits.dropWhile Char.isDigit = [] :=
  ⟨List.takeWhile_eq_self_iff.mpr decimal, List.dropWhile_eq_nil_iff.mpr decimal⟩

theorem not_isSpace_of_isDigit {c : Char} (h : c.isDigit = true) : Bigint.isSpace c = false := by
  have hValue : '0'.val ≤ c.val := by
    simp only [Char.isDigit, Bool.and_eq_true, decide_eq_true_eq] at h
    exact h.1
  cases hSpace : Bigint.isSpace c with
  | false => rfl
  | true =>
      simp only [Bigint.isSpace, Bool.or_eq_true, decide_eq_true_eq] at hSpace
      rcases hSpace with ((((rfl | rfl) | rfl) | rfl) | rfl) | rfl <;> cases h

theorem ofInt_natCast (value : Nat) : UInt32.ofInt (value : Int) = UInt32.ofNat value := by
  rw [UInt32.ofInt, UInt32.ofNat_eq_iff_mod_eq_toNat, UInt32.toNat_ofNat']
  omega

/-- What the value of the digits is stored as. -/
theorem stored_eq (value : Nat) (negative : Bool) :
    (if value < 2 ^ 32 then
      some (if negative then -(UInt32.ofNat value) else UInt32.ofNat value) else none).getD 0 =
      extracted (if negative then -(value : Int) else value) := by
  have hAbs : (if negative then -(value : Int) else value).natAbs = value := by
    cases negative <;> simp
  rw [extracted, hAbs]
  split
  · cases negative <;> simp [ofInt_natCast]
  · rfl

theorem readUnsigned_of_decimal {text : String} {a : Int} (h : DecimalInteger text.toList a) :
    (readUnsigned text).getD 0 = extracted a := by
  generalize hText : text.toList = chars at h
  cases h with
  | unsigned nonempty decimal =>
      obtain ⟨first, rest, rfl⟩ := List.exists_cons_of_ne_nil nonempty
      have hFirst := decimal first List.mem_cons_self
      have hRest : (first :: rest).dropWhile Bigint.isSpace = first :: rest := by
        rw [List.dropWhile_cons_of_neg (by simp [not_isSpace_of_isDigit hFirst])]
      obtain ⟨hTake, hDrop⟩ := takeWhile_digits decimal
      have hMinus : first ≠ '-' := by
        rintro rfl
        cases hFirst
      have hPlus : first ≠ '+' := by
        rintro rfl
        cases hFirst
      unfold readUnsigned
      simp only [hText, hRest]
      split
      · exact absurd (List.cons.inj ‹_›).1 hMinus
      · exact absurd (List.cons.inj ‹_›).1 hPlus
      · simp only [hTake, hDrop, foldl_eq_ofDigitChars]
        simpa using stored_eq (Nat.ofDigitChars 10 (first :: rest) 0) false
  | @plus digits nonempty decimal =>
      obtain ⟨hTake, hDrop⟩ := takeWhile_digits decimal
      have hRest : ('+' :: digits).dropWhile Bigint.isSpace = '+' :: digits := rfl
      simp only [readUnsigned, hText, hRest, hTake, hDrop, foldl_eq_ofDigitChars]
      simpa [nonempty] using stored_eq (Nat.ofDigitChars 10 digits 0) false
  | @minus digits nonempty decimal =>
      obtain ⟨hTake, hDrop⟩ := takeWhile_digits decimal
      have hRest : ('-' :: digits).dropWhile Bigint.isSpace = '-' :: digits := rfl
      simp only [readUnsigned, hText, hRest, hTake, hDrop, foldl_eq_ofDigitChars]
      simpa [nonempty] using stored_eq (Nat.ofDigitChars 10 digits 0) true

end Reading

variable {Queue : Type}

/-- The request of call `i` asks for this priority. -/
def AsksFor (env : Environment) (c : System Queue) (i : Nat) (a : Int) : Prop :=
  ∃ request text, RequestOf env c i request ∧ request.getOptional "priority" = some text ∧
    DecimalInteger text.toList a

theorem workGenerate_priority {env : Environment} {jobId : UInt32} {request : Ptree} {job : Job}
    (hPrioritized : env.config.server.allowPrioritization = true)
    (h : workGenerate env jobId request = .ok job) :
    job.priority = ((request.getOptional "priority").bind readUnsigned).getD 0 := by
  obtain ⟨text, -, h⟩ := bind_eq_ok.mp h
  obtain ⟨rootHash, -, h⟩ := bind_eq_ok.mp h
  obtain ⟨difficulty, -, h⟩ := bind_eq_ok.mp h
  obtain rfl := Except.ok.inj h
  exact if_pos hPrioritized

variable [PriorityQueue Queue Job Job.comparator]

theorem priority_of_accepted {env : Environment} {guard : System Queue → Action → Prop}
    {c : System Queue} (run : Reaches (System.step env) guard (System.initial env) c)
    (hPrioritized : env.config.server.allowPrioritization = true) {i : Nat} {job : Job} {a : Int}
    (hEvent : .accepted i job ∈ c.trace) (hAsks : AsksFor env c i a) :
    job.priority = extracted a := by
  obtain ⟨request, text, hRequest, hField, hDecimal⟩ := hAsks
  obtain ⟨read, jobId, hRead, hMade⟩ := made_of_accepted run hEvent
  obtain rfl := hRequest.unique hRead
  rw [workGenerate_priority hPrioritized hMade, hField, Option.bind_some,
    readUnsigned_of_decimal hDecimal]

/-- The first job is served before the second one, unless the queue is changed. -/
def PopsBefore (jobs : Queue) (first second : Job) : Prop := [first, second].Sublist (drain jobs)

/-- Of two pending jobs the one of the larger priority is served first, as far as the
conversion keeps their order, or else maps both to one number and this job is the older
one. Where neither is so the other job is served first, unless the two have one id. -/
theorem serves_larger_first {env : Environment} {c : System Queue}
    (run : Reaches (System.step env) anyAction (System.initial env) c)
    (hPrioritized : env.config.server.allowPrioritization = true) {i j : Nat} {low high : Job}
    {a b : Int} (hLow : .accepted i low ∈ c.trace) (hHigh : .accepted j high ∈ c.trace)
    (hLowAsks : AsksFor env c i a) (hHighAsks : AsksFor env c j b) (hLess : a < b)
    (hLowPending : low ∈ items c.members.jobs) (hHighPending : high ∈ items c.members.jobs) :
    (KeepsOrder a b ∨ extracted a = extracted b ∧ high.jobId < low.jobId →
      PopsBefore c.members.jobs high low ∧ (popJob c.members.jobs).2 ≠ some low) ∧
    (extracted a ≠ extracted b ∨ low.jobId ≠ high.jobId →
      (PopsBefore c.members.jobs high low ↔
        KeepsOrder a b ∨ extracted a = extracted b ∧ high.jobId < low.jobId)) := by
  have hBelow : Job.comparator low high = true ↔
      KeepsOrder a b ∨ extracted a = extracted b ∧ high.jobId < low.jobId := by
    rw [Job.comparator_iff, priority_of_accepted run hPrioritized hLow hLowAsks,
      priority_of_accepted run hPrioritized hHigh hHighAsks, extracted_lt_iff hLess]
  have hServed (h : Job.comparator low high = true) : PopsBefore c.members.jobs high low :=
    pair_sublist_drain hLowPending hHighPending h
  rw [← hBelow]
  refine ⟨fun h => ⟨hServed h, ?_⟩, fun hApart => ⟨fun hPops => ?_, hServed⟩⟩
  · rw [popJob_snd]
    exact top_ne_of_lower hHighPending h
  · by_contra hNot
    have hOther : Job.comparator high low = true := by
      rw [← priority_of_accepted run hPrioritized hLow hLowAsks,
        ← priority_of_accepted run hPrioritized hHigh hHighAsks] at hApart
      rw [Job.comparator_iff] at hNot ⊢
      grind
    exact not_pair_sublist_drain hOther hPops

/-- Requests whose bodies are read as the texts of their priorities. -/
def priorityRequest (text : String) : Ptree :=
  [("action", "work_generate"), ("hash", "1"), ("priority", text)]

def priorityEnvironment : Environment :=
  { sampleEnvironment with readJson := fun body => .ok (priorityRequest body) }

def priorityJob (text : String) (jobId : UInt32) : Job where
  jobId
  priority := (readUnsigned text).getD 0
  request :=
    { rootHash := Bigint.set 1, difficulty := priorityEnvironment.config.work.baseDifficulty }

/-- The run that queues both of them. -/
theorem queues_sample (first second : String) :
    ∃ c : System JobQueue,
      Reaches (System.step priorityEnvironment) anyAction (System.initial priorityEnvironment) c ∧
      .accepted 0 (priorityJob first 1) ∈ c.trace ∧ .accepted 1 (priorityJob second 2) ∈ c.trace ∧
      RequestOf priorityEnvironment c 0 (priorityRequest first) ∧
      RequestOf priorityEnvironment c 1 (priorityRequest second) ∧
      c.members.jobs = pushJob (pushJob empty (priorityJob first 1)) (priorityJob second 2) := by
  refine ⟨_, reaches_of_runActions [.request first, .proceed 0 0, .request second, .proceed 1 0]
    rfl (allAllowed_anyAction _ _), ?_, ?_, ⟨_, rfl, rfl⟩, ⟨_, rfl, rfl⟩, ?_⟩
  · exact List.mem_cons_of_mem _ (List.mem_cons_of_mem _ List.mem_cons_self)
  · exact List.mem_cons_self
  · rfl

theorem decimal_one : DecimalInteger "1".toList 1 :=
  .unsigned (by decide) (List.all_eq_true.mp (by decide))

theorem decimal_five : DecimalInteger "5".toList 5 :=
  .unsigned (by decide) (List.all_eq_true.mp (by decide))

theorem decimal_minus_one : DecimalInteger "-1".toList (-1) :=
  @DecimalInteger.minus ['1'] (by decide) (List.all_eq_true.mp (by decide))

/-- The job of priority 5 is served before the older one of priority 1. -/
theorem serves_larger_first_five :
    ∃ c : System JobQueue, PopsBefore c.members.jobs (priorityJob "5" 2) (priorityJob "1" 1) := by
  obtain ⟨c, run, hLow, hHigh, hLowRequest, hHighRequest, hJobs⟩ := queues_sample "1" "5"
  refine ⟨c, ((serves_larger_first run rfl hLow hHigh ⟨_, _, hLowRequest, rfl, decimal_one⟩
    ⟨_, _, hHighRequest, rfl, decimal_five⟩ (by decide) ?_ ?_).1 (.inl ?_)).1⟩
  · simp [hJobs, pushJob]
  · simp [hJobs, pushJob]
  · exact .inl (by decide)

/-- The job of priority -1 is served before the one of priority 5. -/
theorem not_serves_larger_first :
    ¬ ∀ (env : Environment) (c : System JobQueue) (i j : Nat) (low high : Job) (a b : Int),
      Reaches (System.step env) anyAction (System.initial env) c →
      env.config.server.allowPrioritization = true →
      .accepted i low ∈ c.trace → .accepted j high ∈ c.trace →
      AsksFor env c i a → AsksFor env c j b → a < b →
      low ∈ items c.members.jobs → high ∈ items c.members.jobs →
      (popJob c.members.jobs).2 ≠ some low := by
  intro hAll
  obtain ⟨c, run, hLow, hHigh, hLowRequest, hHighRequest, hJobs⟩ := queues_sample "-1" "5"
  refine hAll _ c 0 1 _ _ (-1) 5 run rfl hLow hHigh ⟨_, _, hLowRequest, rfl, decimal_minus_one⟩
    ⟨_, _, hHighRequest, rfl, decimal_five⟩ (by decide) ?_ ?_ ?_
  · simp [hJobs, pushJob]
  · simp [hJobs, pushJob]
  · rw [hJobs]
    decide

end NanoPowServer.WorkHandler
