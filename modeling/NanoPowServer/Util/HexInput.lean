import NanoPowServer.Util.HexCodec

/-! Which texts `from_hex` accepts. Stream extraction skips white space, collects a run
of characters and gives it a value; what is left over is found out only after the
value has been stored. -/
namespace NanoPowServer.Bigint

variable {size : Nat}

theorem isHexDigit_of_hexValue {c : Char} {value : Nat} (h : hexValue c = some value) :
    isHexDigit c = true := by
  have hBound : c.toNat < 128 := by
    unfold hexValue at h
    split_ifs at h with hDigit hLower hUpper
    · exact Nat.lt_of_le_of_lt hDigit.2 (by decide)
    · exact Nat.lt_of_le_of_lt hLower.2 (by decide)
    · exact Nat.lt_of_le_of_lt hUpper.2 (by decide)
  have hAll : ∀ n < 128, hexValue (Char.ofNat n) ≠ none → isHexDigit (Char.ofNat n) = true := by
    decide
  have hChar := hAll c.toNat hBound
  rw [Char.ofNat_toNat] at hChar
  exact hChar (by simp [h])

/-- A list of characters has a value in base 16 if all of them are digits. -/
theorem hexNumber_isSome_iff (text : List Char) :
    (∃ value, hexNumber text = some value) ↔ ∀ c ∈ text, isHexDigit c = true := by
  constructor
  · induction text using List.reverseRecOn with
    | nil => simp
    | append_singleton front last ih =>
        rintro ⟨value, h⟩
        rw [hexNumber_append_singleton] at h
        obtain ⟨number, hFront, hLast⟩ := Option.bind_eq_some_iff.mp h
        obtain ⟨digit, hDigit, -⟩ := Option.map_eq_some_iff.mp hLast
        intro c hMem
        rcases List.mem_append.mp hMem with hMem | hMem
        · exact ih ⟨number, hFront⟩ c hMem
        · rw [List.mem_singleton.mp hMem]
          exact isHexDigit_of_hexValue hDigit
  · intro h
    obtain ⟨digits, -, -, hNumber⟩ := hexNumber_of_isHexDigit text h
    exact ⟨_, hNumber⟩

theorem isHexDigit_of_hexNumber {text : List Char} {value : Nat}
    (h : hexNumber text = some value) : ∀ c ∈ text, isHexDigit c = true :=
  (hexNumber_isSome_iff text).mp ⟨value, h⟩

/-- The values that runs have: none at all counts as zero, so does `0x` without a
digit, and a minus sign negates modulo the width. -/
inductive Denotes (size : Nat) : List Char → BitVec (8 * size) → Prop where
  | nothing : Denotes size [] 0
  | digits {text : List Char} {value : Nat} (nonempty : text ≠ [])
      (reads : hexNumber text = some value) : Denotes size text (BitVec.ofNat _ value)
  | prefixed {text : List Char} {value : Nat} (reads : hexNumber text = some value) :
      Denotes size ('0' :: 'x' :: text) (BitVec.ofNat _ value)
  | negative {text : List Char} {value : Nat} (nonempty : text ≠ [])
      (reads : hexNumber text = some value) :
      Denotes size ('-' :: text) (-(BitVec.ofNat _ value))

section Run

variable {number : BitVec (8 * size)}

theorem assign_prefixed_iff (digits : List Char) :
    assign ('0' :: 'x' :: digits) = .ok number ↔
      ∃ value, hexNumber digits = some value ∧ BitVec.ofNat _ value = number := by
  cases hDigits : hexNumber digits <;> simp [assign, hDigits]

theorem assign_negative_iff (digits : List Char) :
    assign ('-' :: '0' :: 'x' :: digits) = .ok number ↔
      ∃ value, hexNumber digits = some value ∧ -(BitVec.ofNat _ value) = number := by
  cases hDigits : hexNumber digits <;> simp [assign, hDigits]

/-- A second sign, or a plus, is malformed. -/
theorem assign_plus_ne (rest : List Char) : assign ('+' :: rest) ≠ .ok number := by
  simp [assign]

theorem assign_sign_ne {c : Char} (hSign : isSign c = true) (rest : List Char) :
    assign ('-' :: c :: rest) ≠ .ok number := by
  have hOther : c ≠ '0' := by
    rintro rfl
    cases hSign
  unfold assign
  dsimp only
  split
  · next hHead => exact absurd (List.cons.inj hHead).1 hOther
  · simp

/-- Signs, the inserted prefix and digits are accepted if there is at most one sign,
which is a minus. -/
theorem denotes_of_signs {signs digits : List Char} (hSigns : ∀ c ∈ signs, isSign c = true)
    (hDigits : digits ≠ []) (h : assign (signs ++ '0' :: 'x' :: digits) = .ok number) :
    Denotes size (signs ++ digits) number := by
  cases signs with
  | nil =>
      obtain ⟨value, hValue, rfl⟩ := (assign_prefixed_iff digits).mp h
      exact .digits hDigits hValue
  | cons first rest =>
      have hFirst : first = '+' ∨ first = '-' := by
        simpa [isSign] using hSigns first List.mem_cons_self
      rcases hFirst with rfl | rfl
      · exact absurd h (assign_plus_ne _)
      · cases rest with
        | nil =>
            obtain ⟨value, hValue, rfl⟩ := (assign_negative_iff digits).mp h
            exact .negative hDigits hValue
        | cons second others =>
            exact absurd h (assign_sign_ne (hSigns second (by simp)) _)

theorem denotes_of_assign {run prefixed : List Char} (hPrefix : insertPrefix run = .ok prefixed)
    (hAssign : assign prefixed = .ok number) : Denotes size run number := by
  unfold insertPrefix at hPrefix
  split at hPrefix
  · next digits =>
      cases hPrefix
      obtain ⟨value, hValue, rfl⟩ := (assign_prefixed_iff digits).mp hAssign
      exact .prefixed hValue
  · split at hPrefix
    · cases hPrefix
    · next digits hDigits =>
        cases hPrefix
        rw [← List.takeWhile_append_dropWhile (p := isSign) (l := run)]
        exact denotes_of_signs (fun c hMem => List.mem_takeWhile_imp hMem) hDigits hAssign

theorem assign_of_denotes {run : List Char} (hRun : run ≠ []) (h : Denotes size run number) :
    ∃ prefixed, insertPrefix run = .ok prefixed ∧ assign prefixed = .ok number := by
  cases h with
  | nothing => exact absurd rfl hRun
  | digits nonempty reads =>
      exact ⟨_, insertPrefix_of_isHexDigit nonempty (isHexDigit_of_hexNumber reads),
        (assign_prefixed_iff _).mpr ⟨_, reads, rfl⟩⟩
  | prefixed reads => exact ⟨_, rfl, (assign_prefixed_iff _).mpr ⟨_, reads, rfl⟩⟩
  | @negative text value nonempty reads =>
      refine ⟨'-' :: '0' :: 'x' :: text, ?_, (assign_negative_iff _).mpr ⟨_, reads, rfl⟩⟩
      have hDigits : ('-' :: text).dropWhile isSign = text := by
        rw [List.dropWhile_cons_of_pos (by rfl)]
        exact dropWhile_eq_self fun c hMem =>
          (isHexDigit_facts (isHexDigit_of_hexNumber reads c hMem)).2.2.1
      have hSigns : ('-' :: text).takeWhile isSign = ['-'] := by
        cases text with
        | nil => exact absurd rfl nonempty
        | cons first rest =>
            have hFirst := isHexDigit_facts (isHexDigit_of_hexNumber reads first (by simp))
            rw [List.takeWhile_cons_of_pos (by rfl),
              List.takeWhile_cons_of_neg (by simp [hFirst.2.2.1])]
      cases text with
      | nil => exact absurd rfl nonempty
      | cons first rest => simp [insertPrefix, hDigits, hSigns]

end Run

/-- White space, the longest run of permitted characters after it, and what is left
over. -/
structure Splits (text spaces run rest : List Char) : Prop where
  eq : text = spaces ++ (run ++ rest)
  spaces : ∀ c ∈ spaces, isSpace c = true
  start : ∀ c ∈ (run ++ rest).head?, isSpace c = false
  run : ∀ c ∈ run, isPermitted c = true
  stop : ∀ c ∈ rest.head?, isPermitted c = false

theorem head?_dropWhile {p : Char → Bool} {text : List Char} :
    ∀ c ∈ (text.dropWhile p).head?, p c = false := by
  intro c hHead
  cases hDrop : text.dropWhile p with
  | nil => simp [hDrop] at hHead
  | cons first others =>
      have hNot := List.head?_dropWhile_not p text
      rw [hDrop] at hHead hNot
      simp only [List.head?_cons, Option.mem_def, Option.some.injEq] at hHead
      rw [← hHead]
      exact hNot

theorem takeWhile_of_head? {p : Char → Bool} {front rest : List Char}
    (hFront : ∀ c ∈ front, p c = true) (hRest : ∀ c ∈ rest.head?, p c = false) :
    (front ++ rest).takeWhile p = front ∧ (front ++ rest).dropWhile p = rest := by
  rw [List.takeWhile_append_of_pos hFront, List.dropWhile_append_of_pos hFront]
  cases rest with
  | nil => simp
  | cons first others => simp [hRest first rfl]

/-- What has a value has neither white space nor other characters in it. -/
theorem Denotes.facts {run : List Char} {number : BitVec (8 * size)} (h : Denotes size run number) :
    ∀ c ∈ run, isPermitted c = true ∧ isSpace c = false := by
  have hDigits : ∀ {text : List Char} {value : Nat}, hexNumber text = some value →
      ∀ c ∈ text, isPermitted c = true ∧ isSpace c = false := by
    intro text value reads c hMem
    have hFacts := isHexDigit_facts (isHexDigit_of_hexNumber reads c hMem)
    exact ⟨hFacts.2.1, hFacts.1⟩
  cases h with
  | nothing => simp
  | digits _ reads => exact hDigits reads
  | prefixed reads =>
      rw [List.forall_mem_cons, List.forall_mem_cons]
      exact ⟨by decide, by decide, hDigits reads⟩
  | negative _ reads =>
      rw [List.forall_mem_cons]
      exact ⟨by decide, hDigits reads⟩

/-- White space and a number, with nothing left over. -/
theorem Splits.of_denotes {spaces run : List Char} {number : BitVec (8 * size)}
    (hSpaces : ∀ c ∈ spaces, isSpace c = true) (h : Denotes size run number) :
    Splits (spaces ++ run) spaces run [] where
  eq := by rw [List.append_nil]
  spaces := hSpaces
  start c hHead := by
    rw [List.append_nil] at hHead
    exact (h.facts c (List.mem_of_mem_head? hHead)).2
  run c hMem := (h.facts c hMem).1
  stop c hHead := by cases hHead

theorem readStringWhile_iff {text run : List Char} {eof : Bool} :
    readStringWhile text = (run, eof) ↔
      ∃ spaces rest, Splits text spaces run rest ∧ eof = rest.isEmpty := by
  constructor
  · intro h
    obtain ⟨hRun, hEof⟩ := Prod.mk.inj h
    refine ⟨text.takeWhile isSpace, (text.dropWhile isSpace).dropWhile isPermitted, ?_, hEof.symm⟩
    have hSplit : run ++ (text.dropWhile isSpace).dropWhile isPermitted =
        text.dropWhile isSpace := by
      rw [← hRun, List.takeWhile_append_dropWhile]
    refine ⟨?_, fun c hMem => List.mem_takeWhile_imp hMem, ?_, ?_, head?_dropWhile⟩
    · rw [hSplit, List.takeWhile_append_dropWhile]
    · rw [hSplit]
      exact head?_dropWhile
    · rw [← hRun]
      exact fun c hMem => List.mem_takeWhile_imp hMem
  · rintro ⟨spaces, rest, h, rfl⟩
    have hSkipped := (takeWhile_of_head? h.spaces h.start).2
    obtain ⟨hTaken, hLeft⟩ := takeWhile_of_head? h.run h.stop
    rw [h.eq, readStringWhile, hSkipped, hTaken, hLeft]

theorem extractHex_iff {text : List Char} {number : BitVec (8 * size)} {eof : Bool} :
    extractHex text = .ok (number, eof) ↔
      ∃ spaces run rest, Splits text spaces run rest ∧ eof = rest.isEmpty ∧
        Denotes size run number := by
  rcases hRead : readStringWhile text with ⟨run, atEnd⟩
  obtain ⟨spaces, rest, hSplits, hEof⟩ := readStringWhile_iff.mp hRead
  have hUnique : ∀ {spaces' run' rest' : List Char}, Splits text spaces' run' rest' →
      run' = run ∧ rest'.isEmpty = atEnd := by
    intro spaces' run' rest' h
    have hSame := readStringWhile_iff.mpr ⟨spaces', rest', h, rfl⟩
    rw [hRead] at hSame
    exact ⟨(Prod.mk.inj hSame).1.symm, (Prod.mk.inj hSame).2.symm⟩
  have hValue : extractHex text = .ok (number, eof) ↔ Denotes size run number ∧ atEnd = eof := by
    unfold extractHex
    rw [hRead]
    cases run with
    | nil =>
        have hZero : Denotes size [] number ↔ (0 : BitVec (8 * size)) = number := by
          constructor
          · intro h
            cases h with
            | nothing => rfl
            | digits nonempty _ => exact absurd rfl nonempty
          · rintro rfl
            exact .nothing
        rw [hZero]
        simp
    | cons first others =>
        constructor
        · intro h
          obtain ⟨prefixed, hPrefix, h⟩ := bind_eq_ok.mp h
          obtain ⟨value, hAssign, h⟩ := bind_eq_ok.mp h
          cases h
          exact ⟨denotes_of_assign hPrefix hAssign, rfl⟩
        · rintro ⟨h, rfl⟩
          obtain ⟨prefixed, hPrefix, hAssign⟩ := assign_of_denotes (by simp) h
          simp [bind, Except.bind, hPrefix, hAssign]
  rw [hValue]
  constructor
  · rintro ⟨h, rfl⟩
    exact ⟨spaces, run, rest, hSplits, hEof, h⟩
  · rintro ⟨spaces', run', rest', h, rfl, hDenotes⟩
    obtain ⟨rfl, hRest⟩ := hUnique h
    exact ⟨hDenotes, hRest.symm⟩

/-- How `from_hex` ends: the number is stored before it is known whether anything is
left over. -/
theorem fromHex_of_extractHex (x : Bigint size) {text : String} {number : BitVec (8 * size)}
    {eof : Bool} (hText : 1 ≤ text.length) (hLength : text.length ≤ 2 * size)
    (h : extractHex text.toList = .ok (number, eof)) :
    fromHex x text = (set number, if eof then .ok ()
      else .error (.runtimeError "from_hex failed: invalid input format")) := by
  have hNonempty : text ≠ "" := by
    rintro rfl
    simp at hText
  unfold fromHex
  rw [if_pos ⟨hNonempty, by omega⟩, h]

/-- Where extraction fails, or the length test, the number is not stored. -/
theorem fromHex_of_not_extracted (x : Bigint size) {text : String}
    (h : 1 ≤ text.length → text.length ≤ 2 * size →
      ∀ number eof, extractHex text.toList ≠ (.ok (number, eof) : Except Exception
        (BitVec (8 * size) × Bool))) :
    (fromHex x text).1 = x ∧ (fromHex x text).2 ≠ .ok () := by
  unfold fromHex
  by_cases hSize : text ≠ "" ∧ text.length ≤ size * 2
  · rw [if_pos hSize]
    have hText : 1 ≤ text.length := by
      rw [Nat.one_le_iff_ne_zero, ne_eq, String.length_eq_zero_iff]
      exact hSize.1
    have hNone := h hText (by omega)
    cases hExtract : (extractHex text.toList : Except Exception (BitVec (8 * size) × Bool)) with
    | error exception => simp
    | ok result => exact absurd hExtract (hNone result.1 result.2)
  · rw [if_neg hSize]
    simp

theorem fromHex_ok_iff (x : Bigint size) (text : String) :
    (fromHex x text).2 = .ok () ↔ 1 ≤ text.length ∧ text.length ≤ 2 * size ∧
      ∃ spaces run number, text.toList = spaces ++ run ∧ (∀ c ∈ spaces, isSpace c = true) ∧
        Denotes size run number := by
  constructor
  · intro h
    by_contra hNot
    refine (fromHex_of_not_extracted x fun hText hLength number eof hExtract => ?_).2 h
    rw [fromHex_of_extractHex x hText hLength hExtract] at h
    obtain ⟨spaces, run, rest, hSplits, rfl, hDenotes⟩ := extractHex_iff.mp hExtract
    have hRest : rest = [] := by
      cases hEmpty : rest.isEmpty with
      | true => exact List.isEmpty_iff.mp hEmpty
      | false => simp [hEmpty] at h
    refine hNot ⟨hText, hLength, spaces, run, number, ?_, hSplits.spaces, hDenotes⟩
    rw [hSplits.eq, hRest, List.append_nil]
  · rintro ⟨hText, hLength, spaces, run, number, hEq, hSpaces, hDenotes⟩
    have hExtract : extractHex text.toList = .ok (number, true) :=
      extractHex_iff.mpr ⟨spaces, run, [], hEq ▸ Splits.of_denotes hSpaces hDenotes, rfl, hDenotes⟩
    rw [fromHex_of_extractHex x hText hLength hExtract]
    rfl

/-- One or more hexadecimal digits, with or without `0x` in front of them. -/
def IsNumeral (text : List Char) : Prop :=
  ∃ digits, digits ≠ [] ∧ (∀ c ∈ digits, isHexDigit c = true) ∧
    (text = digits ∨ text = '0' :: 'x' :: digits)

/-- A numeral that fits the width, and its value in base 16. -/
def HexNumber (size : Nat) (text : String) (value : Nat) : Prop :=
  1 ≤ text.length ∧ text.length ≤ 2 * size ∧ ∃ digits, digits ≠ [] ∧
    hexNumber digits = some value ∧ (text.toList = digits ∨ text.toList = '0' :: 'x' :: digits)

/-- The text is accepted exactly if it is a number, and then this number is read. -/
def ReadsExactly (x : Bigint size) (text : String) : Prop :=
  ((fromHex x text).2 = .ok () ↔ ∃ value, HexNumber size text value) ∧
    ∀ value, HexNumber size text value → (fromHex x text).1.number.toNat = value

/-- A text within the limits of the length test that is white space only; or white
space, if any, and then `0x` without a digit or a minus sign and digits; or white
space and then a numeral. -/
def Misread (size : Nat) (text : String) : Prop :=
  1 ≤ text.length ∧ text.length ≤ 2 * size ∧ ∃ spaces rest, text.toList = spaces ++ rest ∧
    (∀ c ∈ spaces, isSpace c = true) ∧
    (rest = [] ∨ rest = ['0', 'x'] ∨
      (∃ digits, digits ≠ [] ∧ (∀ c ∈ digits, isHexDigit c = true) ∧ rest = '-' :: digits) ∨
      spaces ≠ [] ∧ IsNumeral rest)

theorem hexNumber_lt {text : List Char} {value : Nat} (h : hexNumber text = some value) :
    value < 16 ^ text.length := by
  obtain ⟨digits, hLt, hUpper, hNumber⟩ :=
    hexNumber_of_isHexDigit text (isHexDigit_of_hexNumber h)
  have hCount : text.length = digits.length := by simpa using congrArg List.length hUpper
  obtain rfl : value = Nat.ofDigits 16 digits := Option.some.inj (h.symm.trans hNumber)
  rw [hCount]
  exact Nat.ofDigits_lt_base_pow_length (by omega) hLt

theorem HexNumber.isNumeral {text : String} {value : Nat} (h : HexNumber size text value) :
    IsNumeral text.toList := by
  obtain ⟨-, -, digits, hDigits, hNumber, hText⟩ := h
  exact ⟨digits, hDigits, isHexDigit_of_hexNumber hNumber, hText⟩

theorem IsNumeral.denotes {text : List Char} (h : IsNumeral text) :
    ∃ value, Denotes size text (BitVec.ofNat _ value) := by
  obtain ⟨digits, hDigits, hHex, hText⟩ := h
  obtain ⟨value, hNumber⟩ := (hexNumber_isSome_iff digits).mpr hHex
  rcases hText with rfl | rfl
  · exact ⟨value, .digits hDigits hNumber⟩
  · exact ⟨value, .prefixed hNumber⟩

/-- A numeral begins with a digit. -/
theorem IsNumeral.head {text : List Char} (h : IsNumeral text) :
    ∃ first rest, text = first :: rest ∧ isHexDigit first = true := by
  obtain ⟨digits, hDigits, hHex, rfl | rfl⟩ := h
  · cases text with
    | nil => exact absurd rfl hDigits
    | cons first rest => exact ⟨first, rest, rfl, hHex first List.mem_cons_self⟩
  · exact ⟨'0', _, rfl, by decide⟩

theorem not_isNumeral_prefix : ¬ IsNumeral ['0', 'x'] := by
  rintro ⟨digits, hDigits, hHex, hText⟩
  rcases hText with rfl | hText
  · have hX := hHex 'x' (by simp)
    cases hX
  · exact hDigits (List.cons.inj (List.cons.inj hText).2).2.symm

theorem HexNumber.fromHex {text : String} {value : Nat} (h : HexNumber size text value)
    (x : Bigint size) : fromHex x text = (set (BitVec.ofNat _ value), .ok ()) := by
  obtain ⟨hText, hLength, digits, hDigits, hNumber, hForm⟩ := h
  have hDenotes : Denotes size text.toList (BitVec.ofNat _ value) := by
    rcases hForm with hForm | hForm <;> rw [hForm]
    · exact .digits hDigits hNumber
    · exact .prefixed hNumber
  have hSplits : Splits ([] ++ text.toList) [] text.toList [] :=
    Splits.of_denotes (by simp) hDenotes
  have hExtract : extractHex text.toList = .ok (BitVec.ofNat (8 * size) value, true) :=
    extractHex_iff.mpr ⟨[], text.toList, [], hSplits, rfl, hDenotes⟩
  rw [fromHex_of_extractHex x hText hLength hExtract]
  rfl

theorem HexNumber.toNat_number {text : String} {value : Nat} (h : HexNumber size text value) :
    (set (BitVec.ofNat (8 * size) value)).number.toNat = value := by
  obtain ⟨-, hLength, digits, -, hNumber, hForm⟩ := h
  apply toNat_number_set
  have hCount : digits.length ≤ size * 2 := by
    rw [← String.length_toList] at hLength
    rcases hForm with hForm | hForm <;> rw [hForm] at hLength
    · omega
    · simp only [List.length_cons] at hLength
      omega
  exact Nat.lt_of_lt_of_le (hexNumber_lt hNumber) (Nat.pow_le_pow_right (by omega) hCount)

theorem fromHex_of_readHex {x y : Bigint size} {text : String} (h : readHex x text = .ok y) :
    fromHex x text = (y, .ok ()) := by
  unfold readHex at h
  split at h
  · next hFrom => rw [hFrom, Except.ok.inj h]
  · cases h

/-- A misread text is not a number. -/
theorem Misread.not_isNumeral {text : String} (h : Misread size text) :
    ¬ IsNumeral text.toList := by
  obtain ⟨hText, -, spaces, rest, hEq, hSpaces, hRest⟩ := h
  rw [hEq]
  cases spaces with
  | cons first others =>
      intro hNumeral
      obtain ⟨head, tail, hHead, hDigit⟩ := hNumeral.head
      obtain rfl : first = head := (List.cons.inj hHead).1
      have hSpace := hSpaces first List.mem_cons_self
      rw [(isHexDigit_facts hDigit).1] at hSpace
      cases hSpace
  | nil =>
      rw [List.nil_append]
      rcases hRest with rfl | rfl | ⟨digits, hDigits, -, rfl⟩ | ⟨hSome, -⟩
      · rw [← String.length_toList, hEq] at hText
        cases hText
      · exact not_isNumeral_prefix
      · intro hNumeral
        obtain ⟨head, tail, hHead, hDigit⟩ := hNumeral.head
        obtain rfl : '-' = head := (List.cons.inj hHead).1
        cases hDigit
      · exact absurd rfl hSome

theorem Misread.accepted {text : String} (h : Misread size text) (x : Bigint size) :
    (fromHex x text).2 = .ok () := by
  obtain ⟨hText, hLength, spaces, rest, hEq, hSpaces, hRest⟩ := h
  have hDenotes : ∃ number, Denotes size rest number := by
    rcases hRest with rfl | rfl | ⟨digits, hDigits, hHex, rfl⟩ | ⟨-, hNumeral⟩
    · exact ⟨0, .nothing⟩
    · exact ⟨_, .prefixed rfl⟩
    · obtain ⟨value, hNumber⟩ := (hexNumber_isSome_iff digits).mpr hHex
      exact ⟨_, .negative hDigits hNumber⟩
    · obtain ⟨value, hValue⟩ := hNumeral.denotes
      exact ⟨_, hValue⟩
  obtain ⟨number, hNumber⟩ := hDenotes
  exact (fromHex_ok_iff x text).mpr ⟨hText, hLength, spaces, rest, number, hEq, hSpaces, hNumber⟩

/-- What is accepted is a number or misread. -/
theorem accepted_cases {x : Bigint size} {text : String} (h : (fromHex x text).2 = .ok ()) :
    (∃ value, HexNumber size text value) ∨ Misread size text := by
  obtain ⟨hText, hLength, spaces, run, number, hEq, hSpaces, hDenotes⟩ :=
    (fromHex_ok_iff x text).mp h
  have hMisread : ∀ {rest : List Char}, run = rest →
      (rest = [] ∨ rest = ['0', 'x'] ∨
        (∃ digits, digits ≠ [] ∧ (∀ c ∈ digits, isHexDigit c = true) ∧ rest = '-' :: digits) ∨
        spaces ≠ [] ∧ IsNumeral rest) → Misread size text := by
    rintro rest rfl hRest
    exact ⟨hText, hLength, spaces, run, hEq, hSpaces, hRest⟩
  -- A numeral is the number itself, unless there is white space before it.
  have hNumeral : ∀ {digits : List Char} {value : Nat}, digits ≠ [] →
      hexNumber digits = some value → (run = digits ∨ run = '0' :: 'x' :: digits) →
      (∃ value, HexNumber size text value) ∨ Misread size text := by
    intro digits value hDigits hNumber hForm
    cases spaces with
    | nil => exact .inl ⟨value, hText, hLength, digits, hDigits, hNumber, by rwa [hEq]⟩
    | cons first others =>
        refine .inr (hMisread rfl (.inr (.inr (.inr ⟨by simp, ?_⟩))))
        exact ⟨digits, hDigits, isHexDigit_of_hexNumber hNumber, hForm⟩
  cases hDenotes with
  | nothing => exact .inr (hMisread rfl (.inl rfl))
  | digits nonempty reads => exact hNumeral nonempty reads (.inl rfl)
  | @prefixed digits value reads =>
      cases digits with
      | nil => exact .inr (hMisread rfl (.inr (.inl rfl)))
      | cons first others => exact hNumeral (by simp) reads (.inr rfl)
  | negative nonempty reads =>
      refine .inr (hMisread rfl (.inr (.inr (.inl ?_))))
      exact ⟨_, nonempty, isHexDigit_of_hexNumber reads, rfl⟩

theorem Misread.not_readsExactly {text : String} (h : Misread size text) (x : Bigint size) :
    ¬ ReadsExactly x text := by
  rintro ⟨hAccepts, -⟩
  obtain ⟨value, hNumber⟩ := hAccepts.mp (h.accepted x)
  exact h.not_isNumeral hNumber.isNumeral

/-- `from_hex` accepts exactly the numbers that fit, and reads them, except for the
texts that are misread. -/
theorem readsExactly_iff (x : Bigint size) (text : String) :
    ReadsExactly x text ↔ ¬ Misread size text := by
  constructor
  · intro hReads hMisread
    exact hMisread.not_readsExactly x hReads
  · intro hNot
    refine ⟨⟨fun h => (accepted_cases h).resolve_right hNot, ?_⟩, ?_⟩
    · rintro ⟨value, hNumber⟩
      rw [hNumber.fromHex x]
    · intro value hNumber
      rw [hNumber.fromHex x]
      exact hNumber.toNat_number

/-- White space alone is accepted, and read as zero. -/
theorem misreads_space : ¬ ∀ (size : Nat) (x : Bigint size) (text : String), ReadsExactly x text := by
  intro hAll
  have hMisread : Misread 16 " " :=
    ⟨by decide, by decide, [' '], [], rfl, by simp [isSpace], .inl rfl⟩
  exact hMisread.not_readsExactly (set 0) (hAll 16 (set 0) " ")

/-- Characters are left over after what extraction takes from the text, and what it
takes is another number than the one that was there. -/
def Overwrites (x : Bigint size) (text : String) : Prop :=
  1 ≤ text.length ∧ text.length ≤ 2 * size ∧ ∃ spaces run rest number,
    Splits text.toList spaces run rest ∧ rest ≠ [] ∧ Denotes size run number ∧ number ≠ x.number

/-- A failed `from_hex` leaves the number as it was, unless the text overwrites it. -/
theorem untouched_iff (x : Bigint size) (text : String) :
    ((fromHex x text).2 ≠ .ok () → (fromHex x text).1.bytes = x.bytes) ↔ ¬ Overwrites x text := by
  constructor
  · rintro hUntouched ⟨hText, hLength, spaces, run, rest, number, hSplits, hRest, hDenotes, hOther⟩
    have hExtract : extractHex text.toList = .ok (number, rest.isEmpty) :=
      extractHex_iff.mpr ⟨spaces, run, rest, hSplits, rfl, hDenotes⟩
    rw [fromHex_of_extractHex x hText hLength hExtract,
      List.isEmpty_eq_false_iff.mpr hRest] at hUntouched
    have hBytes : (set number : Bigint size).bytes = x.bytes := hUntouched (by simp)
    have hSame : (set number : Bigint size).number = x.number := by rw [Bigint.number, hBytes]; rfl
    rw [number_set] at hSame
    exact hOther hSame
  · intro hNot hFails
    by_contra hBytes
    -- Something was stored, so extraction has succeeded and characters are left over.
    obtain ⟨hText, hLength, number, eof, hExtract⟩ : 1 ≤ text.length ∧ text.length ≤ 2 * size ∧
        ∃ number eof, extractHex text.toList =
          (.ok (number, eof) : Except Exception (BitVec (8 * size) × Bool)) := by
      by_contra hNone
      have hSame := (fromHex_of_not_extracted x fun hText hLength number eof hExtract =>
        hNone ⟨hText, hLength, number, eof, hExtract⟩).1
      exact hBytes (by rw [hSame])
    rw [fromHex_of_extractHex x hText hLength hExtract] at hFails hBytes
    obtain ⟨spaces, run, rest, hSplits, rfl, hDenotes⟩ := extractHex_iff.mp hExtract
    refine hNot ⟨hText, hLength, spaces, run, rest, number, hSplits, ?_, hDenotes, ?_⟩
    · rintro rfl
      exact hFails rfl
    · rintro rfl
      exact hBytes (by rw [set_number])

/-- A digit with another character behind it fails, and is stored. -/
theorem overwrites_trailing :
    ¬ ∀ (size : Nat) (x : Bigint size) (text : String),
      (fromHex x text).2 ≠ .ok () → (fromHex x text).1.bytes = x.bytes := by
  intro hAll
  have hStored := hAll 16 (set 5) "1g" (by decide)
  exact absurd hStored (by decide)

end NanoPowServer.Bigint
