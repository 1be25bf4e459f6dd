import Mathlib.Data.Nat.Digits.Lemmas
import NanoPowServer.Util.Bigint

/-! The hexadecimal codec against positional notation: exported bytes and
printed characters are the digits of the number, and both ways around the codec
give back what went in. -/
namespace NanoPowServer.Bigint

open Nat (digitsAppend ofDigits)

variable {size : Nat}

/-- Padding in front of the most significant digit is padding the digits
themselves. -/
theorem replicate_append_reverse_digits {α : Type} (base width n : Nat) (write : Nat → α) :
    List.replicate (width - (Nat.digits base n).length) (write 0) ++
        ((Nat.digits base n).map write).reverse =
      ((digitsAppend base width n).map write).reverse := by
  simp [digitsAppend]

theorem digitsAppend_ofDigits {base width : Nat} (hBase : 1 < base) {digits : List Nat}
    (hWidth : digits.length = width) (hDigits : ∀ digit ∈ digits, digit < base) :
    digitsAppend base width (ofDigits base digits) = digits :=
  (Nat.setInvOn_digitsAppend_ofDigits hBase width).1 ⟨hWidth, hDigits⟩

theorem exportBits_eq_digits {fuel n : Nat} (h : n < 256 ^ fuel) :
    exportBits fuel n = (Nat.digits 256 n).map UInt8.ofNat := by
  induction fuel generalizing n with
  | zero =>
      have hZero : n = 0 := by simpa using h
      simp [exportBits, hZero]
  | succ fuel ih =>
      unfold exportBits
      split
      · next hZero => simp [hZero]
      · next hZero =>
          have hRest : n / 256 < 256 ^ fuel := by
            rw [Nat.pow_succ] at h
            omega
          have hDigits : Nat.digits 256 n = n % 256 :: Nat.digits 256 (n / 256) :=
            Nat.digits_def' (by omega) (by omega)
          have hMod : UInt8.ofNat (n % 256) = UInt8.ofNat n := by
            apply UInt8.toNat_inj.mp
            simp
          rw [ih hRest, hDigits, List.map_cons, hMod]

theorem importBits_eq_ofDigits (bytes : List UInt8) :
    importBits bytes = ofDigits 256 (bytes.map UInt8.toNat).reverse := by
  induction bytes using List.reverseRecOn with
  | nil => rfl
  | append_singleton front byte ih =>
      rw [importBits_append, ih]
      simp [Nat.ofDigits_cons, Nat.add_comm, Nat.mul_comm]

theorem set_bytes (x : BitVec (8 * size)) :
    (set x).bytes = ((digitsAppend 256 size x.toNat).map UInt8.ofNat).reverse := by
  have hBound : x.toNat < 256 ^ size := by
    have hLt := x.isLt
    rwa [Nat.pow_mul] at hLt
  rw [← replicate_append_reverse_digits]
  simp [set, exportBits_eq_digits hBound]

/-- Writing the number that was read restores every byte, leading zeros
included. -/
@[simp] theorem set_number (x : Bigint size) : set x.number = x := by
  have hWidth : (x.bytes.map UInt8.toNat).reverse.length = size := by
    simpa using x.size_eq
  have hDigits : ∀ digit ∈ (x.bytes.map UInt8.toNat).reverse, digit < 256 := by
    intro digit hMem
    obtain ⟨byte, -, rfl⟩ := List.mem_map.mp (List.mem_reverse.mp hMem)
    exact byte.toNat_lt
  have hBound : importBits x.bytes < 2 ^ (8 * size) := by
    have hLt := Nat.ofDigits_lt_base_pow_length (by omega) hDigits
    rwa [hWidth, ← importBits_eq_ofDigits, show 256 = 2 ^ 8 by rfl, ← Nat.pow_mul] at hLt
  have hNumber : x.number.toNat = importBits x.bytes := by
    simpa [number] using Nat.mod_eq_of_lt hBound
  have hBytes : (set x.number).bytes = x.bytes := by
    rw [set_bytes, hNumber, importBits_eq_ofDigits,
      digitsAppend_ofDigits (by omega) hWidth hDigits]
    simp [Function.comp_def]
  rcases x with ⟨bytes, size_eq⟩
  rcases hSet : set (number ⟨bytes, size_eq⟩) with ⟨restored, restored_eq⟩
  rw [hSet] at hBytes
  subst hBytes
  rfl

def isHexDigit (c : Char) : Bool := "0123456789abcdefABCDEF".toList.contains c

def isUpperHexDigit (c : Char) : Bool := "0123456789ABCDEF".toList.contains c

theorem isUpperHexDigit_hexDigit {digit : Nat} (h : digit < 16) :
    isUpperHexDigit (hexDigit digit) = true :=
  (show ∀ digit < 16, isUpperHexDigit (hexDigit digit) = true by decide) digit h

theorem isHexDigit_of_isUpperHexDigit {c : Char} (h : isUpperHexDigit c = true) :
    isHexDigit c = true := by
  have hAll : "0123456789ABCDEF".toList.all isHexDigit = true := by decide
  exact List.all_eq_true.mp hAll c (by simpa [isUpperHexDigit] using h)

/-- A digit in either case has a value below 16, and printing that value gives
the digit in upper case. -/
theorem hexValue_of_isHexDigit {c : Char} (h : isHexDigit c = true) :
    ∃ digit < 16, hexValue c = some digit ∧ hexDigit digit = c.toUpper := by
  have hAll : ("0123456789abcdefABCDEF".toList.all fun c =>
      (hexValue c).any fun digit => digit < 16 ∧ hexDigit digit = c.toUpper) = true := by decide
  have hDigit := List.all_eq_true.mp hAll c (by simpa [isHexDigit] using h)
  obtain ⟨digit, hValue, hFacts⟩ := (Option.any_eq_true _ _).mp hDigit
  obtain ⟨hBound, hUpper⟩ := of_decide_eq_true hFacts
  exact ⟨digit, hBound, hValue, hUpper⟩

theorem isHexDigit_facts {c : Char} (h : isHexDigit c = true) :
    isSpace c = false ∧ isPermitted c = true ∧ isSign c = false ∧ c ≠ 'x' := by
  have hAll : ("0123456789abcdefABCDEF".toList.all fun c =>
      isSpace c = false ∧ isPermitted c = true ∧ isSign c = false ∧ c ≠ 'x') = true := by decide
  exact of_decide_eq_true (List.all_eq_true.mp hAll c (by simpa [isHexDigit] using h))

theorem hexNumber_append_singleton (front : List Char) (c : Char) :
    hexNumber (front ++ [c]) =
      (hexNumber front).bind fun number => (hexValue c).map (number * 16 + ·) := by
  simp [hexNumber, List.foldlM_append]

/-- The characters of a run of digits, least significant digit first, and the
number they are read as. -/
theorem hexNumber_of_isHexDigit (text : List Char) (h : ∀ c ∈ text, isHexDigit c = true) :
    ∃ digits : List Nat, (∀ digit ∈ digits, digit < 16) ∧
      text.map Char.toUpper = (digits.map hexDigit).reverse ∧
      hexNumber text = some (ofDigits 16 digits) := by
  induction text using List.reverseRecOn with
  | nil => exact ⟨[], by simp, rfl, rfl⟩
  | append_singleton front c ih =>
      obtain ⟨digits, hLt, hUpper, hNumber⟩ := ih fun c hMem => h c (by simp [hMem])
      obtain ⟨digit, hDigit, hValue, hPrint⟩ := hexValue_of_isHexDigit (h c (by simp))
      refine ⟨digit :: digits, ?_, ?_, ?_⟩
      · simpa [hDigit] using hLt
      · simp [hUpper, hPrint]
      · rw [hexNumber_append_singleton, hNumber, hValue]
        simp [Nat.ofDigits_cons, Nat.add_comm, Nat.mul_comm]

theorem hexNumber_hexDigit {digits : List Nat} (h : ∀ digit ∈ digits, digit < 16) :
    hexNumber (digits.map hexDigit).reverse = some (ofDigits 16 digits) := by
  have hValue : ∀ digit < 16, hexValue (hexDigit digit) = some digit := by decide
  induction digits with
  | nil => rfl
  | cons digit digits ih =>
      rw [List.map_cons, List.reverse_cons, hexNumber_append_singleton,
        ih fun other hMem => h other (by simp [hMem]), hValue digit (h digit (by simp))]
      simp [Nat.ofDigits_cons, Nat.add_comm, Nat.mul_comm]

theorem hexDigits_eq_digits {fuel n : Nat} (h : n < 16 ^ fuel) :
    hexDigits fuel n = ((Nat.digits 16 n).map hexDigit).reverse := by
  induction fuel generalizing n with
  | zero =>
      have hZero : n = 0 := by simpa using h
      simp [hexDigits, hZero]
  | succ fuel ih =>
      unfold hexDigits
      split
      · next hZero => simp [hZero]
      · next hZero =>
          have hRest : n / 16 < 16 ^ fuel := by
            rw [Nat.pow_succ] at h
            omega
          have hDigits : Nat.digits 16 n = n % 16 :: Nat.digits 16 (n / 16) :=
            Nat.digits_def' (by omega) (by omega)
          rw [ih hRest, hDigits]
          simp

theorem number_lt_pow (x : Bigint size) : x.number.toNat < 16 ^ (size * 2) := by
  have hLt := x.number.isLt
  calc
    x.number.toNat < (2 ^ 4) ^ (size * 2) := by
      rw [← Nat.pow_mul]
      convert hLt using 2
      omega
    _ = 16 ^ (size * 2) := by norm_num

/-- Printing writes exactly the padded base-16 digits of the number. -/
theorem toHex_eq_digits (hSize : 0 < size) (x : Bigint size) :
    x.toHex.toList =
      ((digitsAppend 16 (size * 2) x.number.toNat).map hexDigit).reverse := by
  have hBound := x.number_lt_pow
  have hPadded := replicate_append_reverse_digits 16 (size * 2) x.number.toNat hexDigit
  unfold toHex
  dsimp only
  rw [String.toList_ofList, List.leftpad, ← hPadded]
  split
  · next hZero =>
      have hWidth : size * 2 = (size * 2 - 1) + 1 := by omega
      rw [hZero, hWidth]
      simp [List.replicate_succ', hexDigit]
  · rw [hexDigits_eq_digits hBound]
    simp [hexDigit]

theorem dropWhile_eq_self {p : Char → Bool} {text : List Char}
    (h : ∀ c ∈ text, p c = false) : text.dropWhile p = text := by
  cases text with
  | nil => rfl
  | cons first rest => simp [h first (by simp)]

theorem readStringWhile_of_isHexDigit {text : List Char}
    (h : ∀ c ∈ text, isHexDigit c = true) : readStringWhile text = (text, true) := by
  have hSpace : text.dropWhile isSpace = text :=
    dropWhile_eq_self fun c hMem => (isHexDigit_facts (h c hMem)).1
  have hPermitted : ∀ c ∈ text, isPermitted c = true := fun c hMem =>
    (isHexDigit_facts (h c hMem)).2.1
  unfold readStringWhile
  dsimp only
  rw [hSpace, List.takeWhile_eq_self_iff.mpr hPermitted,
    List.dropWhile_eq_nil_iff.mpr hPermitted]
  rfl

theorem insertPrefix_of_isHexDigit {text : List Char} (hText : text ≠ [])
    (h : ∀ c ∈ text, isHexDigit c = true) :
    insertPrefix text = .ok ('0' :: 'x' :: text) := by
  have hSign : ∀ c ∈ text, isSign c = false := fun c hMem =>
    (isHexDigit_facts (h c hMem)).2.2.1
  have hDigits : text.dropWhile isSign = text := dropWhile_eq_self hSign
  have hNoSigns : text.takeWhile isSign = [] := by
    cases text with
    | nil => rfl
    | cons first rest => simp [hSign first (by simp)]
  unfold insertPrefix
  split
  · next digits => exact absurd rfl (isHexDigit_facts (h 'x' (by simp))).2.2.2
  · rw [hDigits, hNoSigns]
    cases text with
    | nil => exact absurd rfl hText
    | cons first rest => rfl

theorem extractHex_of_isHexDigit {text : List Char} (hText : text ≠ [])
    (h : ∀ c ∈ text, isHexDigit c = true) {value : Nat} (hValue : hexNumber text = some value) :
    (extractHex text : Except Exception (BitVec (8 * size) × Bool)) =
      .ok (BitVec.ofNat _ value, true) := by
  unfold extractHex
  rw [readStringWhile_of_isHexDigit h]
  cases text with
  | nil => exact absurd rfl hText
  | cons first rest =>
      simp [insertPrefix_of_isHexDigit hText h, bind, Except.bind, assign, hValue]

theorem fromHex_of_isHexDigit (x : Bigint size) {text : String} (hText : text ≠ "")
    (hLength : text.length ≤ size * 2) (h : ∀ c ∈ text.toList, isHexDigit c = true)
    {value : Nat} (hValue : hexNumber text.toList = some value) :
    fromHex x text = (set (BitVec.ofNat _ value), .ok ()) := by
  have hChars : text.toList ≠ [] := by simpa using hText
  unfold fromHex
  rw [if_pos ⟨hText, hLength⟩, extractHex_of_isHexDigit hChars h hValue]
  rfl

theorem toNat_number_set {value : Nat} (h : value < 16 ^ (size * 2)) :
    (set (BitVec.ofNat (8 * size) value)).number.toNat = value := by
  have hLt : value < 2 ^ (8 * size) := by
    calc
      value < 16 ^ (size * 2) := h
      _ = 2 ^ (8 * size) := by
        rw [show 16 = 2 ^ 4 by rfl, ← Nat.pow_mul]
        congr 1
        omega
  rw [number_set, BitVec.toNat_ofNat, Nat.mod_eq_of_lt hLt]

/-- What was printed is read back to the same bytes, over any earlier value. -/
theorem fromHex_toHex (hSize : 0 < size) (x y : Bigint size) :
    x.toHex.length = 2 * size ∧ (∀ c ∈ x.toHex.toList, isUpperHexDigit c = true) ∧
      fromHex y x.toHex = (x, .ok ()) := by
  have hChars := toHex_eq_digits hSize x
  have hLt : ∀ digit ∈ digitsAppend 16 (size * 2) x.number.toNat, digit < 16 :=
    fun digit hMem => Nat.lt_of_mem_digitsAppend (by omega) _ _ hMem
  have hLength : x.toHex.length = 2 * size := by
    rw [← String.length_toList, hChars]
    simp [Nat.length_digitsAppend _ _ x.number_lt_pow, Nat.mul_comm]
  have hUpper : ∀ c ∈ x.toHex.toList, isUpperHexDigit c = true := by
    intro c hMem
    rw [hChars] at hMem
    obtain ⟨digit, hDigit, rfl⟩ := List.mem_map.mp (List.mem_reverse.mp hMem)
    exact isUpperHexDigit_hexDigit (hLt digit hDigit)
  have hNumber : hexNumber x.toHex.toList = some x.number.toNat := by
    rw [hChars, hexNumber_hexDigit hLt, digitsAppend, Nat.ofDigits_append_replicate_zero,
      Nat.ofDigits_digits]
  have hText : x.toHex ≠ "" := by
    intro hEmpty
    rw [hEmpty, String.length_empty] at hLength
    omega
  have hRead := fromHex_of_isHexDigit y hText (by omega)
    (fun c hMem => isHexDigit_of_isUpperHexDigit (hUpper c hMem)) hNumber
  exact ⟨hLength, hUpper, by rw [hRead]; simp⟩

/-- A text of hexadecimal digits is read, and printing gives it back in upper
case, padded to the full width. -/
theorem toHex_fromHex (y : Bigint size) {text : String} (hText : 1 ≤ text.length)
    (hLength : text.length ≤ 2 * size) (h : ∀ c ∈ text.toList, isHexDigit c = true) :
    ∃ x : Bigint size, fromHex y text = (x, .ok ()) ∧
      x.toHex.toList = (text.toList.map Char.toUpper).leftpad (2 * size) '0' := by
  obtain ⟨digits, hLt, hUpper, hNumber⟩ := hexNumber_of_isHexDigit text.toList h
  have hCount : text.length = digits.length := by
    simpa [← String.length_toList] using congrArg List.length hUpper
  have hNonempty : text ≠ "" := by
    rintro rfl
    simp at hText
  -- The digits of the full width.
  let padded := digits ++ List.replicate (size * 2 - digits.length) 0
  have hWidth : padded.length = size * 2 := by
    simp [padded]
    omega
  have hPaddedLt : ∀ digit ∈ padded, digit < 16 := by
    intro digit hMem
    rcases List.mem_append.mp hMem with hMem | hMem
    · exact hLt digit hMem
    · rw [List.eq_of_mem_replicate hMem]
      omega
  have hValue : ofDigits 16 padded = ofDigits 16 digits :=
    Nat.ofDigits_append_replicate_zero digits
  have hBound : ofDigits 16 digits < 16 ^ (size * 2) := by
    rw [← hValue, ← hWidth]
    exact Nat.ofDigits_lt_base_pow_length (by omega) hPaddedLt
  refine ⟨_, fromHex_of_isHexDigit y hNonempty (by omega) h hNumber, ?_⟩
  rw [toHex_eq_digits (by omega), toNat_number_set hBound, ← hValue,
    digitsAppend_ofDigits (by omega) hWidth hPaddedLt]
  simp [padded, hUpper, List.leftpad, hexDigit, Nat.mul_comm]

/-- Both ways around the codec, for every width. -/
theorem hex_roundTrip {size : Nat} (hSize : 0 < size) :
    (∀ x y : Bigint size,
      x.toHex.length = 2 * size ∧ (∀ c ∈ x.toHex.toList, isUpperHexDigit c = true) ∧
        fromHex y x.toHex = (x, .ok ())) ∧
      ∀ (y : Bigint size) (text : String), 1 ≤ text.length → text.length ≤ 2 * size →
        (∀ c ∈ text.toList, isHexDigit c = true) →
        ∃ x : Bigint size, fromHex y text = (x, .ok ()) ∧
          x.toHex = String.ofList ((text.toList.map Char.toUpper).leftpad (2 * size) '0') := by
  constructor
  · intro x y
    exact fromHex_toHex hSize x y
  · intro y text hText hLength h
    obtain ⟨x, hRead, hPrint⟩ := toHex_fromHex y hText hLength h
    exact ⟨x, hRead, by rw [← hPrint, String.ofList_toList]⟩

theorem hex_roundTrip_u128 :
    fromHex (set 0 : U128) (set 256 : U128).toHex = (set 256, .ok ()) ∧
      ∃ x : U128, fromHex (set 0) "fF" = (x, .ok ()) ∧
        x.toHex = String.ofList ("FF".toList.leftpad 32 '0') := by
  have hSize : 0 < 16 := by decide
  exact ⟨((hex_roundTrip hSize).1 (set 256) (set 0)).2.2,
    (hex_roundTrip hSize).2 (set 0) "fF" (by decide) (by decide)
      (List.all_eq_true.mp (by decide))⟩

end NanoPowServer.Bigint
