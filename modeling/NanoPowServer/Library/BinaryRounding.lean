import Mathlib.Algebra.Order.Round
import Mathlib.Data.Int.Log
import Mathlib.Tactic.FieldSimp
import Mathlib.Tactic.Linarith
import Mathlib.Tactic.Ring

/-! Rounding of positive numbers to a binary significand of a given precision, to the
nearest and of two nearest ones to the even one. The exponent is not bounded. -/
namespace BinaryRounding

variable {K : Type*} [Field K] [LinearOrder K] [IsStrictOrderedRing K] [FloorRing K]

/-- The next integer is nearer than the integral part, or as near and even. -/
def RoundsUp (x : K) : Prop := 1 / 2 < Int.fract x ∨ Int.fract x = 1 / 2 ∧ Odd ⌊x⌋

instance (x : K) : Decidable (RoundsUp x) := inferInstanceAs (Decidable (_ ∨ _))

def roundEven (x : K) : ℤ := if RoundsUp x then ⌊x⌋ + 1 else ⌊x⌋

theorem abs_sub_roundEven_eq_min (x : K) :
    |x - roundEven x| = min (Int.fract x) (1 - Int.fract x) := by
  have hParts : (⌊x⌋ : K) + Int.fract x = x := Int.floor_add_fract x
  have hLow : 0 ≤ Int.fract x := Int.fract_nonneg x
  have hHigh : Int.fract x < 1 := Int.fract_lt_one x
  unfold roundEven
  split_ifs with hUp
  · have hHalf : 1 / 2 ≤ Int.fract x := by
      rcases hUp with hMore | ⟨hEqual, -⟩
      · exact hMore.le
      · exact hEqual.ge
    have hRest : x - ((⌊x⌋ + 1 : ℤ) : K) = -(1 - Int.fract x) := by
      push_cast
      linarith
    rw [hRest, abs_neg, abs_of_pos (by linarith), min_eq_right (by linarith)]
  · have hHalf : Int.fract x ≤ 1 / 2 := not_lt.mp (not_or.mp hUp).1
    rw [Int.self_sub_floor, abs_of_nonneg hLow, min_eq_left (by linarith)]

/-- No integer is nearer. -/
theorem abs_sub_roundEven_le (x : K) (n : ℤ) : |x - roundEven x| ≤ |x - n| := by
  rw [abs_sub_roundEven_eq_min, ← abs_sub_round_eq_min]
  exact round_le x n

theorem abs_sub_roundEven_le_half (x : K) : |x - roundEven x| ≤ 1 / 2 := by
  rw [abs_sub_roundEven_eq_min, ← abs_sub_round_eq_min]
  exact abs_sub_round x

@[simp] theorem roundEven_intCast (n : ℤ) : roundEven (n : K) = n := by
  simp [roundEven, RoundsUp]

/-- The distance of the significands of `precision` bits around a positive `x`. -/
def unit (precision : ℕ) (x : K) : K := 2 ^ (Int.log 2 x + 1 - precision)

def round (precision : ℕ) (x : K) : K := roundEven (x / unit precision x) * unit precision x

/-- A number with a significand of `precision` bits. -/
def Representable (precision : ℕ) (x : K) : Prop :=
  ∃ (significand : ℕ) (exponent : ℤ), significand < 2 ^ precision ∧ x = significand * 2 ^ exponent

variable {precision : ℕ} {x : K}

theorem unit_pos (precision : ℕ) (x : K) : 0 < unit precision x := zpow_pos two_pos _

theorem zpow_log_le (hx : 0 < x) : (2 : K) ^ Int.log 2 x ≤ x := by
  exact_mod_cast Int.zpow_log_le_self one_lt_two hx

theorem lt_zpow_log_add_one (x : K) : x < (2 : K) ^ (Int.log 2 x + 1) := by
  exact_mod_cast Int.lt_zpow_succ_log_self one_lt_two x

/-- The power of two below `x` is a multiple of the unit. -/
theorem zpow_log_eq (hPrecision : 0 < precision) (x : K) :
    (2 : K) ^ Int.log 2 x = (2 ^ (precision - 1) : ℕ) * unit precision x := by
  rw [unit, Nat.cast_pow, Nat.cast_ofNat, ← zpow_natCast, ← zpow_add₀ two_pos.ne']
  congr 1
  omega

theorem abs_sub_round_eq (precision : ℕ) (x : K) :
    |x - round precision x| =
      |x / unit precision x - roundEven (x / unit precision x)| * unit precision x := by
  have hUnit : unit precision x ≠ 0 := (unit_pos precision x).ne'
  rw [round, ← abs_of_pos (unit_pos precision x), ← abs_mul, abs_of_pos (unit_pos precision x),
    sub_mul, div_mul_cancel₀ x hUnit]

/-- The error is at most half a unit, and the unit is small against the number. -/
theorem abs_sub_round_le (hx : 0 < x) : |x - round precision x| ≤ x / 2 ^ precision := by
  have hUnit : unit precision x = 2 ^ Int.log 2 x * 2 / 2 ^ precision := by
    rw [unit, zpow_sub₀ two_ne_zero, zpow_add_one₀ two_ne_zero, zpow_natCast]
  have hHalf := abs_sub_roundEven_le_half (x / unit precision x)
  calc |x - round precision x|
      = |x / unit precision x - roundEven (x / unit precision x)| * unit precision x :=
        abs_sub_round_eq precision x
    _ ≤ 1 / 2 * unit precision x := by
        exact mul_le_mul_of_nonneg_right hHalf (unit_pos precision x).le
    _ = 2 ^ Int.log 2 x / 2 ^ precision := by
        rw [hUnit]
        ring
    _ ≤ x / 2 ^ precision := by
        exact div_le_div_of_nonneg_right (zpow_log_le hx) (by positivity)

theorem round_nonneg (hx : 0 < x) : 0 ≤ round precision x := by
  have hError := le_of_abs_le (abs_sub_round_le hx : |x - round precision x| ≤ _)
  have hSmall : x / 2 ^ precision ≤ x := div_le_self hx.le (one_le_pow₀ one_le_two)
  linarith

/-- Representable numbers that are not below the power of two at `x` are multiples of
the unit at `x`. -/
theorem exists_mul_unit {y : K} (hy : Representable precision y)
    (hLog : (2 : K) ^ Int.log 2 x ≤ y) : ∃ n : ℤ, y = n * unit precision x := by
  obtain ⟨significand, exponent, hSignificand, rfl⟩ := hy
  have hExponent : Int.log 2 x < precision + exponent := by
    have hLt : (2 : K) ^ Int.log 2 x < 2 ^ ((precision : ℤ) + exponent) := by
      refine hLog.trans_lt ?_
      rw [zpow_add₀ two_ne_zero, zpow_natCast]
      exact mul_lt_mul_of_pos_right (by exact_mod_cast hSignificand) (zpow_pos two_pos _)
    exact (zpow_lt_zpow_iff_right₀ one_lt_two).mp hLt
  obtain ⟨shift, hShift⟩ : ∃ shift : ℕ, exponent = shift + (Int.log 2 x + 1 - precision) :=
    ⟨(exponent - (Int.log 2 x + 1 - precision)).toNat, by omega⟩
  refine ⟨significand * 2 ^ shift, ?_⟩
  rw [unit, hShift, zpow_add₀ two_ne_zero, zpow_natCast]
  push_cast
  ring

theorem round_of_mul_unit {n : ℤ} (h : x = n * unit precision x) : round precision x = x := by
  have hUnit : unit precision x ≠ 0 := (unit_pos precision x).ne'
  have hQuotient : x / unit precision x = n := by
    rw [div_eq_iff hUnit]
    exact h
  rw [round, hQuotient, roundEven_intCast]
  exact h.symm

/-- What has a significand of that many bits stays as it is. -/
theorem round_of_representable (hx : 0 < x) (h : Representable precision x) :
    round precision x = x := by
  obtain ⟨n, hn⟩ := exists_mul_unit h (zpow_log_le hx)
  exact round_of_mul_unit hn

theorem abs_sub_round_le_mul_unit (x : K) (n : ℤ) :
    |x - round precision x| ≤ |x - n * unit precision x| := by
  have hUnit : 0 < unit precision x := unit_pos precision x
  have hNearest := abs_sub_roundEven_le (x / unit precision x) n
  calc |x - round precision x|
      = |x / unit precision x - roundEven (x / unit precision x)| * unit precision x :=
        abs_sub_round_eq precision x
    _ ≤ |x / unit precision x - n| * unit precision x :=
        mul_le_mul_of_nonneg_right hNearest hUnit.le
    _ = |x - n * unit precision x| := by
        rw [← abs_of_pos hUnit, ← abs_mul, abs_of_pos hUnit, sub_mul, div_mul_cancel₀ x hUnit.ne']

/-- No representable number is nearer. -/
theorem abs_sub_round_le_representable (hPrecision : 0 < precision) (hx : 0 < x) {y : K}
    (hy : Representable precision y) : |x - round precision x| ≤ |x - y| := by
  by_cases hLog : (2 : K) ^ Int.log 2 x ≤ y
  · obtain ⟨n, rfl⟩ := exists_mul_unit hy hLog
    exact abs_sub_round_le_mul_unit x n
  · -- The power of two itself lies between such a number and `x`.
    have hPower : |x - round precision x| ≤ _ :=
      abs_sub_round_le_mul_unit x (2 ^ (precision - 1) : ℕ)
    rw [Int.cast_natCast, ← zpow_log_eq hPrecision x] at hPower
    refine hPower.trans ?_
    have hBelow : y < 2 ^ Int.log 2 x := not_le.mp hLog
    have hAbove := zpow_log_le hx
    rw [abs_of_nonneg (by linarith), abs_of_nonneg (by linarith)]
    linarith

/-- The quotient by the unit is a full significand. -/
theorem significand_bounds (hPrecision : 0 < precision) (hx : 0 < x) :
    ((2 ^ (precision - 1) : ℕ) : K) ≤ x / unit precision x ∧
      x / unit precision x < ((2 ^ precision : ℕ) : K) := by
  have hUnit : 0 < unit precision x := unit_pos precision x
  constructor
  · rw [le_div_iff₀ hUnit, ← zpow_log_eq hPrecision x]
    exact zpow_log_le hx
  · rw [div_lt_iff₀ hUnit, unit, Nat.cast_pow, Nat.cast_ofNat, ← zpow_natCast,
      ← zpow_add₀ two_ne_zero]
    have hExponent : (precision : ℤ) + (Int.log 2 x + 1 - precision) = Int.log 2 x + 1 := by omega
    rw [hExponent]
    exact lt_zpow_log_add_one x

/-- Between two neighbours with a full significand, the unit is their distance. -/
theorem unit_eq_of_between (hPrecision : 0 < precision) {significand : ℕ} {exponent : ℤ}
    (hFull : 2 ^ (precision - 1) ≤ significand) (hBelow : significand < 2 ^ precision)
    (hLow : significand * 2 ^ exponent ≤ x) (hHigh : x < (significand + 1) * 2 ^ exponent) :
    unit precision x = 2 ^ exponent := by
  have hPower : (0 : K) < 2 ^ exponent := zpow_pos two_pos _
  have hOne : ((2 ^ (precision - 1) : ℕ) : K) ≤ significand := by exact_mod_cast hFull
  have hTwo : (significand : K) + 1 ≤ ((2 ^ precision : ℕ) : K) := by exact_mod_cast hBelow
  have hLogLow : (2 : K) ^ (((precision - 1 : ℕ) : ℤ) + exponent) ≤ x := by
    rw [zpow_add₀ two_ne_zero, zpow_natCast, ← Nat.cast_ofNat, ← Nat.cast_pow]
    exact (mul_le_mul_of_nonneg_right hOne hPower.le).trans hLow
  have hLogHigh : x < (2 : K) ^ ((precision : ℤ) + exponent) := by
    rw [zpow_add₀ two_ne_zero, zpow_natCast, ← Nat.cast_ofNat, ← Nat.cast_pow]
    exact hHigh.trans_le (mul_le_mul_of_nonneg_right hTwo hPower.le)
  have hx : 0 < x := (zpow_pos two_pos _).trans_le hLogLow
  have hLower : ((precision - 1 : ℕ) : ℤ) + exponent ≤ Int.log 2 x :=
    (Int.zpow_le_iff_le_log one_lt_two hx).mp (by exact_mod_cast hLogLow)
  have hUpper : Int.log 2 x < (precision : ℤ) + exponent :=
    (Int.lt_zpow_iff_log_lt one_lt_two hx).mp (by exact_mod_cast hLogHigh)
  rw [unit]
  congr 1
  omega

/-- The upper of two neighbours with a full significand is at `bound` or above it, and
`x` lies between them, nearer to the upper one or in the middle with the lower one odd. -/
def Crosses (precision : ℕ) (x bound : K) : Prop :=
  ∃ (significand : ℕ) (exponent : ℤ), 2 ^ (precision - 1) ≤ significand ∧
    significand < 2 ^ precision ∧ significand * 2 ^ exponent < x ∧
    bound ≤ (significand + 1) * 2 ^ exponent ∧
    ((2 * significand + 1) * 2 ^ exponent < 2 * x ∨
      (2 * significand + 1) * 2 ^ exponent = 2 * x ∧ Odd significand)

/-- Rounding up, in terms of the middle between the neighbours. -/
theorem roundsUp_iff_middle {unit : K} (hUnit : 0 < unit) {significand : ℕ}
    (hFloor : ⌊x / unit⌋ = significand) :
    RoundsUp (x / unit) ↔ (2 * significand + 1) * unit < 2 * x ∨
      (2 * significand + 1) * unit = 2 * x ∧ Odd significand := by
  have hFract : Int.fract (x / unit) = x / unit - significand := by
    rw [Int.fract, hFloor, Int.cast_natCast]
  have hMore : 1 / 2 < Int.fract (x / unit) ↔ (2 * significand + 1) * unit < 2 * x := by
    rw [hFract, lt_sub_iff_add_lt, lt_div_iff₀ hUnit]
    constructor <;> intro h <;> linarith
  have hEqual : Int.fract (x / unit) = 1 / 2 ↔ (2 * significand + 1) * unit = 2 * x := by
    rw [hFract, sub_eq_iff_eq_add, div_eq_iff hUnit.ne']
    constructor <;> intro h <;> linarith
  rw [RoundsUp, hMore, hEqual, hFloor, Int.odd_coe_nat]

theorem crosses_of_le_round (hPrecision : 0 < precision) {bound : K} (hx : 0 < x)
    (hBound : x < bound) (h : bound ≤ round precision x) : Crosses precision x bound := by
  have hUnit : 0 < unit precision x := unit_pos precision x
  obtain ⟨hFull, hBelow⟩ := significand_bounds hPrecision hx
  obtain ⟨significand, hFloor⟩ : ∃ significand : ℕ, ⌊x / unit precision x⌋ = significand :=
    ⟨_, (Int.toNat_of_nonneg (Int.floor_nonneg.mpr (by positivity))).symm⟩
  have hFloorLe : (significand : K) ≤ x / unit precision x := by
    exact_mod_cast Int.le_floor.mp hFloor.ge
  have hLe : significand * unit precision x ≤ x := (le_div_iff₀ hUnit).mp hFloorLe
  -- Rounding down would stay below the bound.
  have hUp : RoundsUp (x / unit precision x) := by
    by_contra hDown
    rw [round, roundEven, if_neg hDown, hFloor, Int.cast_natCast] at h
    linarith
  have hMiddle := (roundsUp_iff_middle hUnit hFloor).mp hUp
  rw [round, roundEven, if_pos hUp, hFloor] at h
  refine ⟨significand, _, ?_, ?_, ?_, by exact_mod_cast h, hMiddle⟩
  · have hFloorFull : ((2 ^ (precision - 1) : ℕ) : ℤ) ≤ ⌊x / unit precision x⌋ :=
      Int.le_floor.mpr (by exact_mod_cast hFull)
    rw [hFloor] at hFloorFull
    exact_mod_cast hFloorFull
  · exact_mod_cast hFloorLe.trans_lt hBelow
  · rw [← unit]
    rcases hMiddle with hMore | ⟨hEqual, -⟩ <;> linarith

theorem le_round_of_crosses (hPrecision : 0 < precision) {bound : K} (hBound : x < bound)
    (h : Crosses precision x bound) : bound ≤ round precision x := by
  obtain ⟨significand, exponent, hFull, hBelow, hLow, hHigh, hMiddle⟩ := h
  have hUnit : 0 < unit precision x := unit_pos precision x
  have hSame : unit precision x = 2 ^ exponent :=
    unit_eq_of_between hPrecision hFull hBelow hLow.le (hBound.trans_le hHigh)
  rw [← hSame] at hLow hHigh hMiddle
  have hLowQuotient : significand < x / unit precision x := (lt_div_iff₀ hUnit).mpr hLow
  have hHighQuotient : x / unit precision x < significand + 1 :=
    (div_lt_iff₀ hUnit).mpr (hBound.trans_le hHigh)
  have hFloor : ⌊x / unit precision x⌋ = significand :=
    Int.floor_eq_iff.mpr ⟨by exact_mod_cast hLowQuotient.le, by exact_mod_cast hHighQuotient⟩
  rw [round, roundEven, if_pos ((roundsUp_iff_middle hUnit hFloor).mpr hMiddle), hFloor]
  exact_mod_cast hHigh

/-- Below a bound, a number is rounded to the bound or past it exactly in such a gap. -/
theorem le_round_iff_crosses (hPrecision : 0 < precision) {bound : K} (hx : 0 < x)
    (hBound : x < bound) : bound ≤ round precision x ↔ Crosses precision x bound :=
  ⟨crosses_of_le_round hPrecision hx hBound, le_round_of_crosses hPrecision hBound⟩

end BinaryRounding
