import NanoPowServer.Util.Multiplier

/-! What becomes of a difficulty that is converted to a multiplier and back, and of a
multiplier whose difficulty does not fit. -/
namespace NanoPowServer

open BinaryRounding

variable {baseDifficulty difficulty : U128} {multiplier : ℚ}

theorem tdiv_eq_floor {product : ℚ} (h : 0 ≤ product) :
    product.num.tdiv product.den = (⌊product⌋₊ : ℤ) := by
  rw [Int.tdiv_eq_ediv_of_nonneg (Rat.num_nonneg.mpr h), ← Rat.floor_def',
    Int.natCast_floor_eq_floor h]

/-- Conversion keeps the integral part of the product modulo 2^128. -/
theorem number_fromMultiplier (h : 0 ≤ multiplier) (baseDifficulty : U128) :
    (fromMultiplier multiplier baseDifficulty).number.toNat =
      ⌊(baseDifficulty.number.toNat : ℚ) * multiplier⌋₊ % 2 ^ 128 := by
  have hProduct : 0 ≤ (baseDifficulty.number.toNat : ℚ) * multiplier :=
    mul_nonneg (Nat.cast_nonneg _) h
  rw [fromMultiplier, Bigint.number_set, tdiv_eq_floor hProduct, BitVec.ofInt_natCast,
    BitVec.toNat_ofNat]

/-- The result is the integral part of the product exactly if that fits. -/
theorem number_fromMultiplier_eq_iff (h : 0 ≤ multiplier) :
    (fromMultiplier multiplier baseDifficulty).number.toNat =
        ⌊(baseDifficulty.number.toNat : ℚ) * multiplier⌋₊ ↔
      ⌊(baseDifficulty.number.toNat : ℚ) * multiplier⌋₊ < 2 ^ 128 := by
  rw [number_fromMultiplier h]
  exact Nat.mod_eq_iff_lt (by norm_num)

/-- As far as the products fit, a larger multiplier gives no smaller difficulty. -/
theorem number_fromMultiplier_mono {larger : ℚ} (h : 0 ≤ multiplier) (hLarger : multiplier ≤ larger)
    (hFits : ⌊(baseDifficulty.number.toNat : ℚ) * larger⌋₊ < 2 ^ 128) :
    (fromMultiplier multiplier baseDifficulty).number.toNat ≤
      (fromMultiplier larger baseDifficulty).number.toNat := by
  have hFloor : ⌊(baseDifficulty.number.toNat : ℚ) * multiplier⌋₊ ≤
      ⌊(baseDifficulty.number.toNat : ℚ) * larger⌋₊ :=
    Nat.floor_le_floor (mul_le_mul_of_nonneg_left hLarger (Nat.cast_nonneg _))
  rw [(number_fromMultiplier_eq_iff h).mpr (hFloor.trans_lt hFits),
    (number_fromMultiplier_eq_iff (h.trans hLarger)).mpr hFits]
  exact hFloor

/-- The difficulty that comes back differs by one and the precision of a double at
most, and not at all if the quotient is a double. -/
def RoundTrips (difficulty baseDifficulty : U128) : Prop :=
  let r := (fromMultiplier (toMultiplier difficulty baseDifficulty) baseDifficulty).number.toNat
  |(r : ℚ) - difficulty.number.toNat| ≤ 1 + difficulty.number.toNat / 2 ^ 52 ∧
    (Representable 53 ((difficulty.number.toNat : ℚ) / baseDifficulty.number.toNat) →
      r = difficulty.number.toNat)

/-- Of the two doubles around the quotient the upper one is the nearer, and 2^128 over
the base is not above it. -/
def Overshoots (difficulty baseDifficulty : U128) : Prop :=
  Crosses 53 ((difficulty.number.toNat : ℚ) / baseDifficulty.number.toNat)
    (2 ^ 128 / baseDifficulty.number.toNat)

section RoundTrip

variable (hBase : 0 < baseDifficulty.number.toNat) (hDifficulty : 0 < difficulty.number.toNat)
include hBase hDifficulty

theorem toMultiplier_nonneg : 0 ≤ toMultiplier difficulty baseDifficulty :=
  round_nonneg (div_pos (by exact_mod_cast hDifficulty) (by exact_mod_cast hBase))

/-- No double is nearer to the quotient than the multiplier. -/
theorem abs_sub_toMultiplier_le {double : ℚ} (h : Representable 53 double) :
    |(difficulty.number.toNat : ℚ) / baseDifficulty.number.toNat -
        toMultiplier difficulty baseDifficulty| ≤
      |(difficulty.number.toNat : ℚ) / baseDifficulty.number.toNat - double| := by
  have hQuotient : (0 : ℚ) < difficulty.number.toNat / baseDifficulty.number.toNat :=
    div_pos (by exact_mod_cast hDifficulty) (by exact_mod_cast hBase)
  exact abs_sub_round_le_representable (by decide) hQuotient h

/-- The product differs from the difficulty by the rounding error of the quotient. -/
theorem abs_sub_product_le :
    |(difficulty.number.toNat : ℚ) -
        baseDifficulty.number.toNat * toMultiplier difficulty baseDifficulty| ≤
      difficulty.number.toNat / 2 ^ 53 := by
  have hBase : (0 : ℚ) < baseDifficulty.number.toNat := by exact_mod_cast hBase
  have hQuotient : (0 : ℚ) < difficulty.number.toNat / baseDifficulty.number.toNat :=
    div_pos (by exact_mod_cast hDifficulty) hBase
  have hNear : |(_ : ℚ) - round 53 _| ≤ _ := abs_sub_round_le hQuotient
  have hError := mul_le_mul_of_nonneg_left hNear hBase.le
  rw [← abs_of_pos hBase, ← abs_mul, abs_of_pos hBase, mul_sub, mul_div_cancel₀ _ hBase.ne',
    ← mul_div_assoc, mul_div_cancel₀ _ hBase.ne'] at hError
  exact hError

theorem overshoots_iff :
    Overshoots difficulty baseDifficulty ↔
      (2 : ℚ) ^ 128 ≤ baseDifficulty.number.toNat * toMultiplier difficulty baseDifficulty := by
  have hBase : (0 : ℚ) < baseDifficulty.number.toNat := by exact_mod_cast hBase
  have hQuotient : (0 : ℚ) < difficulty.number.toNat / baseDifficulty.number.toNat :=
    div_pos (by exact_mod_cast hDifficulty) hBase
  have hBound : (difficulty.number.toNat : ℚ) / baseDifficulty.number.toNat <
      2 ^ 128 / baseDifficulty.number.toNat :=
    div_lt_div_of_pos_right (by exact_mod_cast difficulty.number.isLt) hBase
  rw [Overshoots, ← le_round_iff_crosses (by decide) hQuotient hBound, div_le_iff₀' hBase]
  rfl

/-- In range, the difficulty comes back up to the rounding error and truncation. -/
theorem roundTrips_of_fits (hFits : ¬ Overshoots difficulty baseDifficulty) :
    RoundTrips difficulty baseDifficulty := by
  have hError := abs_le.mp (abs_sub_product_le hBase hDifficulty)
  rw [overshoots_iff hBase hDifficulty, not_le] at hFits
  have hMultiplier := toMultiplier_nonneg hBase hDifficulty
  have hProduct : 0 ≤ (baseDifficulty.number.toNat : ℚ) * toMultiplier difficulty baseDifficulty :=
    mul_nonneg (Nat.cast_nonneg _) hMultiplier
  have hLow := Nat.floor_le hProduct
  have hHigh := Nat.lt_floor_add_one
    ((baseDifficulty.number.toNat : ℚ) * toMultiplier difficulty baseDifficulty)
  have hNumber := (number_fromMultiplier_eq_iff hMultiplier).mpr
    ((Nat.floor_lt hProduct).mpr (by exact_mod_cast hFits))
  have hHalf : (difficulty.number.toNat : ℚ) / 2 ^ 53 ≤ difficulty.number.toNat / 2 ^ 52 :=
    div_le_div_of_nonneg_left (Nat.cast_nonneg _) (by norm_num) (by norm_num)
  unfold RoundTrips
  dsimp only
  rw [hNumber]
  refine ⟨abs_le.mpr ⟨by linarith, by linarith⟩, fun hExact => ?_⟩
  have hBasePos : (0 : ℚ) < baseDifficulty.number.toNat := by exact_mod_cast hBase
  have hSame : toMultiplier difficulty baseDifficulty =
      (difficulty.number.toNat : ℚ) / baseDifficulty.number.toNat :=
    round_of_representable (div_pos (by exact_mod_cast hDifficulty) hBasePos) hExact
  rw [hSame, mul_div_cancel₀ _ hBasePos.ne', Nat.floor_natCast]

/-- Past the range, what comes back is a small number in place of one near 2^128. -/
theorem not_roundTrips_of_overshoots (hOver : Overshoots difficulty baseDifficulty) :
    ¬ RoundTrips difficulty baseDifficulty := by
  rintro ⟨hClose, -⟩
  have hError := abs_le.mp (abs_sub_product_le hBase hDifficulty)
  rw [overshoots_iff hBase hDifficulty] at hOver
  have hMultiplier := toMultiplier_nonneg hBase hDifficulty
  have hLt : (difficulty.number.toNat : ℚ) < 2 ^ 128 := by exact_mod_cast difficulty.number.isLt
  have hSmall : (difficulty.number.toNat : ℚ) / 2 ^ 53 < 2 ^ 75 := by
    rw [div_lt_iff₀ (by norm_num)]
    linarith
  have hDouble : (difficulty.number.toNat : ℚ) / 2 ^ 52 < 2 ^ 76 := by
    rw [div_lt_iff₀ (by norm_num)]
    linarith
  -- The product is less than 2^75 beyond the range, so this is what is left of it.
  have hFloorLow : 2 ^ 128 ≤
      ⌊(baseDifficulty.number.toNat : ℚ) * toMultiplier difficulty baseDifficulty⌋₊ :=
    Nat.le_floor (by exact_mod_cast hOver)
  have hFloorHigh :
      ⌊(baseDifficulty.number.toNat : ℚ) * toMultiplier difficulty baseDifficulty⌋₊ <
        2 ^ 128 + 2 ^ 75 := by
    refine (Nat.floor_lt (by linarith)).mpr ?_
    push_cast
    linarith
  have hRest : (fromMultiplier (toMultiplier difficulty baseDifficulty)
      baseDifficulty).number.toNat < 2 ^ 75 := by
    rw [number_fromMultiplier hMultiplier]
    omega
  have hRest : ((fromMultiplier (toMultiplier difficulty baseDifficulty)
      baseDifficulty).number.toNat : ℚ) < 2 ^ 75 := by exact_mod_cast hRest
  have hFar := (abs_le.mp hClose).1
  linarith

/-- Over the whole range, the round trip is as good as a double allows exactly if the
quotient is not rounded up to 2^128 over the base or past it. -/
theorem roundTrips_iff :
    RoundTrips difficulty baseDifficulty ↔ ¬ Overshoots difficulty baseDifficulty :=
  ⟨fun h hOver => not_roundTrips_of_overshoots hBase hDifficulty hOver h,
    roundTrips_of_fits hBase hDifficulty⟩

/-- All but the topmost difficulties are out of reach of the rounding. -/
theorem roundTrips_of_le (hRange : difficulty.number.toNat ≤ 2 ^ 128 - 2 ^ 75) :
    RoundTrips difficulty baseDifficulty := by
  refine roundTrips_of_fits hBase hDifficulty ?_
  rw [overshoots_iff hBase hDifficulty, not_le]
  have hError := abs_le.mp (abs_sub_product_le hBase hDifficulty)
  have hRange : (difficulty.number.toNat : ℚ) ≤ ((2 ^ 128 - 2 ^ 75 : ℕ) : ℚ) :=
    Nat.cast_le.mpr hRange
  rw [Nat.cast_sub (by norm_num)] at hRange
  push_cast at hRange
  linarith

end RoundTrip

/-- Twice a base comes back as it was. -/
theorem roundTrips_double :
    RoundTrips (Bigint.set (BitVec.ofNat _ (2 ^ 62))) (Bigint.set (BitVec.ofNat _ (2 ^ 61))) := by
  have hBase : (Bigint.set (BitVec.ofNat _ (2 ^ 61)) : U128).number.toNat = 2 ^ 61 := by
    rw [Bigint.number_set]
    rfl
  have hDifficulty : (Bigint.set (BitVec.ofNat _ (2 ^ 62)) : U128).number.toNat = 2 ^ 62 := by
    rw [Bigint.number_set]
    rfl
  refine (roundTrips_iff (by rw [hBase]; decide) (by rw [hDifficulty]; decide)).mpr ?_
  rw [Overshoots, hBase, hDifficulty]
  rintro ⟨significand, exponent, hFull, hBelow, hLow, hHigh, -⟩
  -- The gap would have to reach from two to 2^67.
  have hPower : (0 : ℚ) < 2 ^ exponent := zpow_pos two_pos _
  have hFull : (2 : ℚ) ^ 52 ≤ significand := by exact_mod_cast hFull
  norm_num at hLow hHigh
  nlinarith

/-- The largest difficulty over the base one comes back as zero. -/
theorem not_roundTrips_max :
    ¬ ∀ difficulty baseDifficulty : U128, 0 < baseDifficulty.number.toNat →
      0 < difficulty.number.toNat → RoundTrips difficulty baseDifficulty := by
  intro hAll
  have hBase : (Bigint.set (BitVec.ofNat _ 1) : U128).number.toNat = 1 := by
    rw [Bigint.number_set]
    rfl
  have hDifficulty : (Bigint.set (BitVec.ofNat _ (2 ^ 128 - 1)) : U128).number.toNat =
      2 ^ 128 - 1 := by
    rw [Bigint.number_set]
    rfl
  have hOne : 0 < (Bigint.set (BitVec.ofNat _ 1) : U128).number.toNat := by rw [hBase]; decide
  have hMax : 0 < (Bigint.set (BitVec.ofNat _ (2 ^ 128 - 1)) : U128).number.toNat := by
    rw [hDifficulty]
    decide
  refine not_roundTrips_of_overshoots hOne hMax ?_ (hAll _ _ hOne hMax)
  rw [Overshoots, hBase, hDifficulty]
  refine ⟨2 ^ 53 - 1, 75, by decide, by decide, ?_, ?_, .inl ?_⟩ <;> norm_num

end NanoPowServer
