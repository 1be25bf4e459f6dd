import Mathlib.Data.Rat.Floor
import NanoPowServer.Library.BinaryRounding
import NanoPowServer.Util.Bigint

/-! Difficulty multipliers. A double is the rational number it denotes. -/
namespace NanoPowServer

/-- The quotient as the double nearest to it. The difficulty is asserted to be
positive. -/
def toMultiplier (difficulty baseDifficulty : U128) : ℚ :=
  BinaryRounding.round 53 ((difficulty.number.toNat : ℚ) / baseDifficulty.number.toNat)

/-- The product is exact in the intermediate float. Conversion truncates towards
zero, and out of range it keeps the value modulo the width. -/
def fromMultiplier (multiplier : ℚ) (baseDifficulty : U128) : U128 :=
  let product := (baseDifficulty.number.toNat : ℚ) * multiplier
  Bigint.set (BitVec.ofInt _ (product.num.tdiv product.den))

end NanoPowServer
