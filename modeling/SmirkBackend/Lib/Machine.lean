import Mathlib.Algebra.Order.Ring.Int
import Mathlib.Data.Int.Notation
import Mathlib.Data.Nat.Notation
import Mathlib.Order.Basic
import Mathlib.Tactic.NormNum

/-!
# Saturating machine arithmetic

Signed and unsigned 64-bit integers under the arithmetic that clamps instead of wrapping, and
the reinterpretation of a signed word as an unsigned one.

`toInt_saturatingSub` and `toInt_saturatingAdd` give the clamped value, `toNat_saturatingAddU` and
`toNat_saturatingSubU` the unsigned one.  A negative word reads as one of at least `2 ^ 63`
(`toNat_toUInt64`).
-/

namespace Lib

/-- The 64-bit integer nearest to `x`. -/
def clampInt64 (x : ℤ) : Int64 := Int64.ofInt (max (-2 ^ 63) (min (2 ^ 63 - 1) x))

theorem toInt_clampInt64 (x : ℤ) : (clampInt64 x).toInt = max (-2 ^ 63) (min (2 ^ 63 - 1) x) := by
  unfold clampInt64
  rw [Int64.toInt_ofInt_of_le] <;> omega

/-- `i64::saturating_sub`. -/
def saturatingSub (a b : Int64) : Int64 := clampInt64 (a.toInt - b.toInt)

/-- `i64::saturating_add`. -/
def saturatingAdd (a b : Int64) : Int64 := clampInt64 (a.toInt + b.toInt)

theorem toInt_saturatingSub (a b : Int64) :
    (saturatingSub a b).toInt = max (-2 ^ 63) (min (2 ^ 63 - 1) (a.toInt - b.toInt)) :=
  toInt_clampInt64 _

theorem toInt_saturatingAdd (a b : Int64) :
    (saturatingAdd a b).toInt = max (-2 ^ 63) (min (2 ^ 63 - 1) (a.toInt + b.toInt)) :=
  toInt_clampInt64 _

/-- The unsigned reading of a signed word. -/
theorem toNat_toUInt64 (a : Int64) :
    (a.toUInt64.toNat : ℤ) = if 0 ≤ a.toInt then a.toInt else a.toInt + 2 ^ 64 := by
  have hlt : a.toUInt64.toNat < 2 ^ 64 := a.toUInt64.toNat_lt
  have hint : a.toInt = (a.toUInt64.toNat : ℤ).bmod (2 ^ 64) := by
    rw [← Int64.toNat_toBitVec]
    exact BitVec.toInt_eq_toNat_bmod _
  rw [Int.bmod_def] at hint
  split_ifs at hint ⊢ <;> omega

/-! ### Unsigned words -/

/-- `u64::saturating_add`. -/
def saturatingAddU (a b : UInt64) : UInt64 := UInt64.ofNat (min (a.toNat + b.toNat) (2 ^ 64 - 1))

/-- `u64::saturating_sub`. -/
def saturatingSubU (a b : UInt64) : UInt64 := UInt64.ofNat (a.toNat - b.toNat)

/-- `u64::saturating_mul`. -/
def saturatingMulU (a b : UInt64) : UInt64 := UInt64.ofNat (min (a.toNat * b.toNat) (2 ^ 64 - 1))

/-- `u32::saturating_add`. -/
def saturatingAdd32 (a b : UInt32) : UInt32 := UInt32.ofNat (min (a.toNat + b.toNat) (2 ^ 32 - 1))

theorem toNat_saturatingAddU (a b : UInt64) :
    (saturatingAddU a b).toNat = min (a.toNat + b.toNat) (2 ^ 64 - 1) := by
  unfold saturatingAddU
  rw [UInt64.toNat_ofNat', Nat.mod_eq_of_lt (by omega)]

theorem toNat_saturatingSubU (a b : UInt64) :
    (saturatingSubU a b).toNat = a.toNat - b.toNat := by
  have := a.toNat_lt
  unfold saturatingSubU
  rw [UInt64.toNat_ofNat', Nat.mod_eq_of_lt (by omega)]

theorem toNat_saturatingAdd32 (a b : UInt32) :
    (saturatingAdd32 a b).toNat = min (a.toNat + b.toNat) (2 ^ 32 - 1) := by
  unfold saturatingAdd32
  rw [UInt32.toNat_ofNat', Nat.mod_eq_of_lt (by omega)]

/-- The sum of unsigned words; `none` when it overflows, which traps. -/
def sumU (xs : List UInt64) : Option UInt64 :=
  let total := (xs.map UInt64.toNat).sum
  if total < 2 ^ 64 then some (UInt64.ofNat total) else none

end Lib
