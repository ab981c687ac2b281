import Mathlib.Algebra.Order.Archimedean.Basic
import SmirkBackend.Chain.Electrum

/-!
# Amounts of an Electrum server

A server writes an amount in whole coins, as a decimal, and what reads it makes of it the `Nearest`
double.  `checkedBtcToSat` multiplies that by a hundred million and rounds, so its result is off by
half a unit of each of the two doubles.  Below `2 ^ 25` whole coins, more than there will ever be of
Bitcoin, the two together are less than half a satoshi, and the amount is read exactly:
`checkedBtcToSat_nearest`.  From `2 ^ 26` whole coins on, some neighbouring amounts share a double.
-/

namespace SmirkBackend

open Lib (toRat Nearest)
open Float.Model.UnpackedFloat

theorem toRat_zero : toRat 0.0 = some 0 := rfl

theorem toRat_hundredMillion : toRat 100000000.0 = some 100000000 := by
  have h : (100000000.0 : Float).toModel.unpack =
      .finite .positive (100000000 * 2 ^ 26) (-26) (by decide) := rfl
  unfold toRat
  rw [h]
  norm_num [Sign.apply]

/-- What is read from a positive double. -/
theorem checkedBtcToSat_of_near {value z : ℚ} {x : Float} {n : ℕ} (hx : toRat x = some value)
    (hvalue : 0 < value) (hz : toRat (x * 100000000.0) = some z) (hn : 0 < n) (hn' : n < 2 ^ 53)
    (hnear : |z - n| < 1 / 2) : ∃ w, checkedBtcToSat x = .ok w ∧ w.toNat = n := by
  have hzpos : 0 < z := by
    have h₁ := (abs_lt.mp hnear).1
    have h₂ : (1 : ℚ) ≤ n := by exact_mod_cast hn
    linarith
  obtain ⟨m', e', hpos', huz, rfl⟩ := Lib.unpack_of_toRat_pos hz hzpos
  have hround : Lib.roundHalfAway (x * 100000000.0) = .ofModel (.ofNat n) := by
    unfold Lib.roundHalfAway
    rw [huz]
    simp only [Lib.nearestNat_eq hnear]
  obtain ⟨hpos'', hun⟩ := Lib.unpack_ofNat hn hn'
  have hlog : n.log2 < 53 := (Nat.log2_lt hn.ne').mpr hn'
  have hrange : ¬ (9007199254740992.0 : Float) ≤ .ofModel (.ofNat n) := by
    have hmax : (9007199254740992.0 : Float).toModel.unpack =
        .finite .positive (2 ^ 52) 1 (by decide) := rfl
    have hgt : compare (1 : ℤ) (n.log2 - 52) = .gt := by
      rw [compare_gt_iff_gt]
      omega
    intro hle
    have hle' : (9007199254740992.0 : Float).toModel.unpack.le
        (Float.Model.ofNat n).unpack = true := of_decide_eq_true hle
    rw [hmax, hun] at hle'
    simp [Float.Model.UnpackedFloat.le, Float.Model.UnpackedFloat.compare, hgt] at hle'
  refine ⟨(Float.ofModel (.ofNat n)).toUInt64, ?_, Lib.toUInt64_ofNat hn hn'⟩
  unfold checkedBtcToSat
  simp only [Lib.isFinite_of_toRat hx, Lib.not_lt_zero_of_toRat hx hvalue.le, hround, hrange]
  rfl

theorem checkedBtcToSat_zero {x : Float} (hx : toRat x = some 0) : checkedBtcToSat x = .ok 0 := by
  obtain ⟨s, hux⟩ := Lib.unpack_of_toRat_zero hx
  have hmul : x * 100000000.0 = .ofModel (.pack (.zero s)) := by
    change Float.ofModel (.pack (mul .binary64 x.toModel.unpack
      (100000000.0 : Float).toModel.unpack)) = _
    rw [hux]
    cases s <;> rfl
  unfold checkedBtcToSat
  simp only [Lib.isFinite_of_toRat hx, Lib.not_lt_zero_of_toRat hx le_rfl, hmul]
  cases s <;> decide +kernel

/-- **Amounts are read exactly**: from the nearest double, below `2 ^ 25` whole coins. -/
theorem checkedBtcToSat_nearest {x : Float} {n : ℕ} (hn : n < 2 ^ 25 * 10 ^ 8)
    (h : Nearest x (n / 10 ^ 8)) : ∃ w, checkedBtcToSat x = .ok w ∧ w.toNat = n := by
  rcases Nat.eq_zero_or_pos n with rfl | hpos
  · obtain ⟨v, hv, hnearest⟩ := h
    have hle := hnearest 0.0 0 toRat_zero
    obtain rfl : v = 0 := by simpa using hle
    exact ⟨0, checkedBtcToSat_zero hv, rfl⟩
  · have hq : (0 : ℚ) < n / 10 ^ 8 := div_pos (by exact_mod_cast hpos) (by norm_num)
    obtain ⟨k, hlower, hupper⟩ := exists_mem_Ico_zpow hq one_lt_two
    have hn₁ : (1 : ℚ) ≤ n := by exact_mod_cast hpos
    have hk : k < 25 := by
      rw [← zpow_lt_zpow_iff_right₀ (one_lt_two (α := ℚ))]
      refine hlower.trans_lt ?_
      rw [div_lt_iff₀ (by norm_num)]
      exact_mod_cast hn
    have hk' : -27 < k + 1 := by
      rw [← zpow_lt_zpow_iff_right₀ (one_lt_two (α := ℚ))]
      refine lt_of_lt_of_le (lt_of_lt_of_le (b := 1 / 10 ^ 8) (by norm_num) ?_) hupper.le
      exact div_le_div_of_nonneg_right hn₁ (by norm_num)
    obtain ⟨v, hv, herror⟩ := h.error (by omega) (by omega) hlower hupper
    -- everything is measured in half units of the double
    have hu : (0 : ℚ) < 2 ^ (k - 53) := zpow_pos two_pos _
    have hu' : (2 : ℚ) ^ (k - 53) ≤ 1 / 2 ^ 29 := by
      rw [one_div, ← zpow_natCast, ← zpow_neg]
      exact zpow_le_zpow_right₀ one_le_two (by push_cast; omega)
    have hunits (d : ℕ) : (2 : ℚ) ^ (k - 53 + d) = 2 ^ (k - 53) * 2 ^ d := by
      rw [zpow_add₀ two_ne_zero, zpow_natCast]
    have hlow : (2 : ℚ) ^ k = 2 ^ (k - 53) * 2 ^ 53 := by
      rw [← hunits]
      congr 1
      push_cast
      ring
    have htop : (2 : ℚ) ^ (k + 1) = 2 ^ (k - 53) * 2 ^ 54 := by
      rw [← hunits]
      congr 1
      push_cast
      ring
    have hproduct : (2 : ℚ) ^ (k + 27 + 1) = 2 ^ (k - 53) * 2 ^ 81 := by
      rw [← hunits]
      congr 1
      push_cast
      ring
    have hgrid : (2 : ℚ) ^ (k + 27 - 53) = 2 ^ (k - 53) * 2 ^ 27 := by
      rw [← hunits]
      congr 1
      push_cast
      ring
    have hscaled : (n : ℚ) = n / 10 ^ 8 * 100000000 := by norm_num
    rw [hlow] at hlower
    rw [htop] at hupper
    obtain ⟨h₁, h₂⟩ := abs_le.mp herror
    have hvpos : 2 ^ (-500 : ℤ) ≤ v := by
      have hsmall : (2 : ℚ) ^ (-500 : ℤ) ≤ 2 ^ (k - 53) :=
        zpow_le_zpow_right₀ one_le_two (by omega)
      linarith
    obtain ⟨z, hz, hround⟩ := Lib.toRat_mul_near hv toRat_hundredMillion hvpos
      (((zpow_le_one_iff_right₀ one_lt_two).mpr (by norm_num)).trans (by norm_num))
      (k := k + 27) (by omega) (by rw [hproduct]; linarith)
    rw [hgrid] at hround
    obtain ⟨h₃, h₄⟩ := abs_le.mp hround
    refine checkedBtcToSat_of_near hv (by linarith) hz hpos (by omega) ?_
    rw [abs_lt]
    constructor <;> linarith

end SmirkBackend
