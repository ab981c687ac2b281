import Mathlib

/-!
# Binary64, as far as amounts of money need it

The operations of IEEE double precision come with the logical model of `Float`, which rounds, packs
and unpacks bit patterns.  Here a finite double is the number that it stands for, `toRat`, and a
double that is `Nearest` to a number is what reading a decimal gives.

Rounding shifts the mantissa to 53 bits and keeps what was dropped as two bits
(`roundWithAccuracy_near`), and what has 53 bits is stored as it is (`unpack_pack`).  Between two
powers of two the doubles are therefore one unit apart:

* `Nearest.error` : the nearest double is half a unit away, or less
* `toRat_mul_near` : so is a product, from the exact one

The rounding to the nearest integer, ties away from zero, is not part of that model; it is defined
here (`roundHalfAway`), and `nearestNat_eq` says when it is a given integer.
-/

namespace Lib

open Float.Model (UnpackedFloat Format totalExponent)
open Float.Model.UnpackedFloat

/-! ### Rounding a mantissa -/

/-- Shifting to the right: what is left, the last bit that was dropped, and whether another one
was set. -/
theorem shiftRight_succ (m t : ℕ) : ExtendedMantissa.mk m false false >>> (t + 1) =
    ⟨m / 2 ^ (t + 1), m / 2 ^ t % 2 != 0, m % 2 ^ t != 0⟩ := by
  induction t with
  | zero => simp [HShiftRight.hShiftRight, Nat.repeat, ExtendedMantissa.shiftRightOne, Nat.mod_one]
  | succ t ih =>
    change (ExtendedMantissa.mk m false false >>> (t + 1)).shiftRightOne = _
    rw [ih, ExtendedMantissa.shiftRightOne, Nat.div_div_eq_div_mul, ← pow_succ, Nat.mod_pow_succ]
    congr 1
    rw [Bool.eq_iff_iff]
    simp
    omega

theorem mantissa_shiftRight (m d : ℕ) :
    (ExtendedMantissa.mk m false false >>> d).mantissa = m / 2 ^ d := by
  cases d with
  | zero => exact (Nat.div_one m).symm
  | succ t => rw [shiftRight_succ]

/-- The rounded mantissa is at most half a unit away. -/
theorem roundedMantissa_near {m t r : ℕ}
    (hr : (ExtendedMantissa.mk m false false >>> (t + 1)).roundedMantissa = r) :
    r * 2 ^ (t + 1) ≤ m + 2 ^ t ∧ m ≤ r * 2 ^ (t + 1) + 2 ^ t := by
  have hdiv := Nat.div_add_mod m (2 ^ t)
  have hlow := Nat.mod_lt m (Nat.two_pow_pos t)
  have hhigh : m / 2 ^ (t + 1) = m / 2 ^ t / 2 := by
    rw [Nat.div_div_eq_div_mul, ← pow_succ]
  rw [shiftRight_succ, hhigh] at hr
  rw [pow_succ]
  generalize m / 2 ^ t = q at *
  generalize m % 2 ^ t = l at *
  generalize 2 ^ t = p at *
  obtain ⟨h, b, hb, rfl⟩ : ∃ h b, b < 2 ∧ q = 2 * h + b := ⟨q / 2, q % 2, by omega, by omega⟩
  have hhalf : (2 * h + b) / 2 = h := by omega
  have hbit : (2 * h + b) % 2 = b := by omega
  rw [hhalf, hbit] at hr
  have hprod : p * (2 * h + b) = h * (p * 2) + b * p := by ring
  rw [hprod] at hdiv
  obtain rfl | rfl : b = 0 ∨ b = 1 := by omega
  · have hfloor (sticky : Bool) : (ExtendedMantissa.mk h false sticky).roundedMantissa = h := by
      cases sticky <;> rfl
    obtain rfl : h = r := (hfloor _).symm.trans hr
    omega
  · rcases Nat.eq_zero_or_pos l with rfl | hl
    · -- a tie goes to the even neighbour
      obtain rfl : h + h % 2 = r := hr
      rw [Nat.add_mul]
      rcases Nat.mod_two_eq_zero_or_one h with heven | hodd
      · rw [heven]
        omega
      · rw [hodd]
        omega
    · rw [show (l != 0) = true by simpa using hl.ne'] at hr
      obtain rfl : h + 1 = r := hr
      rw [Nat.add_mul]
      omega

theorem targetExponent_eq {m : ℕ} {e : ℤ} (he : -1074 ≤ (m.log2 : ℤ) + e - 52) :
    Format.binary64.targetExponent (totalExponent m e) = m.log2 + e - 52 := by
  simp only [Format.targetExponent, totalExponent, Format.mantissaBits, Format.minExponent]
  norm_num
  omega

theorem shiftToTargetExponent_normal {m : ℕ} {e : ℤ} (hm : m.log2 = 52) (he : -1074 ≤ e) :
    shiftToTargetExponent .binary64 m e .exact = (⟨m, false, false⟩, e) := by
  have htarget : Format.binary64.targetExponent (totalExponent m e) = e := by
    rw [targetExponent_eq (by omega), hm]
    omega
  simp [shiftToTargetExponent, htarget, shiftToExponent, ExtendedMantissa.ofMantissaAndAccuracy,
    HShiftRight.hShiftRight, Nat.repeat]

theorem shiftToTargetExponent_long {m t : ℕ} {e : ℤ} (hm : m.log2 = 53 + t)
    (he : -1074 ≤ e + (t + 1 : ℕ)) : shiftToTargetExponent .binary64 m e .exact =
      (ExtendedMantissa.mk m false false >>> (t + 1), e + (t + 1 : ℕ)) := by
  have htarget : Format.binary64.targetExponent (totalExponent m e) = e + (t + 1 : ℕ) := by
    rw [targetExponent_eq (by omega), hm]
    omega
  have hshift : (e + ((t + 1 : ℕ) : ℤ) - e).toNat = t + 1 := by omega
  simp only [shiftToTargetExponent, htarget, shiftToExponent, ExtendedMantissa.ofMantissaAndAccuracy,
    hshift]

theorem roundWithAccuracy_eq (s : Sign) (em₂ : ExtendedMantissa) {m : ℕ} {e e₁ e₂ : ℤ}
    {em₁ : ExtendedMantissa}
    (h₁ : shiftToTargetExponent .binary64 m e .exact = (em₁, e₁))
    (h₂ : shiftToTargetExponent .binary64 em₁.roundedMantissa e₁ .exact = (em₂, e₂))
    (hpos : 0 < em₂.mantissa) :
    roundWithAccuracy .binary64 s m e .exact = .finite s em₂.mantissa e₂ hpos := by
  simp only [roundWithAccuracy, h₁, h₂]
  exact dif_neg hpos.ne'

theorem roundWithAccuracy_normal (s : Sign) {m : ℕ} {e : ℤ} (hm : m.log2 = 52) (he : -1074 ≤ e)
    (hpos : 0 < m) : roundWithAccuracy .binary64 s m e .exact = .finite s m e hpos :=
  roundWithAccuracy_eq s _ (shiftToTargetExponent_normal hm he) (shiftToTargetExponent_normal hm he)
    hpos

/-- A longer one is rounded to the nearest, which is half a unit away or less. -/
theorem roundWithAccuracy_near (s : Sign) {m t : ℕ} {e : ℤ} (hm : m.log2 = 53 + t)
    (he : -1074 ≤ e + (t + 1 : ℕ)) : ∃ m' e' hpos,
      roundWithAccuracy .binary64 s m e .exact = .finite s m' e' hpos ∧ m'.log2 = 52 ∧
      e + (t + 1 : ℕ) ≤ e' ∧ e' ≤ e + (t + 2 : ℕ) ∧
      |(m' : ℚ) * 2 ^ e' - m * 2 ^ e| ≤ 2 ^ (e + t) := by
  obtain ⟨r, hr⟩ : ∃ r, (ExtendedMantissa.mk m false false >>> (t + 1)).roundedMantissa = r :=
    ⟨_, rfl⟩
  obtain ⟨hle, hge⟩ := roundedMantissa_near hr
  have hnear : |(r : ℚ) * 2 ^ (e + (t + 1 : ℕ)) - m * 2 ^ e| ≤ 2 ^ (e + t) := by
    have hscale : (0 : ℚ) < 2 ^ e := zpow_pos two_pos e
    have hle' : (r : ℚ) * 2 ^ (t + 1) ≤ m + 2 ^ t := by exact_mod_cast hle
    have hge' : (m : ℚ) ≤ r * 2 ^ (t + 1) + 2 ^ t := by exact_mod_cast hge
    have hshift : (r : ℚ) * (2 ^ e * 2 ^ (t + 1)) - m * 2 ^ e =
        (r * 2 ^ (t + 1) - m) * 2 ^ e := by ring
    rw [zpow_add₀ two_ne_zero, zpow_natCast, hshift, abs_mul, abs_of_pos hscale,
      zpow_add₀ two_ne_zero, mul_comm (2 ^ e), zpow_natCast]
    refine mul_le_mul_of_nonneg_right ?_ hscale.le
    rw [abs_le]
    constructor <;> linarith
  have hpos : m ≠ 0 := by
    rintro rfl
    simp at hm
    omega
  have hlong : 2 ^ 52 * 2 ^ (t + 1) ≤ m := by
    rw [← pow_add, show 52 + (t + 1) = m.log2 by omega]
    exact Nat.log2_self_le hpos
  have hshort : m < 2 ^ 53 * 2 ^ (t + 1) := by
    rw [← pow_add, show 53 + (t + 1) = m.log2 + 1 by omega]
    exact Nat.lt_log2_self
  have hunit : 2 ^ (t + 1) = 2 * 2 ^ t := by rw [pow_succ, mul_comm]
  have htpos := Nat.two_pow_pos t
  -- the rounded mantissa has 53 bits, or is the next power of two
  have hlower : 2 ^ 52 ≤ r := by
    by_contra hlt
    have hmul := Nat.mul_le_mul_right (2 ^ (t + 1)) (show r + 1 ≤ 2 ^ 52 by omega)
    rw [Nat.add_mul] at hmul
    omega
  have hupper : r ≤ 2 ^ 53 := by
    by_contra hgt
    have hmul := Nat.mul_le_mul_right (2 ^ (t + 1)) (show 2 ^ 53 + 1 ≤ r by omega)
    rw [Nat.add_mul] at hmul
    omega
  rcases hupper.lt_or_eq with hlt | hcarry
  · have hlog : r.log2 = 52 := (Nat.log2_eq_iff (by omega)).mpr ⟨hlower, hlt⟩
    refine ⟨r, e + (t + 1 : ℕ), by omega, ?_, hlog, le_rfl, by omega, hnear⟩
    refine roundWithAccuracy_eq s ⟨r, false, false⟩ (shiftToTargetExponent_long hm he)
      ?_ _
    rw [hr]
    exact shiftToTargetExponent_normal hlog he
  · have hlog : r.log2 = 53 + 0 := hcarry ▸ Nat.log2_two_pow
    refine ⟨2 ^ 52, e + (t + 1 : ℕ) + 1, by omega, ?_, Nat.log2_two_pow, by omega, by omega, ?_⟩
    · refine roundWithAccuracy_eq s ⟨2 ^ 52, false, false⟩ (shiftToTargetExponent_long hm he)
        ?_ (by decide)
      rw [hr, shiftToTargetExponent_long hlog (by omega), shiftRight_succ, hcarry]
      rfl
    · have hdouble : ((2 ^ 52 : ℕ) : ℚ) * 2 ^ (e + (t + 1 : ℕ) + 1) =
          r * 2 ^ (e + (t + 1 : ℕ)) := by
        rw [hcarry, zpow_add_one₀ two_ne_zero]
        push_cast
        ring
      rw [hdouble]
      exact hnear

/-! ### Packing -/

theorem unpackSign_packComponents {spec : Format} (s : Sign) (e : BitVec spec.exponentBits)
    (m : BitVec spec.mantissaBitsWithoutImplicit) :
    unpackSign (packComponents spec s e m) = s.toBitVec := by
  ext i hi
  obtain rfl : i = 0 := by omega
  simp [unpackSign, packComponents, BitVec.getLsbD_append, BitVec.getElem_append]

/-- A double in normal form is stored as it is. -/
theorem unpack_pack (s : Sign) {m : ℕ} {e : ℤ} (hpos : 0 < m) (hm : m.log2 = 52)
    (he : -1074 ≤ e) (he' : e ≤ 971) :
    (Float.Model.pack (.finite s m e hpos)).unpack = .finite s m e hpos := by
  obtain ⟨hlower, hupper⟩ := (Nat.log2_eq_iff hpos.ne').mp hm
  obtain ⟨b, hb⟩ : ∃ b : ℕ, (b : ℤ) = e + 1075 := ⟨(e + 1075).toNat, by omega⟩
  have hexponent : (e + (Format.binary64.exponentBias : ℤ) +
      (Format.binary64.mantissaBitsWithoutImplicit : ℤ)).toNat = b := by
    norm_num [Format.exponentBias]
    omega
  have hbits : (BitVec.ofNat 11 b).toNat = b := by
    rw [BitVec.toNat_ofNat, Nat.mod_eq_of_lt (by omega)]
  have hzero : BitVec.ofNat 11 b ≠ 0#11 := fun h => by
    have := congrArg BitVec.toNat h
    rw [hbits] at this
    simp at this
    omega
  have hones : BitVec.ofNat 11 b ≠ -1#11 := fun h => by
    have := congrArg BitVec.toNat h
    rw [hbits] at this
    simp at this
    omega
  have hmantissa : (1#1 ++ BitVec.ofNat 52 m).toNat = m := by
    rw [BitVec.toNat_append, ← Nat.shiftLeft_add_eq_or_of_lt (BitVec.isLt _)]
    simp
    omega
  have hsign : Sign.ofBitVec s.toBitVec = s := by cases s <;> rfl
  have hpacked : UnpackedFloat.pack .binary64 (.finite s m e hpos) =
      packComponents .binary64 s (BitVec.ofNat 11 b) (BitVec.ofNat 52 m) := by
    simp only [UnpackedFloat.pack, hexponent, hm]
    rw [if_neg (show ¬ 2 ^ 11 ≤ b + 1 by omega), if_pos (show 52 + 1 = Format.binary64.mantissaBits from rfl)]
  unfold Float.Model.unpack Float.Model.pack
  simp only [hpacked]
  unfold UnpackedFloat.unpack
  simp only [unpackExponent_packComponents, unpackMantissa_packComponents,
    unpackSign_packComponents, hsign, hones, hzero, if_false, hmantissa, hbits]
  congr 1
  norm_num [Format.exponentBias]
  omega

/-- What a stored number looks like. -/
theorem unpack_finite {x : Float.Model} {s : Sign} {m : ℕ} {e : ℤ} {hpos : 0 < m}
    (h : x.unpack = .finite s m e hpos) : m < 2 ^ 53 ∧ (m.log2 = 52 ∨ e = -1074) ∧
      -1074 ≤ e ∧ e ≤ 971 := by
  unfold Float.Model.unpack UnpackedFloat.unpack at h
  dsimp only at h
  have hm := (@unpackMantissa .binary64 x.toBits.toBitVec).isLt
  have he := (@unpackExponent .binary64 x.toBits.toBitVec).isLt
  split at h
  · split at h <;> cases h
  · rename_i hones
    split at h
    · rename_i hzero
      split at h
      · cases h
      · cases h
        rw [hzero]
        norm_num [Format.exponentBias] at hm ⊢
        omega
    · rename_i hzero
      cases h
      have hexponent : (@unpackExponent .binary64 x.toBits.toBitVec).toNat ≠ 0 :=
        fun h => hzero (BitVec.eq_of_toNat_eq h)
      have hfinite : (@unpackExponent .binary64 x.toBits.toBitVec).toNat ≠ 2047 :=
        fun h => hones (BitVec.eq_of_toNat_eq h)
      have hvalue : (1#1 ++ @unpackMantissa .binary64 x.toBits.toBitVec).toNat =
          2 ^ 52 + (@unpackMantissa .binary64 x.toBits.toBitVec).toNat := by
        rw [BitVec.toNat_append, ← Nat.shiftLeft_add_eq_or_of_lt hm]
        rfl
      rw [hvalue]
      have hlog : (2 ^ 52 + (@unpackMantissa .binary64 x.toBits.toBitVec).toNat).log2 =
          52 := (Nat.log2_eq_iff (by omega)).mpr ⟨by omega, by omega⟩
      norm_num [Format.exponentBias] at hm he ⊢
      norm_num at hlog
      omega

/-! ### The number a double stands for -/

/-- The number a finite double stands for. -/
def toRat (x : Float) : Option ℚ :=
  match x.toModel.unpack with
  | .zero _ => some 0
  | .finite s m e _ => some (s.apply m * 2 ^ e)
  | _ => none

theorem toRat_pack (s : Sign) {m : ℕ} {e : ℤ} (hpos : 0 < m) (hm : m.log2 = 52)
    (he : -1074 ≤ e) (he' : e ≤ 971) :
    toRat (.ofModel (.pack (.finite s m e hpos))) =
      some ((s.apply m : ℤ) * 2 ^ e : ℚ) := by
  unfold toRat
  rw [unpack_pack s hpos hm he he']

/-- A number that a double stands for, when it is positive. -/
theorem unpack_of_toRat_pos {x : Float} {v : ℚ} (h : toRat x = some v) (hv : 0 < v) :
    ∃ m e hpos, x.toModel.unpack = .finite .positive m e hpos ∧ v = m * 2 ^ e := by
  unfold toRat at h
  cases hx : x.toModel.unpack with
  | notANumber => simp [hx] at h
  | infinity s => simp [hx] at h
  | zero s =>
    simp only [hx] at h
    obtain rfl := Option.some.inj h
    exact absurd hv (lt_irrefl 0)
  | finite s m e hpos =>
    simp only [hx] at h
    obtain rfl := Option.some.inj h
    cases s with
    | positive => exact ⟨m, e, hpos, rfl, by simp [Sign.apply]⟩
    | negative =>
      have hmag : (0 : ℚ) < m * 2 ^ e := mul_pos (by exact_mod_cast hpos) (zpow_pos two_pos e)
      simp [Sign.apply] at hv
      linarith

theorem unpack_of_toRat_zero {x : Float} (h : toRat x = some 0) :
    ∃ s, x.toModel.unpack = .zero s := by
  unfold toRat at h
  cases hx : x.toModel.unpack with
  | notANumber => simp [hx] at h
  | infinity s => simp [hx] at h
  | zero s => exact ⟨s, rfl⟩
  | finite s m e hpos =>
    simp only [hx] at h
    have hm : (m : ℚ) ≠ 0 := by exact_mod_cast hpos.ne'
    have hscale : (2 : ℚ) ^ e ≠ 0 := zpow_ne_zero e two_ne_zero
    cases s <;> simp [Sign.apply, hm, hscale] at h

theorem isFinite_of_toRat {x : Float} {v : ℚ} (h : toRat x = some v) : x.isFinite = true := by
  change x.toModel.unpack.isFinite = true
  unfold toRat at h
  cases hx : x.toModel.unpack with
  | notANumber => simp [hx] at h
  | infinity s => simp [hx] at h
  | zero s => rfl
  | finite s m e hpos => rfl

theorem not_lt_zero_of_toRat {x : Float} {v : ℚ} (h : toRat x = some v) (hv : 0 ≤ v) :
    ¬ x < 0.0 := by
  intro hneg
  have hlt : x.toModel.unpack.lt (0.0 : Float).toModel.unpack = true := of_decide_eq_true hneg
  rcases hv.lt_or_eq with hpos | rfl
  · obtain ⟨m, e, hm, hx, -⟩ := unpack_of_toRat_pos h hpos
    rw [hx] at hlt
    exact Bool.false_ne_true hlt
  · obtain ⟨s, hx⟩ := unpack_of_toRat_zero h
    rw [hx] at hlt
    exact Bool.false_ne_true hlt

/-- The doubles around a number are one unit apart. -/
theorem exists_toRat_near {q : ℚ} {k : ℤ} (hk : -1022 ≤ k) (hk' : k ≤ 1000) (hlower : 2 ^ k ≤ q)
    (hupper : q < 2 ^ (k + 1)) : ∃ y w, toRat y = some w ∧ |w - q| ≤ 2 ^ (k - 53) := by
  have hunit : (0 : ℚ) < 2 ^ (k - 52) := zpow_pos two_pos _
  have hscaled : q = q / 2 ^ (k - 52) * 2 ^ (k - 52) := (div_mul_cancel₀ q hunit.ne').symm
  have hhalf : (2 : ℚ) ^ (k - 53) = 1 / 2 * 2 ^ (k - 52) := by
    rw [show k - 52 = k - 53 + 1 by ring, zpow_add_one₀ two_ne_zero]
    ring
  have hlow : (2 : ℚ) ^ 52 ≤ q / 2 ^ (k - 52) := by
    rw [le_div_iff₀ hunit]
    refine le_trans (le_of_eq ?_) hlower
    rw [← zpow_natCast, ← zpow_add₀ two_ne_zero]
    congr 1
    push_cast
    ring
  have hhigh : q / 2 ^ (k - 52) < (2 : ℚ) ^ 53 := by
    rw [div_lt_iff₀ hunit]
    refine lt_of_lt_of_eq hupper ?_
    rw [← zpow_natCast, ← zpow_add₀ two_ne_zero]
    congr 1
    push_cast
    ring
  generalize q / 2 ^ (k - 52) = x at *
  obtain ⟨n, hn⟩ : ∃ n : ℕ, |(n : ℚ) - x| ≤ 1 / 2 := by
    refine ⟨⌊x + 1 / 2⌋₊, ?_⟩
    have hle := Nat.floor_le (show 0 ≤ x + 1 / 2 by linarith [pow_pos (two_pos (α := ℚ)) 52])
    have hlt := Nat.lt_floor_add_one (x + 1 / 2)
    rw [abs_le]
    constructor <;> linarith
  have herror : |(n : ℚ) * 2 ^ (k - 52) - q| ≤ 2 ^ (k - 53) := by
    rw [hscaled, ← sub_mul, abs_mul, abs_of_pos hunit, hhalf]
    exact mul_le_mul_of_nonneg_right hn hunit.le
  obtain ⟨hn₁, hn₂⟩ := abs_le.mp hn
  have hn₃ : 2 ^ 52 ≤ n := by
    have h : (2 ^ 52 : ℚ) < n + 1 := by linarith
    exact Nat.lt_succ_iff.mp (by exact_mod_cast h)
  have hn₄ : n ≤ 2 ^ 53 := by
    have h : (n : ℚ) < 2 ^ 53 + 1 := by linarith
    exact Nat.lt_succ_iff.mp (by exact_mod_cast h)
  rcases hn₄.lt_or_eq with hlt | rfl
  · have hlog : n.log2 = 52 := (Nat.log2_eq_iff (by omega)).mpr ⟨hn₃, hlt⟩
    exact ⟨_, _, toRat_pack (e := k - 52) .positive (by omega) hlog (by omega) (by omega), herror⟩
  · refine ⟨_, _, toRat_pack (m := 2 ^ 52) (e := k - 51) .positive (by decide) Nat.log2_two_pow
      (by omega) (by omega), ?_⟩
    have hdouble : ((Sign.positive.apply (2 ^ 52 : ℕ) : ℤ) : ℚ) * 2 ^ (k - 51) =
        (2 ^ 53 : ℕ) * 2 ^ (k - 52) := by
      rw [show k - 51 = k - 52 + 1 by ring, zpow_add_one₀ two_ne_zero]
      simp only [Sign.apply]
      push_cast
      ring
    rw [hdouble]
    exact herror

/-- No double is nearer to the number. -/
def Nearest (x : Float) (q : ℚ) : Prop :=
  ∃ v, toRat x = some v ∧ ∀ y w, toRat y = some w → |v - q| ≤ |w - q|

/-- The nearest double is half a unit away or less. -/
theorem Nearest.error {x : Float} {q : ℚ} (h : Nearest x q) {k : ℤ} (hk : -1022 ≤ k)
    (hk' : k ≤ 1000) (hlower : 2 ^ k ≤ q) (hupper : q < 2 ^ (k + 1)) :
    ∃ v, toRat x = some v ∧ |v - q| ≤ 2 ^ (k - 53) := by
  obtain ⟨v, hv, hnearest⟩ := h
  obtain ⟨y, w, hw, hnear⟩ := exists_toRat_near hk hk' hlower hupper
  exact ⟨v, hv, (hnearest y w hw).trans hnear⟩

theorem log2_mantissa {x : Float} {s : Sign} {m : ℕ} {e : ℤ} {hpos : 0 < m}
    (h : x.toModel.unpack = .finite s m e hpos) (hlarge : (2 : ℚ) ^ (-500 : ℤ) ≤ m * 2 ^ e) :
    m.log2 = 52 := by
  obtain ⟨hm, hnormal | rfl, -, -⟩ := unpack_finite h
  · exact hnormal
  · have hsmall : (m : ℚ) * 2 ^ (-1074 : ℤ) < 2 ^ (53 : ℤ) * 2 ^ (-1074 : ℤ) :=
      mul_lt_mul_of_pos_right (by exact_mod_cast hm) (zpow_pos two_pos _)
    rw [← zpow_add₀ two_ne_zero] at hsmall
    have hcontra := (zpow_lt_zpow_iff_right₀ one_lt_two).mp (hlarge.trans_lt hsmall)
    norm_num at hcontra

/-- A product is half a unit away from the exact one, or less. -/
theorem toRat_mul_near {x y : Float} {v w : ℚ} (hx : toRat x = some v) (hy : toRat y = some w)
    (hv : (2 : ℚ) ^ (-500 : ℤ) ≤ v) (hw : (2 : ℚ) ^ (-500 : ℤ) ≤ w) {k : ℤ} (hk : k ≤ 1000)
    (hvw : v * w < 2 ^ (k + 1)) :
    ∃ z, toRat (x * y) = some z ∧ |z - v * w| ≤ 2 ^ (k - 53) := by
  have hsmall : (0 : ℚ) < 2 ^ (-500 : ℤ) := zpow_pos two_pos _
  obtain ⟨m, e, hpos, hux, rfl⟩ := unpack_of_toRat_pos hx (hsmall.trans_le hv)
  obtain ⟨m₂, e₂, hpos₂, huy, rfl⟩ := unpack_of_toRat_pos hy (hsmall.trans_le hw)
  obtain ⟨hm, hm'⟩ := (Nat.log2_eq_iff hpos.ne').mp (log2_mantissa hux hv)
  obtain ⟨hm₂, hm₂'⟩ := (Nat.log2_eq_iff hpos₂.ne').mp (log2_mantissa huy hw)
  have hprod : ((m : ℚ) * 2 ^ e) * (m₂ * 2 ^ e₂) = ((m * m₂ : ℕ) : ℚ) * 2 ^ (e + e₂) := by
    rw [zpow_add₀ two_ne_zero]
    push_cast
    ring
  have hlarge : (2 : ℚ) ^ (-1000 : ℤ) ≤ ((m * m₂ : ℕ) : ℚ) * 2 ^ (e + e₂) := by
    rw [← hprod, show (-1000 : ℤ) = -500 + -500 by norm_num, zpow_add₀ two_ne_zero]
    exact mul_le_mul hv hw hsmall.le (hsmall.le.trans hv)
  rw [hprod] at hvw ⊢
  have hlog : 52 + 52 ≤ (m * m₂).log2 := by
    rw [Nat.le_log2 (Nat.mul_ne_zero hpos.ne' hpos₂.ne'), pow_add]
    exact Nat.mul_le_mul hm hm₂
  obtain ⟨t, ht⟩ : ∃ t, (m * m₂).log2 = 53 + t := ⟨(m * m₂).log2 - 53, by omega⟩
  -- the position of the leading bit
  have hscale : (0 : ℚ) < 2 ^ (e + e₂) := zpow_pos two_pos _
  have htop : ((53 + t : ℕ) : ℤ) + (e + e₂) < k + 1 := by
    rw [← zpow_lt_zpow_iff_right₀ (one_lt_two (α := ℚ)), zpow_add₀ two_ne_zero, zpow_natCast]
    refine lt_of_le_of_lt (mul_le_mul_of_nonneg_right ?_ hscale.le) hvw
    rw [← ht]
    exact_mod_cast Nat.log2_self_le (Nat.mul_ne_zero hpos.ne' hpos₂.ne')
  have hbottom : (-1000 : ℤ) < ((54 + t : ℕ) : ℤ) + (e + e₂) := by
    rw [← zpow_lt_zpow_iff_right₀ (one_lt_two (α := ℚ)), zpow_add₀ two_ne_zero, zpow_natCast]
    refine lt_of_le_of_lt hlarge (mul_lt_mul_of_pos_right ?_ hscale)
    rw [show 54 + t = (m * m₂).log2 + 1 by omega]
    exact_mod_cast Nat.lt_log2_self
  obtain ⟨m', e', hpos', hround, hlog', he', he'', hnear⟩ :=
    roundWithAccuracy_near .positive ht (e := e + e₂) (by omega)
  have hmul : x * y = .ofModel (.pack (.finite .positive m' e' hpos')) := by
    change Float.ofModel (.pack (UnpackedFloat.mul .binary64 x.toModel.unpack y.toModel.unpack)) = _
    rw [hux, huy]
    exact congrArg (fun u => Float.ofModel (.pack u)) hround
  refine ⟨_, hmul ▸ toRat_pack .positive hpos' hlog' (by omega) (by omega), ?_⟩
  refine le_trans (le_of_eq_of_le ?_ hnear) (zpow_le_zpow_right₀ one_le_two (by omega))
  simp [Sign.apply]

/-! ### Rounding to an integer -/

/-- The integer nearest to `m * 2 ^ e`, ties upwards. -/
def nearestNat (m : ℕ) (e : ℤ) : ℕ :=
  if 0 ≤ e then m * 2 ^ e.toNat else (2 * m + 2 ^ (-e).toNat) / 2 ^ ((-e).toNat + 1)

/-- The nearest integer as a double, ties away from zero; zeros, infinities and NaN stay. -/
def roundHalfAway (x : Float) : Float :=
  match x.toModel.unpack with
  | .finite .positive m e _ => .ofModel (.ofNat (nearestNat m e))
  | .finite .negative m e _ => .ofModel (.neg (.ofNat (nearestNat m e)))
  | _ => x

/-- An integer that is less than one half away is the nearest. -/
theorem nearestNat_eq {m n : ℕ} {e : ℤ} (h : |(m : ℚ) * 2 ^ e - n| < 1 / 2) :
    nearestNat m e = n := by
  obtain ⟨hlow, hhigh⟩ := abs_lt.mp h
  unfold nearestNat
  split_ifs with he
  · obtain ⟨d, rfl⟩ := Int.eq_ofNat_of_zero_le he
    rw [zpow_natCast] at hlow hhigh
    have h₁ : (n : ℚ) < m * 2 ^ d + 1 := by linarith
    have h₂ : (m : ℚ) * 2 ^ d < n + 1 := by linarith
    have h₁' : n < m * 2 ^ d + 1 := by exact_mod_cast h₁
    have h₂' : m * 2 ^ d < n + 1 := by exact_mod_cast h₂
    rw [Int.toNat_natCast]
    omega
  · obtain ⟨d, hd⟩ : ∃ d : ℕ, e = -d := ⟨(-e).toNat, by omega⟩
    subst hd
    have hpow : (0 : ℚ) < 2 ^ d := pow_pos two_pos d
    rw [zpow_neg, zpow_natCast, ← div_eq_mul_inv] at hlow hhigh
    have hm : (m : ℚ) = m / 2 ^ d * 2 ^ d := (div_mul_cancel₀ _ hpow.ne').symm
    have h₁ : (n : ℚ) * 2 ^ (d + 1) ≤ 2 * m + 2 ^ d := by
      rw [hm, pow_succ]
      nlinarith
    have h₂ : 2 * (m : ℚ) + 2 ^ d < (n + 1) * 2 ^ (d + 1) := by
      rw [hm, pow_succ]
      nlinarith
    rw [neg_neg, Int.toNat_natCast]
    exact Nat.div_eq_of_lt_le (by exact_mod_cast h₁) (by exact_mod_cast h₂)

/-- A small integer is a double. -/
theorem unpack_ofNat {n : ℕ} (hpos : 0 < n) (h : n < 2 ^ 53) :
    ∃ hpos', (Float.Model.ofNat n).unpack =
      .finite .positive (n * 2 ^ (52 - n.log2)) (n.log2 - 52) hpos' := by
  have hlog : n.log2 < 53 := (Nat.log2_lt hpos.ne').mpr h
  have hpos' : 0 < n * 2 ^ (52 - n.log2) := Nat.mul_pos hpos (Nat.two_pow_pos _)
  have hscaled : (n * 2 ^ (52 - n.log2)).log2 = 52 := by
    rw [Nat.log2_eq_iff hpos'.ne']
    have hlow := Nat.mul_le_mul_right (2 ^ (52 - n.log2)) (Nat.log2_self_le hpos.ne')
    have hhigh := Nat.mul_lt_mul_of_pos_right (Nat.lt_log2_self (n := n))
      (Nat.two_pow_pos (52 - n.log2))
    rw [← pow_add] at hlow hhigh
    rw [show n.log2 + (52 - n.log2) = 52 by omega] at hlow
    rw [show n.log2 + 1 + (52 - n.log2) = 52 + 1 by omega] at hhigh
    exact ⟨hlow, hhigh⟩
  refine ⟨hpos', ?_⟩
  have hround : UnpackedFloat.ofNat .binary64 n =
      .finite .positive (n * 2 ^ (52 - n.log2)) (n.log2 - 52) hpos' := by
    have hcompare : compare (n : ℤ) 0 = .gt := by
      rw [compare_gt_iff_gt]
      exact_mod_cast hpos
    have htarget : Format.binary64.targetExponent (totalExponent n 0) = (n.log2 : ℤ) - 52 := by
      rw [targetExponent_eq (by omega)]
      ring
    have hshift : (0 - ((n.log2 : ℤ) - 52)).toNat = 52 - n.log2 := by omega
    have hexponent : (0 : ℤ) - ((52 - n.log2 : ℕ) : ℤ) = n.log2 - 52 := by omega
    simp only [UnpackedFloat.ofNat, UnpackedFloat.ofInt, UnpackedFloat.normalize, hcompare,
      Int.toNat_natCast, UnpackedFloat.round, htarget, decreaseExponent, hshift, Nat.shiftLeft_eq,
      hexponent]
    exact roundWithAccuracy_normal .positive hscaled (by omega) hpos'
  rw [Float.Model.ofNat, hround]
  exact unpack_pack .positive hpos' hscaled (by omega) (by omega)

/-- It is read back as it was. -/
theorem toUInt64_ofNat {n : ℕ} (hpos : 0 < n) (h : n < 2 ^ 53) :
    (Float.ofModel (.ofNat n)).toUInt64.toNat = n := by
  obtain ⟨hpos', hunpack⟩ := unpack_ofNat hpos h
  have hlog : n.log2 < 53 := (Nat.log2_lt hpos.ne').mpr h
  have hinteger : roundToInt .positive (n * 2 ^ (52 - n.log2)) (n.log2 - 52) = n := by
    have hdown : ((n.log2 : ℤ) - 52 - 0).toNat = 0 := by omega
    have hup : (0 - ((n.log2 : ℤ) - 52 - ((0 : ℕ) : ℤ))).toNat = 52 - n.log2 := by omega
    simp only [roundToInt, decreaseExponent, hdown, shiftToExponent, hup, Sign.apply,
      ExtendedMantissa.ofMantissaAndAccuracy, Nat.shiftLeft_zero]
    rw [mantissa_shiftRight, Nat.mul_div_cancel _ (Nat.two_pow_pos _)]
  change (Float.Model.ofNat n).unpack.toUInt64.toNat = n
  rw [hunpack]
  simp only [UnpackedFloat.toUInt64, UnpackedFloat.toInt, hinteger, Int.toNat_natCast]
  rw [UInt64.ofNatClamp, dif_pos (h.trans (by decide))]
  rfl

end Lib
