import Mathlib.Data.Nat.Digits.Lemmas
import Mathlib.Tactic.Linarith

/-!
# Base58

The text of bytes as a number to the base 58, the bytes being its digits to the base 256.  Leading
zero bytes are written as leading ones.

The first digit bounds a number (`Base58.leading`), so the first byte says how a text begins
(`Base58.starts_of_decode`), and 25 bytes with that beginning have so many characters
(`Base58.length_of_starts`).
-/

namespace Lib

namespace Base58

/-- The digits: no `0`, `O`, `I` and `l`. -/
def alphabet : List Char := "123456789ABCDEFGHJKLMNPQRSTUVWXYZabcdefghijkmnopqrstuvwxyz".toList

/-- The value of a digit. -/
def digit (c : Char) : Option ℕ := alphabet.idxOf? c

/-- The number with these digits to a base, the first one the most significant. -/
def number (b : ℕ) (ds : List ℕ) : ℕ := Nat.ofDigits b ds.reverse

/-- The bytes of a number, the first one the most significant and not zero. -/
def bytes (n : ℕ) : List UInt8 := ((Nat.digits 256 n).map UInt8.ofNat).reverse

/-- The bytes of digits. -/
def bytesOfDigits (ds : List ℕ) : List UInt8 :=
  List.replicate (ds.takeWhile (· = 0)).length 0 ++ bytes (number 58 ds)

/-- The bytes of a text. -/
def decode (s : String) : Option (List UInt8) := (s.toList.mapM digit).map bytesOfDigits

/-! ### The first digit -/

/-- The first digit bounds a number. -/
theorem leading {b d : ℕ} {ds : List ℕ} (hb : 1 < b) (hds : ∀ x ∈ ds, x < b) :
    d * b ^ ds.length ≤ number b (d :: ds) ∧ number b (d :: ds) < (d + 1) * b ^ ds.length := by
  have hrest : Nat.ofDigits b ds.reverse < b ^ ds.length := by
    have hlt := Nat.ofDigits_lt_base_pow_length hb (l := ds.reverse) (by simpa using hds)
    rwa [List.length_reverse] at hlt
  have hsplit : number b (d :: ds) = Nat.ofDigits b ds.reverse + b ^ ds.length * d := by
    rw [number, List.reverse_cons, Nat.ofDigits_append, Nat.ofDigits_singleton,
      List.length_reverse]
  rw [hsplit, Nat.mul_comm (b ^ ds.length) d, Nat.add_mul, Nat.one_mul]
  omega

theorem bytes_leading {n : ℕ} {v : UInt8} {rest : List UInt8} (h : bytes n = v :: rest) :
    v.toNat * 256 ^ rest.length ≤ n ∧ n < (v.toNat + 1) * 256 ^ rest.length := by
  have hnumber : number 256 ((v :: rest).map UInt8.toNat) = n := by
    rw [← h, number, bytes, List.map_reverse, List.reverse_reverse, List.map_map]
    conv_rhs => rw [← Nat.ofDigits_digits 256 n]
    refine congrArg (Nat.ofDigits 256) ?_
    refine (List.map_congr_left fun d hd => ?_).trans (List.map_id _)
    have hlt := Nat.digits_lt_base (by decide : 1 < 256) hd
    exact UInt8.toNat_ofNat_of_lt' hlt
  have hbytes : ∀ x ∈ rest.map UInt8.toNat, x < 256 := by
    intro x hx
    obtain ⟨b, -, rfl⟩ := List.mem_map.mp hx
    exact b.toNat_lt
  have hbound : v.toNat * 256 ^ (rest.map UInt8.toNat).length ≤ _ ∧ _ := leading (by decide) hbytes
  rwa [← List.map_cons, hnumber, List.length_map] at hbound

theorem bytes_head_ne_zero {n : ℕ} {v : UInt8} {rest : List UInt8} (h : bytes n = v :: rest) :
    v ≠ 0 := by
  rintro rfl
  have hbound := bytes_leading h
  have hlength : (Nat.digits 256 n).length = rest.length + 1 := by
    have hlen := congrArg List.length h
    rwa [bytes, List.length_reverse, List.length_map, List.length_cons] at hlen
  have hne : n ≠ 0 := by
    rintro rfl
    simp at hlength
  have hpow := Nat.base_pow_length_digits_le 256 n (by decide) hne
  rw [hlength, Nat.pow_succ, Nat.mul_comm _ 256] at hpow
  have hle := Nat.le_of_mul_le_mul_left hpow (by decide)
  have hlt : n < 256 ^ rest.length := by simpa using hbound.2
  omega

theorem getElem?_of_digit {c : Char} {d : ℕ} (h : digit c = some d) : alphabet[d]? = some c := by
  obtain ⟨hlt, hc, -⟩ := List.idxOf?_eq_some_iff.mp h
  rw [List.getElem?_eq_getElem hlt, hc]

theorem digit_lt {c : Char} {d : ℕ} (h : digit c = some d) : d < 58 :=
  (List.getElem?_eq_some_iff.mp (getElem?_of_digit h)).1

theorem mapM_digit {cs : List Char} {ds : List ℕ} (h : cs.mapM digit = some ds) :
    ds.length = cs.length ∧ ∀ d ∈ ds, d < 58 := by
  induction cs generalizing ds with
  | nil =>
    obtain rfl : [] = ds := by simpa using h
    exact ⟨rfl, nofun⟩
  | cons c cs ih =>
    simp only [List.mapM_cons, Option.bind_eq_bind, Option.bind_eq_some_iff, Option.pure_def,
      Option.some.injEq] at h
    obtain ⟨d, hd, ds', hds, rfl⟩ := h
    obtain ⟨hlen, hlt⟩ := ih hds
    exact ⟨congrArg (· + 1) hlen, List.forall_mem_cons.mpr ⟨digit_lt hd, hlt⟩⟩

/-- A text whose bytes begin with a byte other than zero begins with a digit other than zero; the
two bound one number. -/
structure Starts (s : String) (v : UInt8) (width : ℕ) (c : Char) (cs : List Char) (d n : ℕ) :
    Prop where
  /-- The first byte. -/
  nonzero : v ≠ 0
  /-- The first character. -/
  text : s.toList = c :: cs
  /-- Its value. -/
  value : digit c = some d
  /-- It is not zero, -/
  pos : 0 < d
  /-- and a digit. -/
  lt : d < 58
  /-- The number begins with the digit, -/
  digits : d * 58 ^ cs.length ≤ n ∧ n < (d + 1) * 58 ^ cs.length
  /-- and with the byte. -/
  bytes : v.toNat * 256 ^ width ≤ n ∧ n < (v.toNat + 1) * 256 ^ width

/-- How a text begins whose bytes are these. -/
theorem starts_of_decode {s : String} {v : UInt8} {rest : List UInt8}
    (h : decode s = some (v :: rest)) :
    (v = 0 ∧ s.toList.head? = some '1') ∨ ∃ c cs d n, Starts s v rest.length c cs d n := by
  unfold decode at h
  obtain ⟨ds, hds, hbytes⟩ := Option.map_eq_some_iff.mp h
  cases htext : s.toList with
  | nil =>
    rw [htext] at hds
    obtain rfl : [] = ds := by simpa using hds
    simp [bytesOfDigits, bytes, number] at hbytes
  | cons c cs =>
    rw [htext] at hds
    simp only [List.mapM_cons, Option.bind_eq_bind, Option.bind_eq_some_iff, Option.pure_def,
      Option.some.injEq] at hds
    obtain ⟨d, hd, ds', hds', rfl⟩ := hds
    obtain ⟨hlen, hlt⟩ := mapM_digit hds'
    by_cases hzero : d = 0
    · -- a leading one is a zero byte
      subst hzero
      have hone : c = '1' := (Option.some.inj (getElem?_of_digit hd)).symm
      simp only [bytesOfDigits, List.takeWhile_cons, decide_true, if_true, List.length_cons,
        List.replicate_succ, List.cons_append, List.cons.injEq] at hbytes
      exact .inl ⟨hbytes.1.symm, by rw [hone]; rfl⟩
    · have hnumber : bytes (number 58 (d :: ds')) = v :: rest := by
        simpa [bytesOfDigits, hzero] using hbytes
      have hlead := leading (b := 58) (d := d) (by decide) hlt
      rw [hlen] at hlead
      exact .inr ⟨c, cs, d, _, ⟨bytes_head_ne_zero hnumber, htext, hd, Nat.pos_of_ne_zero hzero,
        digit_lt hd, hlead, bytes_leading hnumber⟩⟩

/-- Of 25 bytes, the first one at least 3, there are 34 or 35 characters. -/
theorem length_of_starts {s : String} {v : UInt8} {c : Char} {cs : List Char} {d n : ℕ}
    (h : Starts s v 24 c cs d n) (hv : 3 ≤ v.toNat) : cs.length = 33 ∨ cs.length = 34 := by
  have hbyte := v.toNat_lt
  obtain ⟨hlow, hhigh⟩ := h.digits
  obtain ⟨hlow', hhigh'⟩ := h.bytes
  have hpos := h.pos
  have hlt := h.lt
  have hmin : 33 ≤ cs.length := by
    by_contra hshort
    have hpow : 58 ^ cs.length ≤ 58 ^ 32 := Nat.pow_le_pow_right (by decide) (by omega)
    have htop : (d + 1) * 58 ^ cs.length ≤ 58 * 58 ^ 32 := Nat.mul_le_mul (by omega) hpow
    omega
  have hmax : cs.length ≤ 34 := by
    by_contra hlong
    have hpow : 58 ^ 35 ≤ 58 ^ cs.length := Nat.pow_le_pow_right (by decide) (by omega)
    have hbottom : 1 * 58 ^ 35 ≤ d * 58 ^ cs.length := Nat.mul_le_mul (by omega) hpow
    omega
  omega

end Base58

end Lib
