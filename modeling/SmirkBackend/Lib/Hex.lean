import Mathlib.Algebra.Order.Ring.Int
import Mathlib.Data.Nat.Notation

/-!
# Hexadecimal text and big-endian words

Bytes as pairs of hexadecimal digits, written in lower case and read in either case, and the bytes
of a 64-bit word, the highest one first.

What is written is read back (`hexDecode_hexEncode`), and a word is determined by its bytes
(`beBytes_injective`), as a number is by its digits to the base 256 (`eq_of_digits`).
-/

namespace Lib

/-- The text of bytes, in lower case. -/
def hexEncode (bytes : List UInt8) : String :=
  String.ofList (bytes.flatMap fun b =>
    [Nat.digitChar (b.toNat / 16), Nat.digitChar (b.toNat % 16)])

/-- The value of a digit, in either case. -/
def hexValue (c : Char) : Option ℕ :=
  if '0' ≤ c ∧ c ≤ '9' then some (c.toNat - 48)
  else if 'a' ≤ c ∧ c ≤ 'f' then some (c.toNat - 87)
  else if 'A' ≤ c ∧ c ≤ 'F' then some (c.toNat - 55)
  else none

/-- The bytes of a sequence of digits; their number must be even. -/
def hexBytes : List Char → Option (List UInt8)
  | [] => some []
  | [_] => none
  | high :: low :: rest => do
    let x ← hexValue high
    let y ← hexValue low
    let bytes ← hexBytes rest
    pure (UInt8.ofNat (16 * x + y) :: bytes)

/-- The bytes of a text. -/
def hexDecode (s : String) : Option (List UInt8) := hexBytes s.toList

theorem hexValue_digitChar {n : ℕ} (h : n < 16) : hexValue (Nat.digitChar n) = some n := by
  have hall : ∀ n < 16, hexValue (Nat.digitChar n) = some n := by decide
  exact hall n h

/-- What is written is read back. -/
theorem hexDecode_hexEncode (bytes : List UInt8) : hexDecode (hexEncode bytes) = some bytes := by
  unfold hexDecode hexEncode
  rw [String.toList_ofList]
  induction bytes with
  | nil => rfl
  | cons b rest ih =>
    have hb := b.toNat_lt
    have hbyte : 16 * (b.toNat / 16) + b.toNat % 16 = b.toNat := Nat.div_add_mod b.toNat 16
    simp only [List.flatMap_cons, List.cons_append, List.nil_append, hexBytes, ih,
      hexValue_digitChar (show b.toNat / 16 < 16 by omega),
      hexValue_digitChar (Nat.mod_lt b.toNat (by decide)), Option.bind_eq_bind, Option.bind_some,
      Option.pure_def, hbyte, UInt8.ofNat_toNat]

theorem hexEncode_injective {b b' : List UInt8} (h : hexEncode b = hexEncode b') : b = b' :=
  Option.some.inj (by rw [← hexDecode_hexEncode, h, hexDecode_hexEncode])

/-! ### Words -/

/-- `u64::to_be_bytes`. -/
def beBytes (x : UInt64) : List UInt8 :=
  (List.range 8).map fun i => UInt8.ofNat (x.toNat / 256 ^ (7 - i))

theorem length_beBytes (x : UInt64) : (beBytes x).length = 8 := by
  simp [beBytes]

/-- A number is determined by its digits to the base 256. -/
theorem eq_of_digits {m n width : ℕ} (hm : m < 256 ^ width) (hn : n < 256 ^ width)
    (hdigit : ∀ i < width, m / 256 ^ i % 256 = n / 256 ^ i % 256) : m = n := by
  have hmod : ∀ k ≤ width, m % 256 ^ k = n % 256 ^ k := by
    intro k
    induction k with
    | zero => simp [Nat.mod_one]
    | succ k ih =>
      intro hk
      rw [Nat.mod_pow_succ, Nat.mod_pow_succ, ih (by omega), hdigit k (by omega)]
  have hall := hmod width (Nat.le_refl width)
  rwa [Nat.mod_eq_of_lt hm, Nat.mod_eq_of_lt hn] at hall

/-- A word is determined by its bytes. -/
theorem beBytes_injective {x y : UInt64} (h : beBytes x = beBytes y) : x = y := by
  have hx : x.toNat < 256 ^ 8 := x.toNat_lt
  have hy : y.toNat < 256 ^ 8 := y.toNat_lt
  refine UInt64.toNat_inj.mp (eq_of_digits hx hy fun i hi => ?_)
  have hbyte := List.map_inj_left.mp h (7 - i) (List.mem_range.mpr (by omega))
  have hi' : 7 - (7 - i) = i := by omega
  rw [hi'] at hbyte
  simpa using congrArg UInt8.toNat hbyte

end Lib
