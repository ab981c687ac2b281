import Mathlib.Algebra.Order.Ring.Int
import Mathlib.Data.Int.Notation
import Mathlib.Data.Nat.Notation

/-!
# Shared vocabulary

The identifiers, instants and errors that every part of the backend uses, and the two text
functions of the standard library that it applies to user input.
-/

namespace SmirkBackend

/-- A 128-bit row identifier. -/
abbrev Uuid := BitVec 128

/-- The hexadecimal digits of an identifier, the highest one first. -/
def uuidDigits (id : Uuid) : List Char :=
  (List.range 32).map fun i => Nat.digitChar (id.toNat / 16 ^ (31 - i) % 16)

/-- The hyphenated text of an identifier. -/
def uuidText (id : Uuid) : String :=
  let digits := uuidDigits id
  let part (start len : ℕ) := String.ofList ((digits.drop start).take len)
  "-".intercalate [part 0 8, part 8 4, part 12 4, part 16 4, part 20 12]

theorem mod_eq_of_digits_eq {m n : ℕ} (k : ℕ) (h : ∀ i < k, m / 16 ^ i % 16 = n / 16 ^ i % 16) :
    m % 16 ^ k = n % 16 ^ k := by
  induction k with
  | zero => simp [Nat.mod_one]
  | succ k ih =>
    rw [Nat.mod_pow_succ, Nat.mod_pow_succ, ih fun i hi => h i (by omega), h k (by omega)]

theorem digitChar_inj {m n : ℕ} (hm : m < 16) (hn : n < 16)
    (h : Nat.digitChar m = Nat.digitChar n) : m = n := by
  have hall : ∀ m < 16, ∀ n < 16, Nat.digitChar m = Nat.digitChar n → m = n := by decide
  exact hall m hm n hn h

theorem uuidDigits_injective {a b : Uuid} (h : uuidDigits a = uuidDigits b) : a = b := by
  have hdigit : ∀ i < 32, a.toNat / 16 ^ i % 16 = b.toNat / 16 ^ i % 16 := by
    intro i hi
    have hget := List.map_inj_left.mp h (31 - i) (List.mem_range.mpr (by omega))
    have hi' : 31 - (31 - i) = i := by omega
    rw [hi'] at hget
    exact digitChar_inj (Nat.mod_lt _ (by decide)) (Nat.mod_lt _ (by decide)) hget
  have hmod := mod_eq_of_digits_eq 32 hdigit
  have hpow : 16 ^ 32 = 2 ^ 128 := by decide
  have hlt (c : Uuid) : c.toNat % 16 ^ 32 = c.toNat := Nat.mod_eq_of_lt (hpow ▸ c.isLt)
  rw [hlt, hlt] at hmod
  exact BitVec.eq_of_toNat_eq hmod

theorem hyphen_notMem_uuidDigits (a : Uuid) : '-' ∉ uuidDigits a := by
  have hdigit : ∀ n < 16, Nat.digitChar n ≠ '-' := by decide
  intro h
  obtain ⟨i, -, hi⟩ := List.mem_map.mp h
  exact hdigit _ (Nat.mod_lt _ (by decide)) hi

theorem filter_uuidText (a : Uuid) :
    (uuidText a).toList.filter (· ≠ '-') = uuidDigits a := by
  have hpart : ∀ start len, (((uuidDigits a).drop start).take len).filter (· ≠ '-') =
      ((uuidDigits a).drop start).take len := by
    intro start len
    refine List.filter_eq_self.mpr fun c hc => ?_
    have hmem := List.mem_of_mem_drop (List.mem_of_mem_take hc)
    have hne : c ≠ '-' := fun heq => hyphen_notMem_uuidDigits a (heq ▸ hmem)
    simpa using hne
  have hjoin : (uuidDigits a).take 8 ++ (((uuidDigits a).drop 8).take 4 ++
      (((uuidDigits a).drop 12).take 4 ++ (((uuidDigits a).drop 16).take 4 ++
        ((uuidDigits a).drop 20).take 12))) = uuidDigits a := by
    simp [uuidDigits, List.range_succ]
  simp only [uuidText, String.intercalate_cons_cons, String.intercalate_singleton,
    String.toList_append, String.toList_ofList, List.filter_append, hpart, List.append_assoc]
  simpa using hjoin

theorem uuidText_injective {a b : Uuid} (h : uuidText a = uuidText b) : a = b := by
  apply uuidDigits_injective
  rw [← filter_uuidText a, ← filter_uuidText b, h]

/-- A database instant, in microseconds. -/
abbrev Timestamp := ℤ

/-- A number of whole seconds, as an interval. -/
def seconds (n : ℤ) : ℤ := n * 1000000

/-- A number of whole days, as an interval. -/
def days (n : ℤ) : ℤ := seconds (n * 86400)

/-- Every error that can surface from a handler. -/
inductive AppError
  | configError (msg : String)
  | databaseError (msg : String)
  | authError (msg : String)
  | nodeError (msg : String)
  | validationError (msg : String)
  | notFound (msg : String)
  | forbidden (msg : String)
  | conflict (msg : String)
  | paymentPending (msg : String)
  | rateLimited
  | internal (msg : String)
  deriving DecidableEq

/-- `str::to_lowercase`.  The backend compares the result with lower-case ASCII words only, and
no letter outside ASCII is lowered to one of theirs. -/
def toLowercase (s : String) : String := String.ofList (s.toList.map Char.toLower)

/-- The Unicode `White_Space` property, as `char::is_whitespace` has it. -/
def isWhitespace (c : Char) : Bool :=
  let n := c.toNat
  (9 ≤ n && n ≤ 13) || n = 0x20 || n = 0x85 || n = 0xA0 || n = 0x1680 ||
    (0x2000 ≤ n && n ≤ 0x200A) || n = 0x2028 || n = 0x2029 || n = 0x202F || n = 0x205F ||
    n = 0x3000

/-- `str::trim`. -/
def trim (s : String) : String :=
  String.ofList ((s.toList.dropWhile isWhitespace).reverse.dropWhile isWhitespace).reverse

theorem bind_eq_ok_iff {ε α β : Type} {x : Except ε α} {f : α → Except ε β} {b : β} :
    (x >>= f) = .ok b ↔ ∃ a, x = .ok a ∧ f a = .ok b := by
  cases x <;> simp [bind, Except.bind]

end SmirkBackend
