import SmirkBackend.Basic
import SmirkBackend.Lib.Hex

/-!
# Letter case

Texts that differ in the case of letters of ASCII only: they are equally long, and are hexadecimal
together.  What writes identifiers in lower case tells such texts apart, what compares them by
value does not.

`SameLetters.utf8ByteSize_eq` and `SameLetters.all_hex_eq` are what a check of hexadecimal text
sees; of two spellings one is in lower case (`SameLetters.eq_of_lowerCase`).
-/

namespace SmirkBackend

theorem toLower_of_capital {c : Char} (h : c.val ≥ 'A'.val ∧ c.val ≤ 'Z'.val) :
    c.toLower.val = c.val + ('a'.val - 'A'.val) := congrArg Char.val (dif_pos h)

theorem toLower_toLower (c : Char) : c.toLower.toLower = c.toLower := by
  by_cases hcap : c.val ≥ 'A'.val ∧ c.val ≤ 'Z'.val
  · have hsmall : ¬ (c.toLower.val ≥ 'A'.val ∧ c.toLower.val ≤ 'Z'.val) := by
      rw [toLower_of_capital hcap]
      simp [UInt32.le_iff_toNat_le] at hcap ⊢
      omega
    exact dif_neg hsmall
  · rw [show c.toLower = c from dif_neg hcap]
    exact dif_neg hcap

theorem utf8Size_toLower (c : Char) : c.toLower.utf8Size = c.utf8Size := by
  by_cases hcap : c.val ≥ 'A'.val ∧ c.val ≤ 'Z'.val
  · have hone : c.utf8Size = 1 := Char.utf8Size_eq_one_iff.mpr (by
      simp [UInt32.le_iff_toNat_le] at hcap ⊢
      omega)
    rw [hone, Char.utf8Size_eq_one_iff, toLower_of_capital hcap]
    simp [UInt32.le_iff_toNat_le] at hcap ⊢
    omega
  · rw [show c.toLower = c from dif_neg hcap]

theorem hexValue_toLower (c : Char) : Lib.hexValue c.toLower = Lib.hexValue c := by
  have hall : ∀ n < 128, Lib.hexValue (Char.ofNat n).toLower = Lib.hexValue (Char.ofNat n) := by
    decide +kernel
  by_cases hascii : c.toNat < 128
  · have hc := hall c.toNat hascii
    rwa [Char.ofNat_toNat] at hc
  · have hnot : ¬ (c.val ≥ 'A'.val ∧ c.val ≤ 'Z'.val) := fun hcap => hascii (by
      have hle : c.val.toNat ≤ 'Z'.val.toNat := UInt32.le_iff_toNat_le.mp hcap.2
      exact hle.trans_lt (by decide))
    rw [show c.toLower = c from dif_neg hnot]

/-- The texts are the same but for the case of letters. -/
def SameLetters (s t : String) : Prop := toLowercase s = toLowercase t

/-- A text without capitals. -/
def InLowerCase (s : String) : Prop := toLowercase s = s

theorem toLowercase_toLowercase (s : String) : toLowercase (toLowercase s) = toLowercase s := by
  simp [toLowercase, Function.comp_def, toLower_toLower]

theorem utf8ByteSize_toLowercase (s : String) : (toLowercase s).utf8ByteSize = s.utf8ByteSize := by
  have hchars : ∀ cs : List Char,
      (String.ofList (cs.map Char.toLower)).utf8ByteSize = (String.ofList cs).utf8ByteSize := by
    intro cs
    induction cs with
    | nil => rfl
    | cons c cs ih =>
      rw [List.map_cons, String.ofList_cons, String.ofList_cons, String.utf8ByteSize_append,
        String.utf8ByteSize_append, String.utf8ByteSize_singleton, String.utf8ByteSize_singleton,
        utf8Size_toLower, ih]
  rw [toLowercase, hchars, String.ofList_toList]

namespace SameLetters

variable {s t : String}

theorem symm (h : SameLetters s t) : SameLetters t s := Eq.symm h

/-- There is one spelling in lower case. -/
theorem eq_of_lowerCase (h : SameLetters s t) (hs : InLowerCase s) (ht : InLowerCase t) : s = t :=
  hs.symm.trans (h.trans ht)

theorem utf8ByteSize_eq (h : SameLetters s t) : s.utf8ByteSize = t.utf8ByteSize := by
  rw [← utf8ByteSize_toLowercase s, h, utf8ByteSize_toLowercase]

theorem isEmpty_eq (h : SameLetters s t) : s.isEmpty = t.isEmpty := by
  rw [String.isEmpty, String.isEmpty, h.utf8ByteSize_eq]

/-- The texts are hexadecimal together. -/
theorem all_hex_eq (h : SameLetters s t) :
    s.toList.all (fun c => (Lib.hexValue c).isSome) =
      t.toList.all fun c => (Lib.hexValue c).isSome := by
  have hlower : ∀ u : String, u.toList.all (fun c => (Lib.hexValue c).isSome) =
      (toLowercase u).toList.all fun c => (Lib.hexValue c).isSome := by
    intro u
    rw [toLowercase, String.toList_ofList, List.all_map]
    simp only [Function.comp_def, hexValue_toLower]
  rw [hlower s, h, ← hlower t]

end SameLetters

end SmirkBackend
