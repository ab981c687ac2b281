import Mathlib
import SmirkBackend.Lib.Json

/-!
# JSON as text

The compact text of a JSON value: no blanks, members in their order, control characters escaped.
Different values have different texts, also when something follows the text, as long as what
follows starts with a separator.  The text of a floating-point number is a parameter.

That a value and what follows it can be read off the text is `text_cancel`; so can an array of fixed
length (`bracketText_injective`).  Control characters do not occur in a text (`printable_text`).
-/

namespace Lib

/-! ### Strings -/

/-- A hexadecimal digit in lower case. -/
def hexDigit (n : Nat) : Char := Nat.digitChar n

/-- The text of a character inside a string. -/
def escapeChar (c : Char) : List Char :=
  if c = '"' then ['\\', '"']
  else if c = '\\' then ['\\', '\\']
  else if c = '\x08' then ['\\', 'b']
  else if c = '\t' then ['\\', 't']
  else if c = '\n' then ['\\', 'n']
  else if c = '\x0c' then ['\\', 'f']
  else if c = '\r' then ['\\', 'r']
  else if c.toNat < 32 then ['\\', 'u', '0', '0', hexDigit (c.toNat / 16), hexDigit (c.toNat % 16)]
  else [c]

/-- The character that a text inside a string starts with, and the rest. -/
def unescapeChar : List Char → Option (Char × List Char)
  | '\\' :: '"' :: rest => some ('"', rest)
  | '\\' :: '\\' :: rest => some ('\\', rest)
  | '\\' :: 'b' :: rest => some ('\x08', rest)
  | '\\' :: 't' :: rest => some ('\t', rest)
  | '\\' :: 'n' :: rest => some ('\n', rest)
  | '\\' :: 'f' :: rest => some ('\x0c', rest)
  | '\\' :: 'r' :: rest => some ('\r', rest)
  | '\\' :: 'u' :: '0' :: '0' :: a :: b :: rest =>
    ((List.range 32).find? fun n => hexDigit (n / 16) = a && hexDigit (n % 16) = b).map fun n =>
      (Char.ofNat n, rest)
  | c :: rest => some (c, rest)
  | [] => none

theorem unescapeChar_escapeChar (c : Char) (rest : List Char) :
    unescapeChar (escapeChar c ++ rest) = some (c, rest) := by
  unfold escapeChar
  split_ifs with h₁ h₂ h₃ h₄ h₅ h₆ h₇ h₈
  · rw [h₁]; rfl
  · rw [h₂]; rfl
  · rw [h₃]; rfl
  · rw [h₄]; rfl
  · rw [h₅]; rfl
  · rw [h₆]; rfl
  · rw [h₇]; rfl
  · have hfind : ∀ n < 32, (List.range 32).find? (fun m => hexDigit (m / 16) = hexDigit (n / 16) &&
        hexDigit (m % 16) = hexDigit (n % 16)) = some n := by decide
    simp only [List.cons_append, List.nil_append, unescapeChar, hfind c.toNat h₈, Option.map_some,
      Char.ofNat_toNat]
  · simp only [List.cons_append, List.nil_append]
    unfold unescapeChar
    split <;> simp_all

theorem head_escapeChar (c : Char) : ∃ a rest, escapeChar c = a :: rest ∧ a ≠ '"' := by
  unfold escapeChar
  split_ifs with h₁ <;> exact ⟨_, _, rfl, by first | decide | exact h₁⟩

theorem escapeChar_cancel {c c' : Char} {s s' : List Char}
    (h : escapeChar c ++ s = escapeChar c' ++ s') : c = c' ∧ s = s' := by
  have hread := congrArg unescapeChar h
  rw [unescapeChar_escapeChar, unescapeChar_escapeChar] at hread
  simpa using hread

/-- The text of a string up to and with the closing quotation mark. -/
def stringTail : List Char → List Char
  | [] => ['"']
  | c :: rest => escapeChar c ++ stringTail rest

/-- A string in quotation marks. -/
def quoted (s : String) : List Char := '"' :: stringTail s.toList

theorem stringTail_cancel {a a' s s' : List Char} (h : stringTail a ++ s = stringTail a' ++ s') :
    a = a' ∧ s = s' := by
  induction a generalizing a' with
  | nil =>
    cases a' with
    | nil => simpa [stringTail] using h
    | cons c' a' =>
      obtain ⟨x, rest, hx, hne⟩ := head_escapeChar c'
      simp only [stringTail, hx, List.cons_append, List.cons.injEq] at h
      exact absurd h.1.symm hne
  | cons c a ih =>
    cases a' with
    | nil =>
      obtain ⟨x, rest, hx, hne⟩ := head_escapeChar c
      simp only [stringTail, hx, List.cons_append, List.cons.injEq] at h
      exact absurd h.1 hne
    | cons c' a' =>
      simp only [stringTail, List.append_assoc] at h
      obtain ⟨rfl, htail⟩ := escapeChar_cancel h
      obtain ⟨rfl, rfl⟩ := ih htail
      exact ⟨rfl, rfl⟩

theorem quoted_cancel {a a' : String} {s s' : List Char} (h : quoted a ++ s = quoted a' ++ s') :
    a = a' ∧ s = s' := by
  obtain ⟨hlist, hs⟩ := stringTail_cancel (List.cons.inj h).2
  exact ⟨String.toList_inj.mp hlist, hs⟩

/-! ### Numbers -/

/-- The characters of a number. -/
def isNumberChar (c : Char) : Bool := c.isDigit || c = '-' || c = '+' || c = '.' || c = 'e'

/-- The decimal text of an integer. -/
def intText (n : ℤ) : List Char := n.repr.toList

theorem intText_injective {m n : ℤ} (h : intText m = intText n) : m = n :=
  Int.repr_injective (String.toList_inj.mp h)

theorem isDigit_of_mem_repr {n : ℕ} {c : Char} (h : c ∈ n.repr.toList) : c.isDigit := by
  rw [Nat.toList_repr] at h
  exact Nat.isDigit_of_mem_toDigits (by decide) (by decide) h

theorem mem_intText {n : ℤ} {c : Char} (h : c ∈ intText n) : c.isDigit ∨ c = '-' := by
  cases n with
  | ofNat n => exact .inl (isDigit_of_mem_repr h)
  | negSucc n =>
    have hmem : c ∈ '-' :: (n + 1).repr.toList := by simpa [intText, Int.repr] using h
    rcases List.mem_cons.mp hmem with rfl | hdigit
    · exact .inr rfl
    · exact .inl (isDigit_of_mem_repr hdigit)

theorem intText_ne_nil (n : ℤ) : intText n ≠ [] := by
  cases n with
  | ofNat n => simp [intText, Int.repr]
  | negSucc n => simp [intText, Int.repr]

/-- How floating-point numbers are written: differently, and not like integers. -/
structure FloatText where
  /-- The text of a number. -/
  text : Float → List Char
  /-- Different numbers have different texts. -/
  injective : Function.Injective text
  /-- Only characters of numbers occur. -/
  chars : ∀ x, ∀ c ∈ text x, isNumberChar c
  /-- A point or an exponent occurs. -/
  fractional : ∀ x, ∃ c ∈ text x, c = '.' ∨ c = 'e'

/-- Floating-point numbers written by their bits. -/
def FloatText.bits : FloatText where
  text x := '.' :: intText x.toBits.toNat
  injective := by
    intro x y h
    have hbits : (x.toBits.toNat : ℤ) = y.toBits.toNat := intText_injective (List.cons.inj h).2
    obtain ⟨⟨bits, hvalid⟩⟩ := x
    obtain ⟨⟨bits', hvalid'⟩⟩ := y
    obtain rfl : bits = bits' := UInt64.toNat_inj.mp (by exact_mod_cast hbits)
    rfl
  chars := by
    intro x c hc
    rcases List.mem_cons.mp hc with rfl | hint
    · decide
    · rcases mem_intText hint with hdigit | rfl
      · simp [isNumberChar, hdigit]
      · decide
  fractional x := ⟨'.', by simp, .inl rfl⟩

/-- The text of a number. -/
def numberText (ft : FloatText) : JsonNumber → List Char
  | .pos n => intText n.toNat
  | .neg n _ => intText n.toInt
  | .float x => ft.text x

theorem numberText_ne_nil (ft : FloatText) (n : JsonNumber) : numberText ft n ≠ [] := by
  cases n with
  | pos n => exact intText_ne_nil _
  | neg n h => exact intText_ne_nil _
  | float x =>
    obtain ⟨c, hc, -⟩ := ft.fractional x
    exact List.ne_nil_of_mem hc

theorem isNumberChar_of_mem (ft : FloatText) {n : JsonNumber} {c : Char}
    (h : c ∈ numberText ft n) : isNumberChar c := by
  have hint : c.isDigit ∨ c = '-' → isNumberChar c := by
    rintro (hdigit | rfl)
    · simp [isNumberChar, hdigit]
    · decide
  cases n with
  | pos n => exact hint (mem_intText h)
  | neg n hneg => exact hint (mem_intText h)
  | float x => exact ft.chars x c h

theorem floatText_ne_intText (ft : FloatText) (x : Float) (n : ℤ) : ft.text x ≠ intText n := by
  intro h
  obtain ⟨c, hc, hpoint⟩ := ft.fractional x
  rw [h] at hc
  rcases mem_intText hc with hdigit | rfl
  · rcases hpoint with rfl | rfl <;> exact absurd hdigit (by decide)
  · exact absurd hpoint (by decide)

theorem numberText_injective (ft : FloatText) {m n : JsonNumber}
    (h : numberText ft m = numberText ft n) : m = n := by
  cases m with
  | pos m =>
    cases n with
    | pos n =>
      have hnat : m.toNat = n.toNat := by exact_mod_cast intText_injective h
      rw [UInt64.toNat_inj.mp hnat]
    | neg n hn =>
      have hint : (m.toNat : ℤ) = n.toInt := intText_injective h
      have hneg : n.toInt < 0 := by simpa using Int64.lt_iff_toInt_lt.mp hn
      omega
    | float x => exact absurd h.symm (floatText_ne_intText ft x _)
  | neg m hm =>
    cases n with
    | pos n =>
      have hint : m.toInt = (n.toNat : ℤ) := intText_injective h
      have hneg : m.toInt < 0 := by simpa using Int64.lt_iff_toInt_lt.mp hm
      omega
    | neg n hn =>
      obtain rfl := Int64.toInt_inj.mp (intText_injective h)
      rfl
    | float x => exact absurd h.symm (floatText_ne_intText ft x _)
  | float x =>
    cases n with
    | pos n => exact absurd h (floatText_ne_intText ft x _)
    | neg n hn => exact absurd h (floatText_ne_intText ft x _)
    | float y => rw [ft.injective h]

/-- What may follow a value: nothing, a comma or a closing bracket. -/
def Ends (s : List Char) : Prop := ∀ c ∈ s.head?, c = ',' ∨ c = ']' ∨ c = '\x7d'

theorem takeWhile_of_ends {a s : List Char} (ha : ∀ c ∈ a, isNumberChar c) (hs : Ends s) :
    (a ++ s).takeWhile isNumberChar = a := by
  rw [List.takeWhile_append_of_pos ha]
  cases s with
  | nil => simp
  | cons c s =>
    have hc : isNumberChar c = false := by
      rcases hs c rfl with rfl | rfl | rfl <;> decide
    simp [hc]

theorem numberText_cancel (ft : FloatText) {m n : JsonNumber} {s s' : List Char} (hs : Ends s)
    (hs' : Ends s') (h : numberText ft m ++ s = numberText ft n ++ s') : m = n ∧ s = s' := by
  have htake := congrArg (List.takeWhile isNumberChar) h
  rw [takeWhile_of_ends (fun c hc => isNumberChar_of_mem ft hc) hs,
    takeWhile_of_ends (fun c hc => isNumberChar_of_mem ft hc) hs'] at htake
  rw [htake] at h
  exact ⟨numberText_injective ft htake, List.append_cancel_left h⟩

/-! ### Values -/

mutual

/-- The text of a value. -/
def Json.text (ft : FloatText) : Json → List Char
  | .null => ['n', 'u', 'l', 'l']
  | .bool true => ['t', 'r', 'u', 'e']
  | .bool false => ['f', 'a', 'l', 's', 'e']
  | .num n => numberText ft n
  | .str s => quoted s
  | .arr items => '[' :: itemsText ft items
  | .obj members => '\x7b' :: membersText ft members

/-- The items of an array and the closing bracket. -/
def itemsText (ft : FloatText) : List Json → List Char
  | [] => [']']
  | j :: rest => Json.text ft j ++ restText ft rest

/-- The items after the first one and the closing bracket. -/
def restText (ft : FloatText) : List Json → List Char
  | [] => [']']
  | j :: rest => ',' :: (Json.text ft j ++ restText ft rest)

/-- The members of an object and the closing brace. -/
def membersText (ft : FloatText) : List (String × Json) → List Char
  | [] => ['\x7d']
  | (name, j) :: rest => quoted name ++ ':' :: (Json.text ft j ++ restMembersText ft rest)

/-- The members after the first one and the closing brace. -/
def restMembersText (ft : FloatText) : List (String × Json) → List Char
  | [] => ['\x7d']
  | (name, j) :: rest =>
    ',' :: (quoted name ++ ':' :: (Json.text ft j ++ restMembersText ft rest))

end

/-- The kinds of values that the first character of a text tells apart. -/
inductive JsonKind
  | null
  | true
  | false
  | num
  | str
  | arr
  | obj
  | none
  deriving DecidableEq

/-- The kind of a value. -/
def Json.kind : Json → JsonKind
  | .null => .null
  | .bool b => if b then .true else .false
  | .num _ => .num
  | .str _ => .str
  | .arr _ => .arr
  | .obj _ => .obj

/-- The kind that the first character of a text tells. -/
def kindOfHead (c : Char) : JsonKind :=
  if c = 'n' then .null
  else if c = 't' then .true
  else if c = 'f' then .false
  else if c = '"' then .str
  else if c = '[' then .arr
  else if c = '\x7b' then .obj
  else if isNumberChar c then .num
  else .none

theorem kindOfHead_of_isNumberChar {c : Char} (h : isNumberChar c) : kindOfHead c = .num := by
  unfold kindOfHead
  split_ifs with h₁ h₂ h₃ h₄ h₅ h₆
  all_goals first
    | rfl
    | (subst_vars; exact absurd h (by decide))

theorem kind_ne_none (j : Json) : j.kind ≠ .none := by
  cases j with
  | bool b => cases b <;> simp [Json.kind]
  | _ => simp [Json.kind]

theorem kindOfHead_text (ft : FloatText) (j : Json) :
    ∃ c rest, j.text ft = c :: rest ∧ kindOfHead c = j.kind := by
  cases j with
  | null => exact ⟨_, _, rfl, rfl⟩
  | bool b => cases b <;> exact ⟨_, _, rfl, rfl⟩
  | num n =>
    obtain ⟨c, rest, hcons⟩ := List.exists_cons_of_ne_nil (numberText_ne_nil ft n)
    refine ⟨c, rest, hcons, kindOfHead_of_isNumberChar (isNumberChar_of_mem ft (n := n) ?_)⟩
    simp [hcons]
  | str s => exact ⟨_, _, rfl, rfl⟩
  | arr items => exact ⟨_, _, rfl, rfl⟩
  | obj members => exact ⟨_, _, rfl, rfl⟩

theorem kind_of_text_append (ft : FloatText) {j j' : Json} {s s' : List Char}
    (h : j.text ft ++ s = j'.text ft ++ s') : j.kind = j'.kind := by
  obtain ⟨c, rest, htext, hkind⟩ := kindOfHead_text ft j
  obtain ⟨c', rest', htext', hkind'⟩ := kindOfHead_text ft j'
  rw [htext, htext', List.cons_append, List.cons_append] at h
  rw [← hkind, ← hkind', (List.cons.inj h).1]

theorem ends_restText (ft : FloatText) (items : List Json) (s : List Char) :
    Ends (restText ft items ++ s) := by
  cases items <;> simp [restText, Ends]

theorem ends_restMembersText (ft : FloatText) (members : List (String × Json)) (s : List Char) :
    Ends (restMembersText ft members ++ s) := by
  rcases members with _ | ⟨⟨name, j⟩, rest⟩ <;> simp [restMembersText, Ends]

theorem text_ne_bracket (ft : FloatText) (j : Json) (s s' : List Char) :
    ']' :: s' ≠ j.text ft ++ s := by
  intro h
  obtain ⟨c, rest, htext, hkind⟩ := kindOfHead_text ft j
  rw [htext, List.cons_append] at h
  obtain rfl := (List.cons.inj h).1
  exact kind_ne_none j hkind.symm

mutual

/-- A value and what follows it can be read off the text. -/
theorem text_cancel (ft : FloatText) {j j' : Json} {s s' : List Char} (hs : Ends s) (hs' : Ends s')
    (h : j.text ft ++ s = j'.text ft ++ s') : j = j' ∧ s = s' := by
  have hkind := kind_of_text_append ft h
  match j, j' with
  | .null, .null => exact ⟨rfl, List.append_cancel_left h⟩
  | .bool true, .bool true => exact ⟨rfl, List.append_cancel_left h⟩
  | .bool false, .bool false => exact ⟨rfl, List.append_cancel_left h⟩
  | .num m, .num n =>
    obtain ⟨rfl, rfl⟩ := numberText_cancel ft hs hs' h
    exact ⟨rfl, rfl⟩
  | .str a, .str b =>
    obtain ⟨rfl, rfl⟩ := quoted_cancel h
    exact ⟨rfl, rfl⟩
  | .arr items, .arr items' =>
    obtain ⟨rfl, rfl⟩ := itemsText_cancel ft (List.cons.inj h).2
    exact ⟨rfl, rfl⟩
  | .obj members, .obj members' =>
    obtain ⟨rfl, rfl⟩ := membersText_cancel ft (List.cons.inj h).2
    exact ⟨rfl, rfl⟩

theorem itemsText_cancel (ft : FloatText) {items items' : List Json} {s s' : List Char}
    (h : itemsText ft items ++ s = itemsText ft items' ++ s') : items = items' ∧ s = s' := by
  match items, items' with
  | [], [] => exact ⟨rfl, (List.cons.inj h).2⟩
  | [], j' :: rest' =>
    simp only [itemsText, List.append_assoc] at h
    exact absurd h (text_ne_bracket ft j' _ _)
  | j :: rest, [] =>
    simp only [itemsText, List.append_assoc] at h
    exact absurd h.symm (text_ne_bracket ft j _ _)
  | j :: rest, j' :: rest' =>
    simp only [itemsText, List.append_assoc] at h
    obtain ⟨rfl, htail⟩ := text_cancel ft (ends_restText ft _ _) (ends_restText ft _ _) h
    obtain ⟨rfl, rfl⟩ := restText_cancel ft htail
    exact ⟨rfl, rfl⟩

theorem restText_cancel (ft : FloatText) {items items' : List Json} {s s' : List Char}
    (h : restText ft items ++ s = restText ft items' ++ s') : items = items' ∧ s = s' := by
  match items, items' with
  | [], [] => exact ⟨rfl, (List.cons.inj h).2⟩
  | [], j' :: rest' => exact absurd (List.cons.inj h).1 (by decide)
  | j :: rest, [] => exact absurd (List.cons.inj h).1 (by decide)
  | j :: rest, j' :: rest' =>
    have htext := (List.cons.inj h).2
    simp only [List.append_eq, List.append_assoc] at htext
    obtain ⟨rfl, htail⟩ := text_cancel ft (ends_restText ft _ _) (ends_restText ft _ _) htext
    obtain ⟨rfl, rfl⟩ := restText_cancel ft htail
    exact ⟨rfl, rfl⟩

theorem membersText_cancel (ft : FloatText) {members members' : List (String × Json)}
    {s s' : List Char} (h : membersText ft members ++ s = membersText ft members' ++ s') :
    members = members' ∧ s = s' := by
  match members, members' with
  | [], [] => exact ⟨rfl, (List.cons.inj h).2⟩
  | [], (name', j') :: rest' => exact absurd (List.cons.inj h).1 (by decide)
  | (name, j) :: rest, [] => exact absurd (List.cons.inj h).1 (by decide)
  | (name, j) :: rest, (name', j') :: rest' =>
    simp only [membersText, List.append_assoc, List.cons_append] at h
    obtain ⟨rfl, hcolon⟩ := quoted_cancel h
    obtain ⟨rfl, htail⟩ := text_cancel ft (ends_restMembersText ft _ _)
      (ends_restMembersText ft _ _) (List.cons.inj hcolon).2
    obtain ⟨rfl, rfl⟩ := restMembersText_cancel ft htail
    exact ⟨rfl, rfl⟩

theorem restMembersText_cancel (ft : FloatText) {members members' : List (String × Json)}
    {s s' : List Char} (h : restMembersText ft members ++ s = restMembersText ft members' ++ s') :
    members = members' ∧ s = s' := by
  match members, members' with
  | [], [] => exact ⟨rfl, (List.cons.inj h).2⟩
  | [], (name', j') :: rest' => exact absurd (List.cons.inj h).1 (by decide)
  | (name, j) :: rest, [] => exact absurd (List.cons.inj h).1 (by decide)
  | (name, j) :: rest, (name', j') :: rest' =>
    simp only [restMembersText, List.append_assoc, List.cons_append] at h
    obtain ⟨rfl, hcolon⟩ := quoted_cancel (List.cons.inj h).2
    obtain ⟨rfl, htail⟩ := text_cancel ft (ends_restMembersText ft _ _)
      (ends_restMembersText ft _ _) (List.cons.inj hcolon).2
    obtain ⟨rfl, rfl⟩ := restMembersText_cancel ft htail
    exact ⟨rfl, rfl⟩

end

/-! ### Arrays of fixed length -/

/-- What a text stands for, and what follows it, can be read off when a separator follows. -/
def Cancels {α : Type} (f : α → List Char) : Prop :=
  ∀ ⦃a a' : α⦄ ⦃s s' : List Char⦄, Ends s → Ends s' → f a ++ s = f a' ++ s' → a = a' ∧ s = s'

theorem cancels_text (ft : FloatText) : Cancels (Json.text ft) :=
  fun _ _ _ _ hs hs' h => text_cancel ft hs hs' h

theorem cancels_quoted : Cancels quoted := fun _ _ _ _ _ _ h => quoted_cancel h

theorem cancels_intText : Cancels intText := by
  intro m n s s' hs hs' h
  have hchars : ∀ k : ℤ, ∀ c ∈ intText k, isNumberChar c := by
    intro k c hc
    rcases mem_intText hc with hdigit | rfl
    · simp [isNumberChar, hdigit]
    · decide
  have htake := congrArg (List.takeWhile isNumberChar) h
  rw [takeWhile_of_ends (hchars m) hs, takeWhile_of_ends (hchars n) hs'] at htake
  rw [htake] at h
  exact ⟨intText_injective htake, List.append_cancel_left h⟩

/-- The text of an optional value. -/
def optionText {α : Type} (f : α → List Char) : Option α → List Char
  | none => ['n', 'u', 'l', 'l']
  | some a => f a

theorem cancels_optionText {α : Type} {f : α → List Char} (hf : Cancels f)
    (hhead : ∀ a, 'n' ∉ (f a).head?) (hne : ∀ a, f a ≠ []) : Cancels (optionText f) := by
  have hnull : ∀ a s s', ['n', 'u', 'l', 'l'] ++ s ≠ f a ++ s' := by
    intro a s s' h
    obtain ⟨c, rest, hcons⟩ := List.exists_cons_of_ne_nil (hne a)
    have hc := hhead a
    rw [hcons] at h hc
    obtain rfl := (List.cons.inj h).1
    exact hc rfl
  intro a a' s s' hs hs' h
  cases a with
  | none =>
    cases a' with
    | none => exact ⟨rfl, List.append_cancel_left h⟩
    | some a' => exact absurd h (hnull a' s s')
  | some a =>
    cases a' with
    | none => exact absurd h.symm (hnull a s' s)
    | some a' =>
      obtain ⟨rfl, rfl⟩ := hf hs hs' h
      exact ⟨rfl, rfl⟩

theorem cancels_optionText_quoted : Cancels (optionText quoted) :=
  cancels_optionText cancels_quoted (by simp [quoted]) (by simp [quoted])

theorem cancels_optionText_intText : Cancels (optionText intText) := by
  refine cancels_optionText cancels_intText ?_ intText_ne_nil
  intro n hn
  rcases mem_intText (List.mem_of_mem_head? hn) with hdigit | h
  · exact absurd hdigit (by decide)
  · exact absurd h (by decide)

/-- One item, a comma, and the items after it. -/
def commaText {α β : Type} (f : α → List Char) (g : β → List Char) (x : α × β) : List Char :=
  f x.1 ++ ',' :: g x.2

theorem cancels_commaText {α β : Type} {f : α → List Char} {g : β → List Char} (hf : Cancels f)
    (hg : Cancels g) : Cancels (commaText f g) := by
  rintro ⟨a, b⟩ ⟨a', b'⟩ s s' hs hs' h
  simp only [commaText, List.append_assoc, List.cons_append] at h
  obtain ⟨rfl, htail⟩ := hf (by simp [Ends]) (by simp [Ends]) h
  obtain ⟨rfl, rfl⟩ := hg hs hs' (List.cons.inj htail).2
  exact ⟨rfl, rfl⟩

/-- Items in brackets. -/
def bracketText {α : Type} (f : α → List Char) (x : α) : List Char := '[' :: (f x ++ [']'])

theorem bracketText_injective {α : Type} {f : α → List Char} (hf : Cancels f) {x x' : α}
    (h : bracketText f x = bracketText f x') : x = x' :=
  (hf (by simp [Ends]) (by simp [Ends]) (List.cons.inj h).2).1

/-! ### Control characters -/

/-- No control character occurs. -/
def Printable (s : List Char) : Prop := ∀ c ∈ s, 32 ≤ c.toNat

@[simp] theorem printable_nil : Printable [] := by simp [Printable]

@[simp] theorem printable_cons {c : Char} {s : List Char} :
    Printable (c :: s) ↔ 32 ≤ c.toNat ∧ Printable s := List.forall_mem_cons

@[simp] theorem printable_append {s s' : List Char} :
    Printable (s ++ s') ↔ Printable s ∧ Printable s' := List.forall_mem_append

theorem printable_escapeChar (c : Char) : Printable (escapeChar c) := by
  have hdigit : ∀ n < 32, 32 ≤ (hexDigit (n / 16)).toNat ∧ 32 ≤ (hexDigit (n % 16)).toNat := by
    decide
  by_cases hlow : c.toNat < 32
  · obtain ⟨hhigh, hrest⟩ := hdigit c.toNat hlow
    unfold escapeChar
    split_ifs <;> simp [hhigh, hrest]
  · unfold escapeChar
    split_ifs <;> simp
    omega

theorem printable_quoted (s : String) : Printable (quoted s) := by
  have htail : ∀ cs, Printable (stringTail cs) := by
    intro cs
    induction cs with
    | nil => simp [stringTail]
    | cons c cs ih => simp [stringTail, printable_escapeChar, ih]
  simp [quoted, htail]

theorem printable_of_isNumberChar {s : List Char} (h : ∀ c ∈ s, isNumberChar c) : Printable s := by
  intro c hc
  have hnum := h c hc
  simp only [isNumberChar, Bool.or_eq_true, decide_eq_true_eq] at hnum
  rcases hnum with (((hdigit | rfl) | rfl) | rfl) | rfl
  · have hge := (Char.isDigit_iff_toNat.mp hdigit).1
    exact Nat.le_trans (by decide) hge
  all_goals decide

mutual

theorem printable_text (ft : FloatText) (j : Json) : Printable (j.text ft) := by
  match j with
  | .null => simp [Json.text]
  | .bool true => simp [Json.text]
  | .bool false => simp [Json.text]
  | .num n => exact printable_of_isNumberChar fun c hc => isNumberChar_of_mem ft hc
  | .str s => exact printable_quoted s
  | .arr items => simp [Json.text, printable_itemsText ft items]
  | .obj members => simp [Json.text, printable_membersText ft members]

theorem printable_itemsText (ft : FloatText) (items : List Json) :
    Printable (itemsText ft items) := by
  match items with
  | [] => simp [itemsText]
  | j :: rest => simp [itemsText, printable_text ft j, printable_restText ft rest]

theorem printable_restText (ft : FloatText) (items : List Json) : Printable (restText ft items) := by
  match items with
  | [] => simp [restText]
  | j :: rest => simp [restText, printable_text ft j, printable_restText ft rest]

theorem printable_membersText (ft : FloatText) (members : List (String × Json)) :
    Printable (membersText ft members) := by
  match members with
  | [] => simp [membersText]
  | (name, j) :: rest =>
    simp [membersText, printable_quoted, printable_text ft j, printable_restMembersText ft rest]

theorem printable_restMembersText (ft : FloatText) (members : List (String × Json)) :
    Printable (restMembersText ft members) := by
  match members with
  | [] => simp [restMembersText]
  | (name, j) :: rest =>
    simp [restMembersText, printable_quoted, printable_text ft j, printable_restMembersText ft rest]

end

end Lib
