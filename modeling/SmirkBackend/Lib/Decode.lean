import Mathlib.Data.List.Forall2
import SmirkBackend.Lib.Json

/-!
# Reading records

A derived reader of a record takes an object with the record's fields among its members, in any
order, or an array with the fields in theirs.  A field may have several names and a value for when
it is missing; a field that occurs twice is an error, and members that are no fields are passed
over.

Readers are compared on related values: what they make of the two is related again.

The relations are built along with the readers (`Decoder.Respects.list`, `Record.Respects.field`,
`Record.Respects.decode`), and what is not read spoils the whole (`RecordField.ofMembers_eq_none`,
`Record.field_eq_none`, `Decoder.items_eq_none`).
-/

namespace Lib

variable {α β : Type}

/-- A reader of values. -/
abbrev Decoder (α : Type) := Json → Option α

namespace Decoder

/-- A string. -/
def string : Decoder String
  | .str s => some s
  | _ => none

/-- A truth value. -/
def bool : Decoder Bool
  | .bool b => some b
  | _ => none

/-- A value or `null`. -/
def option (d : Decoder α) : Decoder (Option α)
  | .null => some none
  | v => (d v).map some

/-- The items of an array. -/
def items (d : Decoder α) : List Json → Option (List α)
  | [] => some []
  | v :: vs => do
    let a ← d v
    let as ← items d vs
    some (a :: as)

/-- An array. -/
def list (d : Decoder α) : Decoder (List α)
  | .arr vs => items d vs
  | _ => none

end Decoder

/-- A field of a record. -/
structure RecordField (α : Type) where
  /-- Its name, and further names it is known by. -/
  names : List String
  /-- What is read of its value. -/
  read : Decoder α
  /-- What it is when it is missing, if it may be. -/
  missing : Option α

namespace RecordField

/-- The field among the members of an object. -/
def ofMembers (f : RecordField α) (ms : List (String × Json)) : Option α :=
  match ms.filter fun m => decide (m.1 ∈ f.names) with
  | [] => f.missing
  | [m] => f.read m.2
  | _ => none

/-- The field as the next item of an array. -/
def ofItems (f : RecordField α) : List Json → Option (α × List Json)
  | [] => f.missing.map fun a => (a, [])
  | v :: vs => (f.read v).map fun a => (a, vs)

end RecordField

/-- A reader of a record that is put together field by field. -/
structure Record (α : Type) where
  /-- The record among the members of an object. -/
  ofMembers : List (String × Json) → Option α
  /-- The record as the first items of an array. -/
  ofItems : List Json → Option (α × List Json)

namespace Record

/-- The record before its fields. -/
def of (a : α) : Record α := ⟨fun _ => some a, fun vs => some (a, vs)⟩

/-- The next field. -/
def field (r : Record (β → α)) (f : RecordField β) : Record α where
  ofMembers ms := do
    let g ← r.ofMembers ms
    let b ← f.ofMembers ms
    some (g b)
  ofItems vs := do
    let (g, vs') ← r.ofItems vs
    let (b, vs'') ← f.ofItems vs'
    some (g b, vs'')

/-- The record: an object, or an array without further items. -/
def decode (r : Record α) : Decoder α
  | .obj ms => r.ofMembers ms
  | .arr vs =>
    match r.ofItems vs with
    | some (a, []) => some a
    | _ => none
  | _ => none

end Record

/-! ### What is not read -/

/-- A value that is not read spoils its field. -/
theorem RecordField.ofMembers_eq_none {f : RecordField α} {ms : List (String × Json)}
    {m : String × Json} (hm : m ∈ ms) (hname : m.1 ∈ f.names) (hread : f.read m.2 = none) :
    f.ofMembers ms = none := by
  have hmem : m ∈ ms.filter fun m => decide (m.1 ∈ f.names) :=
    List.mem_filter.mpr ⟨hm, decide_eq_true hname⟩
  unfold RecordField.ofMembers
  split
  · rename_i heq
    rw [heq] at hmem
    cases hmem
  · rename_i m' heq
    rw [heq, List.mem_singleton] at hmem
    rw [← hmem, hread]
  · rfl

/-- A field that is not read spoils the record. -/
theorem Record.field_eq_none {r : Record (β → α)} {f : RecordField β} {ms : List (String × Json)}
    (h : r.ofMembers ms = none ∨ f.ofMembers ms = none) : (r.field f).ofMembers ms = none := by
  rcases h with h | h
  · simp [Record.field, h]
  · simp [Record.field, h]

/-- An item that is not read spoils the array. -/
theorem Decoder.items_eq_none {d : Decoder α} {vs : List Json} {v : Json} (hv : v ∈ vs)
    (hread : d v = none) : d.items vs = none := by
  induction vs with
  | nil => cases hv
  | cons w vs ih =>
    rcases List.mem_cons.mp hv with rfl | hv
    · simp [items, hread]
    · simp [items, ih hv]

/-! ### Related values -/

/-- Arrays that are related item by item; other values are the same. -/
inductive EachItem (E : Json → Json → Prop) : Json → Json → Prop
  | arr {vs ws : List Json} (h : List.Forall₂ E vs ws) : EachItem E (.arr vs) (.arr ws)
  | same (v : Json) : EachItem E v v

/-- Members of the same names with related values. -/
abbrev Members (E : String → Json → Json → Prop) : List (String × Json) → List (String × Json) → Prop :=
  List.Forall₂ fun m m' => m.1 = m'.1 ∧ E m.1 m.2 m'.2

/-- Objects that are related member by member; other values are the same. -/
inductive EachMember (E : String → Json → Json → Prop) : Json → Json → Prop
  | obj {ms ms' : List (String × Json)} (h : Members E ms ms') : EachMember E (.obj ms) (.obj ms')
  | same (v : Json) : EachMember E v v

/-- A reader makes related things of related values, or fails on both. -/
def Decoder.Respects (d : Decoder α) (E : Json → Json → Prop) (R : α → α → Prop) : Prop :=
  ∀ v w, E v w → Option.Rel R (d v) (d w)

/-- The values under the names of a field are read to related things. -/
def RecordField.Respects (f : RecordField α) (E : String → Json → Json → Prop) (R : α → α → Prop) : Prop :=
  (∀ a, R a a) ∧ ∀ name ∈ f.names, f.read.Respects (E name) R

/-- Related members give related records. -/
def Record.Respects (r : Record α) (E : String → Json → Json → Prop) (R : α → α → Prop) : Prop :=
  ∀ ms ms', Members E ms ms' → Option.Rel R (r.ofMembers ms) (r.ofMembers ms')

/-- Two outcomes: related results, or the same error. -/
inductive ExceptRel {ε : Type} (R : α → β → Prop) : Except ε α → Except ε β → Prop
  | ok {a : α} {b : β} (h : R a b) : ExceptRel R (.ok a) (.ok b)
  | error (e : ε) : ExceptRel R (.error e) (.error e)

/-- What is done with related results next. -/
theorem ExceptRel.bind {ε α' β' : Type} {R : α → β → Prop} {S : α' → β' → Prop} {x : Except ε α}
    {y : Except ε β} {f : α → Except ε α'} {g : β → Except ε β'} (h : ExceptRel R x y)
    (hf : ∀ a b, R a b → ExceptRel S (f a) (g b)) : ExceptRel S (x >>= f) (y >>= g) := by
  cases h with
  | ok h => exact hf _ _ h
  | error e => exact .error e

/-- The same outcome. -/
theorem ExceptRel.same {ε : Type} {R : α → α → Prop} (hR : ∀ a, R a a) (x : Except ε α) :
    ExceptRel R x x := by
  cases x with
  | ok a => exact .ok (hR a)
  | error e => exact .error e

theorem ExceptRel.eq {ε : Type} {x y : Except ε α} (h : ExceptRel Eq x y) : x = y := by
  cases h with
  | ok h => rw [h]
  | error e => rfl

theorem ExceptRel.map_eq {ε γ : Type} {R : α → β → Prop} {f : α → γ} {g : β → γ} {x : Except ε α}
    {y : Except ε β} (h : ExceptRel R x y) (hfg : ∀ a b, R a b → f a = g b) : x.map f = y.map g := by
  cases h with
  | ok h => exact congrArg Except.ok (hfg _ _ h)
  | error e => rfl

theorem rel_refl {R : α → α → Prop} (hR : ∀ a, R a a) (o : Option α) : Option.Rel R o o := by
  cases o with
  | none => exact .none
  | some a => exact .some (hR a)

theorem rel_mono {R S : α → α → Prop} {o o' : Option α} (h : Option.Rel R o o')
    (hRS : ∀ a a', R a a' → S a a') : Option.Rel S o o' := by
  cases h with
  | none => exact .none
  | some h => exact .some (hRS _ _ h)

theorem rel_of_isSome {R : α → α → Prop} {o o' : Option α} (h : o.isSome = o'.isSome)
    (hR : ∀ a a', R a a') : Option.Rel R o o' := by
  cases o with
  | none =>
    cases o' with
    | none => exact .none
    | some a' => cases h
  | some a =>
    cases o' with
    | none => cases h
    | some a' => exact .some (hR a a')

theorem rel_bind {R : α → α → Prop} {S : β → β → Prop} {o o' : Option α} {f f' : α → Option β}
    (h : Option.Rel R o o') (hf : ∀ a a', R a a' → Option.Rel S (f a) (f' a')) :
    Option.Rel S (o.bind f) (o'.bind f') := by
  cases h with
  | none => exact .none
  | some h => exact hf _ _ h

namespace Decoder.Respects

variable {d : Decoder α} {E : Json → Json → Prop} {R : α → α → Prop}

theorem eq (d : Decoder α) (hR : ∀ a, R a a) : d.Respects Eq R := by
  rintro v _ rfl
  exact rel_refl hR (d v)

theorem items (h : d.Respects E R) {vs ws : List Json} (hvs : List.Forall₂ E vs ws) :
    Option.Rel (List.Forall₂ R) (d.items vs) (d.items ws) := by
  induction hvs with
  | nil => exact .some .nil
  | cons hv _ ih =>
    refine rel_bind (h _ _ hv) fun a a' ha => ?_
    exact rel_bind ih fun as as' has => .some (.cons ha has)

/-- An array is read item by item. -/
theorem list (h : d.Respects E R) (hR : ∀ a, R a a) :
    (d.list).Respects (EachItem E) (List.Forall₂ R) := by
  intro v w hvw
  cases hvw with
  | arr hvs => exact h.items hvs
  | same v => exact rel_refl (fun as => List.forall₂_same.mpr fun a _ => hR a) _

end Decoder.Respects

theorem members_filter {E : String → Json → Json → Prop} {ms ms' : List (String × Json)}
    (h : Members E ms ms') (names : List String) :
    Members (fun name v w => name ∈ names ∧ E name v w)
      (ms.filter fun m => decide (m.1 ∈ names)) (ms'.filter fun m => decide (m.1 ∈ names)) := by
  induction h with
  | nil => exact .nil
  | @cons m m' ms ms' hm _ ih =>
    obtain ⟨hname, hv⟩ := hm
    by_cases hmem : m.1 ∈ names
    · have hmem' : m'.1 ∈ names := hname ▸ hmem
      simp only [List.filter_cons, hmem, hmem', decide_true, if_true]
      exact .cons ⟨hname, hmem, hv⟩ ih
    · have hmem' : m'.1 ∉ names := hname ▸ hmem
      simpa only [List.filter_cons, hmem, hmem', decide_false, Bool.false_eq_true, if_false] using ih

theorem RecordField.Respects.ofMembers {f : RecordField α} {E : String → Json → Json → Prop} {R : α → α → Prop}
    (h : f.Respects E R) {ms ms' : List (String × Json)} (hms : Members E ms ms') :
    Option.Rel R (f.ofMembers ms) (f.ofMembers ms') := by
  have hfilter := members_filter hms f.names
  unfold RecordField.ofMembers
  generalize ms.filter _ = fs at hfilter ⊢
  generalize ms'.filter _ = fs' at hfilter ⊢
  cases hfilter with
  | nil => exact rel_refl h.1 f.missing
  | cons hm hrest =>
    cases hrest with
    | nil => exact h.2 _ hm.2.1 _ _ hm.2.2
    | cons _ _ => exact .none

/-- A field whose values are the same. -/
theorem RecordField.Respects.same {f : RecordField α} {E : String → Json → Json → Prop}
    (h : ∀ name ∈ f.names, ∀ v w, E name v w → v = w) : f.Respects E Eq := by
  refine ⟨fun _ => rfl, fun name hname v w hvw => ?_⟩
  obtain rfl := h name hname v w hvw
  exact rel_refl (fun _ => rfl) _

namespace Record.Respects

variable {E : String → Json → Json → Prop}

theorem of {R : α → α → Prop} {a : α} (h : R a a) : (Record.of a).Respects E R :=
  fun _ _ _ => .some h

/-- A record is related if it is in all its fields. -/
theorem field {r : Record (β → α)} {f : RecordField β} {R : α → α → Prop} {S : β → β → Prop}
    (hr : r.Respects E fun g g' => ∀ b b', S b b' → R (g b) (g' b')) (hf : f.Respects E S) :
    (r.field f).Respects E R := by
  intro ms ms' hms
  refine rel_bind (hr ms ms' hms) fun g g' hg => ?_
  exact rel_bind (hf.ofMembers hms) fun b b' hb => .some (hg b b' hb)

theorem decode {r : Record α} {R : α → α → Prop} (h : r.Respects E R) (hR : ∀ a, R a a) :
    r.decode.Respects (EachMember E) R := by
  intro v w hvw
  cases hvw with
  | obj hms => exact h _ _ hms
  | same v => exact rel_refl hR _

end Record.Respects

end Lib
