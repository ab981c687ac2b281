import SmirkBackend.Admin.ConfigPut
import SmirkBackend.Config.Sections

/-!
# Reading the stored settings

Each section is stored in a row of its own, with its own keyed hash, and a section that cannot be
read is meant to be left out alone.  The rows are checked one by one, but the documents are read
together: a checked row whose document cannot be read takes all other sections with it.

`own_row_iff` : a section is read from its own row exactly if that row says nothing or no row is
unreadable; two tables with the same row give the same section exactly if that row says nothing or
both or none have an unreadable row.
-/

namespace SmirkBackend

open Lib (Table Json)

/-! ### A section and its own row -/

/-- What a section's document says, read alone. -/
def docEdit (s : SettingsSection) (doc : Json) : Option (Option s.Edit) :=
  readField [(s.name, doc)] s.name

/-- The row of a section, if its hash is right. -/
def checkedRow (env : SettingsEnv) (t : Table OperatorSettingRow) (s : SettingsSection) :
    Option OperatorSettingRow :=
  (t.get? s.name).filter (verifySettingsMac env)

/-- What a section's own row says, if its hash is right and its document can be read. -/
def ownEdit (env : SettingsEnv) (t : Table OperatorSettingRow) (s : SettingsSection) :
    Option s.Edit :=
  match checkedRow env t s with
  | some r => (docEdit s r.doc).getD none
  | none => none

/-- The row of a section has the right hash, and its document cannot be read. -/
def Unreadable (env : SettingsEnv) (t : Table OperatorSettingRow) (s : SettingsSection) : Prop :=
  ∃ r, checkedRow env t s = some r ∧ docEdit s r.doc = none

/-- The members that are read together. -/
def checkedMembers (env : SettingsEnv) (rows : List OperatorSettingRow) : List (String × Json) :=
  (rows.filter (verifySettingsMac env)).map fun r => (r.section, r.doc)

theorem member_checkedMembers (env : SettingsEnv) (t : Table OperatorSettingRow)
    (s : SettingsSection) :
    member (checkedMembers env t.rows) s.name = (checkedRow env t s).map (·.doc) := by
  have hrow := t.get?_deleteWhere (fun r => !verifySettingsMac env r) s.name
  simp only [Bool.not_not] at hrow
  rw [checkedRow, ← hrow, checkedMembers, member, List.find?_map, Option.map_map]
  simp only [Table.get?, Table.deleteWhere, Bool.not_not]
  rfl

theorem readField_checkedMembers (env : SettingsEnv) (t : Table OperatorSettingRow)
    (s : SettingsSection) : readField (checkedMembers env t.rows) s.name =
      match checkedRow env t s with
      | some r => docEdit s r.doc
      | none => some (none : Option s.Edit) := by
  have hmember := member_checkedMembers env t s
  cases hrow : checkedRow env t s with
  | none => simp [readField, hmember, hrow]
  | some r =>
    have halone : member [(s.name, r.doc)] s.name = some r.doc := by simp [member]
    simp only [readField, docEdit, hmember, hrow, halone, Option.map_some]

theorem loadSettingsOverlay_of_unreadable {env : SettingsEnv} {t : Table OperatorSettingRow}
    {s : SettingsSection} (h : Unreadable env t s) :
    loadSettingsOverlay env t.rows = .default := by
  obtain ⟨r, hrow, hdoc⟩ := h
  have hread := readField_checkedMembers env t s
  rw [hrow] at hread
  cases hov : SettingsOverlay.fromMembers (checkedMembers env t.rows) with
  | none => exact congrArg (Option.getD · SettingsOverlay.default) hov
  | some ov =>
    rw [SettingsOverlay.fromMembers_eq_some_iff.mp hov s] at hread
    simp [hdoc] at hread

/-- Without one, each section is read from its own row. -/
theorem get_loadSettingsOverlay {env : SettingsEnv} {t : Table OperatorSettingRow}
    (h : ∀ s, ¬ Unreadable env t s) (s : SettingsSection) :
    (loadSettingsOverlay env t.rows).get s = ownEdit env t s := by
  have hall : SettingsOverlay.fromMembers (checkedMembers env t.rows) =
      some (.ofSections (ownEdit env t)) := by
    rw [SettingsOverlay.fromMembers_eq_some_iff]
    intro s
    rw [readField_checkedMembers, SettingsOverlay.get_ofSections, ownEdit]
    cases hrow : checkedRow env t s with
    | none => rfl
    | some r =>
      cases hdoc : docEdit s r.doc with
      | none => exact absurd ⟨r, hrow, hdoc⟩ (h s)
      | some edit => simp [hdoc]
  have hload : loadSettingsOverlay env t.rows = .ofSections (ownEdit env t) :=
    congrArg (Option.getD · SettingsOverlay.default) hall
  rw [hload, SettingsOverlay.get_ofSections]

/-! ### When sections fail alone -/

/-- A section is what its own row says. -/
def FromOwnRow (env : SettingsEnv) (t : Table OperatorSettingRow) (s : SettingsSection) : Prop :=
  (loadSettingsOverlay env t.rows).get s = ownEdit env t s

/-- A section is the same in two tables. -/
def SameSection (env : SettingsEnv) (t t' : Table OperatorSettingRow) (s : SettingsSection) :
    Prop :=
  (loadSettingsOverlay env t'.rows).get s = (loadSettingsOverlay env t.rows).get s

/-- **When a section depends on its own row alone.** It is what its own row says exactly if that is
nothing or no row is unreadable.  It is the same in another table with the same row exactly if that
row says nothing or both tables have an unreadable row or neither. -/
theorem own_row_iff (env : SettingsEnv) (t : Table OperatorSettingRow) (s : SettingsSection) :
    (FromOwnRow env t s ↔ ownEdit env t s = none ∨ ∀ s', ¬ Unreadable env t s') ∧
    ∀ t', t'.get? s.name = t.get? s.name →
      (SameSection env t t' s ↔ ownEdit env t s = none ∨
        ((∃ s', Unreadable env t s') ↔ ∃ s', Unreadable env t' s')) := by
  have hlost : ∀ {t : Table OperatorSettingRow}, (∃ s', Unreadable env t s') →
      (loadSettingsOverlay env t.rows).get s = none := by
    rintro t ⟨s', h⟩
    rw [loadSettingsOverlay_of_unreadable h, SettingsOverlay.get_default]
  have hread : ∀ {t : Table OperatorSettingRow}, (¬ ∃ s', Unreadable env t s') →
      (loadSettingsOverlay env t.rows).get s = ownEdit env t s := fun h =>
    get_loadSettingsOverlay (not_exists.mp h) s
  constructor
  · rw [FromOwnRow, ← not_exists]
    by_cases h : ∃ s', Unreadable env t s'
    · simp [hlost h, h, eq_comm]
    · simp [hread h, h]
  · intro t' hrow
    have hown : ownEdit env t' s = ownEdit env t s := by rw [ownEdit, ownEdit, checkedRow, hrow]; rfl
    rw [SameSection]
    by_cases h : ∃ s', Unreadable env t s' <;> by_cases h' : ∃ s', Unreadable env t' s'
    · simp [hlost h, hlost h', h, h']
    · simp [hlost h, hread h', h, h', hown]
    · simp [hread h, hlost h', h, h', eq_comm]
    · simp [hread h, hread h', h, h', hown]

/-- The cost of a solution, as a text. -/
def costAsText : OperatorSettingRow :=
  ⟨"pow", .obj [("cost", .str "high")], 1, some 1, "pow"⟩

/-- A cost that cannot be read takes the stored switch of the payment gate with it. -/
theorem unreadable_cost_hides_payment :
    ¬ FromOwnRow sampleSettings ⟨[paymentOff, costAsText], by decide⟩ .registration ∧
    ¬ SameSection sampleSettings ⟨[paymentOff], by simp⟩ ⟨[paymentOff, costAsText], by decide⟩
      .registration := by
  have hown : (ownEdit sampleSettings ⟨[paymentOff, costAsText], by decide⟩
      .registration).isSome := by
    decide +kernel
  have halone : ((loadSettingsOverlay sampleSettings [paymentOff]).get .registration).isSome := by
    decide +kernel
  have hlost : ((loadSettingsOverlay sampleSettings [paymentOff, costAsText]).get
      .registration).isSome = false := by
    decide +kernel
  constructor
  · intro h
    rw [← show _ = _ from h, hlost] at hown
    cases hown
  · intro h
    rw [← show _ = _ from h, hlost] at halone
    cases halone

end SmirkBackend
