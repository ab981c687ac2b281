import SmirkBackend.Lib.MapRows

/-!
# A table without some of its rows

The rows of a table that satisfy a predicate are left out.  As long as no statement moves a row
across that border, a statement does to the rest of the table what it does to the whole: it finds
the same rows, returns the same row and leaves the same rest.

* `Table.select_deleteWhere`, `Table.updateWhere_deleteWhere`, `Table.updateOne_deleteWhere`,
  `Table.insert?_deleteWhere` : statements on the rest of a table.
* `Table.updateWhere_deleteWhere_of_imp` : an update of rows that are left out is not noticed.
* `fireAll_deleteWhere`, `exists_mem_of_fireAll` : referential actions.
-/

namespace Lib

variable {R κ ρ : Type*} [HasKey R κ]

/-- The update decides about no row whether it is left out. -/
def Patch.Keeps (f : Patch R) (h : R → Bool) : Prop := ∀ r, h (f.set r) = h r

namespace Table

variable (t : Table R) {h : R → Bool}

/-- A query for rows that are not left out finds them in the rest. -/
theorem select_deleteWhere {p : R → Bool} (hp : ∀ r, p r → h r = false)
    (before : R → R → Bool) : (t.deleteWhere h).select p before = t.select p before := by
  have hfilter : (t.deleteWhere h).rows.filter p = t.rows.filter p := by
    simp only [deleteWhere, List.filter_filter]
    refine List.filter_congr fun r _ => ?_
    cases hr : p r with
    | false => rfl
    | true => simp [hp r hr]
  rw [select, hfilter, select]

/-- An update does to the rest what it does to the table. -/
theorem updateWhere_deleteWhere (p : R → Bool) {f : Patch R} (hf : f.Keeps h) :
    (t.deleteWhere h).updateWhere p f = (t.updateWhere p f).deleteWhere h := by
  refine eq_of_rows ?_
  have hborder : (fun r => !h (if p r then f.set r else r)) = fun r => !h r := by
    funext r
    split
    · rw [hf r]
    · rfl
  simp only [updateWhere, deleteWhere, List.filter_map, Function.comp_def, hborder]

/-- An update of rows that are left out leaves the rest as it was. -/
theorem updateWhere_deleteWhere_of_imp {p : R → Bool} (f : Patch R)
    (hp : ∀ r ∈ t.rows, p r → h r) :
    (t.deleteWhere h).updateWhere p f = t.deleteWhere h := by
  refine eq_of_rows ?_
  have hid : ∀ r ∈ (t.deleteWhere h).rows, (if p r then f.set r else r) = id r := by
    intro r hr
    obtain ⟨hmem, hrest⟩ := List.mem_filter.mp hr
    have hnot : ¬ p r := by
      intro hpr
      simp [hp r hmem hpr] at hrest
    rw [if_neg hnot, id]
  exact (List.map_congr_left hid).trans (List.map_id _)

theorem deleteWhere_deleteWhere {p : R → Bool} :
    (t.deleteWhere h).deleteWhere p = (t.deleteWhere p).deleteWhere h := by
  refine eq_of_rows ?_
  simp only [deleteWhere, List.filter_filter]
  congr 1
  funext r
  rw [Bool.and_comm]

variable [DecidableEq κ]

/-- A guarded update of a row that is not left out returns the same row. -/
theorem updateOne_deleteWhere (k : κ) {guard : R → Bool} (hguard : ∀ r, guard r → h r = false)
    {f : Patch R} (hf : f.Keeps h) :
    (t.deleteWhere h).updateOne k guard f =
      ((t.updateOne k guard f).1, (t.updateOne k guard f).2.deleteWhere h) := by
  have hrow : ((t.get? k).filter fun r => !h r).filter guard = (t.get? k).filter guard := by
    cases t.get? k with
    | none => rfl
    | some r =>
      cases hr : guard r with
      | false => by_cases hh : h r <;> simp [Option.filter, hr, hh]
      | true => simp [Option.filter, hr, hguard r hr]
  rw [updateOne, get?_deleteWhere, hrow, t.updateWhere_deleteWhere _ hf]
  rfl

theorem updateOne_of_none {k : κ} {guard : R → Bool} {f : Patch R}
    (hnone : (t.updateOne k guard f).1 = none) : (t.updateOne k guard f).2 = t := by
  have hid : ∀ r ∈ t.rows, (if key r = k && guard r then f.set r else r) = id r := by
    intro r hr
    have hnot : ¬ (decide (key r = k) && guard r) := by
      intro hg
      simp only [Bool.and_eq_true, decide_eq_true_eq] at hg
      have hrow := get?_eq_some_iff.mpr ⟨hr, hg.1⟩
      simp [updateOne, hrow, Option.filter, hg.2] at hnone
    rw [if_neg hnot, id]
  exact eq_of_rows ((List.map_congr_left hid).trans (List.map_id _))

/-- A row that is not left out is inserted into the rest when its key is free. -/
theorem insert?_deleteWhere {t t' : Table R} {r : R} (hr : h r = false)
    (hins : t.insert? r = some t') : (t.deleteWhere h).insert? r = some (t'.deleteWhere h) := by
  obtain ⟨-, hrows⟩ := insert?_eq_some_iff.mp hins
  refine insert?_of_rows_append ?_
  simp [deleteWhere, hrows, hr]

theorem deleteWhere_of_insert? {t t' : Table R} {r : R} (hr : h r)
    (hins : t.insert? r = some t') : t'.deleteWhere h = t.deleteWhere h := by
  obtain ⟨-, hrows⟩ := insert?_eq_some_iff.mp hins
  refine eq_of_rows ?_
  simp [deleteWhere, hrows, hr]

end Table

/-! ### Referential actions -/

variable [DecidableEq ρ]

/-- A row whose reference may be cleared stays on its side. -/
def ForeignKey.Stays (fk : ForeignKey R ρ) (check h : R → Bool) : Prop :=
  ∀ clear, fk.onDelete = .setNull clear → ∀ r, check (clear.set r) → h (clear.set r) = h r

/-- An action that goes through on the table goes through on the rest. -/
theorem ForeignKey.fire_deleteWhere {fk : ForeignKey R ρ} {check h : R → Bool}
    (hfk : fk.Stays check h) {k : ρ} {t t' : Table R} (hfire : fk.fire check k t = some t') :
    fk.fire check k (t.deleteWhere h) = some (t'.deleteWhere h) := by
  have ht' := eq_of_fire hfire
  unfold fire at hfire ⊢
  cases ho : fk.onDelete with
  | cascade =>
    simp only [ho] at ht' ⊢
    rw [ht', t.deleteWhere_deleteWhere]
  | setNull clear =>
    simp only [ho] at hfire ht' ⊢
    split_ifs at hfire with hall
    rw [List.all_eq_true] at hall
    have hrest : ((t.deleteWhere h).rows.all fun r => !fk.refers k r || check (clear.set r)) := by
      rw [List.all_eq_true]
      exact fun r hr => hall r (List.mem_of_mem_filter hr)
    -- a row that is cleared satisfies the constraint afterwards, so it stays on its side
    have hside : ∀ r ∈ t.rows, h (if fk.refers k r then clear.set r else r) = h r := by
      intro r hr
      split
      case isTrue href =>
        have hcheck := hall r hr
        simp only [href, Bool.not_true, Bool.false_or] at hcheck
        exact hfk clear ho r hcheck
      case isFalse => rfl
    rw [if_pos hrest, ht']
    congr 1
    refine Table.eq_of_rows ?_
    simp only [Table.updateWhere, Table.deleteWhere, List.filter_map, Function.comp_def]
    congr 1
    exact List.filter_congr fun r hr => by rw [hside r hr]

/-- The rows after the actions are successors of rows that were there. -/
theorem exists_mem_of_fireAll {check : R → Bool} {k : ρ} {fks : List (ForeignKey R ρ)}
    {t t' : Table R} (hfire : fireAll check k fks t = some t') {r' : R} (hr' : r' ∈ t'.rows) :
    ∃ r ∈ t.rows, key r = key r' := by
  induction fks generalizing t with
  | nil =>
    obtain rfl := Option.some.inj hfire
    exact ⟨r', hr', rfl⟩
  | cons fk fks ih =>
    obtain ⟨t₁, h₁, hrest⟩ := fireAll_cons_eq_some_iff.mp hfire
    obtain ⟨r₁, hr₁, hkey₁⟩ := ih hrest
    obtain ⟨r, hr, ⟨rfl, -⟩ | ⟨clear, -, -, rfl⟩⟩ := ForeignKey.mem_fire h₁ hr₁
    · exact ⟨r₁, hr, hkey₁⟩
    · exact ⟨r, hr, by rw [← hkey₁, clear.key_set]⟩

theorem fireAll_deleteWhere {check h : R → Bool} {fks : List (ForeignKey R ρ)}
    (hfks : ∀ fk ∈ fks, fk.Stays check h) {k : ρ} {t t' : Table R}
    (hfire : fireAll check k fks t = some t') :
    fireAll check k fks (t.deleteWhere h) = some (t'.deleteWhere h) := by
  induction fks generalizing t with
  | nil =>
    obtain rfl := Option.some.inj hfire
    rfl
  | cons fk fks ih =>
    obtain ⟨t₁, h₁, hrest⟩ := fireAll_cons_eq_some_iff.mp hfire
    refine fireAll_cons_eq_some_iff.mpr ⟨t₁.deleteWhere h, ?_, ?_⟩
    · exact ForeignKey.fire_deleteWhere (hfks fk List.mem_cons_self) h₁
    · exact ih (fun fk' hfk' => hfks fk' (List.mem_cons_of_mem _ hfk')) hrest

end Lib
