import Mathlib.Logic.Function.Basic
import SmirkBackend.Lib.Referential

/-!
# Rewriting a whole table

A patch applied to every row of a table.  When neither the conditions of a statement nor its `SET`
part see what the patch rewrites, the statement does to the rewritten table what it does to the
original, and returns the rewritten rows.  So two tables that differ in columns no statement looks
at stay so, whatever statements run.

The statements are `Table.get?_mapRows`, `Table.select_mapRows`, `Table.updateOne_mapRows`,
`Table.updateWhere_mapRows`, `Table.deleteWhere_mapRows` and `Table.insert?_mapRows`;
`fireAll_mapRows` is about referential actions.
-/

namespace Lib

variable {R κ ρ α : Type*} [HasKey R κ]

namespace Patch

/-- What `p` reads of a row, `f` does not rewrite. -/
def Hides (f : Patch R) (p : R → α) : Prop := ∀ r, p (f.set r) = p r

/-- The patches do not interfere. -/
def Commutes (f g : Patch R) : Prop := ∀ r, g.set (f.set r) = f.set (g.set r)

theorem Commutes.andThen {f g h : Patch R} (hg : f.Commutes g) (hh : f.Commutes h) :
    f.Commutes (g.andThen h) := by
  intro r
  rw [andThen_set, andThen_set, hg r, hh]

end Patch

namespace Table

theorem eq_of_rows {t t' : Table R} (h : t.rows = t'.rows) : t = t' := by
  cases t
  cases t'
  cases h
  rfl

/-- Every row rewritten by `f`. -/
def mapRows (t : Table R) (f : Patch R) : Table R where
  rows := t.rows.map f.set
  nodup := by
    rw [List.map_map, show key ∘ f.set = (key : R → κ) from funext f.key_set]
    exact t.nodup

@[simp] theorem mapRows_rows (t : Table R) (f : Patch R) : (t.mapRows f).rows = t.rows.map f.set :=
  rfl

variable (t : Table R) {f : Patch R}

theorem mapRows_eq_self (h : ∀ r ∈ t.rows, f.set r = r) : t.mapRows f = t := by
  refine eq_of_rows ?_
  have hid : t.rows.map f.set = t.rows.map id := List.map_congr_left h
  rw [mapRows_rows, hid, List.map_id]

/-- A query that does not see what `f` rewrites finds the rewritten rows. -/
theorem select_mapRows {p : R → Bool} {before : R → R → Bool} (hp : f.Hides p)
    (hbefore : ∀ a b, before (f.set a) (f.set b) = before a b) :
    (t.mapRows f).select p before = (t.select p before).map f.set := by
  have hfilter : (t.rows.map f.set).filter p = (t.rows.filter p).map f.set := by
    rw [List.filter_map, show p ∘ f.set = p from funext hp]
  rw [select, mapRows_rows, hfilter, select]
  refine (List.map_insertionSort _ _ f.set _ fun a _ b _ => ?_).symm
  rw [hbefore]

/-- An update does to the rewritten table what it does to the original. -/
theorem updateWhere_mapRows {p : R → Bool} {g : Patch R} (hp : f.Hides p) (hg : f.Commutes g) :
    (t.mapRows f).updateWhere p g = (t.updateWhere p g).mapRows f := by
  refine eq_of_rows ?_
  simp only [updateWhere, mapRows_rows, List.map_map]
  refine List.map_congr_left fun r _ => ?_
  simp only [Function.comp_apply, hp r]
  split
  · exact hg r
  · rfl

theorem deleteWhere_mapRows {p : R → Bool} (hp : f.Hides p) :
    (t.mapRows f).deleteWhere p = (t.deleteWhere p).mapRows f := by
  refine eq_of_rows ?_
  simp only [deleteWhere, mapRows_rows, List.filter_map]
  congr 2
  funext r
  simp only [Function.comp_apply, hp r]

variable [DecidableEq κ]

theorem get?_mapRows (f : Patch R) (k : κ) : (t.mapRows f).get? k = (t.get? k).map f.set := by
  simp only [get?, mapRows_rows, List.find?_map, Function.comp_def, f.key_set]

theorem updateOne_mapRows (k : κ) {guard : R → Bool} {g : Patch R} (hguard : f.Hides guard)
    (hg : f.Commutes g) :
    (t.mapRows f).updateOne k guard g =
      ((t.updateOne k guard g).1.map f.set, (t.updateOne k guard g).2.mapRows f) := by
  have hp : f.Hides fun r => decide (key r = k) && guard r := by
    intro r
    simp only [f.key_set, hguard r]
  have hrow : (((t.get? k).map f.set).filter guard).map g.set =
      (((t.get? k).filter guard).map g.set).map f.set := by
    cases t.get? k with
    | none => rfl
    | some r =>
      cases hr : guard r with
      | false => simp [Option.filter, hguard r, hr]
      | true => simp [Option.filter, hguard r, hr, hg r]
  rw [updateOne, get?_mapRows, hrow, updateWhere_mapRows t hp hg]
  rfl

/-- An insertion into the rewritten table is refused when it is refused in the original. -/
theorem insert?_mapRows (f : Patch R) (r : R) :
    (t.mapRows f).insert? (f.set r) = (t.insert? r).map fun t' => t'.mapRows f := by
  cases h : t.insert? r with
  | none =>
    have hnone : (t.mapRows f).insert? (f.set r) = none := by
      cases h' : (t.mapRows f).insert? (f.set r) with
      | none => rfl
      | some t' =>
        have hfree := (insert?_eq_some_iff.mp h').1
        rw [f.key_set, get?_mapRows, Option.map_eq_none_iff] at hfree
        obtain ⟨t₁, ht₁⟩ := exists_insert? hfree
        rw [ht₁] at h
        cases h
    rw [hnone]
    rfl
  | some t' =>
    obtain ⟨-, hrows⟩ := insert?_eq_some_iff.mp h
    refine insert?_of_rows_append ?_
    rw [mapRows_rows, mapRows_rows, hrows, List.map_append, List.map_singleton]

end Table

/-! ### Referential actions -/

variable [DecidableEq ρ]

/-- The patch is invisible to the reference column and to its action. -/
structure ForeignKey.Blind (fk : ForeignKey R ρ) (f : Patch R) : Prop where
  /-- The reference is not rewritten. -/
  ref : f.Hides fk.ref
  /-- Clearing it does not interfere. -/
  clear : ∀ clear, fk.onDelete = .setNull clear → f.Commutes clear

theorem ForeignKey.fire_mapRows {fk : ForeignKey R ρ} {f : Patch R} (hfk : fk.Blind f)
    {check : R → Bool} (hcheck : f.Hides check) (k : ρ) (t : Table R) :
    fk.fire check k (t.mapRows f) = (fk.fire check k t).map fun t' => t'.mapRows f := by
  have hrefers : f.Hides (fk.refers k) := by
    intro r
    simp only [refers, hfk.ref r]
  unfold fire
  cases ho : fk.onDelete with
  | cascade => exact congrArg some (t.deleteWhere_mapRows hrefers)
  | setNull clear =>
    have hclear := hfk.clear clear ho
    have hall : ((t.mapRows f).rows.all fun r => !fk.refers k r || check (clear.set r)) =
        t.rows.all fun r => !fk.refers k r || check (clear.set r) := by
      rw [Table.mapRows_rows, List.all_map]
      congr 1
      funext r
      rw [Function.comp_apply, hrefers r, hclear r, hcheck]
    simp only [hall]
    split
    · exact congrArg some (t.updateWhere_mapRows hrefers hclear)
    · rfl

theorem fireAll_mapRows {f : Patch R} {check : R → Bool} (hcheck : f.Hides check) (k : ρ)
    {fks : List (ForeignKey R ρ)} (hfks : ∀ fk ∈ fks, fk.Blind f) (t : Table R) :
    fireAll check k fks (t.mapRows f) = (fireAll check k fks t).map fun t' => t'.mapRows f := by
  induction fks generalizing t with
  | nil => rfl
  | cons fk fks ih =>
    have hrest := ih fun fk' hfk' => hfks fk' (List.mem_cons_of_mem _ hfk')
    rw [fireAll, fireAll, ForeignKey.fire_mapRows (hfks fk List.mem_cons_self) hcheck]
    cases fk.fire check k t with
    | none => rfl
    | some t₁ => exact hrest t₁

end Lib
