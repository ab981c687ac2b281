import Mathlib.Data.List.Nodup
import Mathlib.Data.List.Sort

/-!
# Keyed tables

A relational table with a primary key: a list of rows in which no key occurs twice.  The
key constraint is a field of the table, so a table that violates it cannot be built, and
an `UPDATE` is given by a `Patch`, a row function that carries the proof that it keeps the
key.

What a lookup sees after each statement is said by `Table.get?_updateWhere`, `Table.get?_insert?`,
`Table.get?_upsert` and `Table.get?_deleteWhere`, and after a pass over rows, each turn of which
touches its own row only, by `Table.get?_foldl`.
-/

namespace Lib

/-- The primary key of a row type. -/
class HasKey (R : Type*) (κ : outParam Type*) where
  /-- The key of a row. -/
  key : R → κ

export HasKey (key)

variable {R κ : Type*} [HasKey R κ]

/-- The `SET` part of an `UPDATE`: a row function that keeps the primary key. -/
structure Patch (R : Type*) {κ : Type*} [HasKey R κ] where
  /-- The new row. -/
  set : R → R
  /-- The update does not move the row to another key. -/
  key_set : ∀ r, key (set r) = key r := by intro r; rfl

attribute [simp] Patch.key_set

/-- One patch after another. -/
def Patch.andThen (f g : Patch R) : Patch R where
  set r := g.set (f.set r)
  key_set r := by simp

@[simp] theorem Patch.andThen_set (f g : Patch R) (r : R) :
    (f.andThen g).set r = g.set (f.set r) := rfl

/-- A table: rows with pairwise distinct primary keys. -/
structure Table (R : Type*) {κ : Type*} [HasKey R κ] where
  /-- The rows, in insertion order. -/
  rows : List R
  /-- No two rows share a key. -/
  nodup : (rows.map key).Nodup

namespace Table

/-- The table without rows. -/
def empty : Table R := ⟨[], by simp⟩

@[simp] theorem empty_rows : (empty : Table R).rows = [] := rfl

/-- The table of one row. -/
def single (r : R) : Table R := ⟨[r], List.nodup_singleton _⟩

@[simp] theorem single_rows (r : R) : (single r).rows = [r] := rfl

variable [DecidableEq κ]

/-- The row with key `k`. -/
def get? (t : Table R) (k : κ) : Option R := t.rows.find? fun r => key r = k

@[simp] theorem get?_empty (k : κ) : (empty : Table R).get? k = none := rfl

omit [DecidableEq κ] in
theorem eq_of_mem_of_key {t : Table R} {r r' : R} (h : r ∈ t.rows) (h' : r' ∈ t.rows)
    (hk : key r = key r') : r = r' :=
  List.inj_on_of_nodup_map t.nodup h h' hk

theorem get?_eq_some_iff {t : Table R} {k : κ} {r : R} :
    t.get? k = some r ↔ r ∈ t.rows ∧ key r = k := by
  constructor
  · intro h
    exact ⟨List.mem_of_find?_eq_some h, by simpa using List.find?_some h⟩
  · rintro ⟨hr, rfl⟩
    cases h : t.get? (key r) with
    | none =>
      have := List.find?_eq_none.mp h r hr
      simp at this
    | some r' =>
      have hk : key r' = key r := by simpa using List.find?_some h
      rw [eq_of_mem_of_key (List.mem_of_find?_eq_some h) hr hk]

theorem get?_eq_none_iff {t : Table R} {k : κ} :
    t.get? k = none ↔ ∀ r ∈ t.rows, key r ≠ k := by
  simp [get?, List.find?_eq_none]

theorem get?_of_mem {t : Table R} {r : R} (h : r ∈ t.rows) : t.get? (key r) = some r :=
  get?_eq_some_iff.mpr ⟨h, rfl⟩

theorem mem_of_get? {t : Table R} {k : κ} {r : R} (h : t.get? k = some r) : r ∈ t.rows :=
  (get?_eq_some_iff.mp h).1

theorem key_of_get? {t : Table R} {k : κ} {r : R} (h : t.get? k = some r) : key r = k :=
  (get?_eq_some_iff.mp h).2

/-! ### `SELECT` -/

section Select

omit [DecidableEq κ]

/-- `SELECT * WHERE p ORDER BY …`; rows that `before` does not order stay in insertion order. -/
def select (t : Table R) (p : R → Bool) (before : R → R → Bool) : List R :=
  (t.rows.filter p).insertionSort fun a b => before a b

@[simp] theorem mem_select {t : Table R} {p : R → Bool} {before : R → R → Bool} {r : R} :
    r ∈ t.select p before ↔ r ∈ t.rows ∧ p r := by
  simp [select, List.mem_insertionSort]

/-- A query returns no key twice. -/
theorem nodup_select (t : Table R) (p : R → Bool) (before : R → R → Bool) :
    ((t.select p before).map key).Nodup := by
  have hperm := (List.perm_insertionSort (fun a b => before a b) (t.rows.filter p)).map key
  exact hperm.nodup_iff.mpr ((List.Sublist.map key List.filter_sublist).nodup t.nodup)

end Select

/-! ### `UPDATE` -/

omit [DecidableEq κ] in
theorem map_key_update (p : R → Bool) (f : Patch R) (rows : List R) :
    (rows.map fun r => if p r then f.set r else r).map key = rows.map key := by
  rw [List.map_map]
  apply List.map_congr_left
  intro r _
  simp only [Function.comp_apply]
  split <;> simp

/-- `UPDATE … SET f WHERE p`. -/
def updateWhere (t : Table R) (p : R → Bool) (f : Patch R) : Table R where
  rows := t.rows.map fun r => if p r then f.set r else r
  nodup := by
    rw [map_key_update]
    exact t.nodup

omit [DecidableEq κ] in
theorem updateWhere_eq_self {t : Table R} {p : R → Bool} (f : Patch R)
    (h : ∀ r ∈ t.rows, p r = false) : t.updateWhere p f = t := by
  obtain ⟨rows, nodup⟩ := t
  simp only [updateWhere, mk.injEq]
  refine (List.map_congr_left fun r hr => ?_).trans rows.map_id
  rw [h r hr]
  rfl

theorem get?_updateWhere (t : Table R) (p : R → Bool) (f : Patch R) (k : κ) :
    (t.updateWhere p f).get? k = (t.get? k).map fun r => if p r then f.set r else r := by
  have hkey : ∀ r : R, key (if p r then f.set r else r) = key r := by
    intro r
    split <;> simp
  simp only [get?, updateWhere, List.find?_map, Function.comp_def, hkey]

/-- `UPDATE … SET f WHERE key = k AND guard RETURNING *`, with the updated row. -/
def updateOne (t : Table R) (k : κ) (guard : R → Bool) (f : Patch R) : Option R × Table R :=
  (((t.get? k).filter guard).map f.set, t.updateWhere (fun r => key r = k && guard r) f)

theorem get?_updateOne_self (t : Table R) (k : κ) (guard : R → Bool) (f : Patch R) :
    (t.updateOne k guard f).2.get? k =
      (t.get? k).map fun r => if guard r then f.set r else r := by
  simp only [updateOne, get?_updateWhere]
  cases h : t.get? k with
  | none => rfl
  | some r => simp [key_of_get? h]

theorem get?_updateOne_of_ne (t : Table R) {k k' : κ} (h : k' ≠ k) (guard : R → Bool)
    (f : Patch R) : (t.updateOne k guard f).2.get? k' = t.get? k' := by
  simp only [updateOne, get?_updateWhere]
  cases hg : t.get? k' with
  | none => rfl
  | some r => simp [key_of_get? hg, h]

/-- What a lookup sees after a guarded update of one row. -/
theorem get?_updateOne (t : Table R) (k k' : κ) (guard : R → Bool) (f : Patch R) :
    (t.updateOne k guard f).2.get? k' =
      (t.get? k').map fun r => if k' = k ∧ guard r then f.set r else r := by
  by_cases h : k' = k
  · subst h
    simp [get?_updateOne_self]
  · simp [get?_updateOne_of_ne t h, h]

/-- How many rows satisfy `p` after a guarded update of one row. -/
theorem countP_updateOne (t : Table R) {k : κ} {g : R → Bool} (f : Patch R) {r : R}
    (hr : t.get? k = some r) (hguard : g r = true) (p : R → Bool) :
    (t.updateOne k g f).2.rows.countP p + (if p r then 1 else 0) =
      t.rows.countP p + if p (f.set r) then 1 else 0 := by
  obtain ⟨l₁, l₂, hrows⟩ := List.append_of_mem (mem_of_get? hr)
  have hkey : key r = k := key_of_get? hr
  have hnodup := t.nodup
  rw [hrows, List.map_append, List.map_cons, List.nodup_append, List.nodup_cons] at hnodup
  obtain ⟨-, ⟨hafter, -⟩, hbefore⟩ := hnodup
  -- no other row has the key
  have hother {l : List R} (hl : ∀ r' ∈ l, key r' ≠ k) :
      (l.map fun r' => if (decide (key r' = k) && g r') = true then f.set r' else r') = l := by
    have hsame : l.map (fun r' => if (decide (key r' = k) && g r') = true then f.set r' else r')
        = l.map id := List.map_congr_left fun r' hr' => by simp [hl r' hr']
    rw [hsame, List.map_id]
  have h₁ : ∀ r' ∈ l₁, key r' ≠ k := fun r' hr' =>
    hkey ▸ hbefore _ (List.mem_map_of_mem hr') _ (by simp)
  have h₂ : ∀ r' ∈ l₂, key r' ≠ k := fun r' hr' heq =>
    hafter (hkey.symm ▸ heq ▸ List.mem_map_of_mem hr')
  have hupd : (t.updateOne k g f).2.rows = l₁ ++ f.set r :: l₂ := by
    simp only [updateOne, updateWhere, hrows, List.map_append, List.map_cons, hother h₁, hother h₂]
    simp [hkey, hguard]
  rw [hupd, hrows]
  simp only [List.countP_append, List.countP_cons]
  omega

/-! ### `INSERT` -/

/-- `INSERT`, refused when the key is taken. -/
def insert? (t : Table R) (r : R) : Option (Table R) :=
  if h : ∀ r' ∈ t.rows, key r' ≠ key r then
    some ⟨t.rows ++ [r], by
      rw [List.map_append, List.nodup_append]
      refine ⟨t.nodup, by simp, ?_⟩
      intro a ha b hb
      obtain ⟨r', hr', rfl⟩ := List.mem_map.mp ha
      rw [List.map_singleton, List.mem_singleton] at hb
      rw [hb]
      exact h r' hr'⟩
  else none

theorem insert?_eq_some_iff {t t' : Table R} {r : R} :
    t.insert? r = some t' ↔ t.get? (key r) = none ∧ t'.rows = t.rows ++ [r] := by
  rw [get?_eq_none_iff]
  unfold insert?
  split
  case isTrue h =>
    simp only [Option.some.injEq]
    constructor
    · rintro rfl
      exact ⟨h, rfl⟩
    · rintro ⟨_, hrows⟩
      cases t'
      simp_all
  case isFalse h => simp [h]

theorem exists_insert? {t : Table R} {r : R} (h : t.get? (key r) = none) :
    ∃ t', t.insert? r = some t' := by
  rw [get?_eq_none_iff] at h
  unfold insert?
  rw [dif_pos h]
  exact ⟨_, rfl⟩

/-- A table with one row more is the result of an insertion. -/
theorem insert?_of_rows_append {t t' : Table R} {r : R} (h : t'.rows = t.rows ++ [r]) :
    t.insert? r = some t' := by
  refine insert?_eq_some_iff.mpr ⟨get?_eq_none_iff.mpr fun r' hr' => ?_, h⟩
  have hnodup := t'.nodup
  rw [h, List.map_append, List.nodup_append] at hnodup
  exact hnodup.2.2 (key r') (List.mem_map_of_mem hr') (key r) (by simp)

theorem get?_insert? {t t' : Table R} {r : R} (h : t.insert? r = some t') (k : κ) :
    t'.get? k = if k = key r then some r else t.get? k := by
  obtain ⟨hnone, hrows⟩ := insert?_eq_some_iff.mp h
  simp only [get?, hrows, List.find?_append]
  split
  case isTrue hk =>
    subst hk
    have : t.rows.find? (fun r' => key r' = key r) = none := hnone
    simp [this]
  case isFalse hk =>
    have : ¬ key r = k := fun h => hk h.symm
    simp [this]

/-- `INSERT … ON CONFLICT DO UPDATE`. -/
def upsert (t : Table R) (r : R) (f : Patch R) : Table R :=
  (t.insert? r).getD (t.updateWhere (fun r' => key r' = key r) f)

theorem get?_upsert (t : Table R) (r : R) (f : Patch R) (k : κ) :
    (t.upsert r f).get? k =
      if k = key r then some ((t.get? k).elim r f.set) else t.get? k := by
  unfold upsert
  cases h : t.get? (key r) with
  | none =>
    obtain ⟨t', ht'⟩ := exists_insert? h
    rw [ht', Option.getD_some, get?_insert? ht']
    split_ifs with hk
    · rw [hk, h]
      rfl
    · rfl
  | some r₀ =>
    have hnone : t.insert? r = none := by
      cases hins : t.insert? r with
      | none => rfl
      | some t' => simp [(insert?_eq_some_iff.mp hins).1] at h
    rw [hnone, Option.getD_none, get?_updateWhere]
    by_cases hk : k = key r
    · subst hk
      simp [h, key_of_get? h]
    · rw [if_neg hk]
      cases hr : t.get? k with
      | none => rfl
      | some r₁ => simp [key_of_get? hr, hk]

/-! ### `DELETE` -/

omit [DecidableEq κ] in
theorem nodup_filter (t : Table R) (p : R → Bool) : ((t.rows.filter p).map key).Nodup :=
  (List.Sublist.map key List.filter_sublist).nodup t.nodup

/-- `DELETE … WHERE p`. -/
def deleteWhere (t : Table R) (p : R → Bool) : Table R where
  rows := t.rows.filter fun r => !p r
  nodup := t.nodup_filter _

theorem get?_deleteWhere (t : Table R) (p : R → Bool) (k : κ) :
    (t.deleteWhere p).get? k = (t.get? k).filter fun r => !p r := by
  cases h : t.get? k with
  | none =>
    rw [get?_eq_none_iff] at h
    simp only [Option.filter_none, get?_eq_none_iff]
    intro r hr
    exact h r (List.mem_of_mem_filter hr)
  | some r =>
    obtain ⟨hr, hk⟩ := get?_eq_some_iff.mp h
    by_cases hp : p r
    · simp only [Option.filter, hp, Bool.not_true, Bool.false_eq_true, ↓reduceIte]
      rw [get?_eq_none_iff]
      intro r' hr' hk'
      have hmem := List.mem_filter.mp hr'
      have heq : r' = r := eq_of_mem_of_key hmem.1 hr (hk'.trans hk.symm)
      simp [heq, hp] at hmem
    · simp only [Option.filter, hp, Bool.not_false, ↓reduceIte]
      rw [get?_eq_some_iff]
      exact ⟨List.mem_filter.mpr ⟨hr, by simpa using hp⟩, hk⟩

/-! ### One row at a time -/

/-- The rows other than the one at `k` are untouched. -/
def OnlyAt (k : κ) (t t' : Table R) : Prop := ∀ k', k' ≠ k → t'.get? k' = t.get? k'

theorem OnlyAt.refl (k : κ) (t : Table R) : OnlyAt k t t := fun _ _ => rfl

theorem OnlyAt.trans {k : κ} {t₁ t₂ t₃ : Table R} (h : OnlyAt k t₁ t₂) (h' : OnlyAt k t₂ t₃) :
    OnlyAt k t₁ t₃ := by
  intro k' hk
  rw [h' k' hk, h k' hk]

theorem onlyAt_updateOne (t : Table R) (k : κ) (guard : R → Bool) (f : Patch R) :
    OnlyAt k t (t.updateOne k guard f).2 :=
  fun _ hk => t.get?_updateOne_of_ne hk guard f

section ForEach

variable {f : R → Table R → Table R} (hf : ∀ r t, OnlyAt (key r) t (f r t))

include hf

theorem get?_foldl_of_notMem {rs : List R} {k : κ} (hk : k ∉ rs.map key) (t : Table R) :
    (rs.foldl (fun t r => f r t) t).get? k = t.get? k := by
  induction rs generalizing t with
  | nil => rfl
  | cons r rs ih =>
    simp only [List.map_cons, List.mem_cons, not_or] at hk
    rw [List.foldl_cons, ih hk.2]
    exact hf r t k hk.1

/-- In a pass over rows with distinct keys, a row is touched by its own turn only. -/
theorem get?_foldl {rs : List R} {r : R} (hnodup : (rs.map key).Nodup) (hr : r ∈ rs)
    (t : Table R) :
    ∃ t₁, t₁.get? (key r) = t.get? (key r) ∧
      (rs.foldl (fun t r => f r t) t).get? (key r) = (f r t₁).get? (key r) := by
  obtain ⟨before, after, rfl⟩ := List.append_of_mem hr
  simp only [List.map_append, List.map_cons, List.nodup_append, List.nodup_cons] at hnodup
  obtain ⟨-, ⟨hafter, -⟩, hdisj⟩ := hnodup
  have hbefore : key r ∉ before.map key := by
    intro hmem
    exact hdisj _ hmem _ (List.mem_cons_self ..) rfl
  refine ⟨before.foldl (fun t r => f r t) t, get?_foldl_of_notMem hf hbefore t, ?_⟩
  rw [List.foldl_append, List.foldl_cons]
  exact get?_foldl_of_notMem hf hafter _

end ForEach

end Table

end Lib
