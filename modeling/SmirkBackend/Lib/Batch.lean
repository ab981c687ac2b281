import Mathlib.Data.List.Perm.Basic
import SmirkBackend.Lib.Table

/-!
# Maintenance in batches

A table is cleaned up in passes.  A pass deletes a bounded number of the rows that are due, the
first ones of an order, and leaves out those that another transaction has locked.

* `Table.mem_deleteBatch` : a pass takes the rows of its batch and no others.
* `Table.countP_deleteBatch` : what a pass leaves of a backlog.
* `Table.countP_deleteBatch_first` : a pass takes first what comes first.
-/

namespace Lib

theorem countP_take_of_pairwise {α : Type*} {q : α → Bool} {l : List α}
    (h : l.Pairwise fun a b => q b → q a) (limit : ℕ) :
    (l.take limit).countP q = min limit (l.countP q) := by
  induction l generalizing limit with
  | nil => simp
  | cons a l ih =>
    obtain ⟨hhead, htail⟩ := List.pairwise_cons.mp h
    cases limit with
    | zero => simp
    | succ limit =>
      rw [List.take_succ_cons, List.countP_cons, List.countP_cons, ih htail]
      by_cases ha : q a
      · rw [if_pos ha]
        omega
      · -- nothing that comes later satisfies `q` either
        have hnone : l.countP q = 0 := List.countP_eq_zero.mpr fun b hb hq => ha (hhead b hb hq)
        rw [if_neg ha, hnone]
        omega

namespace Table

variable {R κ : Type*} [HasKey R κ] {p locked : R → Bool} {before : R → R → Bool} {limit : ℕ}

/-- `SELECT … WHERE p ORDER BY … LIMIT … FOR UPDATE SKIP LOCKED`. -/
def batch (t : Table R) (p locked : R → Bool) (before : R → R → Bool) (limit : ℕ) : List R :=
  (t.select (fun r => p r && !locked r) before).take limit

theorem mem_of_mem_batch {t : Table R} {r : R} (h : r ∈ t.batch p locked before limit) :
    r ∈ t.rows ∧ p r := by
  obtain ⟨hr, hp⟩ := mem_select.mp (List.mem_of_mem_take h)
  exact ⟨hr, (Bool.and_eq_true_iff.mp hp).1⟩

theorem nodup_batch (t : Table R) : ((t.batch p locked before limit).map key).Nodup := by
  refine List.Nodup.sublist ?_ (t.nodup_select (fun r => p r && !locked r) before)
  exact (List.take_sublist _ _).map key

variable [DecidableEq κ]

/-- `DELETE … WHERE key IN (…)` of a batch. -/
def deleteBatch (t : Table R) (p locked : R → Bool) (before : R → R → Bool) (limit : ℕ) : Table R :=
  t.deleteWhere fun r => decide (key r ∈ (t.batch p locked before limit).map key)

omit [DecidableEq κ] in
theorem key_mem_batch {t : Table R} {r : R} (hr : r ∈ t.rows) :
    key r ∈ (t.batch p locked before limit).map key ↔ r ∈ t.batch p locked before limit := by
  constructor
  · intro h
    obtain ⟨r', hr', hkey⟩ := List.mem_map.mp h
    rwa [← eq_of_mem_of_key (mem_of_mem_batch hr').1 hr hkey]
  · exact fun h => List.mem_map_of_mem h

theorem mem_deleteBatch {t : Table R} {r : R} :
    r ∈ (t.deleteBatch p locked before limit).rows ↔
      r ∈ t.rows ∧ r ∉ t.batch p locked before limit := by
  rw [deleteBatch, deleteWhere, List.mem_filter]
  constructor
  · rintro ⟨hr, hnot⟩
    exact ⟨hr, by simpa [key_mem_batch hr] using hnot⟩
  · rintro ⟨hr, hnot⟩
    exact ⟨hr, by simpa [key_mem_batch hr] using hnot⟩

/-- The rows of a table are those of the batch and those that stay. -/
theorem countP_deleteBatch (t : Table R) (q : R → Bool) :
    (t.batch p locked before limit).countP q + (t.deleteBatch p locked before limit).rows.countP q =
      t.rows.countP q := by
  set taken : R → Bool := fun r => decide (key r ∈ (t.batch p locked before limit).map key)
    with htaken
  have hperm : (t.rows.filter taken).Perm (t.batch p locked before limit) := by
    refine (List.perm_ext_iff_of_nodup (t.nodup_filter taken).of_map t.nodup_batch.of_map).mpr ?_
    intro r
    rw [List.mem_filter]
    constructor
    · rintro ⟨hr, h⟩
      exact (key_mem_batch hr).mp (of_decide_eq_true h)
    · intro h
      exact ⟨(mem_of_mem_batch h).1, decide_eq_true (List.mem_map_of_mem h)⟩
  have hrest : (t.deleteBatch p locked before limit).rows = t.rows.filter fun r => !taken r := rfl
  rw [← hperm.countP_eq, hrest, List.countP_filter, List.countP_filter]
  rw [List.countP_eq_countP_filter_add t.rows q taken, List.countP_filter, List.countP_filter]

theorem countP_deleteBatch_le (t : Table R) (q : R → Bool) :
    (t.deleteBatch p locked before limit).rows.countP q ≤ t.rows.countP q :=
  Nat.le.intro ((Nat.add_comm _ _).trans (t.countP_deleteBatch q))

omit [DecidableEq κ] in
theorem countP_updateWhere (t : Table R) (p : R → Bool) {f : Patch R} {q : R → Bool}
    (hq : ∀ r, q (f.set r) = q r) : (t.updateWhere p f).rows.countP q = t.rows.countP q := by
  rw [updateWhere, List.countP_map]
  refine List.countP_congr fun r _ => ?_
  simp only [Function.comp_apply]
  split
  · rw [hq]
  · rfl

/-- When nothing is locked, a pass takes as many as it may of what is due and comes first. -/
theorem countP_deleteBatch_first (t : Table R) {q : R → Bool} (hdue : ∀ r, q r → p r)
    (hfree : ∀ r ∈ t.rows, locked r = false)
    (hfirst : ∀ a b, q b → before a b → q a)
    [Std.Total fun a b => (before a b : Prop)] [IsTrans R fun a b => before a b] :
    (t.deleteBatch p locked before limit).rows.countP q = t.rows.countP q - limit := by
  have hcount : (t.batch p locked before limit).countP q +
      (t.deleteBatch p locked before limit).rows.countP q = t.rows.countP q := t.countP_deleteBatch q
  have hsorted : (t.select (fun r => p r && !locked r) before).Pairwise fun a b => q b → q a := by
    refine (List.pairwise_insertionSort (fun a b => before a b = true) _).imp ?_
    intro a b hab hb
    exact hfirst a b hb hab
  have hall : (t.select (fun r => p r && !locked r) before).countP q = t.rows.countP q := by
    rw [select, (List.perm_insertionSort _ _).countP_eq, List.countP_filter]
    refine List.countP_congr fun r hr => ?_
    constructor
    · intro h
      exact (Bool.and_eq_true_iff.mp h).1
    · intro h
      simp [h, hdue r h, hfree r hr]
  have htake := countP_take_of_pairwise hsorted limit
  rw [hall] at htake
  rw [batch, htake] at hcount
  omega

end Table

end Lib
