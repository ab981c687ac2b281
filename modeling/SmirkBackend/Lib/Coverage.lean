import Mathlib.Data.List.Basic
import Mathlib.Order.Lattice

/-!
# Runs of covered numbers

Some closed ranges of natural numbers cover a run that starts at 0.  When the ranges are sorted by
their first numbers, one sweep finds the end of the run: a range that leaves no gap extends it, and
the first gap ends it.

The sweep passes covered numbers only and stops at a gap (`sweep_covers`, `sweep_gap`), so the end
of the run is the greatest number with a covered prefix (`RunEnd.iff_greatest`).
-/

namespace Lib

/-- Some range contains the number; both ends of a range are included. -/
def Covers (ranges : List (ℕ × ℕ)) (n : ℕ) : Prop := ∃ r ∈ ranges, r.1 ≤ n ∧ n ≤ r.2

@[simp] theorem not_covers_nil (n : ℕ) : ¬ Covers [] n := by simp [Covers]

@[simp] theorem covers_cons {r : ℕ × ℕ} {ranges : List (ℕ × ℕ)} {n : ℕ} :
    Covers (r :: ranges) n ↔ (r.1 ≤ n ∧ n ≤ r.2) ∨ Covers ranges n := by simp [Covers]

theorem Covers.congr {ranges ranges' : List (ℕ × ℕ)} (h : ∀ r, r ∈ ranges ↔ r ∈ ranges') (n : ℕ) :
    Covers ranges n ↔ Covers ranges' n := by simp only [Covers, h]

/-- Extend a run over the ranges that leave no gap. -/
def sweep (last : ℕ) : List (ℕ × ℕ) → ℕ
  | [] => last
  | r :: rest => if last + 1 < r.1 then last else sweep (max last r.2) rest

variable {last : ℕ} {ranges : List (ℕ × ℕ)}

theorem le_sweep : last ≤ sweep last ranges := by
  induction ranges generalizing last with
  | nil => exact le_rfl
  | cons r rest ih =>
    rw [sweep]
    split_ifs
    · exact le_rfl
    · exact (le_max_left last r.2).trans ih

/-- Only covered numbers are passed. -/
theorem sweep_covers {n : ℕ} (hlast : last < n) (hn : n ≤ sweep last ranges) : Covers ranges n := by
  induction ranges generalizing last with
  | nil => exact absurd hn (by rw [sweep]; omega)
  | cons r rest ih =>
    rw [sweep] at hn
    rw [covers_cons]
    split_ifs at hn with hgap
    · omega
    · by_cases hpassed : n ≤ max last r.2
      · exact .inl (by omega)
      · exact .inr (ih (by omega) hn)

/-- The sweep of sorted ranges stops at a gap. -/
theorem sweep_gap (hsorted : ranges.Pairwise fun a b => a.1 ≤ b.1) :
    ¬ Covers ranges (sweep last ranges + 1) := by
  induction ranges generalizing last with
  | nil => exact not_covers_nil _
  | cons r rest ih =>
    obtain ⟨hfirst, hrest⟩ := List.pairwise_cons.mp hsorted
    rw [sweep, covers_cons]
    split_ifs with hgap
    · -- all later ranges start beyond the gap, too
      rintro (⟨hstart, -⟩ | ⟨r', hr', hstart, -⟩)
      · omega
      · have hle := hfirst r' hr'
        omega
    · rintro (⟨-, hend⟩ | hcovers)
      · have hle : max last r.2 ≤ sweep (max last r.2) rest := le_sweep
        omega
      · exact ih hrest hcovers

/-- The run of covered numbers from 0 ends at a number. -/
def RunEnd (ranges : List (ℕ × ℕ)) (m : ℕ) : Prop :=
  (∀ n ≤ m, Covers ranges n) ∧ ¬ Covers ranges (m + 1)

/-- The end of the run is the greatest number with a covered prefix. -/
theorem RunEnd.iff_greatest {m : ℕ} : RunEnd ranges m ↔
    (∀ n ≤ m, Covers ranges n) ∧ ∀ m', (∀ n ≤ m', Covers ranges n) → m' ≤ m := by
  refine and_congr_right fun hprefix => ⟨fun hgap m' hm' => ?_, fun hgreatest hnext => ?_⟩
  · by_contra hlt
    exact hgap (hm' (m + 1) (by omega))
  · have hle := hgreatest (m + 1) fun n hn => by
      rcases Nat.lt_or_ge m n with hlt | hle
      · obtain rfl : n = m + 1 := by omega
        exact hnext
      · exact hprefix n hle
    omega

/-- A run ends at one place. -/
theorem RunEnd.unique {m m' : ℕ} (h : RunEnd ranges m) (h' : RunEnd ranges m') : m = m' :=
  le_antisymm ((iff_greatest.mp h').2 m h.1) ((iff_greatest.mp h).2 m' h'.1)

theorem runEnd_sweep {first : ℕ × ℕ} (hzero : first.1 = 0)
    (hsorted : (first :: ranges).Pairwise fun a b => a.1 ≤ b.1) :
    RunEnd (first :: ranges) (sweep first.2 ranges) := by
  refine ⟨fun n hn => ?_, ?_⟩
  · rw [covers_cons]
    by_cases hfirst : n ≤ first.2
    · exact .inl ⟨by omega, hfirst⟩
    · exact .inr (sweep_covers (by omega) hn)
  · rw [covers_cons]
    rintro (⟨-, hend⟩ | hcovers)
    · have hle : first.2 ≤ sweep first.2 ranges := le_sweep
      omega
    · exact sweep_gap (List.pairwise_cons.mp hsorted).2 hcovers

end Lib
