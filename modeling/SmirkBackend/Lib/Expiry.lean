import Mathlib.Data.List.Basic
import Mathlib.Data.List.Count
import Mathlib.Algebra.Order.Ring.Int
import SmirkBackend.Lib.Run

/-!
# A memory of used keys that forgets

A key may be used once.  A memory records when a key was last used; every use first forgets the
entries that are `ttl` old by its own time, and is accepted when its key has no entry left.  The
times of uses need not be in order.

A history of uses lists the newest use first.

`Expiry.count_le_one_iff` : keys are accepted once exactly when no key is forgotten between two uses
in a row (`Expiry.Overlapping`), and uses within a window of length `ttl` are such
(`Expiry.overlapping_of_windows`).
-/

namespace Lib

namespace Expiry

variable {κ : Type} [DecidableEq κ] (ttl : ℤ)

/-- The time of the last use of a key, if it is not forgotten. -/
def entry (k : κ) : List (κ × ℤ) → Option ℤ
  | [] => none
  | (k', t) :: rest => if k' = k then some t else (entry k rest).filter fun seen => t - seen < ttl

/-- A use after a history finds no entry. -/
def fresh (k : κ) (t : ℤ) (rest : List (κ × ℤ)) : Bool :=
  ((entry ttl k rest).filter fun seen => t - seen < ttl).isNone

/-- The keys whose uses were accepted. -/
def accepted : List (κ × ℤ) → List κ
  | [] => []
  | (k, t) :: rest => if fresh ttl k t rest then k :: accepted rest else accepted rest

/-- From one use of a key to the next one, no use forgets it. -/
def Overlapping (uses : List (κ × ℤ)) : Prop :=
  ∀ newer k t between t₀ older, uses = newer ++ (k, t) :: between ++ (k, t₀) :: older →
    k ∉ between.map Prod.fst → ∀ u ∈ (k, t) :: between, u.2 - t₀ < ttl

variable {ttl}

/-! ### Entries -/

theorem entry_of_notMem {k : κ} {uses : List (κ × ℤ)} (h : k ∉ uses.map Prod.fst) :
    entry ttl k uses = none := by
  induction uses with
  | nil => rfl
  | cons u rest ih =>
    rw [List.map_cons, List.mem_cons, not_or] at h
    rw [entry, if_neg (Ne.symm h.1), ih h.2, Option.filter_none]

theorem entry_append {k : κ} {t₀ : ℤ} {between : List (κ × ℤ)} (h : k ∉ between.map Prod.fst)
    (older : List (κ × ℤ)) :
    entry ttl k (between ++ (k, t₀) :: older) =
      if ∀ u ∈ between, u.2 - t₀ < ttl then some t₀ else none := by
  induction between with
  | nil => simp [entry]
  | cons u rest ih =>
    obtain ⟨k', t⟩ := u
    rw [List.map_cons, List.mem_cons, not_or] at h
    rw [List.cons_append, entry, if_neg (Ne.symm h.1), ih h.2]
    have hall : (∀ u ∈ (k', t) :: rest, u.2 - t₀ < ttl) ↔
        t - t₀ < ttl ∧ ∀ u ∈ rest, u.2 - t₀ < ttl := List.forall_mem_cons
    by_cases hrest : ∀ u ∈ rest, u.2 - t₀ < ttl
    · simp only [if_pos hrest, Option.filter_some, decide_eq_true_eq]
      by_cases ht : t - t₀ < ttl
      · rw [if_pos (hall.mpr ⟨ht, hrest⟩), if_pos ht]
      · rw [if_neg fun h => ht (hall.mp h).1, if_neg ht]
    · rw [if_neg hrest, if_neg fun h => hrest (hall.mp h).2, Option.filter_none]

theorem fresh_of_notMem {k : κ} {t : ℤ} {rest : List (κ × ℤ)} (h : k ∉ rest.map Prod.fst) :
    fresh ttl k t rest = true := by
  rw [fresh, entry_of_notMem h]
  rfl

theorem fresh_append_iff {k : κ} {t t₀ : ℤ} {between : List (κ × ℤ)}
    (h : k ∉ between.map Prod.fst) (older : List (κ × ℤ)) :
    fresh ttl k t (between ++ (k, t₀) :: older) = true ↔
      ¬ ∀ u ∈ (k, t) :: between, u.2 - t₀ < ttl := by
  have hall : (∀ u ∈ (k, t) :: between, u.2 - t₀ < ttl) ↔
      t - t₀ < ttl ∧ ∀ u ∈ between, u.2 - t₀ < ttl := List.forall_mem_cons
  rw [fresh, entry_append h, hall]
  by_cases hrest : ∀ u ∈ between, u.2 - t₀ < ttl
  · simp only [if_pos hrest, Option.filter_some, decide_eq_true_eq]
    by_cases ht : t - t₀ < ttl
    · rw [if_pos ht]
      exact iff_of_false Bool.false_ne_true (not_not.mpr ⟨ht, hrest⟩)
    · rw [if_neg ht]
      exact iff_of_true rfl fun h => ht h.1
  · rw [if_neg hrest, Option.filter_none]
    exact iff_of_true rfl fun h => hrest h.2

/-! ### Accepted keys -/

theorem mem_of_mem_accepted {k : κ} {uses : List (κ × ℤ)} (h : k ∈ accepted ttl uses) :
    k ∈ uses.map Prod.fst := by
  induction uses with
  | nil => cases h
  | cons u rest ih =>
    obtain ⟨k', t⟩ := u
    rw [accepted] at h
    split_ifs at h
    · rcases List.mem_cons.mp h with rfl | h
      · exact List.mem_cons_self
      · exact List.mem_cons_of_mem _ (ih h)
    · exact List.mem_cons_of_mem _ (ih h)

theorem mem_accepted {k : κ} {uses : List (κ × ℤ)} (h : k ∈ uses.map Prod.fst) :
    k ∈ accepted ttl uses := by
  induction uses with
  | nil => cases h
  | cons u rest ih =>
    obtain ⟨k', t⟩ := u
    rw [accepted]
    by_cases hrest : k ∈ rest.map Prod.fst
    · split_ifs
      · exact List.mem_cons_of_mem _ (ih hrest)
      · exact ih hrest
    · obtain rfl : k = k' := (List.mem_cons.mp h).resolve_right hrest
      rw [if_pos (fresh_of_notMem hrest)]
      exact List.mem_cons_self

/-! ### Once -/

omit [DecidableEq κ] in
theorem overlapping_cons_iff {k : κ} {t : ℤ} {rest : List (κ × ℤ)} :
    Overlapping ttl ((k, t) :: rest) ↔ Overlapping ttl rest ∧
      ∀ between t₀ older, rest = between ++ (k, t₀) :: older → k ∉ between.map Prod.fst →
        ∀ u ∈ (k, t) :: between, u.2 - t₀ < ttl := by
  constructor
  · intro h
    refine ⟨fun newer k' t' between t₀ older heq => ?_, fun between t₀ older heq => ?_⟩
    · exact h ((k, t) :: newer) k' t' between t₀ older (by rw [heq]; rfl)
    · exact h [] k t between t₀ older (by rw [heq]; rfl)
  · rintro ⟨hrest, hhead⟩ newer k' t' between t₀ older heq
    cases newer with
    | nil =>
      obtain ⟨hu, hrest'⟩ := List.cons.inj heq
      obtain ⟨rfl, rfl⟩ := Prod.mk.inj hu
      exact hhead between t₀ older hrest'
    | cons u newer => exact hrest newer k' t' between t₀ older (List.cons.inj heq).2

/-- **Keys are accepted once** exactly when their uses overlap. -/
theorem count_le_one_iff (uses : List (κ × ℤ)) :
    (∀ k, (accepted ttl uses).count k ≤ 1) ↔ Overlapping ttl uses := by
  induction uses with
  | nil => simp [accepted, Overlapping]
  | cons u rest ih =>
    obtain ⟨k, t⟩ := u
    rw [overlapping_cons_iff, ← ih, accepted]
    by_cases hmem : k ∈ rest.map Prod.fst
    · obtain ⟨between, ⟨k', t₀⟩, older, rfl, hk, hnone⟩ := split_earliest
        (p := fun u : κ × ℤ => u.1 = k) (List.mem_map.mp hmem)
      obtain rfl : k' = k := hk
      have hbetween : k' ∉ between.map Prod.fst := by
        intro h
        obtain ⟨u, hu, hk⟩ := List.mem_map.mp h
        exact hnone u hu hk
      cases hfresh : fresh ttl k' t (between ++ (k', t₀) :: older) with
      | true =>
        -- the key was forgotten, and is accepted again
        refine iff_of_false (fun h => ?_) fun h =>
          (fresh_append_iff hbetween older).mp hfresh (h.2 between t₀ older rfl hbetween)
        have hcount := h k'
        have haccepted : k' ∈ accepted ttl (between ++ (k', t₀) :: older) := mem_accepted hmem
        have hpos := List.count_pos_iff.mpr haccepted
        rw [if_pos rfl, List.count_cons_self] at hcount
        omega
      | false =>
        rw [if_neg Bool.false_ne_true, iff_self_and]
        intro _ between' t₀' older' heq hbetween'
        rw [heq] at hfresh
        by_contra hforgotten
        exact Bool.false_ne_true
          (hfresh.symm.trans ((fresh_append_iff hbetween' older').mpr hforgotten))
    · -- a first use is accepted
      rw [if_pos (fresh_of_notMem hmem)]
      have hnot : k ∉ accepted ttl rest := fun h => hmem (mem_of_mem_accepted h)
      have hhead : ∀ between t₀ older, rest = between ++ (k, t₀) :: older →
          k ∉ between.map Prod.fst → ∀ u ∈ (k, t) :: between, u.2 - t₀ < ttl := by
        rintro between t₀ older rfl
        exact absurd (by simp) hmem
      rw [and_iff_left hhead]
      refine forall_congr' fun k' => ?_
      by_cases hk : k' = k
      · rw [hk, List.count_cons_self, List.count_eq_zero.mpr hnot]
        omega
      · rw [List.count_cons_of_ne (Ne.symm hk)]

omit [DecidableEq κ] in
/-- Uses overlap when each key has a window of length `ttl`, in which it is used and before whose
end everything before its uses happens. -/
theorem overlapping_of_windows {uses : List (κ × ℤ)} (e : κ → ℤ)
    (hstart : ∀ u ∈ uses, e u.1 - ttl ≤ u.2)
    (hend : ∀ newer k t older, uses = newer ++ (k, t) :: older →
      ∀ u ∈ (k, t) :: older, u.2 < e k) : Overlapping ttl uses := by
  intro newer k t between t₀ older heq _ u hu
  have hbefore := hend newer k t (between ++ (k, t₀) :: older) (by simpa using heq) u
    (by
      rcases List.mem_cons.mp hu with rfl | hu
      · exact List.mem_cons_self
      · exact List.mem_cons_of_mem _ (List.mem_append_left _ hu))
  have hafter := hstart (k, t₀) (by simp [heq])
  dsimp only at hafter
  omega

end Expiry

end Lib
