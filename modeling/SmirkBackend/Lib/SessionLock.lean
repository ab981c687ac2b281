import Mathlib.Data.Nat.Notation
import Mathlib.Logic.Basic
import Mathlib.Tactic.ByContra
import Mathlib.Tactic.SplitIfs

/-!
# Session locks

A database server keeps locks for its sessions.  A lock is free, or one session has it, as many
times as it took it; the same session may take it again.  A session that gives the lock back gives
it back once, and a session that ends gives back everything.  Nothing else frees a lock: not that
the client forgot about it, and not that the connection went back to a pool.

* `SessionLocks.tryLock_fst` : a lock is refused exactly when another session has it.
* `SessionLocks.eq_of_held` : at most one session has a lock.
-/

namespace Lib

variable {σ κ : Type*}

/-- The sessions of a server and their locks. -/
structure SessionLocks (σ κ : Type*) where
  /-- The open sessions. -/
  opened : List σ
  /-- How many times a session has a lock. -/
  count : σ → κ → ℕ
  /-- A session that is not open has no lock. -/
  closed_free : ∀ s, s ∉ opened → ∀ k, count s k = 0
  /-- Two sessions that have the same lock are the same. -/
  exclusive : ∀ s s' k, 0 < count s k → 0 < count s' k → s = s'

namespace SessionLocks

variable (t : SessionLocks σ κ)

/-- No session is open. -/
def empty : SessionLocks σ κ where
  opened := []
  count _ _ := 0
  closed_free _ _ _ := rfl
  exclusive _ _ _ h := absurd h (Nat.lt_irrefl 0)

/-- A new session, without locks. -/
def connect (s : σ) : SessionLocks σ κ where
  opened := s :: t.opened
  count := t.count
  closed_free s' hs' := t.closed_free s' fun h => hs' (List.mem_cons_of_mem _ h)
  exclusive := t.exclusive

/-- The session has the lock. -/
def Held (s : σ) (k : κ) : Prop := 0 < t.count s k

theorem eq_of_held {t : SessionLocks σ κ} {s s' : σ} {k : κ} (h : t.Held s k) (h' : t.Held s' k) :
    s = s' :=
  t.exclusive s s' k h h'

theorem opened_of_held {t : SessionLocks σ κ} {s : σ} {k : κ} (h : t.Held s k) : s ∈ t.opened := by
  by_contra hs
  have hfree := t.closed_free s hs k
  unfold Held at h
  omega

variable [DecidableEq σ] [DecidableEq κ]

/-- Some other session has the lock. -/
def heldElsewhere (s : σ) (k : κ) : Bool := t.opened.any fun s' => s' ≠ s && 0 < t.count s' k

omit [DecidableEq κ] in
theorem heldElsewhere_iff (s : σ) (k : κ) : t.heldElsewhere s k ↔ ∃ s', s' ≠ s ∧ t.Held s' k := by
  simp only [heldElsewhere, List.any_eq_true, Bool.and_eq_true, decide_eq_true_eq]
  constructor
  · rintro ⟨s', -, hne, hheld⟩
    exact ⟨s', hne, hheld⟩
  · rintro ⟨s', hne, hheld⟩
    exact ⟨s', opened_of_held hheld, hne, hheld⟩

/-- The session takes the lock once more; the caller has seen that it is open and that no other
session has the lock. -/
def take (s : σ) (k : κ) (hopen : s ∈ t.opened) (hfree : ¬ t.heldElsewhere s k) :
    SessionLocks σ κ where
  opened := t.opened
  count s' k' := if s' = s ∧ k' = k then t.count s' k' + 1 else t.count s' k'
  closed_free s' hs' k' := by
    have hother : ¬ (s' = s ∧ k' = k) := by
      rintro ⟨rfl, -⟩
      exact hs' hopen
    rw [if_neg hother]
    exact t.closed_free s' hs' k'
  exclusive := by
    have honly : ∀ s', 0 < t.count s' k → s' = s := by
      intro s' hs'
      by_contra hne
      exact hfree ((t.heldElsewhere_iff s k).mpr ⟨s', hne, hs'⟩)
    intro s₁ s₂ k' h₁ h₂
    by_cases hk : k' = k
    · subst hk
      have heq : ∀ s', 0 < (if s' = s ∧ k' = k' then t.count s' k' + 1 else t.count s' k') →
          s' = s := by
        intro s' hs'
        split_ifs at hs' with h
        · exact h.1
        · exact honly s' hs'
      rw [heq s₁ h₁, heq s₂ h₂]
    · simp only [hk, and_false, ↓reduceIte] at h₁ h₂
      exact t.exclusive s₁ s₂ k' h₁ h₂

/-- A lock is asked for without waiting: the answer, and the locks afterwards. -/
def tryLock (s : σ) (k : κ) : Bool × SessionLocks σ κ :=
  if h : s ∈ t.opened ∧ ¬ t.heldElsewhere s k then (true, t.take s k h.1 h.2) else (false, t)

/-- A lock is given back once, by a session that has it. -/
def unlock (s : σ) (k : κ) : SessionLocks σ κ where
  opened := t.opened
  count s' k' := if s' = s ∧ k' = k then t.count s' k' - 1 else t.count s' k'
  closed_free s' hs' k' := by
    have hfree := t.closed_free s' hs' k'
    split_ifs <;> omega
  exclusive := by
    have hle : ∀ s' k', (if s' = s ∧ k' = k then t.count s' k' - 1 else t.count s' k') ≤
        t.count s' k' := by
      intro s' k'
      split_ifs <;> omega
    intro s₁ s₂ k' h₁ h₂
    exact t.exclusive s₁ s₂ k' (Nat.lt_of_lt_of_le h₁ (hle _ _)) (Nat.lt_of_lt_of_le h₂ (hle _ _))

omit [DecidableEq κ] in
/-- The session ends; whatever it had is free. -/
def close (s : σ) : SessionLocks σ κ where
  opened := t.opened.filter fun s' => s' ≠ s
  count s' k := if s' = s then 0 else t.count s' k
  closed_free s' hs' k := by
    split_ifs with heq
    · rfl
    · refine t.closed_free s' (fun hopen => hs' ?_) k
      exact List.mem_filter.mpr ⟨hopen, by simpa using heq⟩
  exclusive s₁ s₂ k h₁ h₂ := by
    split_ifs at h₁ h₂
    · omega
    · omega
    · omega
    · exact t.exclusive s₁ s₂ k h₁ h₂

variable {t}

/-- **When a lock is refused.** -/
theorem tryLock_fst {s : σ} {k : κ} (hopen : s ∈ t.opened) :
    (t.tryLock s k).1 = true ↔ ∀ s', t.Held s' k → s' = s := by
  have hiff : (t.tryLock s k).1 = true ↔ ¬ t.heldElsewhere s k := by
    unfold tryLock
    split_ifs with h
    · exact ⟨fun _ => h.2, fun _ => rfl⟩
    · constructor
      · intro hfalse
        cases hfalse
      · exact fun hfree => absurd ⟨hopen, hfree⟩ h
  rw [hiff, heldElsewhere_iff]
  constructor
  · intro hnone s' hheld
    by_contra hne
    exact hnone ⟨s', hne, hheld⟩
  · rintro hall ⟨s', hne, hheld⟩
    exact hne (hall s' hheld)

theorem tryLock_refused {s : σ} {k : κ} (h : (t.tryLock s k).1 = false) :
    (t.tryLock s k).2 = t := by
  unfold tryLock at h ⊢
  split_ifs at h ⊢
  rfl

theorem tryLock_opened (s : σ) (k : κ) : (t.tryLock s k).2.opened = t.opened := by
  unfold tryLock
  split_ifs <;> rfl

theorem tryLock_count {s : σ} {k : κ} (h : (t.tryLock s k).1 = true) (s' : σ) (k' : κ) :
    (t.tryLock s k).2.count s' k' =
      if s' = s ∧ k' = k then t.count s' k' + 1 else t.count s' k' := by
  unfold tryLock at h ⊢
  split at h
  case isTrue hcan =>
    rw [dif_pos hcan]
    rfl
  case isFalse => cases h

theorem unlock_count (s : σ) (k : κ) (s' : σ) (k' : κ) :
    (t.unlock s k).count s' k' =
      if s' = s ∧ k' = k then t.count s' k' - 1 else t.count s' k' := rfl

omit [DecidableEq κ] in
theorem close_count (s s' : σ) (k : κ) :
    (t.close s).count s' k = if s' = s then 0 else t.count s' k := rfl

omit [DecidableEq κ] in
theorem mem_close_opened {s s' : σ} : s' ∈ (t.close s).opened ↔ s' ∈ t.opened ∧ s' ≠ s := by
  simp [close, List.mem_filter]

end SessionLocks

end Lib
