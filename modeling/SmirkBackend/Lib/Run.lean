import Mathlib.Logic.Relation

/-!
# Runs of a labelled system

A system is a step relation between states whose labels carry everything that is not
determined by the state: the request that arrives, the value a remote party answers,
the instant of the clock.  A *run* is a list of labels together with the states it joins.

What every step preserves, every run preserves (`System.Run.invariant`); an invariant may also speak
of the labels so far (`System.Run.history`), and a preorder that contains every step contains every
run (`System.Run.relates`).

The places of what occurs once in a list, in one of two parts, first, last, or only later, are given
by `split_unique`, `split_append`, `split_earliest`, `split_last` and `split_after`.
-/

namespace Lib

/-- A labelled transition system with states `S` and labels `L`. -/
structure System (S : Type*) (L : Type*) where
  /-- `step s l s'` : the system can move from `s` to `s'` performing `l`. -/
  step : S → L → S → Prop

namespace System

variable {S L : Type*} (A : System S L)

/-- `A.Run s ls s'` : performing the labels `ls` in order leads from `s` to `s'`. -/
inductive Run : S → List L → S → Prop
  | nil (s : S) : Run s [] s
  | cons {s s₁ s' : S} {l : L} {ls : List L} :
      A.step s l s₁ → Run s₁ ls s' → Run s (l :: ls) s'

/-- The steps of `A` that satisfy `ok`. -/
def only (ok : S → L → S → Prop) : System S L where
  step s l s' := A.step s l s' ∧ ok s l s'

/-- The system of a total transition function. -/
def ofFn (f : S → L → S) : System S L where
  step s l s' := s' = f s l

/-- The system of a partial transition function. -/
def ofOption (f : S → L → Option S) : System S L where
  step s l s' := f s l = some s'

variable {A}

@[simp] theorem only_step {ok : S → L → S → Prop} {s s' : S} {l : L} :
    (A.only ok).step s l s' ↔ A.step s l s' ∧ ok s l s' := Iff.rfl

@[simp] theorem ofFn_step {f : S → L → S} {s s' : S} {l : L} :
    (ofFn f).step s l s' ↔ s' = f s l := Iff.rfl

@[simp] theorem ofOption_step {f : S → L → Option S} {s s' : S} {l : L} :
    (ofOption f).step s l s' ↔ f s l = some s' := Iff.rfl

namespace Run

@[simp] theorem nil_iff {s s' : S} : A.Run s [] s' ↔ s' = s := by
  constructor
  · intro h
    cases h
    rfl
  · rintro rfl
    exact nil _

@[simp] theorem cons_iff {s s' : S} {l : L} {ls : List L} :
    A.Run s (l :: ls) s' ↔ ∃ s₁, A.step s l s₁ ∧ A.Run s₁ ls s' := by
  constructor
  · intro h
    cases h with
    | cons hstep hrun => exact ⟨_, hstep, hrun⟩
  · rintro ⟨s₁, hstep, hrun⟩
    exact cons hstep hrun

theorem trans {s s₁ s' : S} {ls ls' : List L} (h : A.Run s ls s₁) (h' : A.Run s₁ ls' s') :
    A.Run s (ls ++ ls') s' := by
  induction h with
  | nil s => exact h'
  | cons hstep _ ih => exact cons hstep (ih h')

/-- A run splits where its labels do. -/
theorem split {s s' : S} {ls ls' : List L} (h : A.Run s (ls ++ ls') s') :
    ∃ s₁, A.Run s ls s₁ ∧ A.Run s₁ ls' s' := by
  induction ls generalizing s with
  | nil => exact ⟨s, nil s, h⟩
  | cons l ls ih =>
    cases h with
    | cons hstep hrun =>
      obtain ⟨s₁, h₁, h₂⟩ := ih hrun
      exact ⟨s₁, cons hstep h₁, h₂⟩

/-- A predicate that every step preserves holds at the end of every run from a state
where it holds. -/
theorem invariant {I : S → Prop} (hstep : ∀ s l s', A.step s l s' → I s → I s')
    {s s' : S} {ls : List L} (h : A.Run s ls s') (hs : I s) : I s' := by
  induction h with
  | nil s => exact hs
  | cons hst _ ih => exact ih (hstep _ _ _ hst hs)

/-- A run of the restricted system is a run. -/
theorem of_only {ok : S → L → S → Prop} {s s' : S} {ls : List L} (h : (A.only ok).Run s ls s') :
    A.Run s ls s' := by
  induction h with
  | nil s => exact nil s
  | cons hstep _ ih => exact cons hstep.1 ih

/-- What holds of a state before anything happened, and what every step hands on to the past it
makes longer, holds along every run. -/
theorem history {I : List L → S → Prop} {s s' : S} {ls : List L} (hnil : I [] s)
    (hstep : ∀ past s₁ l s₂, A.step s₁ l s₂ → I past s₁ → I (past ++ [l]) s₂)
    (h : A.Run s ls s') : I ls s' := by
  -- the labels taken so far are carried along
  have hfrom : ∀ past, I past s → I (past ++ ls) s' := by
    clear hnil
    induction h with
    | nil s =>
      intro past hs
      rwa [List.append_nil]
    | cons hst _ ih =>
      intro past hs
      rw [List.append_cons]
      exact ih _ (hstep past _ _ _ hst hs)
  exact hfrom [] hnil

/-- A reflexive and transitive relation that holds across every step from a state of the
invariant `I` holds across every run from such a state. -/
theorem relates {I : S → Prop} {R : S → S → Prop} (hrefl : ∀ s, R s s)
    (htrans : ∀ s₁ s₂ s₃, R s₁ s₂ → R s₂ s₃ → R s₁ s₃)
    (hinv : ∀ s l s', A.step s l s' → I s → I s')
    (hstep : ∀ s l s', A.step s l s' → I s → R s s')
    {s s' : S} {ls : List L} (h : A.Run s ls s') (hs : I s) : R s s' := by
  induction h with
  | nil s => exact hrefl s
  | cons hst _ ih => exact htrans _ _ _ (hstep _ _ _ hst hs) (ih (hinv _ _ _ hst hs))

@[simp] theorem ofFn_iff {f : S → L → S} {s s' : S} {ls : List L} :
    (ofFn f).Run s ls s' ↔ s' = ls.foldl f s := by
  induction ls generalizing s with
  | nil => simp
  | cons l ls ih => simp [ih]

/-- The run of a partial transition function is its fold over the labels. -/
theorem ofOption_iff {f : S → L → Option S} {s s' : S} {ls : List L} :
    (ofOption f).Run s ls s' ↔ ls.foldlM f s = some s' := by
  induction ls generalizing s with
  | nil => simp [eq_comm]
  | cons l ls ih =>
    simp only [cons_iff, ih, ofOption_step, List.foldlM_cons, Option.bind_eq_bind,
      Option.bind_eq_some_iff]

end Run

end System

/-- Two places of a list where something holds are one if it holds once. -/
theorem split_unique {α : Type} {p : α → Bool} {l₁ l₁' l₂ l₂' : List α} {x x' : α}
    (h : l₁ ++ x :: l₂ = l₁' ++ x' :: l₂') (hcount : (l₁ ++ x :: l₂).countP p ≤ 1)
    (hx : p x) (hx' : p x') : l₂ = l₂' := by
  induction l₁ generalizing l₁' with
  | nil =>
    cases l₁' with
    | nil => exact (List.cons.inj h).2
    | cons y l₁' =>
      obtain ⟨-, htail⟩ := List.cons.inj h
      have hpos : 0 < l₂.countP p := List.countP_pos_iff.mpr ⟨x', by simp [htail], hx'⟩
      rw [List.nil_append, List.countP_cons_of_pos hx] at hcount
      omega
  | cons y l₁ ih =>
    cases l₁' with
    | nil =>
      obtain ⟨rfl, -⟩ := List.cons.inj h
      have hpos : 0 < (l₁ ++ x :: l₂).countP p := List.countP_pos_iff.mpr ⟨x, by simp, hx⟩
      rw [List.cons_append, List.countP_cons_of_pos hx'] at hcount
      omega
    | cons y' l₁' =>
      obtain ⟨-, htail⟩ := List.cons.inj h
      refine ih htail (Nat.le_trans ?_ hcount)
      rw [List.cons_append, List.countP_cons]
      exact Nat.le_add_right _ _

/-- There is one first place of a list where something holds. -/
theorem split_first_unique {α : Type} {p : α → Prop} {l₁ l₁' l₂ l₂' : List α} {x x' : α}
    (h : l₁ ++ x :: l₂ = l₁' ++ x' :: l₂') (hnone : ∀ y ∈ l₁, ¬ p y) (hnone' : ∀ y ∈ l₁', ¬ p y)
    (hx : p x) (hx' : p x') : l₁ = l₁' := by
  induction l₁ generalizing l₁' with
  | nil =>
    cases l₁' with
    | nil => rfl
    | cons y l₁' =>
      obtain ⟨rfl, -⟩ := List.cons.inj h
      exact absurd hx (hnone' _ List.mem_cons_self)
  | cons y l₁ ih =>
    cases l₁' with
    | nil =>
      obtain ⟨rfl, -⟩ := List.cons.inj h
      exact absurd hx' (hnone _ List.mem_cons_self)
    | cons y' l₁' =>
      obtain ⟨rfl, htail⟩ := List.cons.inj h
      rw [ih htail (List.forall_mem_cons.mp hnone).2 (List.forall_mem_cons.mp hnone').2]

theorem exists_concat_of_append {α : Type} {l l₁ l₂ : List α} {a : α}
    (h : l ++ [a] = l₁ ++ l₂) (hne : l₂ ≠ []) : ∃ l₃, l₂ = l₃ ++ [a] := by
  obtain ⟨l₃, b, rfl⟩ := List.eq_nil_or_concat l₂ |>.resolve_left hne
  rw [List.concat_eq_append, ← List.append_assoc] at h
  obtain ⟨-, hlast⟩ := List.append_inj' h rfl
  rw [hlast]
  exact ⟨l₃, List.concat_eq_append⟩

/-- An element of two lists in a row is in the first or in the second. -/
theorem split_append {α : Type} {before after l₁ l₂ : List α} {x : α}
    (h : before ++ x :: after = l₁ ++ l₂) :
    (∃ l, l₁ = before ++ x :: l ∧ after = l ++ l₂) ∨
      ∃ l, before = l₁ ++ l ∧ l₂ = l ++ x :: after := by
  rcases List.append_eq_append_iff.mp h with ⟨l, rfl, hl⟩ | ⟨l, rfl, hl⟩
  · cases l with
    | nil => exact .inr ⟨[], by simp, by simpa using hl.symm⟩
    | cons y l =>
      obtain ⟨rfl, rfl⟩ := List.cons.inj hl
      exact .inl ⟨l, rfl, rfl⟩
  · exact .inr ⟨l, rfl, hl⟩

/-- What holds somewhere in a list holds in one place first. -/
theorem split_earliest {α : Type} {p : α → Prop} {l : List α} (h : ∃ x ∈ l, p x) :
    ∃ l₁ x l₂, l = l₁ ++ x :: l₂ ∧ p x ∧ ∀ y ∈ l₁, ¬ p y := by
  induction l with
  | nil => simp at h
  | cons a l ih =>
    by_cases ha : p a
    · exact ⟨[], a, l, rfl, ha, by simp⟩
    · obtain ⟨x, hx, hp⟩ := h
      have hlater : ∃ x ∈ l, p x := by
        rcases List.mem_cons.mp hx with rfl | hx
        · exact absurd hp ha
        · exact ⟨x, hx, hp⟩
      obtain ⟨l₁, x, l₂, rfl, hx, hnone⟩ := ih hlater
      exact ⟨a :: l₁, x, l₂, rfl, hx, List.forall_mem_cons.mpr ⟨ha, hnone⟩⟩

/-- What holds somewhere in a list holds in one place last. -/
theorem split_last {α : Type} {p : α → Prop} {l : List α} (h : ∃ x ∈ l, p x) :
    ∃ l₁ x l₂, l = l₁ ++ x :: l₂ ∧ p x ∧ ∀ y ∈ l₂, ¬ p y := by
  induction l with
  | nil => simp at h
  | cons a l ih =>
    by_cases hlater : ∃ x ∈ l, p x
    · obtain ⟨l₁, x, l₂, rfl, hx, hnone⟩ := ih hlater
      exact ⟨a :: l₁, x, l₂, rfl, hx, hnone⟩
    · have hnone : ∀ y ∈ l, ¬ p y := fun y hy hp => hlater ⟨y, hy, hp⟩
      obtain ⟨x, hx, hp⟩ := h
      rcases List.mem_cons.mp hx with rfl | hx
      · exact ⟨[], x, l, rfl, hp, hnone⟩
      · exact absurd hp (hnone x hx)

/-- What holds nowhere in the first part of a list holds in the second. -/
theorem split_after {α : Type} {p : α → Bool} {l l' l₁ l₂ : List α} {x : α}
    (h : l ++ l' = l₁ ++ x :: l₂) (hnone : ∀ y ∈ l, p y = false) (hx : p x) :
    ∃ l₃, l₁ = l ++ l₃ ∧ l' = l₃ ++ x :: l₂ := by
  rcases List.append_eq_append_iff.mp h with ⟨l₃, hl₁, hl'⟩ | ⟨l₃, hl, hrest⟩
  · exact ⟨l₃, hl₁, hl'⟩
  · cases l₃ with
    | nil => exact ⟨[], by simpa using hl.symm, by simpa using hrest.symm⟩
    | cons y l₃ =>
      obtain ⟨rfl, -⟩ := List.cons.inj hrest
      have := hnone x (by simp [hl])
      simp [this] at hx

/-! ### Schedules -/

/-- A schedule of programs that are known by their numbers. -/
def numbered {C : Type} {n : Nat} (turns : List (Nat × C)) : List (Fin (n + 1) × C) :=
  turns.map fun turn => (Fin.ofNat (n + 1) turn.1, turn.2)

end Lib
