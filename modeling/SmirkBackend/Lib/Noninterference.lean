import Mathlib.Data.List.Forall2
import Mathlib.Data.Nat.Notation

/-!
# Noninterference by unwinding

A service takes one call after another and answers each.  Some calls concern what an observer must
not see.  When such calls are taken out of a run, the rest of the run must answer the observer as
before.  Whether a call is to be taken out may depend on the state it meets.

Two conditions on single steps imply this for whole runs: a call that is taken out leaves the state
as it was, up to a relation between the states of both runs, and a call that stays is possible in
both runs, keeps them related and has the answers the observer may get.

The conditions are `Service.Unwinds`, and `Service.Unwinds.run` is the run without the hidden calls,
with its answers.
-/

namespace Lib

/-- A service: what a call does to the state and what it answers; `none` when it cannot happen. -/
structure Service (S L O : Type*) where
  /-- One call. -/
  act : S → L → Option (S × O)

namespace Service

variable {S L O : Type*} (M : Service S L O)

/-- The calls one after another, with their answers. -/
def run : S → List L → Option (S × List O)
  | s, [] => some (s, [])
  | s, l :: ls =>
    (M.act s l).bind fun (s₁, o) => (run s₁ ls).map fun (s', os) => (s', o :: os)

theorem run_cons_eq_some {s s' : S} {l : L} {ls : List L} {os : List O} :
    M.run s (l :: ls) = some (s', os) ↔
      ∃ s₁ o os', M.act s l = some (s₁, o) ∧ M.run s₁ ls = some (s', os') ∧ os = o :: os' := by
  simp only [run, Option.bind_eq_some_iff, Option.map_eq_some_iff, Prod.exists, Prod.mk.injEq]
  constructor
  · rintro ⟨s₁, o, hact, s₂, os', hrun, rfl, rfl⟩
    exact ⟨s₁, o, os', hact, hrun, rfl⟩
  · rintro ⟨s₁, o, os', hact, hrun, rfl⟩
    exact ⟨s₁, o, hact, s', os', hrun, rfl, rfl⟩

/-- One call of a run: the state it met and the answer it got. -/
structure Exchange (S L O : Type*) where
  /-- The state before the call. -/
  before : S
  /-- The call. -/
  call : L
  /-- Its answer. -/
  answer : O

/-- The calls of a run that are not hidden, with the states they meet and their answers. -/
def kept (hidden : S → L → Bool) : S → List L → List (Exchange S L O)
  | _, [] => []
  | s, l :: ls =>
    match M.act s l with
    | none => []
    | some (s₁, o) =>
      if hidden s l then kept hidden s₁ ls else ⟨s, l, o⟩ :: kept hidden s₁ ls

/-- The calls of a run that are not hidden. -/
def purge (hidden : S → L → Bool) (s : S) (ls : List L) : List L :=
  (M.kept hidden s ls).map Exchange.call

/-- What single steps owe to the run without the hidden calls: `R` relates the state of the run to
the state of that run, `Agree e o` allows the answer `o` there where the run has the exchange `e`. -/
structure Unwinds (hidden : S → L → Bool) (R : S → S → Prop) (Agree : Exchange S L O → O → Prop) :
    Prop where
  /-- A hidden call leaves the related state related. -/
  skip : ∀ {s t s' : S} {l : L} {o : O}, R s t → hidden s l → M.act s l = some (s', o) → R s' t
  /-- A call that is kept happens in both states. -/
  step : ∀ {s t s' : S} {l : L} {o : O}, R s t → hidden s l = false → M.act s l = some (s', o) →
    ∃ t' o', M.act t l = some (t', o') ∧ R s' t' ∧ Agree ⟨s, l, o⟩ o'

variable {M}

/-- **Unwinding.**  The run without the hidden calls goes through, ends in a related state and
answers each call as its exchange allows. -/
theorem Unwinds.run {hidden : S → L → Bool} {R : S → S → Prop} {Agree : Exchange S L O → O → Prop}
    (h : M.Unwinds hidden R Agree) {s t s' : S} {ls : List L} {os : List O} (hR : R s t)
    (hrun : M.run s ls = some (s', os)) :
    ∃ t' os', M.run t (M.purge hidden s ls) = some (t', os') ∧ R s' t' ∧
      List.Forall₂ Agree (M.kept hidden s ls) os' := by
  induction ls generalizing s t os with
  | nil =>
    obtain ⟨rfl, rfl⟩ := Prod.mk.inj (Option.some.inj hrun)
    exact ⟨t, [], rfl, hR, .nil⟩
  | cons l ls ih =>
    obtain ⟨s₁, o, os₁, hact, hrest, rfl⟩ := M.run_cons_eq_some.mp hrun
    cases hl : hidden s l with
    | true =>
      obtain ⟨t', os', hrun', hR', hagree⟩ := ih (h.skip hR hl hact) hrest
      refine ⟨t', os', ?_, hR', ?_⟩
      · simpa [purge, kept, hact, hl] using hrun'
      · simpa [kept, hact, hl] using hagree
    | false =>
      obtain ⟨t₁, o', hact', hR₁, ho⟩ := h.step hR hl hact
      obtain ⟨t', os', hrun', hR', hagree⟩ := ih hR₁ hrest
      have hkept : M.kept hidden s (l :: ls) = ⟨s, l, o⟩ :: M.kept hidden s₁ ls := by
        simp [kept, hact, hl]
      refine ⟨t', o' :: os', ?_, hR', ?_⟩
      · rw [purge, hkept, List.map_cons]
        exact M.run_cons_eq_some.mpr ⟨t₁, o', os', hact', hrun', rfl⟩
      · rw [hkept]
        exact .cons ho hagree

end Service

end Lib
