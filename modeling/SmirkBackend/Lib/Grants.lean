import Mathlib.Logic.Function.Basic
import Mathlib.Tactic.SplitIfs

/-!
# Grants and sessions

A grant admits its holder until it is revoked; revoking it ends the sessions that were opened on
it.  A gate that asks only whether the holder of a session has a live grant admits a session of a
revoked grant once the holder has another: such a session is a *stray*, and it comes from a session
that is opened on a grant after its revocation.

A register is sound if no holder has two live grants, or a live grant and a stray session.  Changes
that bring no stray session and live grant together keep it sound (`Register.Sound.change`), and in
a sound register the gate finds the session's own grant (`Register.Sound.admits_own`).
-/

namespace Lib

variable {K S H : Type}

/-- A right of a holder. -/
structure Grant (H : Type) where
  /-- Who holds it. -/
  holder : H
  /-- It is not revoked. -/
  live : Bool
  deriving DecidableEq

/-- A session on a grant. -/
structure GrantSession (K : Type) where
  /-- The grant. -/
  grant : K
  /-- It has not ended. -/
  live : Bool
  deriving DecidableEq

/-- All grants and sessions. -/
structure Register (K S H : Type) where
  /-- The grants. -/
  grants : K → Option (Grant H)
  /-- The sessions. -/
  sessions : S → Option (GrantSession K)

namespace Register

/-- What can be done to a register. -/
inductive Op (K S H : Type) where
  | issue (k : K) (h : H)
  | revoke (k : K)
  | opened (s : S) (k : K)
  | closed (s : S)

section Predicates

variable (r : Register K S H)

/-- The holder has a live grant. -/
def HasLive (h : H) : Prop := ∃ k, r.grants k = some ⟨h, true⟩

/-- A live session on a revoked grant of the holder. -/
def Stray (s : S) (h : H) : Prop :=
  ∃ k, r.sessions s = some ⟨k, true⟩ ∧ r.grants k = some ⟨h, false⟩

/-- The operation brings no stray session and live grant of one holder together. -/
def Clean : Op K S H → Prop
  | .issue _ h => ∀ s, ¬ r.Stray s h
  | .opened _ k => ∀ h, r.grants k = some ⟨h, false⟩ → ¬ r.HasLive h
  | _ => True

/-- No holder has two live grants, or a live grant and a stray session. -/
structure Sound : Prop where
  /-- One live grant for a holder. -/
  unique : ∀ {k k' h}, r.grants k = some ⟨h, true⟩ → r.grants k' = some ⟨h, true⟩ → k = k'
  /-- None beside a stray session. -/
  noStray : ∀ {s h}, r.Stray s h → ¬ r.HasLive h

/-- The change brings no stray session and live grant of one holder together. -/
structure CleanChange (r' : Register K S H) : Prop where
  /-- No session is opened on a revoked grant whose holder has another. -/
  opened : ∀ {s k h}, r.sessions s = none → r'.sessions s = some ⟨k, true⟩ →
    r.grants k = some ⟨h, false⟩ → ¬ r.HasLive h
  /-- No grant is issued to the holder of a stray session. -/
  issued : ∀ {k h}, r.grants k = none → r'.grants k = some ⟨h, true⟩ → ∀ s, ¬ r.Stray s h

/-- Grants keep their holders and sessions their grants; what is over stays over. -/
structure Later (r' : Register K S H) : Prop where
  /-- The grants. -/
  grants : ∀ k g, r.grants k = some g →
    ∃ g', r'.grants k = some g' ∧ g'.holder = g.holder ∧ (g.live = false → g'.live = false)
  /-- The sessions. -/
  sessions : ∀ s x, r.sessions s = some x →
    ∃ x', r'.sessions s = some x' ∧ x'.grant = x.grant ∧ (x.live = false → x'.live = false)

end Predicates

theorem Later.refl (r : Register K S H) : r.Later r :=
  ⟨fun _ g h => ⟨g, h, rfl, id⟩, fun _ x h => ⟨x, h, rfl, id⟩⟩

theorem Later.trans {r₁ r₂ r₃ : Register K S H} (h : r₁.Later r₂) (h' : r₂.Later r₃) :
    r₁.Later r₃ where
  grants k g hg := by
    obtain ⟨g₂, hg₂, hsame, hover⟩ := h.grants k g hg
    obtain ⟨g₃, hg₃, hsame', hover'⟩ := h'.grants k g₂ hg₂
    exact ⟨g₃, hg₃, hsame'.trans hsame, fun hlive => hover' (hover hlive)⟩
  sessions s x hx := by
    obtain ⟨x₂, hx₂, hsame, hover⟩ := h.sessions s x hx
    obtain ⟨x₃, hx₃, hsame', hover'⟩ := h'.sessions s x₂ hx₂
    exact ⟨x₃, hx₃, hsame'.trans hsame, fun hlive => hover' (hover hlive)⟩

section Operations

variable [DecidableEq K]

/-- A new grant. -/
def issue (r : Register K S H) (k : K) (h : H) : Register K S H :=
  { r with grants := Function.update r.grants k (some ⟨h, true⟩) }

/-- A grant is revoked, and its sessions end. -/
def revoke (r : Register K S H) (k : K) : Register K S H where
  grants k' := (r.grants k').map fun g => if k' = k then { g with live := false } else g
  sessions s := (r.sessions s).map fun x => if x.grant = k then { x with live := false } else x

theorem live_of_issue {r : Register K S H} {k k' : K} {h h' : H}
    (hlive : (r.issue k h).grants k' = some ⟨h', true⟩) :
    (k' ≠ k ∧ r.grants k' = some ⟨h', true⟩) ∨ (k' = k ∧ h' = h) := by
  by_cases hk : k' = k
  · subst hk
    simp only [issue, Function.update_self, Option.some.injEq, Grant.mk.injEq, and_true] at hlive
    exact .inr ⟨rfl, hlive.symm⟩
  · simp only [issue, Function.update_of_ne hk] at hlive
    exact .inl ⟨hk, hlive⟩

theorem stray_of_issue {r : Register K S H} {k : K} {s : S} {h h' : H}
    (hstray : (r.issue k h).Stray s h') : r.Stray s h' := by
  obtain ⟨k', hsession, hgrant⟩ := hstray
  refine ⟨k', hsession, ?_⟩
  by_cases hk : k' = k
  · subst hk
    simp [issue] at hgrant
  · simpa only [issue, Function.update_of_ne hk] using hgrant

theorem live_of_revoke {r : Register K S H} {k k' : K} {h : H}
    (hlive : (r.revoke k).grants k' = some ⟨h, true⟩) : r.grants k' = some ⟨h, true⟩ := by
  simp only [revoke, Option.map_eq_some_iff] at hlive
  obtain ⟨g, hg, hlive⟩ := hlive
  split_ifs at hlive with hk
  · simp at hlive
  · rw [hg, hlive]

theorem stray_of_revoke {r : Register K S H} {k : K} {s : S} {h : H}
    (hstray : (r.revoke k).Stray s h) : r.Stray s h := by
  obtain ⟨k', hsession, hgrant⟩ := hstray
  simp only [revoke, Option.map_eq_some_iff] at hsession hgrant
  obtain ⟨x, hx, hlive⟩ := hsession
  obtain ⟨g, hg, hrevoked⟩ := hgrant
  -- its own sessions have ended
  have hne : x.grant ≠ k := by
    intro hk
    simp [hk] at hlive
  rw [if_neg hne] at hlive
  subst hlive
  rw [if_neg hne] at hrevoked
  exact ⟨k', hx, hrevoked ▸ hg⟩

end Operations

section Sessions

variable [DecidableEq S]

/-- A new session. -/
def opened (r : Register K S H) (s : S) (k : K) : Register K S H :=
  { r with sessions := Function.update r.sessions s (some ⟨k, true⟩) }

/-- A session ends. -/
def closed (r : Register K S H) (s : S) : Register K S H where
  grants := r.grants
  sessions s' := (r.sessions s').map fun x => if s' = s then { x with live := false } else x

theorem stray_of_closed {r : Register K S H} {s s' : S} {h : H}
    (hstray : (r.closed s).Stray s' h) : r.Stray s' h := by
  obtain ⟨k, hsession, hgrant⟩ := hstray
  simp only [closed, Option.map_eq_some_iff] at hsession
  obtain ⟨x, hx, hlive⟩ := hsession
  split_ifs at hlive with hs
  · simp at hlive
  · exact ⟨k, hlive ▸ hx, hgrant⟩

end Sessions

variable [DecidableEq K] [DecidableEq S]

/-- A grant is issued to a holder without a live one; sessions are opened on grants that exist, but
may have been revoked. -/
inductive Step : Register K S H → Op K S H → Register K S H → Prop
  | issue {r : Register K S H} {k : K} {h : H} :
      r.grants k = none → ¬ r.HasLive h → Step r (.issue k h) (r.issue k h)
  | revoke (r : Register K S H) (k : K) : Step r (.revoke k) (r.revoke k)
  | opened {r : Register K S H} {s : S} {k : K} :
      r.sessions s = none → (r.grants k).isSome → Step r (.opened s k) (r.opened s k)
  | closed (r : Register K S H) (s : S) : Step r (.closed s) (r.closed s)

/-- What happens at once: nothing, one operation, or a revocation with a successor. -/
inductive Change : Register K S H → Register K S H → Prop
  | idle (r : Register K S H) : Change r r
  | step {r r' : Register K S H} {op : Op K S H} : Step r op r' → Change r r'
  | rotate {r r₁ r' : Register K S H} {k k' : K} {h : H} :
      Step r (.revoke k) r₁ → Step r₁ (.issue k' h) r' → Change r r'

/-! ### Soundness -/

/-- **Clean operations keep a register sound.** -/
theorem Sound.step {r r' : Register K S H} (hr : r.Sound) {op : Op K S H} (h : Step r op r')
    (hclean : r.Clean op) : r'.Sound := by
  cases h with
  | @issue k h hnew hnone =>
    constructor
    · intro k₁ k₂ h' h₁ h₂
      rcases live_of_issue h₁ with ⟨-, hold₁⟩ | ⟨hk₁, hh₁⟩
      · rcases live_of_issue h₂ with ⟨-, hold₂⟩ | ⟨hk₂, hh₂⟩
        · exact hr.unique hold₁ hold₂
        · exact (hnone ⟨k₁, hh₂ ▸ hold₁⟩).elim
      · rcases live_of_issue h₂ with ⟨-, hold₂⟩ | ⟨hk₂, hh₂⟩
        · exact (hnone ⟨k₂, hh₁ ▸ hold₂⟩).elim
        · exact hk₁.trans hk₂.symm
    · rintro s h' hstray ⟨k', hk'⟩
      have hold := stray_of_issue hstray
      rcases live_of_issue hk' with ⟨-, hk'⟩ | ⟨-, rfl⟩
      · exact hr.noStray hold ⟨k', hk'⟩
      · exact hclean s hold
  | revoke k =>
    constructor
    · intro k₁ k₂ h' h₁ h₂
      exact hr.unique (live_of_revoke h₁) (live_of_revoke h₂)
    · rintro s h' hstray ⟨k', hk'⟩
      exact hr.noStray (stray_of_revoke hstray) ⟨k', live_of_revoke hk'⟩
  | @opened s k hnew hgrant =>
    refine ⟨hr.unique, ?_⟩
    rintro s' h' ⟨k', hsession, hrevoked⟩ hlive
    by_cases hs : s' = s
    · subst hs
      simp only [opened, Function.update_self, Option.some.injEq, GrantSession.mk.injEq,
        and_true] at hsession
      subst hsession
      exact hclean h' hrevoked hlive
    · simp only [opened, Function.update_of_ne hs] at hsession
      exact hr.noStray ⟨k', hsession, hrevoked⟩ hlive
  | closed s =>
    exact ⟨hr.unique, fun hstray hlive => hr.noStray (stray_of_closed hstray) hlive⟩

/-- What was issued stays issued. -/
theorem Step.later {r r' : Register K S H} {op : Op K S H} (h : Step r op r') : r.Later r' := by
  cases h with
  | @issue k h hnew hnone =>
    refine ⟨fun k' g hg => ⟨g, ?_, rfl, id⟩, fun s x hx => ⟨x, hx, rfl, id⟩⟩
    have hk : k' ≠ k := by
      rintro rfl
      simp [hnew] at hg
    show Function.update r.grants k _ k' = some g
    rwa [Function.update_of_ne hk]
  | revoke k =>
    constructor
    · intro k' g hg
      refine ⟨if k' = k then { g with live := false } else g, by
        simp only [Register.revoke, hg, Option.map_some], ?_, ?_⟩
      · split_ifs <;> rfl
      · intro hlive
        split_ifs
        · rfl
        · exact hlive
    · intro s x hx
      refine ⟨if x.grant = k then { x with live := false } else x, by
        simp only [Register.revoke, hx, Option.map_some], ?_, ?_⟩
      · split_ifs <;> rfl
      · intro hlive
        split_ifs
        · rfl
        · exact hlive
  | @opened s k hnew hgrant =>
    refine ⟨fun k' g hg => ⟨g, hg, rfl, id⟩, fun s' x hx => ⟨x, ?_, rfl, id⟩⟩
    have hs : s' ≠ s := by
      rintro rfl
      simp [hnew] at hx
    show Function.update r.sessions s _ s' = some x
    rwa [Function.update_of_ne hs]
  | closed s =>
    refine ⟨fun k' g hg => ⟨g, hg, rfl, id⟩, fun s' x hx => ?_⟩
    refine ⟨if s' = s then { x with live := false } else x, by
      simp only [Register.closed, hx, Option.map_some], ?_, ?_⟩
    · split_ifs <;> rfl
    · intro hlive
      split_ifs
      · rfl
      · exact hlive

theorem Change.later {r r' : Register K S H} (h : Change r r') : r.Later r' := by
  cases h with
  | idle => exact .refl r
  | step h => exact h.later
  | rotate h h' => exact h.later.trans h'.later

/-- **Clean changes keep a register sound.** -/
theorem Sound.change {r r' : Register K S H} (hr : r.Sound) (h : Change r r')
    (hclean : CleanChange r r') : r'.Sound := by
  cases h with
  | idle => exact hr
  | step h =>
    refine hr.step h ?_
    cases h with
    | @issue k h hnew hnone => exact hclean.issued hnew (by simp [issue])
    | revoke k => trivial
    | @opened s k hnew hgrant => exact fun h hrevoked => hclean.opened hnew (by simp [opened]) hrevoked
    | closed s => trivial
  | rotate h₁ h₂ =>
    have hr₁ := hr.step h₁ trivial
    cases h₁ with
    | revoke =>
      refine hr₁.step h₂ fun s hstray => ?_
      cases h₂ with
      | issue hnew hnone =>
        -- it was no grant before the revocation either
        have hnew₀ := Option.map_eq_none_iff.mp hnew
        exact hclean.issued hnew₀ (by simp [issue]) s (stray_of_revoke hstray)

omit [DecidableEq K] [DecidableEq S] in
/-- **In a sound register the gate finds the session's own grant**: if the holder of a live
session's grant has a live grant now or later, and it was issued already, it is that one. -/
theorem Sound.admits_own {r r' : Register K S H} (hr : r.Sound) (hlater : r.Later r') {s : S}
    {k k' : K} {g g' : Grant H} (hsession : r.sessions s = some ⟨k, true⟩)
    (hgrant : r.grants k = some g) (hissued : r.grants k' = some g')
    (hlive : r'.grants k' = some ⟨g.holder, true⟩) : k' = k := by
  -- the grant the gate found was live, and its holder's, when the session was found
  obtain ⟨g'', hg'', hholder, hover⟩ := hlater.grants k' g' hissued
  obtain rfl := Option.some.inj (hlive.symm.trans hg'')
  obtain ⟨h, live⟩ := g
  obtain ⟨h', live'⟩ := g'
  obtain rfl : h = h' := hholder
  cases live' with
  | false => exact (Bool.noConfusion (hover rfl))
  | true =>
    cases live with
    | true => exact hr.unique hissued hgrant
    | false => exact (hr.noStray ⟨k, hsession, hgrant⟩ ⟨k', hissued⟩).elim

end Register

end Lib
