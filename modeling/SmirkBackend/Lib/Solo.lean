import SmirkBackend.Lib.Program

/-!
# Programs that act as if alone

A program in a pool runs as if it were alone, when what it depends on is left alone by the others
between its first and its last action.  Faults may come from a script, so that a run can be said to
be without faults from some action on.

A program that is left alone (`Prog.ChainedOn`) has the outcome of a run by itself
(`Prog.outcome_of_path`), and in a run of the pool it is left alone if no other event changes what
it depends on (`Prog.chainedOn_of_run`).  `Prog.stepsUntil_of_run` is about the events of a program
before one of another kind.
-/

namespace Lib

namespace Prog

variable {S E α β ι Γ : Type}

/-! ### Scripted faults -/

/-- The actions whose fault is an error fault as the script says, from the `n`-th on; those whose
fault is ignored may fault in any case. -/
def scripted (fails : Nat → Bool) : Nat → Prog S E α → Prog S E α
  | _, ret a => ret a
  | _, fail e => fail e
  | n, act upd next (fail e) =>
    if fails n then mem (fun s => s) fun _ => fail e
    else mem upd fun s => scripted fails (n + 1) (next s)
  | n, act upd next fault =>
    act upd (fun s => scripted fails (n + 1) (next s)) (scripted fails (n + 1) fault)
  | n, mem upd next => mem upd fun s => scripted fails n (next s)

variable {fails : Nat → Bool}

theorem scripted_act {n : Nat} {upd : S → S} {next : S → Prog S E α} {fault : Prog S E α}
    (h : ∀ e, fault ≠ fail e) : scripted fails n (act upd next fault) =
      act upd (fun s => scripted fails (n + 1) (next s)) (scripted fails (n + 1) fault) := by
  rw [scripted]
  exact fun e he => h e he

/-- The actions of a scripted program are actions of the program. -/
theorem path_of_scripted {p : Prog S E α} {n : Nat} {t : List (S × S)} {r : Except E α}
    (h : (scripted fails n p).Path t r) : p.Path t r := by
  induction p generalizing n t with
  | ret a => exact h
  | fail e => exact h
  | act upd next fault ih ihf =>
    by_cases hfault : ∃ e, fault = fail e
    · obtain ⟨e, rfl⟩ := hfault
      rw [scripted] at h
      split at h
      · cases h with
        | mem h => exact .fault h
      · cases h with
        | mem h => exact .act (ih _ h)
    · rw [scripted_act (by simpa using hfault)] at h
      cases h with
      | act h => exact .act (ih _ h)
      | fault h => exact .fault (ihf h)
  | mem upd next ih =>
    cases h with
    | mem h => exact .mem (ih _ h)

/-- An outcome of a scripted program is one of the program. -/
theorem outcome_of_scripted {p : Prog S E α} {n : Nat} {s s' : S} {r : Except E α}
    (h : (scripted fails n p).Outcome s r s') : p.Outcome s r s' := by
  induction p generalizing n s with
  | ret a => exact h
  | fail e => exact h
  | act upd next fault ih ihf =>
    by_cases hfault : ∃ e, fault = fail e
    · obtain ⟨e, rfl⟩ := hfault
      rw [scripted] at h
      split at h
      · cases h with
        | mem h => exact .fault h
      · cases h with
        | mem h => exact .act (ih _ h)
    · rw [scripted_act (by simpa using hfault)] at h
      cases h with
      | act h => exact .act (ih _ h)
      | fault h => exact .fault (ihf h)
  | mem upd next ih =>
    cases h with
    | mem h => exact .mem (ih _ h)

theorem Steps.scripted {R : S → S → Prop} (hrefl : ∀ s, R s s) {p : Prog S E α} (hp : p.Steps R)
    (n : Nat) : (scripted fails n p).Steps R := by
  induction p generalizing n with
  | ret a => trivial
  | fail e => trivial
  | act upd next fault ih ihf =>
    by_cases hfault : ∃ e, fault = fail e
    · obtain ⟨e, rfl⟩ := hfault
      rw [Prog.scripted]
      split
      · exact ⟨hrefl, fun _ => trivial⟩
      · exact ⟨hp.1, fun s => ih s (hp.2.1 s) _⟩
    · rw [scripted_act (by simpa using hfault)]
      exact ⟨hp.1, fun s => ih s (hp.2.1 s) _, ihf hp.2.2 _⟩
  | mem upd next ih => exact ⟨hp.1, fun s => ih s (hp.2 s) n⟩

/-- A sequence fails in its first part, or goes through it and on with the script. -/
theorem outcome_scripted_bind {p : Prog S E α} {f : α → Prog S E β} {n : Nat} {s s' : S}
    {r : Except E β} (h : (scripted fails n (p >>= f)).Outcome s r s') :
    (∃ e, (scripted fails n p).Outcome s (.error e) s' ∧ r = .error e) ∨
      ∃ a s₁ m, n ≤ m ∧ (scripted fails n p).Outcome s (.ok a) s₁ ∧
        (scripted fails m (f a)).Outcome s₁ r s' := by
  induction p generalizing n s with
  | ret a => exact .inr ⟨a, s, n, Nat.le_refl n, .ret a s, h⟩
  | fail e =>
    cases h
    exact .inl ⟨e, .fail e _, rfl⟩
  | act upd next fault ih ihf =>
    -- the action was taken, or its fault was
    have hact (hfirst : ∀ {r' : Except E α} {s₂ : S},
        (scripted fails (n + 1) (next s)).Outcome (upd s) r' s₂ →
          (scripted fails n (act upd next fault)).Outcome s r' s₂)
        (h : (scripted fails (n + 1) (next s >>= f)).Outcome (upd s) r s') :
        (∃ e, (scripted fails n (act upd next fault)).Outcome s (.error e) s' ∧ r = .error e) ∨
          ∃ a s₁ m, n ≤ m ∧ (scripted fails n (act upd next fault)).Outcome s (.ok a) s₁ ∧
            (scripted fails m (f a)).Outcome s₁ r s' := by
      rcases ih s h with ⟨e, he, hr⟩ | ⟨a, s₁, m, hm, ha, hf⟩
      · exact .inl ⟨e, hfirst he, hr⟩
      · exact .inr ⟨a, s₁, m, by omega, hfirst ha, hf⟩
    have hfault (hsecond : ∀ {r' : Except E α} {s₂ : S},
        (scripted fails (n + 1) fault).Outcome s r' s₂ →
          (scripted fails n (act upd next fault)).Outcome s r' s₂)
        (h : (scripted fails (n + 1) (fault >>= f)).Outcome s r s') :
        (∃ e, (scripted fails n (act upd next fault)).Outcome s (.error e) s' ∧ r = .error e) ∨
          ∃ a s₁ m, n ≤ m ∧ (scripted fails n (act upd next fault)).Outcome s (.ok a) s₁ ∧
            (scripted fails m (f a)).Outcome s₁ r s' := by
      rcases ihf h with ⟨e, he, hr⟩ | ⟨a, s₁, m, hm, ha, hf⟩
      · exact .inl ⟨e, hsecond he, hr⟩
      · exact .inr ⟨a, s₁, m, by omega, hsecond ha, hf⟩
    rw [act_bind] at h
    by_cases herror : ∃ e, fault = fail e
    · obtain ⟨e, rfl⟩ := herror
      rw [fail_bind, scripted] at h
      simp only [scripted] at hact ⊢
      split at h
      · rename_i hfail
        simp only [hfail, if_true] at hact ⊢
        cases h with
        | mem h =>
          cases h
          exact .inl ⟨e, .mem (.fail e s), rfl⟩
      · rename_i hok
        simp only [hok, Bool.false_eq_true, if_false] at hact ⊢
        cases h with
        | mem h => exact hact (fun h => .mem h) h
    · rw [scripted_act (by simpa using herror)] at hact hfault ⊢
      by_cases hlast : ∃ e, (fault >>= f) = fail e
      · obtain ⟨e, he⟩ := hlast
        rw [he, scripted] at h
        split at h
        · refine hfault .fault ?_
          rw [he]
          cases h with
          | mem h => exact h
        · cases h with
          | mem h => exact hact (fun h => .act h) h
      · rw [scripted_act (by simpa using hlast)] at h
        cases h with
        | act h => exact hact (fun h => .act h) h
        | fault h => exact hfault .fault h
  | mem upd next ih =>
    cases h with
    | mem h =>
      rcases ih s h with ⟨e, he, hr⟩ | ⟨a, s₁, m, hm, ha, hf⟩
      · exact .inl ⟨e, .mem he, hr⟩
      · exact .inr ⟨a, s₁, m, hm, .mem ha, hf⟩

/-- A query whose fault is scripted, and what follows it. -/
theorem outcome_scripted_query {e : E} {q : S → Except E α × S} {f : α → Prog S E β} {n : Nat}
    {s s' : S} {r : Except E β} (h : (scripted fails n (query e q >>= f)).Outcome s r s') :
    (fails n = true ∧ r = .error e ∧ s' = s) ∨
      fails n = false ∧ (scripted fails (n + 1) (ofExcept (q s).1 >>= f)).Outcome (q s).2 r s' := by
  change (scripted fails n (act _ _ (fail e))).Outcome s r s' at h
  rw [scripted] at h
  split at h
  · rename_i hfail
    cases h with
    | mem h =>
      cases h
      exact .inl ⟨hfail, rfl, rfl⟩
  · rename_i hok
    cases h with
    | mem h => exact .inr ⟨by simpa using hok, h⟩

theorem outcome_scripted_read {e : E} {q : S → α} {f : α → Prog S E β} {n : Nat} {s s' : S}
    {r : Except E β} (h : (scripted fails n (read e q >>= f)).Outcome s r s') :
    (fails n = true ∧ r = .error e ∧ s' = s) ∨
      fails n = false ∧ (scripted fails (n + 1) (f (q s))).Outcome s r s' :=
  outcome_scripted_query (q := fun s => (.ok (q s), s)) h

theorem outcome_scripted_ofExcept {x : Except E α} {f : α → Prog S E β} {n : Nat} {s s' : S}
    {r : Except E β} (h : (scripted fails n (ofExcept x >>= f)).Outcome s r s') :
    (∃ e, r = .error e ∧ s' = s) ∨
      ∃ a, x = .ok a ∧ (scripted fails n (f a)).Outcome s r s' := by
  cases x with
  | ok a => exact .inr ⟨a, rfl, h⟩
  | error e =>
    cases h
    exact .inl ⟨e, rfl, rfl⟩

theorem outcome_scripted_attempt {q : S → S} {f : Unit → Prog S E β} {n : Nat} {s s' : S}
    {r : Except E β} (hf : ∀ e, f () ≠ fail e)
    (h : (scripted fails n (attempt q >>= f)).Outcome s r s') :
    ∃ s₁, (scripted fails (n + 1) (f ())).Outcome s₁ r s' := by
  change (scripted fails n (act _ _ (f ()))).Outcome s r s' at h
  rw [scripted_act hf] at h
  cases h with
  | act h => exact ⟨_, h⟩
  | fault h => exact ⟨_, h⟩

/-! ### Left alone -/

/-- The program depends on `f` only, and `f` of what it leaves depends on `f` only. -/
def Respects (f : S → Γ) : Prog S E α → Prop
  | ret _ => True
  | fail _ => True
  | act upd next fault =>
    (∀ s s', f s = f s' → f (upd s) = f (upd s') ∧ next s = next s') ∧
      (∀ s, (next s).Respects f) ∧ fault.Respects f
  | mem upd next =>
    (∀ s s', f s = f s' → f (upd s) = f (upd s') ∧ next s = next s') ∧ ∀ s, (next s).Respects f

variable {f : S → Γ}

theorem Respects.bind {p : Prog S E α} {g : α → Prog S E β} (hp : p.Respects f)
    (hg : ∀ a, (g a).Respects f) : (p >>= g).Respects f := by
  induction p with
  | ret a => exact hg a
  | fail e => trivial
  | act upd next fault ih ihf =>
    refine ⟨fun s s' hs => ?_, fun s => ih s (hp.2.1 s), ihf hp.2.2⟩
    obtain ⟨hupd, hnext⟩ := hp.1 s s' hs
    exact ⟨hupd, congrArg (· >>= g) hnext⟩
  | mem upd next ih =>
    refine ⟨fun s s' hs => ?_, fun s => ih s (hp.2 s)⟩
    obtain ⟨hupd, hnext⟩ := hp.1 s s' hs
    exact ⟨hupd, congrArg (· >>= g) hnext⟩

theorem respects_ofExcept (x : Except E α) : (ofExcept x : Prog S E α).Respects f := by
  cases x <;> trivial

theorem respects_query {e : E} {q : S → Except E α × S}
    (h : ∀ s s', f s = f s' → (q s).1 = (q s').1 ∧ f (q s).2 = f (q s').2) :
    (query e q).Respects f :=
  ⟨fun s s' hs => ⟨(h s s' hs).2, congrArg ofExcept (h s s' hs).1⟩,
    fun s => respects_ofExcept (q s).1, trivial⟩

theorem respects_read {e : E} {q : S → α} (h : ∀ s s', f s = f s' → q s = q s') :
    (read e q).Respects f :=
  ⟨fun s s' hs => ⟨hs, congrArg ret (h s s' hs)⟩, fun _ => trivial, trivial⟩

theorem respects_attempt {q : S → S} (h : ∀ s s', f s = f s' → f (q s) = f (q s')) :
    (attempt q : Prog S E Unit).Respects f :=
  ⟨fun s s' hs => ⟨h s s' hs, rfl⟩, fun _ => trivial, trivial⟩

/-- A script changes none of it. -/
theorem Respects.scripted {p : Prog S E α} (hp : p.Respects f) (n : Nat) :
    (scripted fails n p).Respects f := by
  induction p generalizing n with
  | ret a => trivial
  | fail e => trivial
  | act upd next fault ih ihf =>
    have hnext : ∀ s s', f s = f s' → f (upd s) = f (upd s') ∧
        Prog.scripted fails (n + 1) (next s) = Prog.scripted fails (n + 1) (next s') :=
      fun s s' hs => ⟨(hp.1 s s' hs).1, congrArg _ (hp.1 s s' hs).2⟩
    by_cases hfault : ∃ e, fault = fail e
    · obtain ⟨e, rfl⟩ := hfault
      rw [Prog.scripted]
      split
      · exact ⟨fun s s' hs => ⟨hs, rfl⟩, fun _ => trivial⟩
      · exact ⟨hnext, fun s => ih s (hp.2.1 s) _⟩
    · rw [scripted_act (by simpa using hfault)]
      exact ⟨hnext, fun s => ih s (hp.2.1 s) _, ihf hp.2.2 _⟩
  | mem upd next ih =>
    exact ⟨fun s s' hs => ⟨(hp.1 s s' hs).1, congrArg _ (hp.1 s s' hs).2⟩,
      fun s => ih s (hp.2 s) n⟩

/-- `ChainedOn f s t s'` : actions on states that agree on `f`, one after the other, from `s` to
`s'`. -/
inductive ChainedOn (f : S → Γ) : S → List (S × S) → S → Prop
  | nil {s s' : S} (h : f s = f s') : ChainedOn f s [] s'
  | cons {s s₁ s₂ s' : S} {t : List (S × S)} (h : f s = f s₁) (hrest : ChainedOn f s₂ t s') :
      ChainedOn f s ((s₁, s₂) :: t) s'

/-- Only `f` of the first state matters. -/
theorem ChainedOn.of_eq {s s₀ s' : S} {t : List (S × S)} (h : ChainedOn f s t s')
    (h₀ : f s₀ = f s) : ChainedOn f s₀ t s' := by
  cases h with
  | nil h => exact .nil (h₀.trans h)
  | cons h hrest => exact .cons (h₀.trans h) hrest

theorem ChainedOn.split {s s' : S} {t₁ t₂ : List (S × S)} (h : ChainedOn f s (t₁ ++ t₂) s') :
    ∃ s₁, ChainedOn f s t₁ s₁ ∧ ChainedOn f s₁ t₂ s' := by
  induction t₁ generalizing s with
  | nil => exact ⟨s, .nil rfl, h⟩
  | cons x t₁ ih =>
    cases h with
    | cons heq hrest =>
      obtain ⟨s₁, h₁, h₂⟩ := ih hrest
      exact ⟨s₁, .cons heq h₁, h₂⟩

/-- **As if alone.** What a program does to states that agree on what it depends on, it can do in a
run by itself. -/
theorem outcome_of_path {p : Prog S E α} (hp : p.Respects f) {s s' : S} {t : List (S × S)}
    {r : Except E α} (h : p.Path t r) (hchain : ChainedOn f s t s') :
    ∃ s'', p.Outcome s r s'' ∧ f s'' = f s' := by
  induction h generalizing s with
  | ret a =>
    cases hchain with
    | nil h => exact ⟨s, .ret a s, h⟩
  | fail e =>
    cases hchain with
    | nil h => exact ⟨s, .fail e s, h⟩
  | @act upd next fault s₁ t r _ ih =>
    cases hchain with
    | cons heq hrest =>
      obtain ⟨hupd, hnext⟩ := hp.1 s s₁ heq
      obtain ⟨s'', hout, hs''⟩ := ih (hp.2.1 s₁) (hrest.of_eq hupd)
      exact ⟨s'', .act (hnext ▸ hout), hs''⟩
  | @fault upd next fault s₁ t r _ ih =>
    cases hchain with
    | cons heq hrest =>
      obtain ⟨s'', hout, hs''⟩ := ih hp.2.2 (hrest.of_eq heq)
      exact ⟨s'', .fault hout, hs''⟩
  | @mem upd next s₁ t r _ ih =>
    cases hchain with
    | cons heq hrest =>
      obtain ⟨hupd, hnext⟩ := hp.1 s s₁ heq
      obtain ⟨s'', hout, hs''⟩ := ih (hp.2 s₁) (hrest.of_eq hupd)
      exact ⟨s'', .mem (hnext ▸ hout), hs''⟩

/-! ### The first action of a kind -/

/-- Every action is one of `R`, up to the first one of `B`. -/
def StepsUntil (B R : S → S → Prop) : Prog S E α → Prop
  | ret _ => True
  | fail _ => True
  | act upd next fault =>
    (∀ s, B s (upd s) ∨ R s (upd s) ∧ (next s).StepsUntil B R) ∧ fault.StepsUntil B R
  | mem upd next => ∀ s, B s (upd s) ∨ R s (upd s) ∧ (next s).StepsUntil B R

variable {B R : S → S → Prop}

theorem Steps.until {p : Prog S E α} (h : p.Steps R) : p.StepsUntil B R := by
  induction p with
  | ret a => trivial
  | fail e => trivial
  | act upd next fault ih ihf => exact ⟨fun s => .inr ⟨h.1 s, ih s (h.2.1 s)⟩, ihf h.2.2⟩
  | mem upd next ih => exact fun s => .inr ⟨h.1 s, ih s (h.2 s)⟩

theorem StepsUntil.bind {p : Prog S E α} {g : α → Prog S E β} (hp : p.StepsUntil B R)
    (hg : ∀ a, (g a).StepsUntil B R) : (p >>= g).StepsUntil B R := by
  induction p with
  | ret a => exact hg a
  | fail e => trivial
  | act upd next fault ih ihf =>
    exact ⟨fun s => (hp.1 s).imp_right fun h => ⟨h.1, ih s h.2⟩, ihf hp.2⟩
  | mem upd next ih => exact fun s => (hp s).imp_right fun h => ⟨h.1, ih s h.2⟩

theorem stepsUntil_query_bind {e : E} {q : S → Except E α × S} {g : α → Prog S E β}
    (h : ∀ s, B s (q s).2 ∨ R s (q s).2 ∧ ∃ e', (q s).1 = .error e') :
    (query e q >>= g).StepsUntil B R := by
  refine ⟨fun s => (h s).imp_right fun hR => ⟨hR.1, ?_⟩, trivial⟩
  obtain ⟨e', he'⟩ := hR.2
  change (ofExcept (q s).1 >>= g).StepsUntil B R
  rw [he']
  trivial

theorem StepsUntil.scripted (hrefl : ∀ s, R s s) {p : Prog S E α} (hp : p.StepsUntil B R)
    (n : Nat) : (scripted fails n p).StepsUntil B R := by
  induction p generalizing n with
  | ret a => trivial
  | fail e => trivial
  | act upd next fault ih ihf =>
    by_cases hfault : ∃ e, fault = fail e
    · obtain ⟨e, rfl⟩ := hfault
      rw [Prog.scripted]
      split
      · exact fun s => .inr ⟨hrefl s, trivial⟩
      · exact fun s => (hp.1 s).imp_right fun h => ⟨h.1, ih s h.2 _⟩
    · rw [scripted_act (by simpa using hfault)]
      exact ⟨fun s => (hp.1 s).imp_right fun h => ⟨h.1, ih s h.2 _⟩, ihf hp.2 _⟩
  | mem upd next ih => exact fun s => (hp s).imp_right fun h => ⟨h.1, ih s h.2 n⟩

theorem Next.stepsUntil (hrefl : ∀ s, R s s) {p q : Prog S E α} {s s' : S} (h : p.Next s s' q)
    (hp : p.StepsUntil B R) (hnot : ¬ B s s') : R s s' ∧ q.StepsUntil B R := by
  cases h with
  | act => exact (hp.1 s).resolve_left hnot
  | fault => exact ⟨hrefl s, hp.2⟩
  | mem => exact (hp s).resolve_left hnot

variable [DecidableEq ι]

/-- In a run of the pool, a program that takes no action of `B` takes actions of `R` only. -/
theorem stepsUntil_of_run {env : S → S → Prop} (hrefl : ∀ s, R s s)
    {c c' : S × (ι → Prog S E α)} {es : List (Event ι S)} (h : (pool env).Run c es c') {i : ι}
    (hi : (c.2 i).StepsUntil B R) (hnot : ∀ e ∈ es, e.who = some i → ¬ B e.pre e.post) :
    ∀ e ∈ es, e.who = some i → R e.pre e.post := by
  induction h with
  | nil c => simp
  | @cons c c₁ c' e es hstep _ ih =>
    obtain ⟨hnote, hnot⟩ := List.forall_mem_cons.mp hnot
    obtain ⟨-, -, hwho⟩ := hstep
    cases hw : e.who with
    | none =>
      simp only [hw] at hwho
      refine List.forall_mem_cons.mpr ⟨by simp [hw], ih ?_ hnot⟩
      rw [hwho.2]
      exact hi
    | some j =>
      simp only [hw] at hwho
      obtain ⟨p, hnext, hprogs⟩ := hwho
      by_cases hj : i = j
      · subst hj
        have hp := hnext.stepsUntil hrefl hi (hnote hw)
        refine List.forall_mem_cons.mpr ⟨fun _ => hp.1, ih ?_ hnot⟩
        rw [hprogs, Function.update_self]
        exact hp.2
      · refine List.forall_mem_cons.mpr ⟨fun hi => ?_, ih ?_ hnot⟩
        · exact (hj (Option.some.inj (hi.symm.trans hw))).elim
        · rw [hprogs, Function.update_of_ne hj]
          exact hi

/-- In a run of the pool, a program is left alone if no other event changes `f`. -/
theorem chainedOn_of_run {env : S → S → Prop} {c c' : S × (ι → Prog S E α)}
    {es : List (Event ι S)} (h : (pool env).Run c es c') {i : ι}
    (hothers : ∀ e ∈ es, e.who ≠ some i → f e.post = f e.pre) :
    ChainedOn f c.1 (eventsOf i es) c'.1 := by
  induction h with
  | nil c => exact .nil rfl
  | @cons c c₁ c' e es hstep _ ih =>
    obtain ⟨hother, hothers⟩ := List.forall_mem_cons.mp hothers
    obtain ⟨hpre, hpost, -⟩ := hstep
    by_cases hwho : e.who = some i
    · rw [eventsOf_cons_self hwho]
      exact .cons (congrArg f hpre) (hpost ▸ ih hothers)
    · have hnone : eventsOf i (e :: es) = eventsOf i es := by simp [eventsOf, hwho]
      rw [hnone]
      exact (ih hothers).of_eq (by rw [hpost, hother hwho, hpre])

end Prog

end Lib
