import SmirkBackend.Lib.Program

/-!
# Rely and guarantee

What a program has read stays true only as far as the others leave it.  A *rely* is a preorder on
states that the actions of the others stay within; a program guarantees a relation if each of its
actions is one of it, whatever the others did within the rely since its last action.  In a pool
where every guarantee is within the rely, every event is as its program guarantees.

What a program does and what it knows at its end is `Prog.Guarantees`; one part hands over to the
next what it knows (`Prog.Guarantees.bind`), and `Prog.guarantees_of_run` is the rule for a pool.
-/

namespace Lib

variable {S E α β ι : Type}

/-- What the others are relied on to do between two actions. -/
structure Rely (S : Type) where
  /-- They lead from one state to another. -/
  rel : S → S → Prop
  /-- They may do nothing. -/
  refl : ∀ s, rel s s
  /-- They may go on. -/
  trans : ∀ {a b c}, rel a b → rel b c → rel a c

/-- What lasts under a rely. -/
def Rely.Stable (R : Rely S) (P : S → Prop) : Prop := ∀ s s', R.rel s s' → P s → P s'

namespace Prog

/-- Whatever the others do within `R`, every action is one of `G`, and `Q` holds at the end. -/
def Guarantees (R : Rely S) (G : S → S → Prop) (Q : α → S → Prop) : Prog S E α → S → Prop
  | ret a, s => Q a s
  | fail _, _ => True
  | act upd next fault, s => ∀ s', R.rel s s' →
    G s' (upd s') ∧ (next s').Guarantees R G Q (upd s') ∧ fault.Guarantees R G Q s'
  | mem upd next, s => ∀ s', R.rel s s' → G s' (upd s') ∧ (next s').Guarantees R G Q (upd s')

variable {R : Rely S} {G : S → S → Prop} {Q : α → S → Prop}

theorem Guarantees.stable (hQ : ∀ a, R.Stable (Q a)) {p : Prog S E α} {s s' : S}
    (hR : R.rel s s') (h : p.Guarantees R G Q s) : p.Guarantees R G Q s' := by
  cases p with
  | ret a => exact hQ a s s' hR h
  | fail e => trivial
  | act upd next fault => exact fun s'' hR' => h s'' (R.trans hR hR')
  | mem upd next => exact fun s'' hR' => h s'' (R.trans hR hR')

/-- A guarantee may be weakened. -/
theorem Guarantees.imp {G' : S → S → Prop} {Q' : α → S → Prop} (hG : ∀ s s', G s s' → G' s s')
    (hQ : ∀ a s, Q a s → Q' a s) {p : Prog S E α} {s : S} (h : p.Guarantees R G Q s) :
    p.Guarantees R G' Q' s := by
  induction p generalizing s with
  | ret a => exact hQ a s h
  | fail e => trivial
  | act upd next fault ih ihf =>
    exact fun s' hR => ⟨hG _ _ (h s' hR).1, ih s' (h s' hR).2.1, ihf (h s' hR).2.2⟩
  | mem upd next ih => exact fun s' hR => ⟨hG _ _ (h s' hR).1, ih s' (h s' hR).2⟩

/-- One part hands over to the next what it knows. -/
theorem Guarantees.bind {p : Prog S E α} {f : α → Prog S E β} {Q' : β → S → Prop} {s : S}
    (h : p.Guarantees R G (fun a s => (f a).Guarantees R G Q' s) s) :
    (p >>= f).Guarantees R G Q' s := by
  induction p generalizing s with
  | ret a => exact h
  | fail e => trivial
  | act upd next fault ih ihf =>
    exact fun s' hR => ⟨(h s' hR).1, ih s' (h s' hR).2.1, ihf (h s' hR).2.2⟩
  | mem upd next ih => exact fun s' hR => ⟨(h s' hR).1, ih s' (h s' hR).2⟩

theorem guarantees_read {e : E} {f : S → α} {s : S} (hrefl : ∀ s, G s s)
    (h : ∀ s', R.rel s s' → Q (f s') s') : (read e f).Guarantees R G Q s :=
  fun s' hR => ⟨hrefl s', h s' hR, trivial⟩

theorem guarantees_ofExcept {x : Except E α} {s : S} (h : ∀ a, x = .ok a → Q a s) :
    (ofExcept x).Guarantees R G Q s := by
  cases x with
  | ok a => exact h a rfl
  | error e => trivial

theorem guarantees_orFail {e : E} {x : Option α} {s : S} (h : ∀ a, x = some a → Q a s) :
    (orFail e x).Guarantees R G Q s := by
  cases x with
  | some a => exact h a rfl
  | none => trivial

theorem guarantees_query {e : E} {f : S → Except E α × S} {s : S}
    (h : ∀ s', R.rel s s' → G s' (f s').2 ∧ ∀ a, (f s').1 = .ok a → Q a (f s').2) :
    (query e f).Guarantees R G Q s :=
  fun s' hR => ⟨(h s' hR).1, guarantees_ofExcept (h s' hR).2, trivial⟩

/-- What a program does on every state, it guarantees. -/
theorem Steps.guarantees {p : Prog S E α} (h : p.Steps G) (hQ : ∀ a s, Q a s) (s : S) :
    p.Guarantees R G Q s := by
  induction p generalizing s with
  | ret a => exact hQ a s
  | fail e => trivial
  | act upd next fault ih ihf =>
    exact fun s' _ => ⟨h.1 s', ih s' (h.2.1 s') (upd s'), ihf h.2.2 s'⟩
  | mem upd next ih => exact fun s' _ => ⟨h.1 s', ih s' (h.2 s') (upd s')⟩

variable [DecidableEq ι]

/-- **Every event of a run is as its program guarantees**, if all guarantees and the environment
stay within the rely. -/
theorem guarantees_of_run {env : S → S → Prop} {G : ι → S → S → Prop} {Q : ι → α → S → Prop}
    (hQ : ∀ i a, R.Stable (Q i a)) (hrefl : ∀ i s, G i s s)
    (hrely : ∀ i s s', G i s s' → R.rel s s') (henv : ∀ s s', env s s' → R.rel s s')
    {c c' : S × (ι → Prog S E α)} {es : List (Event ι S)} (h : (pool env).Run c es c')
    (hstart : ∀ i, (c.2 i).Guarantees R (G i) (Q i) c.1) :
    ∀ e ∈ es, (e.who = none → env e.pre e.post) ∧ ∀ i, e.who = some i → G i e.pre e.post := by
  induction h with
  | nil c => simp
  | @cons c c₁ c' e es hstep _ ih =>
    obtain ⟨hpre, hpost, hwho⟩ := hstep
    cases hw : e.who with
    | none =>
      simp only [hw] at hwho
      refine List.forall_mem_cons.mpr ⟨⟨fun _ => hwho.1, by simp [hw]⟩, ih fun i => ?_⟩
      rw [hwho.2, hpost]
      exact (hpre ▸ hstart i).stable (hQ i) (henv _ _ hwho.1)
    | some j =>
      simp only [hw] at hwho
      obtain ⟨p, hnext, hprogs⟩ := hwho
      -- the program that acts: its guarantee, and what it guarantees from there
      have hself : G j e.pre e.post ∧ p.Guarantees R (G j) (Q j) e.post := by
        have hj := hpre ▸ hstart j
        generalize hq : c.2 j = q at hj hnext
        generalize hs : e.pre = s at hj hnext
        generalize hs' : e.post = s' at hnext
        cases hnext with
        | act upd next fault s => exact ⟨(hj s (R.refl s)).1, (hj s (R.refl s)).2.1⟩
        | fault upd next fault s => exact ⟨hrefl j s, (hj s (R.refl s)).2.2⟩
        | mem upd next s => exact hj s (R.refl s)
      refine List.forall_mem_cons.mpr ⟨⟨by simp [hw], fun i hi => ?_⟩, ih fun i => ?_⟩
      · obtain rfl : j = i := by simpa [hw] using hi
        exact hself.1
      · rw [hprogs, hpost]
        by_cases hi : i = j
        · subst hi
          rw [Function.update_self]
          exact hself.2
        · rw [Function.update_of_ne hi]
          exact (hpre ▸ hstart i).stable (hQ i) (hrely j _ _ hself.1)

theorem rel_of_run {env : S → S → Prop} {c c' : S × (ι → Prog S E α)}
    {es : List (Event ι S)} (h : (pool env).Run c es c') (hall : ∀ e ∈ es, R.rel e.pre e.post) :
    R.rel c.1 c'.1 := by
  induction h with
  | nil c => exact R.refl c.1
  | @cons c c₁ c' e es hstep _ ih =>
    obtain ⟨hpre, hpost, -⟩ := hstep
    obtain ⟨he, hes⟩ := List.forall_mem_cons.mp hall
    rw [hpre]
    exact R.trans he (hpost ▸ ih hes)

/-- What an event left behind, a later state follows. -/
theorem rel_of_mem {env : S → S → Prop} {c c' : S × (ι → Prog S E α)} {es : List (Event ι S)}
    (h : (pool env).Run c es c') (hall : ∀ e ∈ es, R.rel e.pre e.post) {e : Event ι S}
    (he : e ∈ es) : R.rel e.post c'.1 := by
  obtain ⟨es₁, es₂, rfl⟩ := List.append_of_mem he
  obtain ⟨c₁, c₂, -, -, hpost, hafter⟩ := run_at h
  rw [← hpost]
  exact rel_of_run hafter fun e' he' => hall e' (by simp [he'])

theorem rel_between {env : S → S → Prop} {c c' : S × (ι → Prog S E α)}
    {es es₁ es₂ es₃ es₄ : List (Event ι S)} {e e' : Event ι S} (h : (pool env).Run c es c')
    (hall : ∀ e ∈ es, R.rel e.pre e.post) (hes : es = es₁ ++ e :: es₂)
    (hes' : es = es₃ ++ e' :: es₄) (hlt : es₁.length < es₃.length) : R.rel e.post e'.pre := by
  obtain ⟨c₁, _, hbefore, hpre, -, -⟩ := run_at (hes' ▸ h)
  have hmem : e ∈ es₃ := by
    have hget : es[es₁.length]? = some e := by simp [hes]
    rw [hes', List.getElem?_append_left hlt] at hget
    exact List.mem_of_getElem? hget
  rw [← hpre]
  exact rel_of_mem hbefore (fun e' he' => hall e' (hes' ▸ List.mem_append_left _ he')) hmem

end Prog

end Lib
