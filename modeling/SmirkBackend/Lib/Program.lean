import Mathlib.Algebra.GroupWithZero.Nat
import Mathlib.Logic.Function.Basic
import SmirkBackend.Lib.Run

/-!
# Programs over a shared state

A program is a sequence of atomic actions on a shared state: each action reads the state it finds
and replaces it, and the rest of the program depends on what was read.  An action may instead
fault, which leaves the state alone, unless it is one in memory.  A program run by itself is a
sequence of actions on consecutive states; in a pool, other programs and the environment act in
between.

A fault leaves the state as it was: a statement that takes effect while its answer is lost is not
among the actions.

* `Prog.Outcome`, `Prog.exec` : a program run by itself, with any faults, or with given ones.
* `Prog.Keeps` : a program maintains an invariant, whatever others do within it; an outcome and a
  run of the pool then do too (`Prog.Keeps.outcome`, `Prog.keeps_of_run`).
* `Prog.Steps`, `Prog.AtMost` : a program whose actions are all of one kind, or a few of them; so
  are its events in a run (`Prog.event_of_run`, `Prog.countP_of_run`).
* `Prog.Path` : the actions of a program among those of others, and the events of a program in a run
  of the pool form one (`Prog.path_of_run`).
* `Prog.appeared_of_run` : what holds at the end of a run was brought about by some event.
* `Prog.zoom`, `Prog.Extends` : a program on a part of the state, and one that does more than
  another beside that part.
-/

namespace Lib

/-- A program over the state `S`. -/
inductive Prog (S E α : Type) : Type
  /-- Return a result. -/
  | ret (a : α)
  /-- Return an error. -/
  | fail (e : E)
  /-- Replace the state, or fault. -/
  | act (upd : S → S) (next : S → Prog S E α) (fault : Prog S E α)
  /-- Replace the state; this cannot fault. -/
  | mem (upd : S → S) (next : S → Prog S E α)

namespace Prog

variable {S E α β ι : Type}

/-- One program after another. -/
def bind : Prog S E α → (α → Prog S E β) → Prog S E β
  | ret a, f => f a
  | fail e, _ => fail e
  | act upd next fault, f => act upd (fun s => (next s).bind f) (fault.bind f)
  | mem upd next, f => mem upd fun s => (next s).bind f

instance : Monad (Prog S E) where
  pure := ret
  bind := bind

@[simp] theorem pure_eq (a : α) : (Pure.pure a : Prog S E α) = ret a := rfl

@[simp] theorem ret_bind (a : α) (f : α → Prog S E β) : (ret a >>= f) = f a := rfl

@[simp] theorem fail_bind (e : E) (f : α → Prog S E β) : (fail e >>= f) = fail e := rfl

@[simp] theorem act_bind (upd : S → S) (next : S → Prog S E α) (fault : Prog S E α)
    (f : α → Prog S E β) :
    (act upd next fault >>= f) = act upd (fun s => next s >>= f) (fault >>= f) := rfl

@[simp] theorem mem_bind (upd : S → S) (next : S → Prog S E α) (f : α → Prog S E β) :
    (mem upd next >>= f) = mem upd fun s => next s >>= f := rfl

/-- Sequences may be bracketed either way. -/
theorem bind_bind {γ : Type} (p : Prog S E α) (f : α → Prog S E β) (g : β → Prog S E γ) :
    ((p >>= f) >>= g) = p >>= fun a => f a >>= g := by
  induction p with
  | ret a => rfl
  | fail e => rfl
  | act upd next fault ih ihf =>
    simp only [act_bind]
    congr 1
    funext s
    exact ih s
  | mem upd next ih =>
    simp only [mem_bind]
    congr 1
    funext s
    exact ih s

/-- Return what was computed. -/
def ofExcept : Except E α → Prog S E α
  | .ok a => ret a
  | .error e => fail e

@[simp] theorem ofExcept_ok (a : α) : (ofExcept (.ok a) : Prog S E α) = ret a := rfl

@[simp] theorem ofExcept_error (e : E) : (ofExcept (.error e) : Prog S E α) = fail e := rfl

/-- A value that must be there. -/
def orFail (e : E) : Option α → Prog S E α
  | some a => ret a
  | none => fail e

/-- An action that computes a result and a new state; a fault is the error `e`. -/
def query (e : E) (f : S → Except E α × S) : Prog S E α :=
  act (fun s => (f s).2) (fun s => ofExcept (f s).1) (fail e)

/-- An action that only reads. -/
def read (e : E) (f : S → α) : Prog S E α := act (fun s => s) (fun s => ret (f s)) (fail e)

/-- An action whose failure is ignored. -/
def attempt (f : S → S) : Prog S E Unit := act f (fun _ => ret ()) (ret ())

/-- Hold an error back. -/
def held : Prog S E α → Prog S E (Except E α)
  | ret a => ret (.ok a)
  | fail e => ret (.error e)
  | act upd next fault => act upd (fun s => (next s).held) fault.held
  | mem upd next => mem upd fun s => (next s).held

/-- An action in memory that computes a result and a new state. -/
def locked (f : S → Except E α × S) : Prog S E α :=
  mem (fun s => (f s).2) fun s => ofExcept (f s).1

/-- An action in memory that only reads. -/
def peek (f : S → α) : Prog S E α := mem (fun s => s) fun s => ret (f s)

/-- An action in memory. -/
def poke (f : S → S) : Prog S E Unit := mem f fun _ => ret ()

/-! ### A program by itself -/

/-- `p.Outcome s r s'` : run by itself from `s`, the program can end in `s'` with `r`. -/
inductive Outcome : Prog S E α → S → Except E α → S → Prop
  | ret (a : α) (s : S) : Outcome (ret a) s (.ok a) s
  | fail (e : E) (s : S) : Outcome (fail e) s (.error e) s
  | act {upd : S → S} {next : S → Prog S E α} {fault : Prog S E α} {s s' : S} {r : Except E α} :
      Outcome (next s) (upd s) r s' → Outcome (act upd next fault) s r s'
  | fault {upd : S → S} {next : S → Prog S E α} {fault : Prog S E α} {s s' : S} {r : Except E α} :
      Outcome fault s r s' → Outcome (act upd next fault) s r s'
  | mem {upd : S → S} {next : S → Prog S E α} {s s' : S} {r : Except E α} :
      Outcome (next s) (upd s) r s' → Outcome (mem upd next) s r s'

/-- A sequence fails in its first part, or goes through it. -/
theorem outcome_bind {p : Prog S E α} {f : α → Prog S E β} {s s' : S} {r : Except E β}
    (h : (p >>= f).Outcome s r s') :
    (∃ e, p.Outcome s (.error e) s' ∧ r = .error e) ∨
      ∃ a s₁, p.Outcome s (.ok a) s₁ ∧ (f a).Outcome s₁ r s' := by
  induction p generalizing s with
  | ret a => exact .inr ⟨a, s, .ret a s, h⟩
  | fail e =>
    cases h
    exact .inl ⟨e, .fail e _, rfl⟩
  | act upd next fault ih ihf =>
    cases h with
    | act h =>
      rcases ih s h with ⟨e, he, hr⟩ | ⟨a, s₁, ha, hf⟩
      · exact .inl ⟨e, .act he, hr⟩
      · exact .inr ⟨a, s₁, .act ha, hf⟩
    | fault h =>
      rcases ihf h with ⟨e, he, hr⟩ | ⟨a, s₁, ha, hf⟩
      · exact .inl ⟨e, .fault he, hr⟩
      · exact .inr ⟨a, s₁, .fault ha, hf⟩
  | mem upd next ih =>
    cases h with
    | mem h =>
      rcases ih s h with ⟨e, he, hr⟩ | ⟨a, s₁, ha, hf⟩
      · exact .inl ⟨e, .mem he, hr⟩
      · exact .inr ⟨a, s₁, .mem ha, hf⟩

/-- A sequence whose first part succeeds. -/
theorem Outcome.bind {p : Prog S E α} {f : α → Prog S E β} {s s₁ s' : S} {a : α} {r : Except E β}
    (h : p.Outcome s (.ok a) s₁) (hf : (f a).Outcome s₁ r s') : (p >>= f).Outcome s r s' := by
  generalize hres : (Except.ok a : Except E α) = res at h
  induction h with
  | ret b s =>
    obtain rfl := Except.ok.inj hres
    exact hf
  | fail e s => cases hres
  | act _ ih => exact .act (ih hf hres)
  | fault _ ih => exact .fault (ih hf hres)
  | mem _ ih => exact .mem (ih hf hres)

theorem outcome_ofExcept {x : Except E α} {s s' : S} {r : Except E α}
    (h : (ofExcept x).Outcome s r s') : r = x ∧ s' = s := by
  cases x <;> cases h <;> exact ⟨rfl, rfl⟩

theorem outcome_read {e : E} {f : S → α} {s s' : S} {r : Except E α}
    (h : (read e f).Outcome s r s') : (r = .ok (f s) ∨ r = .error e) ∧ s' = s := by
  cases h with
  | act h =>
    cases h
    exact ⟨.inl rfl, rfl⟩
  | fault h =>
    cases h
    exact ⟨.inr rfl, rfl⟩

theorem outcome_query {e : E} {f : S → Except E α × S} {s s' : S} {r : Except E α}
    (h : (query e f).Outcome s r s') :
    (r = (f s).1 ∧ s' = (f s).2) ∨ (r = .error e ∧ s' = s) := by
  cases h with
  | act h => exact .inl (outcome_ofExcept h)
  | fault h =>
    cases h
    exact .inr ⟨rfl, rfl⟩

/-- A read that succeeded, and what follows it. -/
theorem outcome_read_bind {e : E} {f : S → α} {g : α → Prog S E β} {s s' : S} {r : Except E β}
    (h : (read e f >>= g).Outcome s r s') :
    (r = .error e ∧ s' = s) ∨ (g (f s)).Outcome s r s' := by
  cases h with
  | act h => exact .inr h
  | fault h =>
    cases h
    exact .inl ⟨rfl, rfl⟩

/-- A check that succeeded, and what follows it. -/
theorem outcome_ofExcept_bind {x : Except E α} {g : α → Prog S E β} {s s' : S} {r : Except E β}
    (h : (ofExcept x >>= g).Outcome s r s') :
    (∃ e, r = .error e ∧ s' = s) ∨ ∃ a, x = .ok a ∧ (g a).Outcome s r s' := by
  cases x with
  | ok a => exact .inr ⟨a, rfl, h⟩
  | error e =>
    cases h
    exact .inl ⟨e, rfl, rfl⟩

/-- A read in memory, and what follows it. -/
theorem outcome_peek_bind {f : S → α} {g : α → Prog S E β} {s s' : S} {r : Except E β} :
    (peek f >>= g).Outcome s r s' ↔ (g (f s)).Outcome s r s' := by
  constructor
  · intro h
    cases h with
    | mem h => exact h
  · exact fun h => .mem h

theorem outcome_poke_bind {f : S → S} {g : Unit → Prog S E β} {s s' : S} {r : Except E β} :
    (poke f >>= g).Outcome s r s' ↔ (g ()).Outcome (f s) r s' := by
  constructor
  · intro h
    cases h with
    | mem h => exact h
  · exact fun h => .mem h

/-- The outcome without faults. -/
def run : Prog S E α → S → Except E α × S
  | ret a, s => (.ok a, s)
  | fail e, s => (.error e, s)
  | act upd next _, s => (next s).run (upd s)
  | mem upd next, s => (next s).run (upd s)

theorem outcome_run (p : Prog S E α) (s : S) : p.Outcome s (p.run s).1 (p.run s).2 := by
  induction p generalizing s with
  | ret a => exact .ret a s
  | fail e => exact .fail e s
  | act upd next fault ih _ => exact .act (ih s (upd s))
  | mem upd next ih => exact .mem (ih s (upd s))

/-- A sequence ends with its first part, or goes on with the second. -/
theorem run_bind (p : Prog S E α) (f : α → Prog S E β) (s : S) :
    (p >>= f).run s =
      match p.run s with
      | (.ok a, s') => (f a).run s'
      | (.error e, s') => (.error e, s') := by
  induction p generalizing s with
  | ret a => rfl
  | fail e => rfl
  | act upd next fault ih _ => exact ih s (upd s)
  | mem upd next ih => exact ih s (upd s)

theorem run_held (p : Prog S E α) (s : S) : p.held.run s = (.ok (p.run s).1, (p.run s).2) := by
  induction p generalizing s with
  | ret a => rfl
  | fail e => rfl
  | act upd next fault ih _ => exact ih s (upd s)
  | mem upd next ih => exact ih s (upd s)

theorem run_query (e : E) (f : S → Except E α × S) (s : S) : (query e f).run s = f s := by
  rw [query, run]
  generalize f s = res
  obtain ⟨r, s'⟩ := res
  cases r <;> rfl

@[simp] theorem run_ret (a : α) (s : S) : (ret a : Prog S E α).run s = (.ok a, s) := rfl

@[simp] theorem run_read (e : E) (f : S → α) (s : S) : (read e f).run s = (.ok (f s), s) := rfl

/-- The outcome when the `n`-th action that can fault, and every later one, faults as `fails` says,
with the number of the next action. -/
def exec (fails : Nat → Bool) : Prog S E α → Nat → S → (Except E α × S) × Nat
  | ret a, n, s => ((.ok a, s), n)
  | fail e, n, s => ((.error e, s), n)
  | act upd next fault, n, s =>
    if fails n then fault.exec fails (n + 1) s else (next s).exec fails (n + 1) (upd s)
  | mem upd next, n, s => (next s).exec fails n (upd s)

theorem outcome_exec (fails : Nat → Bool) (p : Prog S E α) (n : Nat) (s : S) :
    p.Outcome s (p.exec fails n s).1.1 (p.exec fails n s).1.2 := by
  induction p generalizing n s with
  | ret a => exact .ret a s
  | fail e => exact .fail e s
  | act upd next fault ih ihf =>
    rw [exec]
    split
    · exact .fault (ihf (n + 1) s)
    · exact .act (ih s (n + 1) (upd s))
  | mem upd next ih => exact .mem (ih s n (upd s))

theorem exec_query (fails : Nat → Bool) (e : E) (f : S → Except E α × S) (n : Nat) (s : S) :
    (query e f).exec fails n s = (if fails n then (.error e, s) else f s, n + 1) := by
  rw [query, exec]
  split
  · rfl
  · generalize f s = res
    obtain ⟨r, s'⟩ := res
    cases r <;> rfl

/-- A sequence ends with its first part, or goes on with the second. -/
theorem exec_bind (fails : Nat → Bool) (p : Prog S E α) (f : α → Prog S E β) (n : Nat) (s : S) :
    (p >>= f).exec fails n s =
      match p.exec fails n s with
      | ((.ok a, s'), m) => (f a).exec fails m s'
      | ((.error e, s'), m) => ((.error e, s'), m) := by
  induction p generalizing n s with
  | ret a => rfl
  | fail e => rfl
  | act upd next fault ih ihf =>
    simp only [act_bind, exec]
    by_cases hfail : fails n = true
    · simp only [if_pos hfail]
      exact ihf (n + 1) s
    · simp only [if_neg hfail]
      exact ih s (n + 1) (upd s)
  | mem upd next ih => exact ih s n (upd s)

/-! ### A part of the state -/

/-- A part `S` of a state `T`. -/
structure Part (T S : Type) where
  /-- The part of a state. -/
  get : T → S
  /-- The state with this part. -/
  set : S → T → T
  /-- The part that was set is there. -/
  get_set : ∀ s t, get (set s t) = s
  /-- The part that was set last counts. -/
  set_set : ∀ s s' t, set s (set s' t) = set s t
  /-- Setting the part that is there changes nothing. -/
  set_get : ∀ t, set (get t) t = t

/-- A program on a part of the state. -/
def zoom {T : Type} (l : Part T S) : Prog S E α → Prog T E α
  | ret a => ret a
  | fail e => fail e
  | act upd next fault =>
    act (fun t => l.set (upd (l.get t)) t) (fun t => (next (l.get t)).zoom l) (fault.zoom l)
  | mem upd next => mem (fun t => l.set (upd (l.get t)) t) fun t => (next (l.get t)).zoom l

/-- The parts of a sequence act on the same part of the state. -/
theorem zoom_bind {T : Type} (l : Part T S) (p : Prog S E α) (f : α → Prog S E β) :
    (p >>= f).zoom l = p.zoom l >>= fun a => (f a).zoom l := by
  induction p with
  | ret a => rfl
  | fail e => rfl
  | act upd next fault ih ihf =>
    simp only [act_bind, zoom, ihf]
    congr 1
    funext t
    exact ih (l.get t)
  | mem upd next ih =>
    simp only [mem_bind, zoom]
    congr 1
    funext t
    exact ih (l.get t)

/-- A program on a part of the state leaves the rest alone. -/
theorem outcome_zoom {T : Type} {l : Part T S} {p : Prog S E α} {t t' : T} {r : Except E α}
    (h : (p.zoom l).Outcome t r t') : p.Outcome (l.get t) r (l.get t') ∧ t' = l.set (l.get t') t := by
  induction p generalizing t with
  | ret a =>
    cases h
    exact ⟨.ret a _, (l.set_get _).symm⟩
  | fail e =>
    cases h
    exact ⟨.fail e _, (l.set_get _).symm⟩
  | act upd next fault ih ihf =>
    cases h with
    | act h =>
      obtain ⟨hout, hrest⟩ := ih _ h
      rw [l.get_set] at hout
      rw [l.set_set] at hrest
      exact ⟨.act hout, hrest⟩
    | fault h =>
      obtain ⟨hout, hrest⟩ := ihf h
      exact ⟨.fault hout, hrest⟩
  | mem upd next ih =>
    cases h with
    | mem h =>
      obtain ⟨hout, hrest⟩ := ih _ h
      rw [l.get_set] at hout
      rw [l.set_set] at hrest
      exact ⟨.mem hout, hrest⟩

/-- What a program can do, it can do on a part of the state. -/
theorem Outcome.zoom {T : Type} (l : Part T S) {p : Prog S E α} {s s' : S} {r : Except E α}
    (h : p.Outcome s r s') {t : T} (ht : l.get t = s) : (p.zoom l).Outcome t r (l.set s' t) := by
  induction h generalizing t with
  | ret a s =>
    rw [← ht, l.set_get]
    exact .ret a t
  | fail e s =>
    rw [← ht, l.set_get]
    exact .fail e t
  | @act upd next fault s s' r _ ih =>
    have h := ih (l.get_set (upd s) t)
    rw [l.set_set] at h
    subst ht
    exact .act h
  | @fault upd next fault s s' r _ ih => exact .fault (ih ht)
  | @mem upd next s s' r _ ih =>
    have h := ih (l.get_set (upd s) t)
    rw [l.set_set] at h
    subst ht
    exact .mem h

/-- The given faults on a part of the state. -/
theorem exec_zoom {T : Type} (l : Part T S) (fails : Nat → Bool) (p : Prog S E α) (n : Nat)
    (t : T) : (p.zoom l).exec fails n t =
      (((p.exec fails n (l.get t)).1.1, l.set (p.exec fails n (l.get t)).1.2 t),
        (p.exec fails n (l.get t)).2) := by
  induction p generalizing n t with
  | ret a => simp only [zoom, exec, l.set_get]
  | fail e => simp only [zoom, exec, l.set_get]
  | act upd next fault ih ihf =>
    simp only [zoom, exec]
    by_cases hfail : fails n = true
    · simp only [if_pos hfail]
      exact ihf (n + 1) t
    · simp only [if_neg hfail]
      rw [ih (l.get t), l.get_set, l.set_set]
  | mem upd next ih =>
    simp only [zoom, exec]
    rw [ih (l.get t), l.get_set, l.set_set]

/-- `Extends l q p` : on the part `l` of the state, `q` does what `p` does; it may also write the
rest, which it does not read. -/
inductive Extends {T : Type} (l : Part T S) : Prog T E α → Prog S E α → Prop
  | ret (a : α) : Extends l (ret a) (ret a)
  | fail (e : E) : Extends l (fail e) (fail e)
  | act {upd' : T → T} {next' : T → Prog T E α} {fault' : Prog T E α} {upd : S → S}
      {next : S → Prog S E α} {fault : Prog S E α} (hupd : ∀ t, l.get (upd' t) = upd (l.get t))
      (hnext : ∀ t, Extends l (next' t) (next (l.get t))) (hfault : Extends l fault' fault) :
      Extends l (act upd' next' fault') (act upd next fault)
  | mem {upd' : T → T} {next' : T → Prog T E α} {upd : S → S} {next : S → Prog S E α}
      (hupd : ∀ t, l.get (upd' t) = upd (l.get t))
      (hnext : ∀ t, Extends l (next' t) (next (l.get t))) :
      Extends l (mem upd' next') (mem upd next)

section Extends

variable {T : Type} {l : Part T S}

theorem extends_zoom (p : Prog S E α) : Extends l (p.zoom l) p := by
  induction p with
  | ret a => exact .ret a
  | fail e => exact .fail e
  | act upd next fault ih ihf => exact .act (fun t => l.get_set _ t) (fun t => ih (l.get t)) ihf
  | mem upd next ih => exact .mem (fun t => l.get_set _ t) fun t => ih (l.get t)

theorem extends_ofExcept (x : Except E α) : Extends l (ofExcept x) (ofExcept x) := by
  cases x with
  | ok a => exact .ret a
  | error e => exact .fail e

theorem Extends.bind {q : Prog T E α} {p : Prog S E α} {g : α → Prog T E β} {f : α → Prog S E β}
    (h : Extends l q p) (hf : ∀ a, Extends l (g a) (f a)) : Extends l (q >>= g) (p >>= f) := by
  induction h with
  | ret a => exact hf a
  | fail e => exact .fail e
  | act hupd _ _ ih ihf => exact .act hupd ih ihf
  | mem hupd _ ih => exact .mem hupd ih

theorem extends_query {e : E} {g : T → Except E α × T} {f : S → Except E α × S}
    (h : ∀ t, ((g t).1, l.get (g t).2) = f (l.get t)) : Extends l (query e g) (query e f) := by
  refine .act (fun t => congrArg Prod.snd (h t)) (fun t => ?_) (.fail e)
  rw [← h t]
  exact extends_ofExcept _

/-- Under the same faults, the two end alike. -/
theorem Extends.exec {q : Prog T E α} {p : Prog S E α} (h : Extends l q p) (fails : Nat → Bool)
    (n : Nat) (t : T) : p.exec fails n (l.get t) =
      (((q.exec fails n t).1.1, l.get (q.exec fails n t).1.2), (q.exec fails n t).2) := by
  induction h generalizing n t with
  | ret a => rfl
  | fail e => rfl
  | act hupd _ _ ih ihf =>
    simp only [Prog.exec]
    by_cases hfail : fails n = true
    · simp only [if_pos hfail]
      exact ihf (n + 1) t
    · simp only [if_neg hfail]
      rw [← hupd]
      exact ih t (n + 1) _
  | mem hupd _ ih =>
    simp only [Prog.exec]
    rw [← hupd]
    exact ih t n _

end Extends

/-! ### Maintained invariants -/

/-- Every action the program can take keeps `I`, and its results satisfy `Q`. Between two actions
the state may change, within `I`. -/
def Keeps (I : S → Prop) (Q : α → Prop) : Prog S E α → Prop
  | ret a => Q a
  | fail _ => True
  | act upd next fault => (∀ s, I s → I (upd s) ∧ (next s).Keeps I Q) ∧ fault.Keeps I Q
  | mem upd next => ∀ s, I s → I (upd s) ∧ (next s).Keeps I Q

variable {I : S → Prop} {Q : α → Prop}

@[simp] theorem keeps_ret {a : α} : (ret a : Prog S E α).Keeps I Q ↔ Q a := Iff.rfl

@[simp] theorem keeps_fail {e : E} : (fail e : Prog S E α).Keeps I Q := trivial

theorem Keeps.bind {p : Prog S E α} {f : α → Prog S E β} {Q' : β → Prop} (hp : p.Keeps I Q)
    (hf : ∀ a, Q a → (f a).Keeps I Q') : (p >>= f).Keeps I Q' := by
  induction p with
  | ret a => exact hf a hp
  | fail e => trivial
  | act upd next fault ih ihf => exact ⟨fun s hs => ⟨(hp.1 s hs).1, ih s (hp.1 s hs).2⟩, ihf hp.2⟩
  | mem upd next ih => exact fun s hs => ⟨(hp s hs).1, ih s (hp s hs).2⟩

theorem Keeps.mono {p : Prog S E α} {Q' : α → Prop} (hp : p.Keeps I Q) (h : ∀ a, Q a → Q' a) :
    p.Keeps I Q' := by
  induction p with
  | ret a => exact h a hp
  | fail e => trivial
  | act upd next fault ih ihf => exact ⟨fun s hs => ⟨(hp.1 s hs).1, ih s (hp.1 s hs).2⟩, ihf hp.2⟩
  | mem upd next ih => exact fun s hs => ⟨(hp s hs).1, ih s (hp s hs).2⟩

theorem keeps_ofExcept {x : Except E α} (h : ∀ a, x = .ok a → Q a) :
    (ofExcept x : Prog S E α).Keeps I Q := by
  cases x with
  | ok a => exact h a rfl
  | error e => trivial

theorem keeps_orFail {e : E} {x : Option α} (h : ∀ a, x = some a → Q a) :
    (orFail e x : Prog S E α).Keeps I Q := by
  cases x with
  | some a => exact h a rfl
  | none => trivial

theorem keeps_of_forall (h : ∀ a, Q a) (p : Prog S E α) : p.Keeps (fun _ => True) Q := by
  induction p with
  | ret a => exact h a
  | fail _ => trivial
  | act upd next fault ihn ihf => exact ⟨fun s _ => ⟨trivial, ihn s⟩, ihf⟩
  | mem upd next ih => exact fun s _ => ⟨trivial, ih s⟩

theorem keeps_query {e : E} {f : S → Except E α × S}
    (h : ∀ s, I s → I (f s).2 ∧ ∀ a, (f s).1 = .ok a → Q a) : (query e f).Keeps I Q :=
  ⟨fun s hs => ⟨(h s hs).1, keeps_ofExcept (h s hs).2⟩, trivial⟩

theorem keeps_locked {f : S → Except E α × S}
    (h : ∀ s, I s → I (f s).2 ∧ ∀ a, (f s).1 = .ok a → Q a) : (locked f).Keeps I Q :=
  fun s hs => ⟨(h s hs).1, keeps_ofExcept (h s hs).2⟩

theorem keeps_peek {f : S → α} (h : ∀ s, I s → Q (f s)) : (peek f : Prog S E α).Keeps I Q :=
  fun s hs => ⟨hs, h s hs⟩

theorem keeps_read {e : E} {f : S → α} (h : ∀ s, I s → Q (f s)) : (read e f).Keeps I Q :=
  ⟨fun s hs => ⟨hs, h s hs⟩, trivial⟩

theorem keeps_attempt {f : S → S} {Q : Unit → Prop} (h : ∀ s, I s → I (f s)) (hQ : Q ()) :
    (attempt f : Prog S E Unit).Keeps I Q :=
  ⟨fun s hs => ⟨h s hs, hQ⟩, hQ⟩

/-- A maintained invariant holds after every outcome from a state where it holds. -/
theorem Keeps.outcome {p : Prog S E α} (hp : p.Keeps I Q) {s s' : S} {r : Except E α}
    (h : p.Outcome s r s') (hs : I s) : I s' ∧ ∀ a, r = .ok a → Q a := by
  induction h with
  | ret a s => exact ⟨hs, fun b hb => (Except.ok.inj hb) ▸ hp⟩
  | fail e s => exact ⟨hs, fun b hb => nomatch hb⟩
  | act _ ih => exact ih (hp.1 _ hs).2 (hp.1 _ hs).1
  | fault _ ih => exact ih hp.2 hs
  | mem _ ih => exact ih (hp _ hs).2 (hp _ hs).1

/-! ### Kinds of actions -/

/-- Every action the program can take, on whatever state it finds, is one of `R`. -/
def Steps (R : S → S → Prop) : Prog S E α → Prop
  | ret _ => True
  | fail _ => True
  | act upd next fault => (∀ s, R s (upd s)) ∧ (∀ s, (next s).Steps R) ∧ fault.Steps R
  | mem upd next => (∀ s, R s (upd s)) ∧ ∀ s, (next s).Steps R

section Steps

variable {R : S → S → Prop}

theorem Steps.bind {p : Prog S E α} {f : α → Prog S E β} (hp : p.Steps R)
    (hf : ∀ a, (f a).Steps R) : (p >>= f).Steps R := by
  induction p with
  | ret a => exact hf a
  | fail e => trivial
  | act upd next fault ih ihf => exact ⟨hp.1, fun s => ih s (hp.2.1 s), ihf hp.2.2⟩
  | mem upd next ih => exact ⟨hp.1, fun s => ih s (hp.2 s)⟩

theorem Steps.bind_of_keeps {Q : α → Prop} {p : Prog S E α} {f : α → Prog S E β} (hp : p.Steps R)
    (hQ : p.Keeps (fun _ => True) Q) (hf : ∀ a, Q a → (f a).Steps R) : (p >>= f).Steps R := by
  induction p with
  | ret a => exact hf a hQ
  | fail e => trivial
  | act upd next fault ih ihf =>
    exact ⟨hp.1, fun s => ih s (hp.2.1 s) (hQ.1 s trivial).2, ihf hp.2.2 hQ.2⟩
  | mem upd next ih => exact ⟨hp.1, fun s => ih s (hp.2 s) (hQ s trivial).2⟩

theorem Steps.mono {p : Prog S E α} {R' : S → S → Prop} (hp : p.Steps R)
    (h : ∀ s s', R s s' → R' s s') : p.Steps R' := by
  induction p with
  | ret a => trivial
  | fail e => trivial
  | act upd next fault ih ihf =>
    exact ⟨fun s => h s _ (hp.1 s), fun s => ih s (hp.2.1 s), ihf hp.2.2⟩
  | mem upd next ih => exact ⟨fun s => h s _ (hp.1 s), fun s => ih s (hp.2 s)⟩

/-- The actions on a part of the state. -/
theorem Steps.zoom {T : Type} {l : Part T S} {p : Prog S E α} (hp : p.Steps R) :
    (p.zoom l).Steps fun t t' => R (l.get t) (l.get t') := by
  induction p with
  | ret a => trivial
  | fail e => trivial
  | act upd next fault ih ihf =>
    refine ⟨fun t => ?_, fun t => ih _ (hp.2.1 _), ihf hp.2.2⟩
    simp only [l.get_set]
    exact hp.1 _
  | mem upd next ih =>
    refine ⟨fun t => ?_, fun t => ih _ (hp.2 _)⟩
    simp only [l.get_set]
    exact hp.1 _

/-- What every action keeps, the program keeps. -/
theorem Steps.keeps {p : Prog S E α} (hp : p.Steps R) (h : ∀ s s', R s s' → I s → I s') :
    p.Keeps I fun _ => True := by
  induction p with
  | ret a => trivial
  | fail e => trivial
  | act upd next fault ih ihf =>
    exact ⟨fun s hs => ⟨h s _ (hp.1 s) hs, ih s (hp.2.1 s)⟩, ihf hp.2.2⟩
  | mem upd next ih => exact fun s hs => ⟨h s _ (hp.1 s) hs, ih s (hp.2 s)⟩

/-- A program that only reads leaves the state alone. -/
theorem Steps.outcome_eq {p : Prog S E α} (hp : p.Steps fun s s' => s' = s) {s s' : S}
    {r : Except E α} (h : p.Outcome s r s') : s' = s := by
  have hkeeps : p.Keeps (fun x => x = s) fun _ => True := hp.keeps fun _ _ h₁ h₂ => h₁.trans h₂
  exact (hkeeps.outcome h rfl).1

theorem steps_ofExcept (x : Except E α) : (ofExcept x : Prog S E α).Steps R := by
  cases x <;> trivial

theorem steps_orFail (e : E) (x : Option α) : (orFail e x : Prog S E α).Steps R := by
  cases x <;> trivial

theorem steps_query {e : E} {f : S → Except E α × S} (h : ∀ s, R s (f s).2) :
    (query e f).Steps R :=
  ⟨h, fun s => steps_ofExcept (f s).1, trivial⟩

theorem steps_read {e : E} {f : S → α} (h : ∀ s, R s s) : (read e f).Steps R :=
  ⟨h, fun _ => trivial, trivial⟩

theorem steps_attempt {f : S → S} (h : ∀ s, R s (f s)) : (attempt f : Prog S E Unit).Steps R :=
  ⟨h, fun _ => trivial, trivial⟩

end Steps

/-! ### Interleavings -/

/-- The actions a program takes to a result, each with the state it found and the state it left;
a fault leaves the state it found. -/
inductive Path : Prog S E α → List (S × S) → Except E α → Prop
  | ret (a : α) : Path (ret a) [] (.ok a)
  | fail (e : E) : Path (fail e) [] (.error e)
  | act {upd : S → S} {next : S → Prog S E α} {fault : Prog S E α} {s : S} {t : List (S × S)}
      {r : Except E α} : Path (next s) t r → Path (act upd next fault) ((s, upd s) :: t) r
  | fault {upd : S → S} {next : S → Prog S E α} {fault : Prog S E α} {s : S} {t : List (S × S)}
      {r : Except E α} : Path fault t r → Path (act upd next fault) ((s, s) :: t) r
  | mem {upd : S → S} {next : S → Prog S E α} {s : S} {t : List (S × S)} {r : Except E α} :
      Path (next s) t r → Path (mem upd next) ((s, upd s) :: t) r

/-- The actions of a sequence are those of its first part, then those of the second. -/
theorem path_bind {p : Prog S E α} {f : α → Prog S E β} {t : List (S × S)} {r : Except E β}
    (h : (p >>= f).Path t r) :
    (∃ e, p.Path t (.error e) ∧ r = .error e) ∨
      ∃ t₁ t₂ a, t = t₁ ++ t₂ ∧ p.Path t₁ (.ok a) ∧ (f a).Path t₂ r := by
  induction p generalizing t with
  | ret a => exact .inr ⟨[], t, a, rfl, .ret a, h⟩
  | fail e =>
    cases h
    exact .inl ⟨e, .fail e, rfl⟩
  | act upd next fault ih ihf =>
    cases h with
    | @act _ _ _ s t _ h =>
      rcases ih s h with ⟨e, he, hr⟩ | ⟨t₁, t₂, a, rfl, ha, hf⟩
      · exact .inl ⟨e, .act he, hr⟩
      · exact .inr ⟨_ :: t₁, t₂, a, rfl, .act ha, hf⟩
    | @fault _ _ _ s t _ h =>
      rcases ihf h with ⟨e, he, hr⟩ | ⟨t₁, t₂, a, rfl, ha, hf⟩
      · exact .inl ⟨e, .fault he, hr⟩
      · exact .inr ⟨_ :: t₁, t₂, a, rfl, .fault ha, hf⟩
  | mem upd next ih =>
    cases h with
    | @mem _ _ s t _ h =>
      rcases ih s h with ⟨e, he, hr⟩ | ⟨t₁, t₂, a, rfl, ha, hf⟩
      · exact .inl ⟨e, .mem he, hr⟩
      · exact .inr ⟨_ :: t₁, t₂, a, rfl, .mem ha, hf⟩

/-- A sequence that succeeded. -/
theorem path_bind_ok {p : Prog S E α} {f : α → Prog S E β} {t : List (S × S)} {b : β}
    (h : (p >>= f).Path t (.ok b)) :
    ∃ t₁ t₂ a, t = t₁ ++ t₂ ∧ p.Path t₁ (.ok a) ∧ (f a).Path t₂ (.ok b) := by
  rcases path_bind h with ⟨e, -, he⟩ | h
  · cases he
  · exact h

theorem path_ofExcept {x : Except E α} {t : List (S × S)} {r : Except E α}
    (h : (ofExcept x).Path t r) : t = [] ∧ r = x := by
  cases x <;> cases h <;> exact ⟨rfl, rfl⟩

/-- A query takes one action. -/
theorem path_query {e : E} {f : S → Except E α × S} {t : List (S × S)} {r : Except E α}
    (h : (query e f).Path t r) :
    ∃ s, (t = [(s, (f s).2)] ∧ r = (f s).1) ∨ (t = [(s, s)] ∧ r = .error e) := by
  cases h with
  | @act _ _ _ s t _ h =>
    obtain ⟨rfl, hr⟩ := path_ofExcept h
    exact ⟨s, .inl ⟨rfl, hr⟩⟩
  | @fault _ _ _ s t _ h =>
    cases h
    exact ⟨s, .inr ⟨rfl, rfl⟩⟩

/-- A failure takes no action. -/
theorem not_path_fail {e : E} {t₁ t₂ : List (S × S)} {x : S × S} {r : Except E α} :
    ¬ (fail e : Prog S E α).Path (t₁ ++ x :: t₂) r := by
  intro h
  generalize ht : t₁ ++ x :: t₂ = t at h
  cases h
  simp at ht

/-- A read takes one action. -/
theorem path_read {e : E} {f : S → α} {t : List (S × S)} {r : Except E α}
    (h : (read e f).Path t r) : ∃ s, t = [(s, s)] ∧ (r = .ok (f s) ∨ r = .error e) := by
  cases h with
  | @act _ _ _ s t _ h =>
    cases h
    exact ⟨s, rfl, .inl rfl⟩
  | @fault _ _ _ s t _ h =>
    cases h
    exact ⟨s, rfl, .inr rfl⟩

theorem path_attempt {f : S → S} {t : List (S × S)} {r : Except E Unit}
    (h : (attempt f).Path t r) : ∃ s, (t = [(s, f s)] ∨ t = [(s, s)]) ∧ r = .ok () := by
  cases h with
  | @act _ _ _ s t _ h =>
    cases h
    exact ⟨s, .inl rfl, rfl⟩
  | @fault _ _ _ s t _ h =>
    cases h
    exact ⟨s, .inr rfl, rfl⟩

theorem path_steps {R : S → S → Prop} (hrefl : ∀ s, R s s) {p : Prog S E α} (hp : p.Steps R)
    {t : List (S × S)} {r : Except E α} (h : p.Path t r) : ∀ x ∈ t, R x.1 x.2 := by
  induction h with
  | ret a => simp
  | fail e => simp
  | @act upd next fault s t r h ih =>
    exact List.forall_mem_cons.mpr ⟨hp.1 s, ih (hp.2.1 s)⟩
  | @fault upd next fault s t r h ih =>
    exact List.forall_mem_cons.mpr ⟨hrefl s, ih hp.2.2⟩
  | @mem upd next s t r h ih => exact List.forall_mem_cons.mpr ⟨hp.1 s, ih (hp.2 s)⟩

/-- A program on a part of the state acts on that part. -/
theorem path_zoom {T : Type} {l : Part T S} {p : Prog S E α} {t : List (T × T)} {r : Except E α}
    (h : (p.zoom l).Path t r) : p.Path (t.map fun x => (l.get x.1, l.get x.2)) r := by
  induction p generalizing t with
  | ret a =>
    cases h
    exact .ret a
  | fail e =>
    cases h
    exact .fail e
  | act upd next fault ih ihf =>
    cases h with
    | act h =>
      simp only [List.map_cons, l.get_set]
      exact .act (ih _ h)
    | fault h =>
      simp only [List.map_cons]
      exact .fault (ihf h)
  | mem upd next ih =>
    cases h with
    | mem h =>
      simp only [List.map_cons, l.get_set]
      exact .mem (ih _ h)

/-- It leaves the rest of the state alone. -/
theorem path_zoom_rest {T : Type} {l : Part T S} {p : Prog S E α} {t : List (T × T)}
    {r : Except E α} (h : (p.zoom l).Path t r) : ∀ x ∈ t, x.2 = l.set (l.get x.2) x.1 := by
  induction p generalizing t with
  | ret a =>
    cases h
    simp
  | fail e =>
    cases h
    simp
  | act upd next fault ih ihf =>
    cases h with
    | act h => exact List.forall_mem_cons.mpr ⟨by simp only [l.get_set], ih _ h⟩
    | fault h => exact List.forall_mem_cons.mpr ⟨(l.set_get _).symm, ihf h⟩
  | mem upd next ih =>
    cases h with
    | mem h => exact List.forall_mem_cons.mpr ⟨by simp only [l.get_set], ih _ h⟩

/-- `Chained s t s'` : actions on consecutive states, from `s` to `s'`. -/
inductive Chained : S → List (S × S) → S → Prop
  | nil (s : S) : Chained s [] s
  | cons {s s₁ s' : S} {t : List (S × S)} : Chained s₁ t s' → Chained s ((s, s₁) :: t) s'

theorem chained_append {s s' : S} {t₁ t₂ : List (S × S)} :
    Chained s (t₁ ++ t₂) s' ↔ ∃ s₁, Chained s t₁ s₁ ∧ Chained s₁ t₂ s' := by
  induction t₁ generalizing s with
  | nil =>
    constructor
    · exact fun h => ⟨s, .nil s, h⟩
    · rintro ⟨s₁, h, h'⟩
      cases h
      exact h'
  | cons x t₁ ih =>
    constructor
    · intro h
      cases h with
      | cons h =>
        obtain ⟨s₁, h₁, h₂⟩ := ih.mp h
        exact ⟨s₁, .cons h₁, h₂⟩
    · rintro ⟨s₁, h, h'⟩
      cases h with
      | cons h => exact .cons (ih.mpr ⟨s₁, h, h'⟩)

theorem chained_idle {s s' : S} {t : List (S × S)} (h : Chained s t s')
    (hidle : ∀ x ∈ t, x.2 = x.1) : s' = s := by
  induction h with
  | nil s => rfl
  | cons _ ih =>
    rw [List.forall_mem_cons] at hidle
    exact (ih hidle.2).trans hidle.1

/-- Run by itself, a program takes one of its paths, on consecutive states. -/
theorem Outcome.path {p : Prog S E α} {s s' : S} {r : Except E α} (h : p.Outcome s r s') :
    ∃ t, p.Path t r ∧ Chained s t s' := by
  induction h with
  | ret a s => exact ⟨[], .ret a, .nil s⟩
  | fail e s => exact ⟨[], .fail e, .nil s⟩
  | act _ ih =>
    obtain ⟨t, hpath, hchain⟩ := ih
    exact ⟨_, .act hpath, .cons hchain⟩
  | fault _ ih =>
    obtain ⟨t, hpath, hchain⟩ := ih
    exact ⟨_, .fault hpath, .cons hchain⟩
  | mem _ ih =>
    obtain ⟨t, hpath, hchain⟩ := ih
    exact ⟨_, .mem hpath, .cons hchain⟩

theorem path_peek {f : S → α} {t : List (S × S)} {r : Except E α}
    (h : (peek f : Prog S E α).Path t r) : ∃ s, t = [(s, s)] ∧ r = .ok (f s) := by
  cases h with
  | @mem _ _ s t _ h =>
    cases h
    exact ⟨s, rfl, rfl⟩

theorem path_poke {f : S → S} {t : List (S × S)} {r : Except E Unit}
    (h : (poke f : Prog S E Unit).Path t r) : ∃ s, t = [(s, f s)] ∧ r = .ok () := by
  cases h with
  | @mem _ _ s t _ h =>
    cases h
    exact ⟨s, rfl, rfl⟩

/-- What a program promises about its result holds on every path. -/
theorem Keeps.path {p : Prog S E α} {Q : α → Prop} (hp : p.Keeps (fun _ => True) Q)
    {t : List (S × S)} {a : α} (h : p.Path t (.ok a)) : Q a := by
  generalize hr : (Except.ok a : Except E α) = r at h
  induction h with
  | ret b =>
    obtain rfl := Except.ok.inj hr
    exact hp
  | fail e => cases hr
  | act _ ih => exact ih (hp.1 _ trivial).2 hr
  | fault _ ih => exact ih hp.2 hr
  | mem _ ih => exact ih (hp _ trivial).2 hr

/-- On every path, at most `n` actions are of the kind `b`. -/
def AtMost (b : S × S → Bool) (n : Nat) (p : Prog S E α) : Prop :=
  ∀ t r, p.Path t r → t.countP b ≤ n

theorem AtMost.bind {b : S × S → Bool} {m n : Nat} {p : Prog S E α} {f : α → Prog S E β}
    (hp : p.AtMost b m) (hf : ∀ a, (f a).AtMost b n) : (p >>= f).AtMost b (m + n) := by
  intro t r h
  rcases path_bind h with ⟨e, hfirst, -⟩ | ⟨t₁, t₂, a, rfl, hfirst, hsecond⟩
  · exact Nat.le_add_right_of_le (hp t _ hfirst)
  · rw [List.countP_append]
    exact Nat.add_le_add (hp t₁ _ hfirst) (hf a t₂ r hsecond)

/-- A query takes one action. -/
theorem atMost_query (b : S × S → Bool) {e : E} {f : S → Except E α × S} :
    (query e f).AtMost b 1 := by
  intro t r h
  obtain ⟨s, ⟨rfl, -⟩ | ⟨rfl, -⟩⟩ := path_query h <;> exact List.countP_le_length

/-- No action of a program is of a kind that all its actions exclude. -/
theorem atMost_of_steps {b : S × S → Bool} (hrefl : ∀ s, b (s, s) = false) {p : Prog S E α}
    (hp : p.Steps fun s s' => b (s, s') = false) : p.AtMost b 0 := by
  intro t r h
  rw [Nat.le_zero, List.countP_eq_zero]
  intro x hx
  simp [path_steps hrefl hp h x hx]

theorem AtMost.path_after {b : S × S → Bool} {p : Prog S E α} {f : α → Prog S E β}
    {t₁ t₂ : List (S × S)} {x : S × S} {r : Except E β} (hp : p.AtMost b 0)
    (h : (p >>= f).Path (t₁ ++ x :: t₂) r) (hx : b x = true) :
    ∃ t₀ t₃ a, t₁ = t₀ ++ t₃ ∧ p.Path t₀ (.ok a) ∧ (f a).Path (t₃ ++ x :: t₂) r := by
  have hnone {t : List (S × S)} {r : Except E α} (h : p.Path t r) : ∀ y ∈ t, b y = false := by
    simpa [List.countP_eq_zero] using hp t r h
  rcases path_bind h with ⟨e, hfirst, -⟩ | ⟨t₀, t', a, ht, hfirst, hsecond⟩
  · have := hnone hfirst x (by simp)
    simp [this] at hx
  · obtain ⟨t₃, rfl, rfl⟩ := split_after ht.symm (hnone hfirst) hx
    exact ⟨t₀, t₃, a, rfl, hfirst, hsecond⟩

/-- An action of a kind that the second part of a sequence excludes is one of the first part. -/
theorem AtMost.path_before {b : S × S → Bool} {p : Prog S E α} {f : α → Prog S E β}
    {t₁ t₂ : List (S × S)} {x : S × S} {r : Except E β} (hf : ∀ a, (f a).AtMost b 0)
    (h : (p >>= f).Path (t₁ ++ x :: t₂) r) (hx : b x = true) :
    ∃ t₃ r', p.Path (t₁ ++ x :: t₃) r' := by
  rcases path_bind h with ⟨e, hfirst, -⟩ | ⟨t₀, t', a, ht, hfirst, hsecond⟩
  · exact ⟨t₂, _, hfirst⟩
  have hnone : ∀ y ∈ t', b y = false := by
    simpa [List.countP_eq_zero] using hf a t' r hsecond
  have hnot : x ∉ t' := fun hmem => by simp [hnone x hmem] at hx
  rcases List.append_eq_append_iff.mp ht with ⟨t₃, ht₀, hrest⟩ | ⟨t₃, -, rfl⟩
  · cases t₃ with
    | nil =>
      rw [List.nil_append] at hrest
      exact (hnot (hrest ▸ List.mem_cons_self)).elim
    | cons y t₃ =>
      obtain ⟨rfl, -⟩ := List.cons.inj hrest
      rw [ht₀] at hfirst
      exact ⟨t₃, _, hfirst⟩
  · exact (hnot (by simp)).elim

/-- What a kind excludes on a part of the state is excluded in the whole. -/
theorem AtMost.zoom {T : Type} {l : Part T S} {b : S × S → Bool} {n : Nat} {p : Prog S E α}
    (hp : p.AtMost b n) : (p.zoom l).AtMost (fun x => b (l.get x.1, l.get x.2)) n := by
  intro t r h
  have hcount := hp _ r (path_zoom h)
  rwa [List.countP_map] at hcount

theorem path_after_ofExcept {x : Except E α} {f : α → Prog S E β} {t₁ t₂ : List (S × S)}
    {y : S × S} {r : Except E β} (h : (ofExcept x >>= f).Path (t₁ ++ y :: t₂) r) :
    ∃ a, x = .ok a ∧ (f a).Path (t₁ ++ y :: t₂) r := by
  cases x with
  | ok a => exact ⟨a, rfl, h⟩
  | error e => exact (not_path_fail h).elim

/-- Every program can end, if only by faults. -/
theorem exists_path (s : S) (p : Prog S E α) : ∃ t r, p.Path t r := by
  induction p with
  | ret a => exact ⟨[], _, .ret a⟩
  | fail e => exact ⟨[], _, .fail e⟩
  | act upd next fault _ ihf =>
    obtain ⟨t, r, h⟩ := ihf
    exact ⟨(s, s) :: t, r, .fault h⟩
  | mem upd next ih =>
    obtain ⟨t, r, h⟩ := ih s
    exact ⟨(s, upd s) :: t, r, .mem h⟩

/-- One event of a pool: who acted, on which state, leaving which. -/
structure Event (ι S : Type) where
  /-- The program; `none` is the environment. -/
  who : Option ι
  /-- The state that was found. -/
  pre : S
  /-- The state that was left. -/
  post : S

variable [DecidableEq ι]

/-- `p.Next s s' q` : one action takes the program from `p` to `q` and the state from `s` to `s'`. -/
inductive Next : Prog S E α → S → S → Prog S E α → Prop
  | act (upd : S → S) (next : S → Prog S E α) (fault : Prog S E α) (s : S) :
      Next (act upd next fault) s (upd s) (next s)
  | fault (upd : S → S) (next : S → Prog S E α) (fault : Prog S E α) (s : S) :
      Next (act upd next fault) s s fault
  | mem (upd : S → S) (next : S → Prog S E α) (s : S) : Next (mem upd next) s (upd s) (next s)

omit [DecidableEq ι] in
theorem Next.path {p q : Prog S E α} {s s' : S} (h : p.Next s s' q) {t : List (S × S)}
    {r : Except E α} (hq : q.Path t r) : p.Path ((s, s') :: t) r := by
  cases h with
  | act => exact .act hq
  | fault => exact .fault hq
  | mem => exact .mem hq

omit [DecidableEq ι] in
theorem Next.steps {R : S → S → Prop} (hrefl : ∀ s, R s s) {p q : Prog S E α} {s s' : S}
    (h : p.Next s s' q) (hp : p.Steps R) : R s s' ∧ q.Steps R := by
  cases h with
  | act => exact ⟨hp.1 s, hp.2.1 s⟩
  | fault => exact ⟨hrefl s, hp.2.2⟩
  | mem => exact ⟨hp.1 s, hp.2 s⟩

/-- The interleavings of a family of programs, with an environment that may act as `env` says. -/
def pool (env : S → S → Prop) : System (S × (ι → Prog S E α)) (Event ι S) where
  step c e c' := c.1 = e.pre ∧ c'.1 = e.post ∧
    match e.who with
    | none => env e.pre e.post ∧ c'.2 = c.2
    | some i => ∃ p, (c.2 i).Next e.pre e.post p ∧ c'.2 = Function.update c.2 i p

/-- The events of one program. -/
def eventsOf (i : ι) (es : List (Event ι S)) : List (S × S) :=
  (es.filter fun e => e.who = some i).map fun e => (e.pre, e.post)

theorem eventsOf_append (i : ι) (es es' : List (Event ι S)) :
    eventsOf i (es ++ es') = eventsOf i es ++ eventsOf i es' := by
  simp [eventsOf]

theorem eventsOf_cons_self {i : ι} {e : Event ι S} (h : e.who = some i) (es : List (Event ι S)) :
    eventsOf i (e :: es) = (e.pre, e.post) :: eventsOf i es := by
  simp [eventsOf, h]

theorem mem_eventsOf {i : ι} {es : List (Event ι S)} {x : S × S} :
    x ∈ eventsOf i es ↔ ∃ e ∈ es, e.who = some i ∧ (e.pre, e.post) = x := by
  simp only [eventsOf, List.mem_map, List.mem_filter, decide_eq_true_eq, and_assoc]

/-- An event of one program has its place among all events. -/
theorem eventsOf_split {i : ι} {es : List (Event ι S)} {t₁ t₂ : List (S × S)} {x : S × S}
    (h : eventsOf i es = t₁ ++ x :: t₂) :
    ∃ es₁ e es₂, es = es₁ ++ e :: es₂ ∧ e.who = some i ∧ (e.pre, e.post) = x ∧
      eventsOf i es₁ = t₁ := by
  obtain ⟨l₁, l₂, hfilter, hl₁, hl₂⟩ := List.map_eq_append_iff.mp h
  obtain ⟨es₁, es₂, rfl, hes₁, hes₂⟩ := List.filter_eq_append_iff.mp hfilter
  obtain ⟨e, l₃, rfl, hx, -⟩ := List.map_eq_cons_iff.mp hl₂
  obtain ⟨es₃, es₄, rfl, hskip, hwho, -⟩ := List.filter_eq_cons_iff.mp hes₂
  refine ⟨es₁ ++ es₃, e, es₄, by simp, by simpa using hwho, hx, ?_⟩
  have hnone : eventsOf i es₃ = [] := by
    simpa [eventsOf, List.filter_eq_nil_iff] using hskip
  rw [eventsOf_append, hnone, List.append_nil, eventsOf, hes₁, hl₁]

/-- The states around an event of a run. -/
theorem run_at {env : S → S → Prop} {c c' : S × (ι → Prog S E α)} {es₁ es₂ : List (Event ι S)}
    {e : Event ι S} (h : (pool env).Run c (es₁ ++ e :: es₂) c') :
    ∃ c₁ c₂, (pool env).Run c es₁ c₁ ∧ c₁.1 = e.pre ∧ c₂.1 = e.post ∧
      (pool env).Run c₂ es₂ c' := by
  obtain ⟨c₁, hbefore, hrest⟩ := h.split
  cases hrest with
  | @cons _ c₂ _ _ _ hstep hafter =>
    exact ⟨c₁, c₂, hbefore, hstep.1, hstep.2.1, hafter⟩

/-- A program of the pool can run to its end while all others wait. -/
theorem exists_run_alone (env : S → S → Prop) (c : S × (ι → Prog S E α)) (i : ι) :
    ∃ es, (pool env).Run c es
      (((c.2 i).run c.1).2, Function.update c.2 i (ofExcept ((c.2 i).run c.1).1)) := by
  obtain ⟨s, progs⟩ := c
  simp only
  generalize hp : progs i = p
  induction p generalizing s progs with
  | ret a =>
    refine ⟨[], ?_⟩
    rw [run, ofExcept_ok, ← hp, Function.update_eq_self]
    exact .nil _
  | fail e =>
    refine ⟨[], ?_⟩
    rw [run, ofExcept_error, ← hp, Function.update_eq_self]
    exact .nil _
  | act upd next fault ih _ =>
    obtain ⟨es, hrun⟩ := ih s (upd s) (Function.update progs i (next s)) (Function.update_self ..)
    rw [Function.update_idem] at hrun
    refine ⟨⟨some i, s, upd s⟩ :: es, .cons ⟨rfl, rfl, next s, ?_, rfl⟩ hrun⟩
    show (progs i).Next s (upd s) (next s)
    rw [hp]
    exact .act upd next fault s
  | mem upd next ih =>
    obtain ⟨es, hrun⟩ := ih s (upd s) (Function.update progs i (next s)) (Function.update_self ..)
    rw [Function.update_idem] at hrun
    refine ⟨⟨some i, s, upd s⟩ :: es, .cons ⟨rfl, rfl, next s, ?_, rfl⟩ hrun⟩
    show (progs i).Next s (upd s) (next s)
    rw [hp]
    exact .mem upd next s

/-- The program and the state after `n` actions without faults. -/
def advance : Nat → Prog S E α → S → Prog S E α × S
  | n + 1, act upd next _, s => advance n (next s) (upd s)
  | n + 1, mem upd next, s => advance n (next s) (upd s)
  | _, p, s => (p, s)

/-- The events of these actions. -/
def trace (i : ι) : Nat → Prog S E α → S → List (Event ι S)
  | n + 1, act upd next _, s => ⟨some i, s, upd s⟩ :: trace i n (next s) (upd s)
  | n + 1, mem upd next, s => ⟨some i, s, upd s⟩ :: trace i n (next s) (upd s)
  | _, _, _ => []

/-- A program of the pool can take some actions while all others wait. -/
theorem run_advance (env : S → S → Prop) (c : S × (ι → Prog S E α)) (i : ι) (n : Nat) :
    (pool env).Run c (trace i n (c.2 i) c.1)
      ((advance n (c.2 i) c.1).2, Function.update c.2 i (advance n (c.2 i) c.1).1) := by
  obtain ⟨s, progs⟩ := c
  induction n generalizing s progs with
  | zero =>
    simp only [advance, trace, Function.update_eq_self]
    exact .nil _
  | succ n ih =>
    -- one action, then the others
    have hmove (s' : S) (q : Prog S E α) (hnext : (progs i).Next s s' q) :
        (pool env).Run (s, progs) (⟨some i, s, s'⟩ :: trace i n q s')
          ((advance n q s').2, Function.update progs i (advance n q s').1) := by
      have hrun := ih s' (Function.update progs i q)
      simp only [Function.update_self, Function.update_idem] at hrun
      exact .cons ⟨rfl, rfl, q, hnext, rfl⟩ hrun
    have hstay : (pool env).Run (s, progs) [] (s, Function.update progs i (progs i)) := by
      rw [Function.update_eq_self]
      exact .nil _
    simp only
    generalize hp : progs i = p at hmove hstay
    cases p with
    | ret a => exact hstay
    | fail e => exact hstay
    | act upd next fault => exact hmove _ _ (.act upd next fault s)
    | mem upd next => exact hmove _ _ (.mem upd next s)

/-- The programs take actions in turn: who acts, and how often. -/
def play : List (ι × Nat) → S × (ι → Prog S E α) → S × (ι → Prog S E α)
  | [], c => c
  | (i, n) :: rest, c =>
    play rest ((advance n (c.2 i) c.1).2, Function.update c.2 i (advance n (c.2 i) c.1).1)

/-- The events of a schedule. -/
def playTrace : List (ι × Nat) → S × (ι → Prog S E α) → List (Event ι S)
  | [], _ => []
  | (i, n) :: rest, c => trace i n (c.2 i) c.1 ++
    playTrace rest ((advance n (c.2 i) c.1).2, Function.update c.2 i (advance n (c.2 i) c.1).1)

/-- A schedule is a run of the pool. -/
theorem run_play (env : S → S → Prop) (turns : List (ι × Nat)) (c : S × (ι → Prog S E α)) :
    (pool env).Run c (playTrace turns c) (play turns c) := by
  induction turns generalizing c with
  | nil => exact .nil c
  | cons turn rest ih =>
    obtain ⟨i, n⟩ := turn
    exact (run_advance env c i n).trans (ih _)

theorem playTrace_append (turns : List (ι × Nat)) (i : ι) (n : Nat) (c : S × (ι → Prog S E α)) :
    playTrace (turns ++ [(i, n)]) c =
      playTrace turns c ++ trace i n ((play turns c).2 i) (play turns c).1 := by
  induction turns generalizing c with
  | nil => simp [playTrace, play]
  | cons turn rest ih =>
    obtain ⟨j, m⟩ := turn
    simp only [List.cons_append, playTrace, play, ih, List.append_assoc]

theorem play_of_notMem {turns : List (ι × Nat)} {i : ι} (h : i ∉ turns.map Prod.fst)
    (c : S × (ι → Prog S E α)) : (play turns c).2 i = c.2 i := by
  induction turns generalizing c with
  | nil => rfl
  | cons turn rest ih =>
    obtain ⟨j, m⟩ := turn
    simp only [List.map_cons, List.mem_cons, not_or] at h
    rw [play, ih h.2]
    exact Function.update_of_ne h.1 _ _

omit [DecidableEq ι] in
theorem who_of_trace {i : ι} {n : Nat} {p : Prog S E α} {s : S} :
    ∀ e ∈ trace i n p s, e.who = some i := by
  induction n generalizing p s with
  | zero => simp [trace]
  | succ n ih =>
    cases p with
    | ret a => simp [trace]
    | fail e => simp [trace]
    | act upd next fault => exact List.forall_mem_cons.mpr ⟨rfl, ih⟩
    | mem upd next => exact List.forall_mem_cons.mpr ⟨rfl, ih⟩

theorem eventsOf_playTrace_of_notMem {turns : List (ι × Nat)} {i : ι}
    (h : i ∉ turns.map Prod.fst) (c : S × (ι → Prog S E α)) :
    eventsOf i (playTrace turns c) = [] := by
  induction turns generalizing c with
  | nil => rfl
  | cons turn rest ih =>
    obtain ⟨j, m⟩ := turn
    simp only [List.map_cons, List.mem_cons, not_or] at h
    have hnone : eventsOf i (trace j m (c.2 j) c.1) = [] := by
      simp only [eventsOf, List.map_eq_nil_iff, List.filter_eq_nil_iff, decide_eq_true_eq]
      intro e he hwho
      rw [who_of_trace e he] at hwho
      exact h.1 (Option.some.inj hwho).symm
    rw [playTrace, eventsOf_append, hnone, ih h.2, List.append_nil]

/-- In a run of the pool, the events of a program lead it to what is left of it. -/
theorem path_of_run {env : S → S → Prop} {c c' : S × (ι → Prog S E α)} {es : List (Event ι S)}
    (h : (pool env).Run c es c') (i : ι) {t : List (S × S)} {r : Except E α}
    (hrest : (c'.2 i).Path t r) : (c.2 i).Path (eventsOf i es ++ t) r := by
  induction h with
  | nil c => exact hrest
  | @cons c c₁ c' e es hstep _ ih =>
    have ih := ih hrest
    obtain ⟨hpre, hpost, hwho⟩ := hstep
    cases hw : e.who with
    | none =>
      simp only [hw] at hwho
      rw [hwho.2] at ih
      simpa [eventsOf, hw] using ih
    | some j =>
      simp only [hw] at hwho
      obtain ⟨p, hnext, hprogs⟩ := hwho
      by_cases hij : j = i
      · subst hij
        have hevents : eventsOf j (e :: es) = (e.pre, e.post) :: eventsOf j es := by
          simp [eventsOf, hw]
        rw [hprogs, Function.update_self] at ih
        rw [hevents]
        exact hnext.path ih
      · have hevents : eventsOf i (e :: es) = eventsOf i es := by
          simp [eventsOf, hw, hij]
        rw [hprogs, Function.update_of_ne (Ne.symm hij)] at ih
        rw [hevents]
        exact ih

/-- In a run of the pool, every event of the environment is one of `env` and every event of a
program is of the program's kind. -/
theorem event_of_run {env : S → S → Prop} {R : ι → S → S → Prop} (hrefl : ∀ i s, R i s s)
    {c c' : S × (ι → Prog S E α)} {es : List (Event ι S)} (h : (pool env).Run c es c')
    (hsteps : ∀ i, (c.2 i).Steps (R i)) :
    ∀ e ∈ es, (e.who = none → env e.pre e.post) ∧ ∀ i, e.who = some i → R i e.pre e.post := by
  induction h with
  | nil c => simp
  | @cons c c₁ c' e es hstep _ ih =>
    obtain ⟨-, -, hwho⟩ := hstep
    cases hw : e.who with
    | none =>
      simp only [hw] at hwho
      refine List.forall_mem_cons.mpr ⟨⟨fun _ => hwho.1, by simp [hw]⟩, ih ?_⟩
      rw [hwho.2]
      exact hsteps
    | some j =>
      simp only [hw] at hwho
      obtain ⟨p, hnext, hprogs⟩ := hwho
      obtain ⟨hR, hp⟩ := hnext.steps (hrefl j) (hsteps j)
      refine List.forall_mem_cons.mpr ⟨⟨by simp [hw], fun i hi => ?_⟩, ih fun i => ?_⟩
      · obtain rfl : j = i := by simpa [hw] using hi
        exact hR
      · rw [hprogs]
        by_cases hi : i = j
        · subst hi
          rw [Function.update_self]
          exact hp
        · rw [Function.update_of_ne hi]
          exact hsteps i

/-- What every event keeps, given that it held before all earlier ones, holds throughout a run. -/
theorem invariant_of_run {env : S → S → Prop} {I : S → Prop} {c c' : S × (ι → Prog S E α)}
    {es : List (Event ι S)} (h : (pool env).Run c es c')
    (hstep : ∀ es₁ e es₂, es = es₁ ++ e :: es₂ → (∀ e' ∈ es₁, I e'.pre) → I e.pre → I e.post)
    (hI : I c.1) : (∀ e ∈ es, I e.pre) ∧ I c'.1 := by
  induction h with
  | nil c => exact ⟨by simp, hI⟩
  | @cons c c₁ c' e es hst _ ih =>
    obtain ⟨hpre, hpost, -⟩ := hst
    rw [hpre] at hI
    have hI₁ : I c₁.1 := hpost ▸ hstep [] e es rfl (by simp) hI
    obtain ⟨hall, hend⟩ := ih (fun es₁ e' es₂ hes hbefore => hstep (e :: es₁) e' es₂
      (by rw [hes, List.cons_append]) (List.forall_mem_cons.mpr ⟨hI, hbefore⟩)) hI₁
    exact ⟨List.forall_mem_cons.mpr ⟨hI, hall⟩, hend⟩

omit [DecidableEq ι] in
theorem Next.keeps {I : S → Prop} {Q : α → Prop} {p q : Prog S E α} {s s' : S}
    (h : p.Next s s' q) (hp : p.Keeps I Q) (hs : I s) : I s' ∧ q.Keeps I Q := by
  cases h with
  | act => exact hp.1 s hs
  | fault => exact ⟨hs, hp.2⟩
  | mem => exact hp s hs

/-- What every program and the environment maintain holds throughout a run. -/
theorem keeps_of_run {env : S → S → Prop} {I : S → Prop} {Q : ι → α → Prop}
    {c c' : S × (ι → Prog S E α)} {es : List (Event ι S)} (h : (pool env).Run c es c')
    (henv : ∀ s s', env s s' → I s → I s') (hkeeps : ∀ i, (c.2 i).Keeps I (Q i)) (hI : I c.1) :
    I c'.1 := by
  induction h with
  | nil c => exact hI
  | @cons c c₁ c' e es hstep _ ih =>
    obtain ⟨hpre, hpost, hwho⟩ := hstep
    rw [hpre] at hI
    cases hw : e.who with
    | none =>
      simp only [hw] at hwho
      refine ih ?_ (hpost ▸ henv _ _ hwho.1 hI)
      rw [hwho.2]
      exact hkeeps
    | some i =>
      simp only [hw] at hwho
      obtain ⟨p, hnext, hprogs⟩ := hwho
      obtain ⟨hI', hp⟩ := hnext.keeps (hkeeps i) hI
      refine ih ?_ (hpost ▸ hI')
      intro j
      rw [hprogs]
      by_cases hj : j = i
      · subst hj
        rw [Function.update_self]
        exact hp
      · rw [Function.update_of_ne hj]
        exact hkeeps j

/-- What holds at the end of a run has held throughout, or since some event brought it about. -/
theorem appeared_of_run {env : S → S → Prop} {b : S → Prop} {c c' : S × (ι → Prog S E α)}
    {es : List (Event ι S)} (h : (pool env).Run c es c') (hb : b c'.1) :
    (b c.1 ∧ ∀ e ∈ es, b e.post) ∨ ∃ es₁ e es₂, es = es₁ ++ e :: es₂ ∧ ¬ b e.pre ∧ b e.post ∧
      ∀ e' ∈ es₂, b e'.post := by
  induction h with
  | nil c => exact .inl ⟨hb, by simp⟩
  | @cons c c₁ c' e es hstep _ ih =>
    obtain ⟨hpre, hpost, -⟩ := hstep
    rcases ih hb with ⟨hb₁, hall⟩ | ⟨es₁, e', es₂, rfl, hsince⟩
    · rw [hpost] at hb₁
      by_cases hbefore : b e.pre
      · rw [hpre]
        exact .inl ⟨hbefore, List.forall_mem_cons.mpr ⟨hb₁, hall⟩⟩
      · exact .inr ⟨[], e, es, rfl, hbefore, hb₁, hall⟩
    · exact .inr ⟨e :: es₁, e', es₂, rfl, hsince⟩

/-- A program that takes an action of the kind `b` at most once does so in a run of the pool. -/
theorem countP_of_run {env : S → S → Prop} {b : S × S → Bool} {n : Nat} {c c' : S × (ι → Prog S E α)}
    {es : List (Event ι S)} (h : (pool env).Run c es c') {i : ι} (hi : (c.2 i).AtMost b n) :
    (es.countP fun e => e.who = some i && b (e.pre, e.post)) ≤ n := by
  obtain ⟨t, r, hrest⟩ := exists_path c'.1 (c'.2 i)
  have hcount := hi _ _ (path_of_run h i hrest)
  rw [List.countP_append, eventsOf, List.countP_map, List.countP_filter] at hcount
  calc (es.countP fun e => e.who = some i && b (e.pre, e.post))
      = es.countP (fun e => (b ∘ fun e => (e.pre, e.post)) e && decide (e.who = some i)) :=
        List.countP_congr fun e _ => by simp [and_comm]
    _ ≤ n := by omega

end Prog

end Lib
