import Mathlib.Data.Nat.Notation

/-!
# Programs that ask a remote party

A program asks questions and goes on with the answers; an answer is a reply or an error, and the
program may hold an error back, or ask again.  A trace lists the questions of one run with the
answers they met.  Nothing is assumed of the answers.

The traces of compound programs are those of their parts (`Remote.trace_bind`, `Remote.trace_held`,
`Remote.trace_retry`).  A program may be made to fail by bad answers (`Remote.Propagates`), and by
nothing else (`Remote.FailsOn`); both go through a sequence.
-/

namespace Lib

/-- A question with the answer it met. -/
structure Exchange (Q : Type) (A : Q → Type) (E : Type) where
  /-- The question. -/
  question : Q
  /-- The reply, or an error. -/
  answer : Except E (A question)

/-- A program that asks questions. -/
inductive Remote (Q : Type) (A : Q → Type) (E α : Type) : Type
  /-- Return a result. -/
  | ret (a : α)
  /-- Return an error. -/
  | fail (e : E)
  /-- Ask a question and go on with the answer. -/
  | ask (q : Q) (next : Except E (A q) → Remote Q A E α)

namespace Remote

variable {Q : Type} {A : Q → Type} {E α β : Type}

/-- One program after another. -/
def bind : Remote Q A E α → (α → Remote Q A E β) → Remote Q A E β
  | ret a, f => f a
  | fail e, _ => fail e
  | ask q next, f => ask q fun a => (next a).bind f

instance : Monad (Remote Q A E) where
  pure := ret
  bind := bind

@[simp] theorem pure_eq (a : α) : (Pure.pure a : Remote Q A E α) = ret a := rfl

@[simp] theorem ret_bind (a : α) (f : α → Remote Q A E β) : (ret a >>= f) = f a := rfl

@[simp] theorem fail_bind (e : E) (f : α → Remote Q A E β) : (fail e >>= f) = fail e := rfl

@[simp] theorem ask_bind (q : Q) (next : Except E (A q) → Remote Q A E α)
    (f : α → Remote Q A E β) : (ask q next >>= f) = ask q fun a => next a >>= f := rfl

/-- Return what was computed. -/
def ofExcept : Except E α → Remote Q A E α
  | .ok a => ret a
  | .error e => fail e

/-- Ask a question that must be answered by a reply. -/
def question (q : Q) : Remote Q A E (A q) := ask q ofExcept

/-- Hold an error back. -/
def held : Remote Q A E α → Remote Q A E (Except E α)
  | ret a => ret (.ok a)
  | fail e => ret (.error e)
  | ask q next => ask q fun a => (next a).held

/-- Start again after an error, `n` times at most. -/
def retry (p : Remote Q A E α) : ℕ → Remote Q A E α
  | 0 => p
  | n + 1 => p.held >>= fun r =>
    match r with
    | .ok a => ret a
    | .error _ => p.retry n

/-- The exchanges of one run of a program, and its result. -/
inductive Trace : Remote Q A E α → List (Exchange Q A E) → Except E α → Prop
  | ret (a : α) : Trace (ret a) [] (.ok a)
  | fail (e : E) : Trace (fail e) [] (.error e)
  | ask {q : Q} {next : Except E (A q) → Remote Q A E α} {t : List (Exchange Q A E)}
      {r : Except E α} (a : Except E (A q)) : Trace (next a) t r → Trace (ask q next) (⟨q, a⟩ :: t) r

/-! ### The traces of compound programs -/

@[simp] theorem trace_ret {a : α} {t : List (Exchange Q A E)} {r : Except E α} :
    Trace (.ret a) t r ↔ t = [] ∧ r = .ok a := by
  constructor
  · intro h
    cases h
    exact ⟨rfl, rfl⟩
  · rintro ⟨rfl, rfl⟩
    exact .ret a

@[simp] theorem trace_fail {e : E} {t : List (Exchange Q A E)} {r : Except E α} :
    Trace (.fail e) t r ↔ t = [] ∧ r = .error e := by
  constructor
  · intro h
    cases h
    exact ⟨rfl, rfl⟩
  · rintro ⟨rfl, rfl⟩
    exact .fail e

@[simp] theorem trace_ask {q : Q} {next : Except E (A q) → Remote Q A E α}
    {t : List (Exchange Q A E)} {r : Except E α} :
    Trace (.ask q next) t r ↔ ∃ a t', t = ⟨q, a⟩ :: t' ∧ Trace (next a) t' r := by
  constructor
  · intro h
    cases h with
    | ask a h => exact ⟨a, _, rfl, h⟩
  · rintro ⟨a, t', rfl, h⟩
    exact .ask a h

@[simp] theorem trace_ofExcept {x : Except E α} {t : List (Exchange Q A E)} {r : Except E α} :
    Trace (ofExcept x) t r ↔ t = [] ∧ r = x := by
  cases x with
  | ok a => exact trace_ret
  | error e => exact trace_fail

@[simp] theorem trace_question {q : Q} {t : List (Exchange Q A E)} {r : Except E (A q)} :
    Trace (question q) t r ↔ t = [⟨q, r⟩] := by
  constructor
  · intro h
    obtain ⟨a, t', rfl, hrest⟩ := trace_ask.mp h
    obtain ⟨rfl, rfl⟩ := trace_ofExcept.mp hrest
    rfl
  · rintro rfl
    exact .ask r (trace_ofExcept.mpr ⟨rfl, rfl⟩)

/-- A sequence ends in the error of its first part, or goes on after its result. -/
theorem trace_bind {p : Remote Q A E α} {f : α → Remote Q A E β} {t : List (Exchange Q A E)}
    {r : Except E β} :
    Trace (p >>= f) t r ↔ (∃ e, Trace p t (.error e) ∧ r = .error e) ∨
      ∃ a t₁ t₂, t = t₁ ++ t₂ ∧ Trace p t₁ (.ok a) ∧ Trace (f a) t₂ r := by
  induction p generalizing t with
  | ret a =>
    simp only [ret_bind, trace_ret, reduceCtorEq, and_false, false_and, exists_false, false_or,
      Except.ok.injEq]
    constructor
    · intro h
      exact ⟨a, [], t, rfl, ⟨rfl, rfl⟩, h⟩
    · rintro ⟨_, _, t₂, rfl, ⟨rfl, rfl⟩, h⟩
      exact h
  | fail e =>
    simp only [fail_bind, trace_fail, reduceCtorEq, and_false, false_and, exists_false, or_false,
      Except.error.injEq]
    constructor
    · rintro ⟨ht, hr⟩
      exact ⟨e, ⟨ht, rfl⟩, hr⟩
    · rintro ⟨_, ⟨ht, rfl⟩, hr⟩
      exact ⟨ht, hr⟩
  | ask q next ih =>
    simp only [ask_bind, trace_ask, ih]
    constructor
    · rintro ⟨b, t', rfl, ⟨e, h, rfl⟩ | ⟨a, t₁, t₂, rfl, h, h'⟩⟩
      · exact .inl ⟨e, ⟨b, t', rfl, h⟩, rfl⟩
      · exact .inr ⟨a, ⟨q, b⟩ :: t₁, t₂, rfl, ⟨b, t₁, rfl, h⟩, h'⟩
    · rintro (⟨e, ⟨b, t', rfl, h⟩, rfl⟩ | ⟨a, _, t₂, rfl, ⟨b, t₁, rfl, h⟩, h'⟩)
      · exact ⟨b, t', rfl, .inl ⟨e, h, rfl⟩⟩
      · exact ⟨b, t₁ ++ t₂, rfl, .inr ⟨a, t₁, t₂, rfl, h, h'⟩⟩

/-- A held program asks what it would ask, and does not fail. -/
theorem trace_held {p : Remote Q A E α} {t : List (Exchange Q A E)}
    {r : Except E (Except E α)} : Trace p.held t r ↔ ∃ r', r = .ok r' ∧ Trace p t r' := by
  induction p generalizing t with
  | ret a =>
    simp only [held, trace_ret]
    exact ⟨fun ⟨ht, hr⟩ => ⟨.ok a, hr, ht, rfl⟩, fun ⟨_, hr, ht, hr'⟩ => ⟨ht, hr' ▸ hr⟩⟩
  | fail e =>
    simp only [held, trace_ret, trace_fail]
    exact ⟨fun ⟨ht, hr⟩ => ⟨.error e, hr, ht, rfl⟩, fun ⟨_, hr, ht, hr'⟩ => ⟨ht, hr' ▸ hr⟩⟩
  | ask q next ih =>
    simp only [held, trace_ask, ih]
    constructor
    · rintro ⟨a, t', rfl, r', rfl, h⟩
      exact ⟨r', rfl, a, t', rfl, h⟩
    · rintro ⟨r', rfl, a, t', rfl, h⟩
      exact ⟨a, t', rfl, r', rfl, h⟩

theorem trace_held_bind {p : Remote Q A E α} {f : Except E α → Remote Q A E β}
    {t : List (Exchange Q A E)} {r : Except E β} :
    Trace (p.held >>= f) t r ↔ ∃ r' t₁ t₂, t = t₁ ++ t₂ ∧ Trace p t₁ r' ∧ Trace (f r') t₂ r := by
  rw [trace_bind]
  constructor
  · rintro (⟨e, h, -⟩ | ⟨r', t₁, t₂, rfl, h, h'⟩)
    · obtain ⟨r', hr, -⟩ := trace_held.mp h
      cases hr
    · obtain ⟨r'', hr, h⟩ := trace_held.mp h
      obtain rfl := Except.ok.inj hr
      exact ⟨r', t₁, t₂, rfl, h, h'⟩
  · rintro ⟨r', t₁, t₂, rfl, h, h'⟩
    exact .inr ⟨r', t₁, t₂, rfl, trace_held.mpr ⟨r', rfl, h⟩, h'⟩

/-- A program that is started again has failed before, and its last run gives the result; an error
is returned only when no attempt is left. -/
theorem trace_retry {p : Remote Q A E α} {n : ℕ} {t : List (Exchange Q A E)} {r : Except E α}
    (h : Trace (p.retry n) t r) : ∃ (failures : List (List (Exchange Q A E))) (t' : _),
      t = failures.flatten ++ t' ∧ failures.length ≤ n ∧ (∀ e, r = .error e → failures.length = n) ∧
      (∀ u ∈ failures, ∃ e, Trace p u (.error e)) ∧ Trace p t' r := by
  induction n generalizing t with
  | zero => exact ⟨[], t, rfl, Nat.le_refl _, fun _ _ => rfl, by simp, h⟩
  | succ n ih =>
    obtain ⟨r', t₁, t₂, rfl, hp, hrest⟩ := trace_held_bind.mp h
    cases r' with
    | ok a =>
      obtain ⟨rfl, rfl⟩ := trace_ret.mp hrest
      exact ⟨[], t₁, List.append_nil t₁, Nat.zero_le _, by simp, by simp, hp⟩
    | error e =>
      obtain ⟨failures, t', rfl, hlength, hall, hfail, hlast⟩ := ih hrest
      refine ⟨t₁ :: failures, t', by simp, by simpa using hlength, ?_, ?_, hlast⟩
      · intro e' he
        rw [List.length_cons, hall e' he]
      exact List.forall_mem_cons.mpr ⟨⟨e, hp⟩, hfail⟩

/-! ### Bad answers -/

section Bad

variable {bad : Exchange Q A E → Prop}

/-- Every run that meets a bad answer fails. -/
def Propagates (bad : Exchange Q A E → Prop) (p : Remote Q A E α) : Prop :=
  ∀ t r, Trace p t r → (∃ x ∈ t, bad x) → ∃ e, r = .error e

/-- Every run that fails has met a bad answer. -/
def FailsOn (bad : Exchange Q A E → Prop) (p : Remote Q A E α) : Prop :=
  ∀ t e, Trace p t (.error e) → ∃ x ∈ t, bad x

/-- Every question is one of `P`. -/
def Asks (P : Q → Prop) (p : Remote Q A E α) : Prop :=
  ∀ t r, Trace p t r → ∀ x ∈ t, P x.question

theorem propagates_ret (a : α) : (ret a : Remote Q A E α).Propagates bad := by
  rintro t r h ⟨x, hx, -⟩
  obtain ⟨rfl, -⟩ := trace_ret.mp h
  cases hx

theorem propagates_fail (e : E) : (fail e : Remote Q A E α).Propagates bad := by
  intro t r h _
  exact ⟨e, (trace_fail.mp h).2⟩

theorem propagates_ofExcept (x : Except E α) : (ofExcept x : Remote Q A E α).Propagates bad := by
  cases x with
  | ok a => exact propagates_ret a
  | error e => exact propagates_fail e

theorem Propagates.bind {p : Remote Q A E α} {f : α → Remote Q A E β} (hp : p.Propagates bad)
    (hf : ∀ a, (f a).Propagates bad) : (p >>= f).Propagates bad := by
  rintro t r h ⟨x, hx, hbad⟩
  rcases trace_bind.mp h with ⟨e, -, hr⟩ | ⟨a, t₁, t₂, rfl, h₁, h₂⟩
  · exact ⟨e, hr⟩
  · rcases List.mem_append.mp hx with hx | hx
    · obtain ⟨e, he⟩ := hp t₁ _ h₁ ⟨x, hx, hbad⟩
      cases he
    · exact hf a t₂ r h₂ ⟨x, hx, hbad⟩

theorem propagates_ask {q : Q} {next : Except E (A q) → Remote Q A E α}
    (hbad : ∀ a, bad ⟨q, a⟩ → ∃ e, next a = .fail e)
    (hnext : ∀ a, (next a).Propagates bad) : (ask q next).Propagates bad := by
  rintro t r h ⟨x, hx, hx'⟩
  obtain ⟨a, t', rfl, h'⟩ := trace_ask.mp h
  rcases List.mem_cons.mp hx with rfl | hx
  · obtain ⟨e, he⟩ := hbad a hx'
    rw [he] at h'
    exact ⟨e, (trace_fail.mp h').2⟩
  · exact hnext a t' r h' ⟨x, hx, hx'⟩

theorem failsOn_ret (a : α) : (ret a : Remote Q A E α).FailsOn bad := by
  intro t e h
  cases (trace_ret.mp h).2

theorem FailsOn.bind {p : Remote Q A E α} {f : α → Remote Q A E β} (hp : p.FailsOn bad)
    (hf : ∀ a, (f a).FailsOn bad) : (p >>= f).FailsOn bad := by
  intro t e h
  rcases trace_bind.mp h with ⟨e', h', -⟩ | ⟨a, t₁, t₂, rfl, -, h₂⟩
  · exact hp t e' h'
  · obtain ⟨x, hx, hbad⟩ := hf a t₂ e h₂
    exact ⟨x, List.mem_append_right _ hx, hbad⟩

theorem asks_ret {P : Q → Prop} (a : α) : (ret a : Remote Q A E α).Asks P := by
  intro t r h x hx
  obtain ⟨rfl, -⟩ := trace_ret.mp h
  cases hx

theorem asks_fail {P : Q → Prop} (e : E) : (fail e : Remote Q A E α).Asks P := by
  intro t r h x hx
  obtain ⟨rfl, -⟩ := trace_fail.mp h
  cases hx

theorem asks_ofExcept {P : Q → Prop} (x : Except E α) : (ofExcept x : Remote Q A E α).Asks P := by
  cases x with
  | ok a => exact asks_ret a
  | error e => exact asks_fail e

theorem asks_ask {P : Q → Prop} {q : Q} {next : Except E (A q) → Remote Q A E α} (hq : P q)
    (hnext : ∀ a, (next a).Asks P) : (ask q next).Asks P := by
  intro t r h x hx
  obtain ⟨a, t', rfl, h'⟩ := trace_ask.mp h
  rcases List.mem_cons.mp hx with rfl | hx
  · exact hq
  · exact hnext a t' r h' x hx

theorem Asks.bind {P : Q → Prop} {p : Remote Q A E α} {f : α → Remote Q A E β} (hp : p.Asks P)
    (hf : ∀ a, (f a).Asks P) : (p >>= f).Asks P := by
  intro t r h x hx
  rcases trace_bind.mp h with ⟨e, h', -⟩ | ⟨a, t₁, t₂, rfl, h₁, h₂⟩
  · exact hp t _ h' x hx
  · rcases List.mem_append.mp hx with hx | hx
    · exact hp t₁ _ h₁ x hx
    · exact hf a t₂ r h₂ x hx

end Bad

/-! ### Given answers -/

/-- The result of a program when every question is answered as `answers` says. -/
def answered (answers : (q : Q) → Except E (A q)) : Remote Q A E α → Except E α
  | ret a => .ok a
  | fail e => .error e
  | ask q next => (next (answers q)).answered answers

@[simp] theorem answered_ofExcept (answers : (q : Q) → Except E (A q)) (x : Except E α) :
    (ofExcept x : Remote Q A E α).answered answers = x := by
  cases x <;> rfl

@[simp] theorem answered_question (answers : (q : Q) → Except E (A q)) (q : Q) :
    (question q : Remote Q A E (A q)).answered answers = answers q :=
  answered_ofExcept answers (answers q)

@[simp] theorem answered_bind (answers : (q : Q) → Except E (A q)) (p : Remote Q A E α)
    (f : α → Remote Q A E β) :
    (p >>= f).answered answers = p.answered answers >>= fun a => (f a).answered answers := by
  induction p with
  | ret a => rfl
  | fail e => rfl
  | ask q next ih => exact ih (answers q)

theorem answered_bind_of_ok {answers : (q : Q) → Except E (A q)} {p : Remote Q A E α} {a : α}
    (h : p.answered answers = .ok a) (f : α → Remote Q A E β) :
    (p >>= f).answered answers = (f a).answered answers := by
  rw [answered_bind, h]
  rfl

theorem answered_bind_of_error {answers : (q : Q) → Except E (A q)} {p : Remote Q A E α} {e : E}
    (h : p.answered answers = .error e) (f : α → Remote Q A E β) :
    (p >>= f).answered answers = .error e := by
  rw [answered_bind, h]
  rfl

theorem answered_bind_eq_ok {answers : (q : Q) → Except E (A q)} {p : Remote Q A E α}
    {f : α → Remote Q A E β} {b : β} :
    (p >>= f).answered answers = .ok b ↔
      ∃ a, p.answered answers = .ok a ∧ (f a).answered answers = .ok b := by
  rw [answered_bind]
  cases p.answered answers with
  | error e => simp [Bind.bind, Except.bind]
  | ok a => simp [Bind.bind, Except.bind]

/-- The questions it asks then. -/
def asked (answers : (q : Q) → Except E (A q)) : Remote Q A E α → List Q
  | ret _ => []
  | fail _ => []
  | ask q next => q :: (next (answers q)).asked answers

theorem trace_answered (p : Remote Q A E α) (answers : (q : Q) → Except E (A q)) :
    Trace p ((p.asked answers).map fun q => ⟨q, answers q⟩) (p.answered answers) := by
  induction p with
  | ret a => exact .ret a
  | fail e => exact .fail e
  | ask q next ih => exact .ask _ (ih (answers q))

end Remote

end Lib
