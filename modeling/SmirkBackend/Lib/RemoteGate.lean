import SmirkBackend.Lib.Remote

/-!
# Programs that ask before they work

A program may look at something, check what it saw, and only then go to work; it may have a first
source that gives an answer or none, and a second one for the rest; and it may be written for a part
of the questions only.

Their traces are `Remote.trace_gated`, `Remote.trace_fallback` and `Remote.trace_embed`; what they
ask is said by `Remote.Asks.held`, `Remote.Asks.retry`, `Remote.Asks.fallback` and
`Remote.Asks.embed`.
-/

namespace Lib

/-- An exchange, seen among those of a larger kind. -/
def Exchange.through {Q Q' : Type} {A : Q' → Type} {E : Type} (ι : Q → Q')
    (x : Exchange Q (fun q => A (ι q)) E) : Exchange Q' A E :=
  ⟨ι x.question, x.answer⟩

namespace Remote

variable {Q Q' : Type} {A : Q → Type} {A' : Q' → Type} {E α β : Type}

theorem trace_map {f : β → α} {p : Remote Q A E β} {t : List (Exchange Q A E)} {r : Except E α} :
    Trace (f <$> p) t r ↔ ∃ r', Trace p t r' ∧ r = r'.map f := by
  change Trace (p >>= fun b => ret (f b)) t r ↔ _
  rw [trace_bind]
  constructor
  · rintro (⟨e, h, rfl⟩ | ⟨b, t₁, t₂, rfl, h, hret⟩)
    · exact ⟨.error e, h, rfl⟩
    · obtain ⟨rfl, rfl⟩ := trace_ret.mp hret
      rw [List.append_nil]
      exact ⟨.ok b, h, rfl⟩
  · rintro ⟨r', h, rfl⟩
    cases r' with
    | error e => exact .inl ⟨e, h, rfl⟩
    | ok b => exact .inr ⟨b, t, [], (List.append_nil t).symm, h, trace_ret.mpr ⟨rfl, rfl⟩⟩

theorem trace_ofExcept_bind {x : Except E β} {f : β → Remote Q A E α} {t : List (Exchange Q A E)}
    {r : Except E α} :
    Trace (ofExcept x >>= f) t r ↔
      (∃ e, x = .error e ∧ t = [] ∧ r = .error e) ∨ ∃ b, x = .ok b ∧ Trace (f b) t r := by
  cases x with
  | error e => simp [ofExcept]
  | ok b => simp [ofExcept]

/-- Look, check what was seen, and work. -/
def gated (look : Remote Q A E β) (check : β → Except E Unit) (work : β → Remote Q A E α) :
    Remote Q A E α :=
  look >>= fun b => ofExcept (check b) >>= fun _ => work b

/-- A rejected program ends where its look does. -/
theorem trace_gated {look : Remote Q A E β} {check : β → Except E Unit}
    {work : β → Remote Q A E α} {t : List (Exchange Q A E)} {r : Except E α} :
    Trace (gated look check work) t r ↔
      (∃ e, Trace look t (.error e) ∧ r = .error e) ∨
      (∃ b e, Trace look t (.ok b) ∧ check b = .error e ∧ r = .error e) ∨
      ∃ b t₁ t₂, t = t₁ ++ t₂ ∧ Trace look t₁ (.ok b) ∧ check b = .ok () ∧
        Trace (work b) t₂ r := by
  unfold gated
  rw [trace_bind]
  constructor
  · rintro (hlook | ⟨b, t₁, t₂, rfl, hlook, hrest⟩)
    · exact .inl hlook
    · rcases trace_ofExcept_bind.mp hrest with ⟨e, hcheck, rfl, hr⟩ | ⟨_, hcheck, hwork⟩
      · rw [List.append_nil]
        exact .inr (.inl ⟨b, e, hlook, hcheck, hr⟩)
      · exact .inr (.inr ⟨b, t₁, t₂, rfl, hlook, hcheck, hwork⟩)
  · rintro (hlook | ⟨b, e, hlook, hcheck, hr⟩ | ⟨b, t₁, t₂, rfl, hlook, hcheck, hwork⟩)
    · exact .inl hlook
    · exact .inr ⟨b, t, [], (List.append_nil t).symm, hlook,
        trace_ofExcept_bind.mpr (.inl ⟨e, hcheck, rfl, hr⟩)⟩
    · exact .inr ⟨b, t₁, t₂, rfl, hlook, trace_ofExcept_bind.mpr (.inr ⟨(), hcheck, hwork⟩)⟩

/-- Answer by the first program if it has an answer, and else, also after its error, by the
second. -/
def fallback (first : Remote Q A E (Option α)) (second : Remote Q A E α) : Remote Q A E α :=
  first.held >>= fun r =>
    match r with
    | .ok (some a) => ret a
    | .ok none => second
    | .error _ => second

theorem trace_fallback {first : Remote Q A E (Option α)} {second : Remote Q A E α}
    {t : List (Exchange Q A E)} {r : Except E α} :
    Trace (fallback first second) t r ↔
      (∃ a, Trace first t (.ok (some a)) ∧ r = .ok a) ∨
      ∃ r₁ t₁ t₂, t = t₁ ++ t₂ ∧ Trace first t₁ r₁ ∧ (∀ a, r₁ ≠ .ok (some a)) ∧
        Trace second t₂ r := by
  unfold fallback
  rw [trace_held_bind]
  constructor
  · rintro ⟨r₁, t₁, t₂, rfl, hfirst, hrest⟩
    match r₁, hfirst, hrest with
    | .ok (some a), hfirst, hrest =>
      obtain ⟨rfl, hr⟩ := trace_ret.mp hrest
      rw [List.append_nil]
      exact .inl ⟨a, hfirst, hr⟩
    | .ok none, hfirst, hrest => exact .inr ⟨_, t₁, t₂, rfl, hfirst, by rintro a ⟨⟩, hrest⟩
    | .error e, hfirst, hrest => exact .inr ⟨_, t₁, t₂, rfl, hfirst, by rintro a ⟨⟩, hrest⟩
  · rintro (⟨a, hfirst, hr⟩ | ⟨r₁, t₁, t₂, rfl, hfirst, hnone, hsecond⟩)
    · exact ⟨_, t, [], (List.append_nil t).symm, hfirst, trace_ret.mpr ⟨rfl, hr⟩⟩
    · refine ⟨r₁, t₁, t₂, rfl, hfirst, ?_⟩
      match r₁, hnone with
      | .ok (some a), hnone => exact absurd rfl (hnone a)
      | .ok none, _ => exact hsecond
      | .error e, _ => exact hsecond

/-- Ask the questions of a larger kind. -/
def embed (ι : Q → Q') : Remote Q (fun q => A' (ι q)) E α → Remote Q' A' E α
  | ret a => .ret a
  | fail e => .fail e
  | ask q next => .ask (ι q) fun a => (next a).embed ι

/-- An embedded program is asked and answered as before. -/
theorem trace_embed {ι : Q → Q'} {p : Remote Q (fun q => A' (ι q)) E α}
    {t : List (Exchange Q' A' E)} {r : Except E α} :
    Trace (p.embed ι) t r ↔ ∃ t₀, t = t₀.map (.through ι) ∧ Trace p t₀ r := by
  induction p generalizing t with
  | ret a =>
    simp only [embed, trace_ret]
    constructor
    · rintro ⟨rfl, hr⟩
      exact ⟨[], rfl, rfl, hr⟩
    · rintro ⟨_, rfl, rfl, hr⟩
      exact ⟨rfl, hr⟩
  | fail e =>
    simp only [embed, trace_fail]
    constructor
    · rintro ⟨rfl, hr⟩
      exact ⟨[], rfl, rfl, hr⟩
    · rintro ⟨_, rfl, rfl, hr⟩
      exact ⟨rfl, hr⟩
  | ask q next ih =>
    simp only [embed, trace_ask, ih]
    constructor
    · rintro ⟨a, _, rfl, t₀, rfl, h⟩
      exact ⟨⟨q, a⟩ :: t₀, rfl, a, t₀, rfl, h⟩
    · rintro ⟨_, rfl, a, t₀, rfl, h⟩
      exact ⟨a, _, rfl, t₀, rfl, h⟩

/-! ### What they ask -/

section Asks

variable {P : Q → Prop}

theorem asks_question {q : Q} (hq : P q) : (question q : Remote Q A E (A q)).Asks P :=
  asks_ask hq fun a => asks_ofExcept a

theorem Asks.map {p : Remote Q A E β} (hp : p.Asks P) (f : β → α) : (f <$> p).Asks P := by
  intro t r h
  obtain ⟨r', h', -⟩ := trace_map.mp h
  exact hp t r' h'

theorem Asks.held {p : Remote Q A E α} (hp : p.Asks P) : p.held.Asks P := by
  intro t r h
  obtain ⟨r', -, h'⟩ := trace_held.mp h
  exact hp t r' h'

theorem Asks.retry {p : Remote Q A E α} (hp : p.Asks P) (n : ℕ) : (p.retry n).Asks P := by
  intro t r h x hx
  obtain ⟨failures, t', rfl, -, -, hfail, hlast⟩ := trace_retry h
  rcases List.mem_append.mp hx with hx | hx
  · obtain ⟨u, hu, hx⟩ := List.mem_flatten.mp hx
    obtain ⟨e, hu⟩ := hfail u hu
    exact hp u _ hu x hx
  · exact hp t' r hlast x hx

theorem Asks.fallback {first : Remote Q A E (Option α)} {second : Remote Q A E α}
    (hfirst : first.Asks P) (hsecond : second.Asks P) : (first.fallback second).Asks P := by
  intro t r h x hx
  rcases trace_fallback.mp h with ⟨a, h, -⟩ | ⟨r₁, t₁, t₂, rfl, h₁, -, h₂⟩
  · exact hfirst t _ h x hx
  · rcases List.mem_append.mp hx with hx | hx
    · exact hfirst t₁ r₁ h₁ x hx
    · exact hsecond t₂ r h₂ x hx

theorem Asks.embed {ι : Q → Q'} {P : Q' → Prop} {p : Remote Q (fun q => A' (ι q)) E α}
    (hp : p.Asks fun q => P (ι q)) : (p.embed ι).Asks P := by
  intro t r h x hx
  obtain ⟨t₀, rfl, h₀⟩ := trace_embed.mp h
  obtain ⟨x₀, hx₀, rfl⟩ := List.mem_map.mp hx
  exact hp t₀ r h₀ x₀ hx₀

end Asks

end Remote

end Lib
