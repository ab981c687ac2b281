import SmirkBackend.Chain.ElectrumFailover

/-!
# What the fallbacks see

The fallbacks of the Electrum client belong to others, and the requests name the addresses of users.
They are for when the operator's own server is unreachable.  The client diverts a request when the
attempt at the primary gave an error of any kind, and a JSON-RPC error (a transaction it does not
know, a broadcast it rejects) is one.

What diverts and what counts is read off the history of a run.  The breaker keeps its own account of
it: the counter is at most the streak of failures, and a cooldown that has not ended was started by
a streak.

`breakerInv_of_run` proves this of every run, and `fallback_private_iff` says when the fallbacks see
a request only because the primary is down.
-/

namespace SmirkBackend

open Lib (Prog Rely)

variable {ι α : Type}

/-! ### What a history says -/

/-- How many failures the primary has had since its last success, counting those that `counted`
says and ending at one that it does not. -/
def failureStreak (counted : Bool → Bool) : List (ElectrumEvent ι) → ℕ
  | [] => 0
  | .failed _ _ rejected :: older => if counted rejected then failureStreak counted older + 1 else 0
  | .succeeded _ _ :: _ => 0
  | _ :: older => failureStreak counted older

/-- The failure that `call` counted was at least the second of a streak. -/
def TrippedBy (counted : Bool → Bool) (history : List (ElectrumEvent ι)) (call : ι) : Prop :=
  ∃ id rejected older, .failed call id rejected :: older <:+ history ∧
    primaryFailThreshold.toNat ≤ failureStreak counted (.failed call id rejected :: older)

/-- The cooldown that was set last, and not ended since, ends at `endMs`; a streak of failures
started it. -/
def CooldownInForce (counted : Bool → Bool) : List (ElectrumEvent ι) → UInt64 → Prop
  | [], _ => False
  | .cooled call _ endMs' :: older, endMs => endMs' = endMs ∧ TrippedBy counted older call
  | .cleared _ _ :: _, _ => False
  | _ :: older, endMs => CooldownInForce counted older endMs

/-- A request may go to a fallback: its own attempt at the primary failed, or it found the primary
in a cooldown. -/
def Diverted (counted : Bool → Bool) (history : List (ElectrumEvent ι)) (call : ι) (id : UInt64) :
    Prop :=
  (∃ rejected, .failed call id rejected ∈ history ∧ counted rejected = true) ∨
  ∃ now endMs older, .looked call id now endMs :: older <:+ history ∧ now < endMs ∧
    CooldownInForce counted older endMs

/-- **The privacy of the fallbacks**: they are sent a request only when the primary is down, as the
call found itself or as at least two consecutive such failures say; and a JSON-RPC error of the
primary is no failure. -/
structure FallbackPrivate (history : List (ElectrumEvent ι)) : Prop where
  /-- Only an outage diverts. -/
  diverted : ∀ call id server older, .askedFallback call id server :: older <:+ history →
    Diverted (fun rejected => !rejected) older call id
  /-- Only an outage counts. -/
  counted : ∀ call id rejected, .failed call id rejected ∈ history → rejected = false

/-- The primary answered no request it was sent with a JSON-RPC error. -/
def NoneRejected (req : ι → ElectrumRequest α) (history : List (ElectrumEvent ι)) : Prop :=
  ∀ call id, .askedPrimary call id ∈ history → rejects id ((req call).answers 0 id) = false

/-- Every request that was sent to the primary has its outcome recorded. -/
def AllHeard (history : List (ElectrumEvent ι)) : Prop :=
  ∀ call id, .askedPrimary call id ∈ history →
    (∃ rejected, .failed call id rejected ∈ history) ∨ .succeeded call id ∈ history

/-! ### Histories grow -/

theorem TrippedBy.mono {counted : Bool → Bool} {h h' : List (ElectrumEvent ι)} {call : ι}
    (ht : TrippedBy counted h call) (hsub : h <:+ h') : TrippedBy counted h' call := by
  obtain ⟨id, rejected, older, hmem, hstreak⟩ := ht
  exact ⟨id, rejected, older, hmem.trans hsub, hstreak⟩

theorem Diverted.mono {counted : Bool → Bool} {h h' : List (ElectrumEvent ι)} {call : ι}
    {id : UInt64} (hd : Diverted counted h call id) (hsub : h <:+ h') :
    Diverted counted h' call id := by
  rcases hd with ⟨rejected, hmem, hcounted⟩ | ⟨now, endMs, older, hmem, hlt, hforce⟩
  · exact .inl ⟨rejected, hsub.mem hmem, hcounted⟩
  · exact .inr ⟨now, endMs, older, hmem.trans hsub, hlt, hforce⟩

/-! ### Failures that are all outages -/

section Outages

variable {h : List (ElectrumEvent ι)}
  (hall : ∀ call id rejected, .failed call id rejected ∈ h → rejected = false)

include hall

theorem failureStreak_outage :
    failureStreak (fun rejected => !rejected) h = failureStreak (fun _ => true) h := by
  induction h with
  | nil => rfl
  | cons e older ih =>
    have ih := ih fun call id rejected hmem => hall call id rejected (.tail _ hmem)
    cases e with
    | failed call id rejected =>
      obtain rfl := hall call id rejected (.head _)
      simp [failureStreak, ih]
    | succeeded => rfl
    | _ => exact ih

theorem trippedBy_outage {call : ι} (ht : TrippedBy (fun _ => true) h call) :
    TrippedBy (fun rejected => !rejected) h call := by
  obtain ⟨id, rejected, older, hsub, hstreak⟩ := ht
  refine ⟨id, rejected, older, hsub, ?_⟩
  rwa [failureStreak_outage fun call id rejected hmem =>
    hall call id rejected (hsub.mem hmem)]

theorem cooldownInForce_outage {endMs : UInt64} (hc : CooldownInForce (fun _ => true) h endMs) :
    CooldownInForce (fun rejected => !rejected) h endMs := by
  induction h with
  | nil => exact hc
  | cons e older ih =>
    have hall' : ∀ call id rejected, .failed call id rejected ∈ older → rejected = false :=
      fun call id rejected hmem => hall call id rejected (.tail _ hmem)
    cases e with
    | cooled call id end' => exact ⟨hc.1, trippedBy_outage hall' hc.2⟩
    | cleared => exact hc
    | _ => exact ih hall' hc

theorem diverted_outage {call : ι} {id : UInt64} (hd : Diverted (fun _ => true) h call id) :
    Diverted (fun rejected => !rejected) h call id := by
  rcases hd with ⟨rejected, hmem, -⟩ | ⟨now, endMs, older, hsub, hlt, hforce⟩
  · exact .inl ⟨rejected, hmem, by rw [hall call id rejected hmem]; rfl⟩
  · refine .inr ⟨now, endMs, older, hsub, hlt, cooldownInForce_outage (fun c i r hmem => ?_) hforce⟩
    exact hall c i r (hsub.mem (.tail _ hmem))

end Outages

/-! ### The breaker agrees with the history -/

/-- What the breaker and the history say of each other. -/
structure BreakerInv (req : ι → ElectrumRequest α) (s : ElectrumState ι) : Prop where
  /-- The counter counts consecutive failures. -/
  streak : s.primaryFailCount.toNat ≤ failureStreak (fun _ => true) s.history
  /-- A cooldown that has not ended was started by a streak. -/
  cooldown : s.primaryCooldownUntilMs = 0 ∨
    CooldownInForce (fun _ => true) s.history s.primaryCooldownUntilMs
  /-- A request reaches a fallback after a failure or in a cooldown. -/
  diverted : ∀ call id server older, .askedFallback call id server :: older <:+ s.history →
    Diverted (fun _ => true) older call id
  /-- A counted failure is that of a request the primary was sent. -/
  failed : ∀ call id rejected, .failed call id rejected ∈ s.history →
    .askedPrimary call id ∈ s.history ∧ rejected = rejects id ((req call).answers 0 id)
  /-- A success is no rejection. -/
  succeeded : ∀ call id, .succeeded call id ∈ s.history →
    rejects id ((req call).answers 0 id) = false

theorem breakerInv_new (req : ι → ElectrumRequest α) (nowMillis : UInt64) :
    BreakerInv req (.new nowMillis) where
  streak := Nat.zero_le _
  cooldown := .inl rfl
  diverted := by simp [ElectrumState.new]
  failed := by simp [ElectrumState.new]
  succeeded := by simp [ElectrumState.new]

namespace BreakerInv

variable {req : ι → ElectrumRequest α} {s : ElectrumState ι} {i : ι} {id : UInt64}

theorem congr {s' : ElectrumState ι} (hinv : BreakerInv req s)
    (hcount : s'.primaryFailCount = s.primaryFailCount)
    (hcooldown : s'.primaryCooldownUntilMs = s.primaryCooldownUntilMs)
    (hhistory : s'.history = s.history) : BreakerInv req s' := by
  obtain ⟨h₁, h₂, h₃, h₄, h₅⟩ := hinv
  constructor <;> simpa only [hcount, hcooldown, hhistory]

/-- What an event must bring with it. -/
theorem push {s' : ElectrumState ι} {e : ElectrumEvent ι} (hinv : BreakerInv req s)
    (hhistory : s'.history = e :: s.history)
    (hstreak : s'.primaryFailCount.toNat ≤ failureStreak (fun _ => true) (e :: s.history))
    (hcooldown : s'.primaryCooldownUntilMs = 0 ∨
      CooldownInForce (fun _ => true) (e :: s.history) s'.primaryCooldownUntilMs)
    (hdiverted : ∀ call id server, e = .askedFallback call id server →
      Diverted (fun _ => true) s.history call id)
    (hfailed : ∀ call id rejected, e = .failed call id rejected →
      .askedPrimary call id ∈ s.history ∧ rejected = rejects id ((req call).answers 0 id))
    (hsucceeded : ∀ call id, e = .succeeded call id →
      rejects id ((req call).answers 0 id) = false) : BreakerInv req s' where
  streak := hhistory ▸ hstreak
  cooldown := hhistory ▸ hcooldown
  diverted call id server older hsub := by
    rw [hhistory] at hsub
    rcases List.suffix_cons_iff.mp hsub with heq | hsub
    · obtain ⟨rfl, rfl⟩ := List.cons.inj heq
      exact hdiverted call id server rfl
    · exact hinv.diverted call id server older hsub
  failed call id rejected hmem := by
    rw [hhistory] at hmem ⊢
    rcases List.mem_cons.mp hmem with rfl | hmem
    · exact ⟨.tail _ (hfailed call id rejected rfl).1, (hfailed call id rejected rfl).2⟩
    · exact ⟨.tail _ (hinv.failed call id rejected hmem).1, (hinv.failed call id rejected hmem).2⟩
  succeeded call id hmem := by
    rw [hhistory] at hmem
    rcases List.mem_cons.mp hmem with rfl | hmem
    · exact hsucceeded call id rfl
    · exact hinv.succeeded call id hmem

theorem looked (hinv : BreakerInv req s) (now endMs : UInt64) :
    BreakerInv req { s with history := .looked i id now endMs :: s.history } :=
  hinv.push rfl hinv.streak hinv.cooldown (by simp) (by simp) (by simp)

theorem askedPrimary (hinv : BreakerInv req s) (i : ι) (id : UInt64) :
    BreakerInv req { s with history := .askedPrimary i id :: s.history } :=
  hinv.push rfl hinv.streak hinv.cooldown (by simp) (by simp) (by simp)

theorem askedFallback (hinv : BreakerInv req s) (server : ServerUrl)
    (hdiverted : Diverted (fun _ => true) s.history i id) :
    BreakerInv req { s with history := .askedFallback i id server :: s.history } := by
  refine hinv.push rfl hinv.streak hinv.cooldown ?_ (by simp) (by simp)
  rintro _ _ _ ⟨⟩
  exact hdiverted

theorem toNat_count_succ_le (hinv : BreakerInv req s) (i : ι) (id : UInt64) (rejected : Bool) :
    (s.primaryFailCount + 1).toNat ≤
      failureStreak (fun _ => true) (.failed i id rejected :: s.history) := by
  have hstreak := hinv.streak
  have hsucc : (s.primaryFailCount + 1).toNat ≤ s.primaryFailCount.toNat + 1 := by
    rw [UInt32.toNat_add]
    exact Nat.mod_le _ _
  rw [failureStreak, if_pos rfl]
  omega

theorem countFailed (hinv : BreakerInv req s) (hasked : .askedPrimary i id ∈ s.history) :
    BreakerInv req { s with
      primaryFailCount := s.primaryFailCount + 1
      history := .failed i id (rejects id ((req i).answers 0 id)) :: s.history } := by
  refine hinv.push rfl (hinv.toNat_count_succ_le _ _ _) hinv.cooldown (by simp) ?_ (by simp)
  rintro _ _ _ ⟨⟩
  exact ⟨hasked, rfl⟩

theorem cooled (hinv : BreakerInv req s) (id endMs : UInt64)
    (htripped : TrippedBy (fun _ => true) s.history i) :
    BreakerInv req { s with
      primaryCooldownUntilMs := endMs
      history := .cooled i id endMs :: s.history } :=
  hinv.push rfl hinv.streak (.inr ⟨rfl, htripped⟩) (by simp) (by simp) (by simp)

theorem countReset (hinv : BreakerInv req s)
    (haccepted : rejects id ((req i).answers 0 id) = false) :
    BreakerInv req { s with
      primaryFailCount := 0
      history := .succeeded i id :: s.history } := by
  refine hinv.push rfl (Nat.zero_le _) hinv.cooldown (by simp) (by simp) ?_
  rintro _ _ ⟨⟩
  exact haccepted

theorem cleared (hinv : BreakerInv req s) (i : ι) (id : UInt64) :
    BreakerInv req { s with
      primaryCooldownUntilMs := 0
      history := .cleared i id :: s.history } :=
  hinv.push rfl hinv.streak (.inl rfl) (by simp) (by simp) (by simp)

end BreakerInv

/-! ### Calls keep the breaker in agreement -/

/-- The history grows and the breaker stays in agreement with it. -/
def breakerRely (req : ι → ElectrumRequest α) : Rely (ElectrumState ι) where
  rel s s' := s.history <:+ s'.history ∧ (BreakerInv req s → BreakerInv req s')
  refl _ := ⟨List.suffix_rfl, id⟩
  trans h h' := ⟨h.1.trans h'.1, h'.2 ∘ h.2⟩

/-- Whatever the others do, the calls keep the breaker in agreement; at the end `Q` holds. -/
abbrev KeepsBreaker (req : ι → ElectrumRequest α) {β : Type} (Q : β → ElectrumState ι → Prop)
    (p : ElectrumProg ι β) (s : ElectrumState ι) : Prop :=
  p.Guarantees (breakerRely req) (breakerRely req).rel
    (fun b s' => BreakerInv req s' ∧ Q b s') s

section Calls

variable {req : ι → ElectrumRequest α} {s : ElectrumState ι} {i : ι} {id : UInt64}

theorem keepsBreaker_tryFallbacks (hinv : BreakerInv req s)
    (hdiverted : Diverted (fun _ => true) s.history i id) (attempt : ℕ) (lastErr : AppError)
    (servers : List ServerUrl) :
    KeepsBreaker req (fun _ _ => True) (tryFallbacks (req i) i id attempt lastErr servers) s := by
  induction servers generalizing attempt lastErr s with
  | nil => trivial
  | cons server rest ih =>
    intro s₁ ⟨hsub, hkeep⟩
    have hinv₁ := (hkeep hinv).askedFallback server (hdiverted.mono hsub)
    refine ⟨⟨List.suffix_cons _ _, fun _ => hinv₁⟩, ?_⟩
    simp only [Prog.pure_eq]
    cases (req i).answers attempt id >>= fun response => response.intoResult id with
    | ok value => exact ⟨hinv₁, trivial⟩
    | error e => exact ih hinv₁ ((hdiverted.mono hsub).mono (List.suffix_cons _ _)) _ e

/-- A failure of the primary is counted, and lets the request through. -/
theorem keepsBreaker_recordPrimaryFailure (hinv : BreakerInv req s)
    (hasked : .askedPrimary i id ∈ s.history) (now : UInt64) :
    KeepsBreaker req (fun _ s' => Diverted (fun _ => true) s'.history i id)
      (recordPrimaryFailure i id now (rejects id ((req i).answers 0 id))) s := by
  intro s₁ ⟨hsub, hkeep⟩
  have hinv₁ := (hkeep hinv).countFailed (hsub.mem hasked)
  refine ⟨⟨List.suffix_cons _ _, fun _ => hinv₁⟩, ?_⟩
  have hcount := (hkeep hinv).toNat_count_succ_le i id
    (rejects id ((req i).answers 0 id))
  change Prog.Guarantees _ _ _ (if primaryFailThreshold ≤ s₁.primaryFailCount + 1 then _ else _) _
  split_ifs with hge
  · intro s₂ ⟨hsub₂, hkeep₂⟩
    have htripped : TrippedBy (fun _ => true) s₂.history i :=
      ⟨_, _, _, hsub₂, (UInt32.le_iff_toNat_le.mp hge).trans hcount⟩
    have hinv₂ := (hkeep₂ hinv₁).cooled id (Lib.saturatingAddU now primaryCooldown) htripped
    have hown : .failed i id (rejects id ((req i).answers 0 id)) ∈ s₂.history :=
      hsub₂.mem (.head _)
    exact ⟨⟨List.suffix_cons _ _, fun _ => hinv₂⟩, hinv₂, .inl ⟨_, .tail _ hown, by trivial⟩⟩
  · exact ⟨hinv₁, .inl ⟨_, .head _, by trivial⟩⟩

theorem keepsBreaker_recordPrimarySuccess (hinv : BreakerInv req s)
    (haccepted : rejects id ((req i).answers 0 id) = false) :
    KeepsBreaker req (fun _ _ => True) (recordPrimarySuccess i id) s := by
  intro s₁ ⟨_, hkeep⟩
  have hinv₁ := (hkeep hinv).countReset haccepted
  refine ⟨⟨List.suffix_cons _ _, fun _ => hinv₁⟩, fun s₂ ⟨_, hkeep₂⟩ => ?_⟩
  have hinv₂ := (hkeep₂ hinv₁).cleared i id
  exact ⟨⟨List.suffix_cons _ _, fun _ => hinv₂⟩, hinv₂, trivial⟩

theorem rejects_of_intoResult {exchange : Except AppError (JsonRpcResponse α)} {value : α}
    (h : (exchange >>= fun response => response.intoResult id) = .ok value) :
    rejects id exchange = false := by
  cases exchange with
  | error e => rfl
  | ok response =>
    cases herror : response.error with
    | none => simp [rejects, herror]
    | some msg =>
      change response.intoResult id = _ at h
      rw [JsonRpcResponse.intoResult, herror] at h
      cases h

/-- With a primary, a request goes to the fallbacks after it or in a cooldown. -/
theorem keepsBreaker_tryServers {client : FailoverClient} (hinv : BreakerInv req s)
    (now : UInt64) {p : Option ServerUrl}
    (hskipped : p = none → Diverted (fun _ => true) s.history i id) :
    KeepsBreaker req (fun _ _ => True) (client.tryServers (req i) i id now p) s := by
  cases p with
  | none => exact keepsBreaker_tryFallbacks hinv (hskipped rfl) _ _ _
  | some p =>
    intro s₁ ⟨_, hkeep⟩
    have hinv₁ := (hkeep hinv).askedPrimary i id
    refine ⟨⟨List.suffix_cons _ _, fun _ => hinv₁⟩, ?_⟩
    simp only [Prog.pure_eq]
    cases hanswer : (req i).answers 0 id >>= fun response => response.intoResult id with
    | ok value =>
      change Prog.Guarantees _ _ _ (recordPrimarySuccess i id >>= fun _ => Prog.ret value) _
      refine Prog.Guarantees.bind (Prog.Guarantees.imp (fun _ _ h => h) (fun _ s₂ h => ?_)
        (keepsBreaker_recordPrimarySuccess hinv₁ (rejects_of_intoResult hanswer)))
      exact h
    | error e =>
      change Prog.Guarantees _ _ _ (recordPrimaryFailure i id now _ >>= fun _ =>
        tryFallbacks (req i) i id 1 e _) _
      refine Prog.Guarantees.bind (Prog.Guarantees.imp (fun _ _ h => h) (fun _ s₂ h => ?_)
        (keepsBreaker_recordPrimaryFailure hinv₁ (.head _) now))
      exact keepsBreaker_tryFallbacks h.1 h.2 _ _ _

/-- **A call keeps the breaker in agreement.** -/
theorem keepsBreaker_call (p : ServerUrl) (fallbacks : List ServerUrl) (hinv : BreakerInv req s) :
    KeepsBreaker req (fun _ _ => True)
      (FailoverClient.call ⟨some p, fallbacks⟩ (req i) i) s := by
  intro s₁ ⟨_, hkeep⟩
  have hinv₁ : BreakerInv req { s₁ with nextId := s₁.nextId + 1 } :=
    (hkeep hinv).congr rfl rfl rfl
  refine ⟨⟨List.suffix_rfl, fun _ => hinv₁⟩, fun s₂ ⟨_, hkeep₂⟩ => ?_⟩
  refine ⟨(breakerRely req).refl _, fun s₃ ⟨_, hkeep₃⟩ => ?_⟩
  have hinv₃ := hkeep₃ (hkeep₂ hinv₁)
  refine ⟨⟨List.suffix_cons _ _, fun _ => hinv₃.looked _ _⟩, ?_⟩
  refine keepsBreaker_tryServers (hinv₃.looked _ _) _ fun hskipped => ?_
  -- it is skipped in a cooldown, and a cooldown is in force
  have hlt : s₂.nowMillis < s₃.primaryCooldownUntilMs := by
    by_contra hge
    simp [hge] at hskipped
  refine .inr ⟨_, _, _, List.suffix_rfl, hlt, hinv₃.cooldown.resolve_left fun hzero => ?_⟩
  rw [hzero] at hlt
  exact absurd hlt (by simp)

end Calls

section Runs

variable [DecidableEq ι] {req : ι → ElectrumRequest α} {p : ServerUrl} {fallbacks : List ServerUrl}
  {nowMillis : UInt64} {es : List (Prog.Event ι (ElectrumState ι))}
  {c : ElectrumState ι × (ι → ElectrumProg ι α)}

/-- The breaker and the history agree throughout a run. -/
theorem breakerInv_of_run
    (h : (Prog.pool ClockOnly).Run
      (.new nowMillis, fun i => FailoverClient.call ⟨some p, fallbacks⟩ (req i) i) es c) :
    BreakerInv req c.1 := by
  have hclock : ∀ s s' : ElectrumState ι, ClockOnly s s' → (breakerRely req).rel s s' := by
    intro s s' hclock
    rw [hclock]
    exact ⟨List.suffix_rfl, fun hinv => hinv.congr rfl rfl rfl⟩
  have hnew := breakerInv_new req nowMillis
  have hevents := Prog.guarantees_of_run (R := breakerRely req) (G := fun _ => (breakerRely req).rel)
    (Q := fun _ _ s => BreakerInv req s ∧ True) (fun _ _ _ _ hR hQ => ⟨hR.2 hQ.1, trivial⟩)
    (fun _ => (breakerRely req).refl) (fun _ _ _ hG => hG) hclock h
    fun i => keepsBreaker_call p fallbacks hnew
  refine (Prog.rel_of_run (R := breakerRely req) h fun e he => ?_).2 hnew
  cases hwho : e.who with
  | none => exact hclock _ _ ((hevents e he).1 hwho)
  | some i => exact (hevents e he).2 i hwho

/-- **What the fallbacks see**: while the primary answers no request it is sent with a JSON-RPC
error, they are sent a request only when it is down; and once every answer is heard, only then. -/
theorem fallback_private_iff
    (h : (Prog.pool ClockOnly).Run
      (.new nowMillis, fun i => FailoverClient.call ⟨some p, fallbacks⟩ (req i) i) es c) :
    (NoneRejected req c.1.history → FallbackPrivate c.1.history) ∧
      (AllHeard c.1.history → FallbackPrivate c.1.history → NoneRejected req c.1.history) := by
  have hinv := breakerInv_of_run h
  constructor
  · intro hnone
    have hall : ∀ call id rejected, .failed call id rejected ∈ c.1.history → rejected = false := by
      intro call id rejected hmem
      obtain ⟨hasked, hrejected⟩ := hinv.failed call id rejected hmem
      rw [hrejected, hnone call id hasked]
    refine ⟨fun call id server older hsub => ?_, hall⟩
    refine diverted_outage (fun c i r hmem => ?_) (hinv.diverted call id server older hsub)
    exact hall c i r (hsub.mem (.tail _ hmem))
  · intro hheard hprivate call id hasked
    rcases hheard call id hasked with ⟨rejected, hfailed⟩ | hsucceeded
    · rw [← (hinv.failed call id rejected hfailed).2, hprivate.counted call id rejected hfailed]
    · exact hinv.succeeded call id hsucceeded

end Runs

/-- A server of others. -/
def publicServer : ServerUrl := ⟨"electrum.example", 50002, true⟩

/-- The operator's server. -/
def ownServer : ServerUrl := ⟨"fulcrum.internal", 50001, false⟩

/-- A request whose attempt at the primary gives `first`, and which a fallback answers. -/
def divertible (first : UInt64 → Except AppError (JsonRpcResponse Unit)) : ElectrumRequest Unit where
  answers attempt id := if attempt = 0 then first id else .ok ⟨some (), none, id⟩
  shuffle := id
  shuffle_perm := .refl

/-- Three requests while the primary is down. -/
def outageStart : ElectrumState (Fin 3) × (Fin 3 → ElectrumProg (Fin 3) Unit) :=
  (.new 1000, fun i => FailoverClient.call ⟨some ownServer, [publicServer]⟩
    (divertible fun _ => .error (.nodeError "Electrum TCP connect timed out")) i)

/-- One after another. -/
def outageTurns : List (Fin 3 × ℕ) := Lib.numbered [(0, 6), (1, 7), (2, 4)]

/-- In an outage two requests fail at the primary and the third skips it. -/
theorem fallback_private_outage :
    FallbackPrivate (Prog.play outageTurns outageStart).1.history ∧
      .askedFallback 2 3 publicServer ∈ (Prog.play outageTurns outageStart).1.history ∧
      .askedPrimary 2 3 ∉ (Prog.play outageTurns outageStart).1.history := by
  refine ⟨(fallback_private_iff (Prog.run_play ClockOnly _ outageStart)).1 fun call id _ => rfl, ?_⟩
  have hhistory : (Prog.play outageTurns outageStart).1.history =
      [.askedFallback 2 3 publicServer, .looked 2 3 1000 31000, .askedFallback 1 2 publicServer,
        .cooled 1 2 31000, .failed 1 2 false, .askedPrimary 1 2, .looked 1 2 1000 0,
        .askedFallback 0 1 publicServer, .failed 0 1 false, .askedPrimary 0 1,
        .looked 0 1 1000 0] := by
    decide +kernel
  rw [hhistory]
  simp

/-- A healthy primary that does not know a transaction. -/
def unknownTransaction : ElectrumRequest Unit :=
  divertible fun id => .ok ⟨none, some "No such mempool or blockchain transaction", id⟩

/-- The request goes to a fallback. -/
theorem rejection_diverted :
    ¬ ∀ (req : Unit → ElectrumRequest Unit) (es : List (Prog.Event Unit (ElectrumState Unit)))
      (c : ElectrumState Unit × (Unit → ElectrumProg Unit Unit)),
      (Prog.pool ClockOnly).Run
        (.new 1000, fun i => FailoverClient.call ⟨some ownServer, [publicServer]⟩ (req i) i) es c →
        FallbackPrivate c.1.history := by
  intro hclaim
  have hprivate := hclaim (fun _ => unknownTransaction) _ _ (Prog.run_play ClockOnly [((), 6)] _)
  have hhistory : (Prog.play [((), 6)] (ElectrumState.new 1000, fun i =>
      FailoverClient.call ⟨some ownServer, [publicServer]⟩ unknownTransaction i)).1.history =
      [.askedFallback () 1 publicServer, .failed () 1 true, .askedPrimary () 1,
        .looked () 1 1000 0] := by
    decide +kernel
  rw [hhistory] at hprivate
  rcases hprivate.diverted () 1 publicServer _ List.suffix_rfl with
    ⟨rejected, hmem, houtage⟩ | ⟨now, endMs, older, hsub, hlt, -⟩
  · simp_all
  · have hmem : .looked () 1 now endMs ∈ [.failed () 1 true, .askedPrimary () 1,
        ElectrumEvent.looked () 1 1000 0] := hsub.mem (.head _)
    simp_all

end SmirkBackend
