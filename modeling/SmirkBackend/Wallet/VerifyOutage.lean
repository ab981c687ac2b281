import SmirkBackend.Wallet.DelegatedVerify

/-!
# Outages in delegated verification

An outage must not look like a missing payment.  A read fails when the transport does, when the
node answers with an error, when a body cannot be decoded, or when the daemon gives a status other
than OK.  All these failures end a verification with an error, but for the last one: the client
reads a daemon's refusal as an unknown transaction, and does not look at the status of its height.

`verify_propagates` proves the former for all failures but a refused answer, and
`outage_never_negative_iff` gives the runs in which an outage is never a verdict.
-/

namespace SmirkBackend

open Lib (Exchange Remote)
open Lib.Remote (Trace)

/-! ### Failed reads -/

/-- One exchange with an Electrum server fails: no envelope, an error, another request's answer, or
none. -/
def AttemptFails {α : Type} (id : UInt64) : Except AppError (JsonRpcResponse α) → Prop
  | .error _ => True
  | .ok r => r.error.isSome ∨ r.id ≠ id ∨ r.result = none

/-- A Grin envelope without a result. -/
def EnvelopeFails {α : Type} : Except AppError (RpcEnvelope α) → Prop
  | .error _ => True
  | .ok env => env.error.isSome ∨ env.result = none ∨ ∃ reason, env.result = some (.err reason)

/-- A daemon's answer was decoded, and its status is not OK. -/
def Refused : VerifyExchange → Prop
  | ⟨.daemonInfo _, .ok resp⟩ =>
    resp.error = false ∧ resp.result.isSome = true ∧ resp.status ≠ "OK"
  | ⟨.daemonTransactions _ _, .ok resp⟩ => resp.status ≠ "OK"
  | _ => False

/-- Any other failure of a read: of the transport, by an error of the node, or by the body. -/
def Broken : VerifyExchange → Prop
  | ⟨_, .error _⟩ => True
  | ⟨.history _ _, .ok call⟩ => ∀ a ∈ call.attempts, AttemptFails call.id a
  | ⟨.transaction _ _, .ok call⟩ => ∀ a ∈ call.attempts, AttemptFails call.id a
  | ⟨.addressTxs _ _ _, .ok resp⟩ => LwsClient.maxParsedVec < resp.transactions.length
  | ⟨.daemonInfo _, .ok resp⟩ => resp.error = true ∨ resp.result = none
  | ⟨.daemonTransactions _ _, .ok _⟩ => False
  | ⟨.scanRewindHash _, .ok attempts⟩ => EnvelopeFails attempts.first ∧ EnvelopeFails attempts.second
  | ⟨.nodeStatus, .ok env⟩ => EnvelopeFails (.ok env)

/-- A read failed. -/
def Unanswered (x : VerifyExchange) : Prop := Broken x ∨ Refused x

theorem intoResult_isError_iff {α : Type} {id : UInt64}
    (a : Except AppError (JsonRpcResponse α)) :
    (∃ e, (a >>= fun r => r.intoResult id) = .error e) ↔ AttemptFails id a := by
  cases a with
  | error e => exact ⟨fun _ => trivial, fun _ => ⟨e, rfl⟩⟩
  | ok r =>
    simp only [AttemptFails, bind, Except.bind, JsonRpcResponse.intoResult]
    cases r.error with
    | some msg => simp
    | none =>
      by_cases hid : r.id = id
      · cases r.result <;> simp [hid]
      · simp [hid]

theorem firstUsable_isError_iff {α : Type} {id : UInt64} (e : AppError)
    (attempts : List (Except AppError (JsonRpcResponse α))) :
    (∃ e', firstUsable id e attempts = .error e') ↔ ∀ a ∈ attempts, AttemptFails id a := by
  induction attempts generalizing e with
  | nil => simp [firstUsable]
  | cons a rest ih =>
    rw [List.forall_mem_cons, ← intoResult_isError_iff]
    cases h : a >>= fun r => r.intoResult id with
    | ok v => simp [firstUsable, h]
    | error e' => simp [firstUsable, h, ih]

theorem electrumCall_isError_iff {α : Type} (c : ElectrumCall α) :
    (∃ e, c.run = .error e) ↔ ∀ a ∈ c.attempts, AttemptFails c.id a := by
  unfold ElectrumCall.run
  split_ifs with hempty
  · rw [List.isEmpty_iff.mp hempty]
    simp
  · exact firstUsable_isError_iff _ _

theorem envelope_isError_iff {α : Type} (a : Except AppError (RpcEnvelope α)) (what : String) :
    (∃ e, (a >>= fun env => env.intoResult what) = .error e) ↔ EnvelopeFails a := by
  cases a with
  | error e => exact ⟨fun _ => trivial, fun _ => ⟨e, rfl⟩⟩
  | ok env =>
    simp only [EnvelopeFails, bind, Except.bind, RpcEnvelope.intoResult]
    rcases env with ⟨_ | _ | _, _ | _⟩ <;> simp

/-! ### Failures that end in an error -/

theorem propagates_ask_bind {α : Type} {q : UpstreamRead} {f : q.Reply → VerifyProgram α}
    (hbroken : ∀ reply, Broken ⟨q, .ok reply⟩ → ∃ e, f reply = .fail e)
    (hf : ∀ reply, (f reply).Propagates Broken) : (ask q >>= f).Propagates Broken := by
  refine Remote.propagates_ask (fun a hbad => ?_) fun a => ?_
  · cases a with
    | error e => exact ⟨e, rfl⟩
    | ok reply => exact hbroken reply hbad
  · cases a with
    | error e => exact Remote.propagates_fail e
    | ok reply => exact hf reply

theorem ofExcept_eq_fail {α : Type} {x : Except AppError α} (h : ∃ e, x = .error e) :
    ∃ e, (Remote.ofExcept x : VerifyProgram α) = .fail e := by
  obtain ⟨e, rfl⟩ := h
  exact ⟨e, rfl⟩

namespace Verify

theorem getHistory_propagates (coin : String) (decode : String → Except AppError String)
    (address : String) : (getHistory coin decode address).Propagates Broken := by
  refine (Remote.propagates_ofExcept _).bind fun scripthash => ?_
  refine propagates_ask_bind (fun call hbroken => ?_) fun call => Remote.propagates_ofExcept _
  exact ofExcept_eq_fail ((electrumCall_isError_iff call).mpr hbroken)

theorem getTransactionVerbose_propagates (coin txid : String) :
    (getTransactionVerbose coin txid).Propagates Broken := by
  refine propagates_ask_bind (fun call hbroken => ?_) fun call => Remote.propagates_ofExcept _
  exact ofExcept_eq_fail ((electrumCall_isError_iff call).mpr hbroken)

theorem getAddressTxs_propagates (coin : String) (c : LwsClient) (address viewKey : String) :
    (getAddressTxs coin c address viewKey).Propagates Broken := by
  refine propagates_ask_bind (fun resp hbroken => ?_) fun resp => ?_
  · exact ⟨_, if_pos hbroken⟩
  · split_ifs
    · exact Remote.propagates_fail _
    · exact Remote.propagates_ret _

theorem getBlockchainHeight_propagates (coin : String) (c : LwsClient) :
    (getBlockchainHeight coin c).Propagates Broken := by
  unfold getBlockchainHeight
  split_ifs
  · exact Remote.propagates_fail _
  · refine propagates_ask_bind (fun resp hbroken => ?_) fun resp => ?_
    · rcases resp with ⟨result, status, error⟩
      rcases hbroken with herror | hnone
      · exact ⟨_, if_pos herror⟩
      · cases error with
        | true => exact ⟨_, rfl⟩
        | false =>
          obtain rfl : result = none := hnone
          exact ⟨_, rfl⟩
    · split_ifs
      · exact Remote.propagates_fail _
      · exact Remote.propagates_ofExcept _

theorem getTransactionConfirmations_propagates (coin : String) (c : LwsClient) (txid : String) :
    (getTransactionConfirmations coin c txid).Propagates Broken := by
  unfold getTransactionConfirmations
  split_ifs
  · exact Remote.propagates_fail _
  · refine (getBlockchainHeight_propagates coin c).bind fun height => ?_
    exact propagates_ask_bind (fun resp hbroken => hbroken.elim) fun resp =>
      Remote.propagates_ret _

theorem scanRewindHash_propagates (rewindHash : String) :
    (scanRewindHash rewindHash).Propagates Broken := by
  refine propagates_ask_bind (fun attempts hbroken => ?_) fun attempts => ?_
  · obtain ⟨hfirst, hsecond⟩ := hbroken
    obtain ⟨e, he⟩ := (envelope_isError_iff attempts.first "grin wallet").mpr hfirst
    rw [he]
    exact ofExcept_eq_fail ((envelope_isError_iff attempts.second "grin wallet").mpr hsecond)
  · split
    · exact Remote.propagates_ret _
    · exact Remote.propagates_ofExcept _

theorem getHeight_propagates : getHeight.Propagates Broken :=
  propagates_ask_bind
    (fun env hbroken => ofExcept_eq_fail ((envelope_isError_iff (.ok env) "grin node").mpr hbroken))
    fun _ => Remote.propagates_ofExcept _

end Verify

section Families

variable (inst : VerifyInstance) (coin : String) (req : VerifyRequest) (expected : UInt64)

theorem verifyUtxo_propagates : (verifyUtxo inst coin req expected).Propagates Broken := by
  refine (Remote.propagates_ofExcept _).bind fun electrum => ?_
  cases req.destAddress with
  | none => exact Remote.propagates_ret _
  | some destAddress =>
    refine (Remote.propagates_ofExcept _).bind fun _ => ?_
    refine (Verify.getHistory_propagates _ _ _).bind fun history => ?_
    split
    · exact Remote.propagates_ret _
    · split_ifs
      · exact Remote.propagates_ret _
      · refine (Verify.getTransactionVerbose_propagates _ _).bind fun tx => ?_
        exact (Remote.propagates_ofExcept _).bind fun _ => Remote.propagates_ret _

theorem verifyDepth_propagates (lws : LwsClient) (tx : AddressTx) :
    (verifyDepth coin req expected lws tx).Propagates Broken := by
  refine (Verify.getTransactionConfirmations_propagates _ _ _).bind fun confirmations => ?_
  split_ifs <;> exact Remote.propagates_ret _

theorem verifyCryptonote_propagates :
    (verifyCryptonote inst coin req expected).Propagates Broken := by
  refine (Remote.propagates_ofExcept _).bind fun lws => ?_
  cases req.viewKey with
  | none => exact Remote.propagates_ret _
  | some viewKey =>
    cases req.destAddress with
    | none => exact Remote.propagates_ret _
    | some destAddress =>
      refine (Remote.propagates_ofExcept _).bind fun _ => ?_
      refine (Remote.propagates_ofExcept _).bind fun _ => ?_
      refine (Remote.propagates_ofExcept _).bind fun _ => ?_
      refine (Verify.getAddressTxs_propagates _ _ _ _).bind fun txs => ?_
      split
      · exact Remote.propagates_ret _
      · split_ifs
        · exact Remote.propagates_ret _
        · exact verifyDepth_propagates coin req expected lws _

theorem verifyGrin_propagates : (verifyGrin inst coin req expected).Propagates Broken := by
  refine (Remote.propagates_ofExcept _).bind fun _ => ?_
  cases req.viewKey with
  | none => exact Remote.propagates_ret _
  | some rewindHash =>
    refine (Remote.propagates_ofExcept _).bind fun _ => ?_
    refine (Remote.propagates_ofExcept _).bind fun _ => ?_
    refine (Verify.scanRewindHash_propagates _).bind fun outputs => ?_
    split
    · exact Remote.propagates_ret _
    · exact Verify.getHeight_propagates.bind fun tip => Remote.propagates_ret _

end Families

/-- Every failure other than a refusal ends in an error. -/
theorem verify_propagates (inst : VerifyInstance) (req : VerifyRequest) :
    (verifyHandler inst req).Propagates Broken := by
  unfold verifyHandler
  cases parseU64 req.amount with
  | none => exact Remote.propagates_fail _
  | some expected =>
    simp only
    split
    · exact verifyUtxo_propagates _ _ _ _
    · exact verifyCryptonote_propagates _ _ _ _
    · exact verifyGrin_propagates _ _ _ _
    · exact Remote.propagates_fail _

/-! ### Refusals that do not -/

/-- A read of a daemon. -/
def UpstreamRead.OfDaemon : UpstreamRead → Prop
  | daemonInfo _ => True
  | daemonTransactions _ _ => True
  | _ => False

theorem ofDaemon_of_refused {x : VerifyExchange} (h : Refused x) : x.question.OfDaemon := by
  rcases x with ⟨q, e | reply⟩
  · cases q <;> exact h.elim
  · cases q with
    | daemonInfo coin => trivial
    | daemonTransactions coin txid => trivial
    | _ => exact h.elim

/-- A run with a refusal that fails has met another failure. -/
def RefusalPasses {α : Type} (p : VerifyProgram α) : Prop :=
  ∀ t e, Trace p t (.error e) → (∃ x ∈ t, Refused x) → ∃ x ∈ t, Broken x

/-- No daemon is asked. -/
abbrev AsksNoDaemon {α : Type} (p : VerifyProgram α) : Prop := p.Asks fun q => ¬ q.OfDaemon

theorem refusalPasses_of_failsOn {α : Type} {p : VerifyProgram α} (h : p.FailsOn Broken) :
    RefusalPasses p := fun t e htrace _ => h t e htrace

theorem refusalPasses_of_asksNoDaemon {α : Type} {p : VerifyProgram α} (h : AsksNoDaemon p) :
    RefusalPasses p := by
  rintro t e htrace ⟨x, hx, hrefused⟩
  exact absurd (ofDaemon_of_refused hrefused) (h t _ htrace x hx)

theorem RefusalPasses.bind {α β : Type} {p : VerifyProgram α} {f : α → VerifyProgram β}
    (hp : AsksNoDaemon p) (hf : ∀ a, RefusalPasses (f a)) : RefusalPasses (p >>= f) := by
  rintro t e htrace ⟨x, hx, hrefused⟩
  have hdaemon := ofDaemon_of_refused hrefused
  rcases Remote.trace_bind.mp htrace with ⟨e', h', -⟩ | ⟨a, t₁, t₂, rfl, h₁, h₂⟩
  · exact absurd hdaemon (hp t _ h' x hx)
  · rcases List.mem_append.mp hx with hx | hx
    · exact absurd hdaemon (hp t₁ _ h₁ x hx)
    · obtain ⟨y, hy, hbroken⟩ := hf a t₂ e h₂ ⟨x, hx, hrefused⟩
      exact ⟨y, List.mem_append_right _ hy, hbroken⟩

theorem asksNoDaemon_ask_bind {α : Type} {q : UpstreamRead} {f : q.Reply → VerifyProgram α}
    (hq : ¬ q.OfDaemon) (hf : ∀ reply, AsksNoDaemon (f reply)) : AsksNoDaemon (ask q >>= f) := by
  refine Remote.asks_ask hq fun a => ?_
  cases a with
  | error e => exact Remote.asks_fail e
  | ok reply => exact hf reply

theorem failsOn_ask_bind {α : Type} {q : UpstreamRead} {f : q.Reply → VerifyProgram α}
    (hf : ∀ reply, ¬ Broken ⟨q, .ok reply⟩ → (f reply).FailsOn Broken) :
    (ask q >>= f).FailsOn Broken := by
  intro t e htrace
  rcases Remote.trace_bind.mp htrace with ⟨e', h', -⟩ | ⟨reply, t₁, t₂, rfl, h₁, h₂⟩
  · obtain rfl := Remote.trace_question.mp h'
    exact ⟨_, .head _, trivial⟩
  · obtain rfl := Remote.trace_question.mp h₁
    by_cases hbroken : Broken ⟨q, .ok reply⟩
    · exact ⟨_, .head _, hbroken⟩
    · obtain ⟨x, hx, hx'⟩ := hf reply hbroken t₂ e h₂
      exact ⟨x, List.mem_append_right _ hx, hx'⟩

namespace Verify

theorem getHistory_asks (coin : String) (decode : String → Except AppError String)
    (address : String) : AsksNoDaemon (getHistory coin decode address) :=
  (Remote.asks_ofExcept _).bind fun _ => asksNoDaemon_ask_bind id fun _ => Remote.asks_ofExcept _

theorem getTransactionVerbose_asks (coin txid : String) :
    AsksNoDaemon (getTransactionVerbose coin txid) :=
  asksNoDaemon_ask_bind id fun _ => Remote.asks_ofExcept _

theorem getAddressTxs_asks (coin : String) (c : LwsClient) (address viewKey : String) :
    AsksNoDaemon (getAddressTxs coin c address viewKey) := by
  refine asksNoDaemon_ask_bind id fun resp => ?_
  split_ifs
  · exact Remote.asks_fail _
  · exact Remote.asks_ret _

theorem scanRewindHash_asks (rewindHash : String) : AsksNoDaemon (scanRewindHash rewindHash) := by
  refine asksNoDaemon_ask_bind id fun attempts => ?_
  split
  · exact Remote.asks_ret _
  · exact Remote.asks_ofExcept _

theorem getHeight_asks : AsksNoDaemon getHeight :=
  asksNoDaemon_ask_bind id fun _ => Remote.asks_ofExcept _

theorem getTransactionConfirmations_failsOn {coin : String} {c : LwsClient} {txid : String}
    (hdaemon : c.daemonConfigured = true) :
    (getTransactionConfirmations coin c txid).FailsOn Broken := by
  have hheight : (getBlockchainHeight coin c).FailsOn Broken := by
    unfold getBlockchainHeight
    rw [hdaemon]
    refine failsOn_ask_bind fun resp hbroken => ?_
    rcases resp with ⟨_ | height, status, _ | _⟩
    · exact absurd (.inr rfl) hbroken
    · exact absurd (.inl rfl) hbroken
    · exact Remote.failsOn_ret height
    · exact absurd (.inl rfl) hbroken
  unfold getTransactionConfirmations
  rw [hdaemon]
  exact hheight.bind fun _ => failsOn_ask_bind fun _ _ => Remote.failsOn_ret _

end Verify

section Families

variable (inst : VerifyInstance) (coin : String) (req : VerifyRequest) (expected : UInt64)

theorem verifyUtxo_asks : AsksNoDaemon (verifyUtxo inst coin req expected) := by
  refine (Remote.asks_ofExcept _).bind fun electrum => ?_
  cases req.destAddress with
  | none => exact Remote.asks_ret _
  | some destAddress =>
    refine (Remote.asks_ofExcept _).bind fun _ => ?_
    refine (Verify.getHistory_asks _ _ _).bind fun history => ?_
    split
    · exact Remote.asks_ret _
    · split_ifs
      · exact Remote.asks_ret _
      · refine (Verify.getTransactionVerbose_asks _ _).bind fun tx => ?_
        exact (Remote.asks_ofExcept _).bind fun _ => Remote.asks_ret _

theorem verifyGrin_asks : AsksNoDaemon (verifyGrin inst coin req expected) := by
  refine (Remote.asks_ofExcept _).bind fun _ => ?_
  cases req.viewKey with
  | none => exact Remote.asks_ret _
  | some rewindHash =>
    refine (Remote.asks_ofExcept _).bind fun _ => ?_
    refine (Remote.asks_ofExcept _).bind fun _ => ?_
    refine (Verify.scanRewindHash_asks _).bind fun outputs => ?_
    split
    · exact Remote.asks_ret _
    · exact Verify.getHeight_asks.bind fun tip => Remote.asks_ret _

theorem verifyDepth_refusalPasses (lws : LwsClient) (tx : AddressTx) :
    RefusalPasses (verifyDepth coin req expected lws tx) := by
  cases hdaemon : lws.daemonConfigured with
  | true =>
    refine refusalPasses_of_failsOn ?_
    refine (Verify.getTransactionConfirmations_failsOn hdaemon).bind fun confirmations => ?_
    split_ifs <;> exact Remote.failsOn_ret _
  | false =>
    -- without a daemon nothing is read
    have hfail : verifyDepth coin req expected lws tx =
        .fail (lws.nodeErr "daemon" "daemon URL not configured") := by
      unfold verifyDepth Verify.getTransactionConfirmations
      rw [hdaemon]
      rfl
    rw [hfail]
    exact refusalPasses_of_asksNoDaemon (Remote.asks_fail _)

theorem verifyCryptonote_refusalPasses :
    RefusalPasses (verifyCryptonote inst coin req expected) := by
  have hret : ∀ resp : VerifyResponse, RefusalPasses (.ret resp) := fun resp =>
    refusalPasses_of_asksNoDaemon (Remote.asks_ret resp)
  refine .bind (Remote.asks_ofExcept _) fun lws => ?_
  cases req.viewKey with
  | none => exact hret _
  | some viewKey =>
    cases req.destAddress with
    | none => exact hret _
    | some destAddress =>
      refine .bind (Remote.asks_ofExcept _) fun _ => ?_
      refine .bind (Remote.asks_ofExcept _) fun _ => ?_
      refine .bind (Remote.asks_ofExcept _) fun _ => ?_
      refine .bind (Verify.getAddressTxs_asks _ _ _ _) fun txs => ?_
      split
      · exact hret _
      · split_ifs
        · exact hret _
        · exact verifyDepth_refusalPasses coin req expected lws _

end Families

theorem verify_refusalPasses (inst : VerifyInstance) (req : VerifyRequest) :
    RefusalPasses (verifyHandler inst req) := by
  unfold verifyHandler
  cases parseU64 req.amount with
  | none => exact refusalPasses_of_asksNoDaemon (Remote.asks_fail _)
  | some expected =>
    simp only
    split
    · exact refusalPasses_of_asksNoDaemon (verifyUtxo_asks _ _ _ _)
    · exact verifyCryptonote_refusalPasses _ _ _ _
    · exact refusalPasses_of_asksNoDaemon (verifyGrin_asks _ _ _ _)
    · exact refusalPasses_of_asksNoDaemon (Remote.asks_fail _)

/-- **Outages and verdicts**: in a run of the endpoint, a failed read ends in an error exactly when
no daemon's refusal is read, or some other read fails as well. -/
theorem outage_never_negative_iff {inst : VerifyInstance} {req : VerifyRequest}
    {t : List VerifyExchange} {r : Except AppError VerifyResponse}
    (h : Trace (verifyHandler inst req) t r) :
    ((∃ x ∈ t, Unanswered x) → ∃ e, r = .error e) ↔
      (∀ x ∈ t, ¬ Refused x) ∨ ∃ x ∈ t, Broken x := by
  constructor
  · intro hclaim
    by_contra hnot
    rw [not_or, not_forall] at hnot
    obtain ⟨⟨x, hx⟩, hbroken⟩ := hnot
    rw [Classical.not_imp, not_not] at hx
    obtain ⟨e, rfl⟩ := hclaim ⟨x, hx.1, .inr hx.2⟩
    exact hbroken (verify_refusalPasses inst req t e h ⟨x, hx⟩)
  · rintro hcond ⟨x, hx, hfailed⟩
    have hbroken : ∃ x ∈ t, Broken x := by
      rcases hcond with hnone | hbroken
      · exact ⟨x, hx, hfailed.resolve_right (hnone x hx)⟩
      · exact hbroken
    exact verify_propagates inst req t r h hbroken

/-! ### A daemon that is busy -/

/-- An instance with XMR. -/
def xmrInstance : VerifyInstance where
  lowercase := toLowercase
  btc := none
  ltc := none
  xmr := some ⟨"XMR", true, fun _ _ => .error .rateLimited, .error .rateLimited,
    fun _ => .error .rateLimited⟩
  wow := none
  grin := false

/-- Was 7 paid by this transaction? -/
def sevenPaid : VerifyRequest :=
  ⟨"xmr", "cryptonote", "ab", "7", some "destination", some (String.ofList (List.replicate 64 '0'))⟩

/-- The light-wallet server has the payment, at height 100 of 200; the daemon has this to say. -/
def paidAnswers (txs : Except AppError GetTransactionsResponse) :
    (q : UpstreamRead) → Except AppError q.Reply
  | .addressTxs _ _ _ => .ok ⟨[⟨"ab", 100, 7, 0, false⟩], 200⟩
  | .daemonInfo _ => .ok ⟨some 200, "OK", false⟩
  | .daemonTransactions _ _ => txs
  | _ => .error .rateLimited

/-- The reads of that verification. -/
def paidReads : List UpstreamRead :=
  [.addressTxs "xmr" "destination" (String.ofList (List.replicate 64 '0')), .daemonInfo "xmr",
    .daemonTransactions "xmr" "ab"]

theorem trace_sevenPaid (txs : Except AppError GetTransactionsResponse)
    {r : Except AppError VerifyResponse}
    (hasked : (verifyHandler xmrInstance sevenPaid).asked (paidAnswers txs) = paidReads)
    (hresult : (verifyHandler xmrInstance sevenPaid).answered (paidAnswers txs) = r) :
    Trace (verifyHandler xmrInstance sevenPaid)
      (paidReads.map fun q => ⟨q, paidAnswers txs q⟩) r := by
  have h := Remote.trace_answered (verifyHandler xmrInstance sevenPaid) (paidAnswers txs)
  rwa [hasked, hresult] at h

/-- The transport to the daemon fails in the third read: the answer is an error. -/
theorem outage_never_negative_transport :
    Trace (verifyHandler xmrInstance sevenPaid)
      (paidReads.map fun q => ⟨q, paidAnswers (.error .rateLimited) q⟩)
      ((verifyHandler xmrInstance sevenPaid).answered (paidAnswers (.error .rateLimited))) ∧
    (∃ x ∈ paidReads.map fun q => ⟨q, paidAnswers (.error .rateLimited) q⟩, Unanswered x) ∧
    ∃ e, (verifyHandler xmrInstance sevenPaid).answered (paidAnswers (.error .rateLimited)) =
      .error e := by
  have htrace := trace_sevenPaid (.error .rateLimited) (by decide +kernel) rfl
  have hbroken : ∃ x ∈ paidReads.map fun q => ⟨q, paidAnswers (.error .rateLimited) q⟩, Broken x :=
    ⟨_, List.mem_map_of_mem (.tail _ (.tail _ (.head _))), trivial⟩
  obtain ⟨x, hx, hx'⟩ := hbroken
  exact ⟨htrace, ⟨x, hx, .inl hx'⟩,
    (outage_never_negative_iff htrace).mpr (.inr ⟨x, hx, hx'⟩) ⟨x, hx, .inl hx'⟩⟩

theorem outage_as_negative :
    ¬ ∀ (inst : VerifyInstance) (req : VerifyRequest) (t : List VerifyExchange)
      (r : Except AppError VerifyResponse), Trace (verifyHandler inst req) t r →
      (∃ x ∈ t, Unanswered x) → ∃ e, r = .error e := by
  intro hclaim
  have htrace := trace_sevenPaid (.ok ⟨none, "BUSY"⟩) (r := .ok (.failed notConfirmedReason))
    (by decide +kernel) (by decide +kernel)
  have hbusy : "BUSY" ≠ "OK" := by simp
  obtain ⟨e, he⟩ := hclaim _ _ _ _ htrace
    ⟨_, List.mem_map_of_mem (.tail _ (.tail _ (.head _))), .inr hbusy⟩
  cases he

end SmirkBackend
