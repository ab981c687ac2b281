import SmirkBackend.Tips.Confirmation
import SmirkBackend.Tips.ProbeFailure

/-!
# Upstream failures in the funding worker

The funding worker counts confirmations and then verifies amounts.  When an upstream fails it may
note that it looked, and nothing else.  A failed exchange does stop either pass before it writes.
But the client reads the status of the daemon's `get_transactions` as "unknown transaction", and
that of `get_info` not at all, so a daemon that answers "BUSY" makes the count pass write a count;
and where the verifier only stamps `last_confirmation_check`, the trigger of the table stamps
`updated_at` with it.

`FundingPass.failure` is what counts as an upstream failure in each pass, and
`fundingPass_failureIsolated_iff` says exactly when a pass is isolated from them.
-/

namespace SmirkBackend

open Lib (Table Patch)

/-! ### Failures -/

/-- The daemon did not affirm a confirmation count: an exchange failed, or an answer came with a
status other than "OK". -/
def CountFailure (c : LwsClient) (txid : String) : Prop :=
  Failed c.getBlockchainHeight ∨ (∃ info, c.getInfo = .ok info ∧ info.status ≠ "OK") ∨
  Failed (c.transactions txid) ∨ ∃ resp, c.transactions txid = .ok resp ∧ resp.status ≠ "OK"

/-- A read of the BTC and LTC amount check failed. -/
def ElectrumAmountFailure (chains : ChainClients) (tip : SocialTipRow) (asset : String) : Prop :=
  chains.electrum asset = none ∨
  ∃ c address, chains.electrum asset = some c ∧ tip.tipAddress = some address ∧
    (Failed (c.getHistory address) ∨
      ∃ history entry, c.getHistory address = .ok history ∧ entry ∈ history ∧ 0 < entry.height ∧
        (Failed (c.getTransactionVerbose entry.txHash) ∨
          ∃ tx, c.getTransactionVerbose entry.txHash = .ok tx ∧
            (Failed (tx.totalReceivedAt address) ∨
              (tx.totalReceivedAt address = .ok 0 ∧ Failed (tx.totalSentFrom address)))))

/-- The read of the XMR and WOW amount check failed. -/
def LwsAmountFailure (chains : ChainClients) (tip : SocialTipRow) (asset : String) : Prop :=
  chains.lws asset = none ∨
  ∃ c address viewKey, chains.lws asset = some c ∧ tip.tipAddress = some address ∧
    tip.tipViewKey = some viewKey ∧ Failed (c.getAddressTxs address viewKey)

/-- The read of the Grin amount check failed. -/
def GrinAmountFailure (chains : ChainClients) (tip : SocialTipRow) : Prop :=
  chains.grin = none ∨
  ∃ c commit, chains.grin = some c ∧ grinCommitment tip = some commit ∧
    Failed (c.getOutputs [commit])

/-- Some read the amount check of this tip needs brought no answer. -/
def AmountFailure (chains : ChainClients) (tip : SocialTipRow) : Prop :=
  match toLowercase tip.asset with
  | "btc" => ElectrumAmountFailure chains tip "btc"
  | "ltc" => ElectrumAmountFailure chains tip "ltc"
  | "xmr" => LwsAmountFailure chains tip "xmr"
  | "wow" => LwsAmountFailure chains tip "wow"
  | "grin" => GrinAmountFailure chains tip
  | _ => False

/-! ### The passes, for one row -/

/-- The three passes of the funding worker. -/
inductive FundingPass
  | countAsset
  | countGrin
  | verify

namespace FundingPass

/-- The table after one row of a pass; `tip` is the row as the pass polled it. -/
def run (pass : FundingPass) (chains : ChainClients) (now : Timestamp) (tip : SocialTipRow)
    (db : SocialTips) : SocialTips :=
  match pass with
  | countAsset =>
    match chains.lws tip.asset with
    | none => db
    | some lws => checkTipConfirmations lws now tip db
  | countGrin =>
    match chains.grin with
    | none => db
    | some grin =>
      match grin.getHeight with
      | .error _ => db
      | .ok tipHeight => checkGrinTipConfirmations grin tipHeight now tip db
  | verify => processPendingVerification chains now tip db

/-- An upstream failure while a pass handles a row. -/
def failure (pass : FundingPass) (chains : ChainClients) (tip : SocialTipRow) : Prop :=
  match pass with
  | countAsset => ∃ c txid, chains.lws tip.asset = some c ∧ tip.fundingTxid = some txid ∧
      CountFailure c txid
  | countGrin => ∃ c commit, chains.grin = some c ∧ grinCommitment tip = some commit ∧
      (Failed c.getHeight ∨ Failed (c.getOutputs [commit]))
  | verify => AmountFailure chains tip

/-- A pass is isolated from upstream failures: after one, it has written nothing but
`last_confirmation_check`. -/
def FailureIsolated (pass : FundingPass) (chains : ChainClients) (now : Timestamp)
    (tip : SocialTipRow) (db : SocialTips) : Prop :=
  pass.failure chains tip → SameButLastCheck db (pass.run chains now tip db)

end FundingPass

/-! ### What breaks the isolation -/

/-- Both exchanges of the count succeeded, and a status is not "OK": the client goes on with the
height and the transactions that came with it. -/
structure StatusIgnored (c : LwsClient) (txid : String) (height : UInt64)
    (resp : GetTransactionsResponse) : Prop where
  /-- A daemon is configured. -/
  configured : c.daemonConfigured
  /-- It answered both requests, one of them with another status. -/
  answers : ∃ status, c.getInfo = .ok ⟨some height, status, false⟩ ∧
    c.transactions txid = .ok resp ∧ (status ≠ "OK" ∨ resp.status ≠ "OK")

/-- The count the client reads off the two answers. -/
def countOf (height : UInt64) (resp : GetTransactionsResponse) : UInt64 :=
  if resp.status ≠ "OK" then 0
  else ((resp.txs.bind List.head?).bind fun tx =>
    LwsClient.confirmationsFrom tx.blockHeight tx.inPool height).getD 0

/-- Writing the count moves a column of the stored row besides `last_confirmation_check`. -/
def CountMoves (now : Timestamp) (tip : SocialTipRow) (db : SocialTips) (n : Int32) : Prop :=
  ∃ r, db.get? tip.id = some r ∧
    (r.fundingConfirmations ≠ n ∨ r.updatedAt ≠ now ∨
      (r.confirmationsRequired ≤ n ∧ r.fundingConfirmedAt = none))

/-- The stamp of the verifier moves `updated_at` of the stored row. -/
def StampMoves (now : Timestamp) (tip : SocialTipRow) (db : SocialTips) : Prop :=
  ∃ r, db.get? tip.id = some r ∧ r.updatedAt ≠ now

/-- A failure that reaches another column: a status the count pass ignores, or a stamp of the
verifier that the trigger follows. -/
def FundingPass.isolationBroken (pass : FundingPass) (chains : ChainClients) (now : Timestamp)
    (tip : SocialTipRow) (db : SocialTips) : Prop :=
  match pass with
  | .countAsset => ∃ c txid height resp, chains.lws tip.asset = some c ∧
      tip.fundingTxid = some txid ∧ txid ≠ "" ∧ StatusIgnored c txid height resp ∧
      CountMoves now tip db (confsI32 (countOf height resp))
  | .countGrin => False
  | .verify => AmountFailure chains tip ∧ StampMoves now tip db

/-! ### Writes -/

theorem sameButLastCheck_unguarded_iff (now : Timestamp) (db : SocialTips) (id : Uuid)
    (f : Patch SocialTipRow) :
    SameButLastCheck db (SocialTips.guardedUpdate now db id (fun _ => true) f).2 ↔
      ∀ r, db.get? id = some r →
        SocialTipRow.withoutCheck { f.set r with updatedAt := now } = r.withoutCheck := by
  simp only [SameButLastCheck, SocialTips.get?_guardedUpdate, and_true, Option.map_map]
  constructor
  · intro hsame r hr
    have h := hsame id
    simpa [hr] using h
  · intro h k
    cases hr : db.get? k with
    | none => rfl
    | some r =>
      by_cases hk : k = id
      · have hrow := h r (hk ▸ hr)
        simpa [hk] using hrow
      · simp [hk]

theorem sameButLastCheck_touch_iff (now : Timestamp) (tip : SocialTipRow) (db : SocialTips) :
    SameButLastCheck db (db.touchTipLastCheck now tip.id).2 ↔ ¬ StampMoves now tip db := by
  rw [SocialTips.touchTipLastCheck, sameButLastCheck_unguarded_iff]
  constructor
  · rintro h ⟨r, hr, hne⟩
    exact hne (congrArg SocialTipRow.updatedAt (h r hr)).symm
  · intro h r hr
    have hnow : r.updatedAt = now := by
      by_contra hne
      exact h ⟨r, hr, hne⟩
    subst hnow
    rfl

theorem sameButLastCheck_count_iff (now : Timestamp) (tip : SocialTipRow) (db : SocialTips)
    (n : Int32) :
    SameButLastCheck db (db.updateTipConfirmations now tip.id n).2 ↔
      ¬ CountMoves now tip db n := by
  rw [SocialTips.updateTipConfirmations, sameButLastCheck_unguarded_iff]
  constructor
  · rintro h ⟨r, hr, hmoves⟩
    have hrow := h r hr
    have hcount := congrArg SocialTipRow.fundingConfirmations hrow
    have hupdated := congrArg SocialTipRow.updatedAt hrow
    have hconfirmed := congrArg SocialTipRow.fundingConfirmedAt hrow
    rcases hmoves with hne | hne | ⟨hdeep, hnone⟩
    · exact hne hcount.symm
    · exact hne hupdated.symm
    · simp [SocialTipRow.withoutCheck, hdeep, hnone] at hconfirmed
  · intro h r hr
    have hkeep : r.fundingConfirmations = n ∧ r.updatedAt = now ∧
        ¬ (r.confirmationsRequired ≤ n ∧ r.fundingConfirmedAt = none) := by
      refine ⟨?_, ?_, ?_⟩
      · by_contra hne
        exact h ⟨r, hr, .inl hne⟩
      · by_contra hne
        exact h ⟨r, hr, .inr (.inl hne)⟩
      · intro hboth
        exact h ⟨r, hr, .inr (.inr hboth)⟩
    obtain ⟨rfl, rfl, hconfirmed⟩ := hkeep
    have hif : ¬ (decide (r.confirmationsRequired ≤ r.fundingConfirmations) &&
        r.fundingConfirmedAt.isNone) = true := by
      simpa using hconfirmed
    simp only [if_neg hif]
    rfl

/-! ### The count pass -/

theorem getTransactionConfirmations_of_answers {c : LwsClient} {txid status : String}
    {height : UInt64} {resp : GetTransactionsResponse} (hconf : c.daemonConfigured)
    (hinfo : c.getInfo = .ok ⟨some height, status, false⟩) (hresp : c.transactions txid = .ok resp) :
    c.getTransactionConfirmations txid = .ok (if resp.status ≠ "OK" then none
      else (resp.txs.bind List.head?).bind fun tx =>
        LwsClient.confirmationsFrom tx.blockHeight tx.inPool height) := by
  have hheight : c.getBlockchainHeight = .ok height := by
    simp [LwsClient.getBlockchainHeight, hconf, hinfo, bind, Except.bind, pure, Except.pure]
  by_cases hok : resp.status = "OK"
  · cases htx : resp.txs.bind List.head? <;>
      simp [LwsClient.getTransactionConfirmations, hconf, hheight, hresp, hok, htx, bind,
        Except.bind, pure, Except.pure]
  · simp [LwsClient.getTransactionConfirmations, hconf, hheight, hresp, hok, bind, Except.bind,
      pure, Except.pure]

/-- The client answers only if both exchanges succeeded. -/
theorem answers_of_not_failed {c : LwsClient} {txid : String}
    (h : ¬ Failed (c.getTransactionConfirmations txid)) :
    c.daemonConfigured ∧ ∃ height status resp, c.getInfo = .ok ⟨some height, status, false⟩ ∧
      c.transactions txid = .ok resp := by
  by_cases hconf : c.daemonConfigured
  · simp only [LwsClient.getTransactionConfirmations, hconf, Bool.not_true, Bool.false_eq_true,
      if_false, failed_bind, not_or, not_exists, not_and] at h
    obtain ⟨hheight, hrest⟩ := h
    obtain ⟨height, hheight⟩ := exists_ok_of_not_failed hheight
    obtain ⟨resp, hresp⟩ := exists_ok_of_not_failed (hrest height hheight).1
    refine ⟨hconf, height, ?_⟩
    -- the height came out of a successful `get_info`
    simp only [LwsClient.getBlockchainHeight, hconf, Bool.not_true, Bool.false_eq_true,
      if_false] at hheight
    cases hinfo : c.getInfo with
    | error e => simp [hinfo, bind, Except.bind] at hheight
    | ok info =>
      obtain ⟨result, status, error⟩ := info
      cases error with
      | true => simp [hinfo, bind, Except.bind, throw, throwThe, MonadExceptOf.throw] at hheight
      | false =>
        cases result with
        | none => simp [hinfo, bind, Except.bind, throw, throwThe, MonadExceptOf.throw] at hheight
        | some height' =>
          simp only [hinfo, bind, Except.bind, pure, Except.pure, Bool.false_eq_true, if_false,
            Except.ok.injEq] at hheight
          subst hheight
          exact ⟨status, resp, rfl, hresp⟩
  · refine absurd ⟨c.nodeErr "daemon" "daemon URL not configured", ?_⟩ h
    simp [LwsClient.getTransactionConfirmations, hconf]

theorem checkTipConfirmations_of_failed {c : LwsClient} {now : Timestamp} {tip : SocialTipRow}
    {db : SocialTips} {txid : String} (htxid : tip.fundingTxid = some txid)
    (h : Failed (c.getTransactionConfirmations txid)) :
    checkTipConfirmations c now tip db = db := by
  obtain ⟨e, he⟩ := h
  by_cases hne : txid = ""
  · simp [checkTipConfirmations, htxid, hne, Option.filter]
  · simp [checkTipConfirmations, htxid, hne, Option.filter, he]

/-- A row whose count the client read off two answers takes that count. -/
theorem checkTipConfirmations_of_answers {c : LwsClient} {now : Timestamp} {tip : SocialTipRow}
    {db : SocialTips} {txid status : String} {height : UInt64} {resp : GetTransactionsResponse}
    (htxid : tip.fundingTxid = some txid) (hne : txid ≠ "") (hconf : c.daemonConfigured)
    (hinfo : c.getInfo = .ok ⟨some height, status, false⟩) (hresp : c.transactions txid = .ok resp) :
    checkTipConfirmations c now tip db =
      (db.updateTipConfirmations now tip.id (confsI32 (countOf height resp))).2 := by
  have hcount := getTransactionConfirmations_of_answers hconf hinfo hresp
  have hzero : confsI32 0 = 0 := by decide
  by_cases hok : resp.status = "OK"
  · simp only [hok, ne_eq, not_true_eq_false, if_false] at hcount
    cases hread : (resp.txs.bind List.head?).bind fun tx =>
        LwsClient.confirmationsFrom tx.blockHeight tx.inPool height with
    | none =>
      rw [hread] at hcount
      simp [checkTipConfirmations, htxid, hne, Option.filter, hcount, countOf, hok, hread, hzero]
    | some n =>
      rw [hread] at hcount
      simp [checkTipConfirmations, htxid, hne, Option.filter, hcount, countOf, hok, hread]
  · simp only [hok, ne_eq, not_false_eq_true, if_true] at hcount
    simp [checkTipConfirmations, htxid, hne, Option.filter, hcount, countOf, hok, hzero]

theorem countAsset_isolated_iff (chains : ChainClients) (now : Timestamp) (tip : SocialTipRow)
    (db : SocialTips) :
    FundingPass.countAsset.FailureIsolated chains now tip db ↔
      ¬ FundingPass.countAsset.isolationBroken chains now tip db := by
  constructor
  · rintro hisolated ⟨c, txid, height, resp, hc, htxid, hne, ⟨hconf, status, hinfo, hresp, hbad⟩,
      hmoves⟩
    have hfail : FundingPass.countAsset.failure chains tip := by
      refine ⟨c, txid, hc, htxid, ?_⟩
      rcases hbad with hbad | hbad
      · exact .inr (.inl ⟨_, hinfo, hbad⟩)
      · exact .inr (.inr (.inr ⟨resp, hresp, hbad⟩))
    have hsame := hisolated hfail
    simp only [FundingPass.run, hc] at hsame
    rw [checkTipConfirmations_of_answers htxid hne hconf hinfo hresp] at hsame
    exact (sameButLastCheck_count_iff now tip db _).mp hsame hmoves
  · rintro hnot ⟨c, txid, hc, htxid, hfail⟩
    simp only [FundingPass.run, hc]
    by_cases hstop : Failed (c.getTransactionConfirmations txid)
    · rw [checkTipConfirmations_of_failed htxid hstop]
      exact fun _ => rfl
    · by_cases hne : txid = ""
      · have hskip : checkTipConfirmations c now tip db = db := by
          simp [checkTipConfirmations, htxid, hne, Option.filter]
        rw [hskip]
        exact fun _ => rfl
      · obtain ⟨hconf, height, status, resp, hinfo, hresp⟩ := answers_of_not_failed hstop
        rw [checkTipConfirmations_of_answers htxid hne hconf hinfo hresp,
          sameButLastCheck_count_iff]
        intro hmoves
        refine hnot ⟨c, txid, height, resp, hc, htxid, hne, ⟨hconf, status, hinfo, hresp, ?_⟩,
          hmoves⟩
        -- both exchanges succeeded, so the failure is a status
        rcases hfail with hfail | ⟨info, hinfo', hbad⟩ | hfail | ⟨resp', hresp', hbad⟩
        · obtain ⟨e, he⟩ := hfail
          simp [LwsClient.getBlockchainHeight, hconf, hinfo, bind, Except.bind, pure,
            Except.pure] at he
        · rw [hinfo] at hinfo'
          obtain rfl := Except.ok.inj hinfo'
          exact .inl hbad
        · rw [hresp] at hfail
          exact absurd hfail (failed_ok _)
        · rw [hresp] at hresp'
          obtain rfl := Except.ok.inj hresp'
          exact .inr hbad

theorem countGrin_isolated (chains : ChainClients) (now : Timestamp) (tip : SocialTipRow)
    (db : SocialTips) : FundingPass.countGrin.FailureIsolated chains now tip db := by
  rintro ⟨c, commit, hc, hcommit, hfail⟩
  have hskip : FundingPass.countGrin.run chains now tip db = db := by
    rcases hfail with ⟨e, he⟩ | ⟨e, he⟩
    · simp [FundingPass.run, hc, he]
    · cases hheight : c.getHeight <;>
        simp [FundingPass.run, hc, hheight, checkGrinTipConfirmations, hcommit, he]
  rw [hskip]
  exact fun _ => rfl

/-! ### The amount check -/

/-- An entry that cannot be read stops the sum. -/
theorem sumConfirmed_of_failure {c : ElectrumClient} {address : String}
    {entry : ElectrumHistoryEntry} (hfail : Failed (c.getTransactionVerbose entry.txHash) ∨
      ∃ tx, c.getTransactionVerbose entry.txHash = .ok tx ∧
        (Failed (tx.totalReceivedAt address) ∨
          (tx.totalReceivedAt address = .ok 0 ∧ Failed (tx.totalSentFrom address))))
    {es : List ElectrumHistoryEntry} (hmem : entry ∈ es) (received sent : UInt64) :
    sumConfirmed c address received sent es = none := by
  induction es generalizing received sent with
  | nil => cases hmem
  | cons e rest ih =>
    rcases List.mem_cons.mp hmem with rfl | hrest
    · rcases hfail with ⟨err, herr⟩ | ⟨tx, htx, ⟨err, herr⟩ | ⟨hzero, err, herr⟩⟩
      · simp [sumConfirmed, herr]
      · simp [sumConfirmed, htx, herr]
      · simp [sumConfirmed, htx, hzero, herr]
    · simp only [sumConfirmed]
      split
      · rfl
      · split
        · rfl
        · split
          · split
            · exact ih hrest _ _
            · exact ih hrest _ _
            · rfl
          · exact ih hrest _ _

theorem verifyElectrumAmount_of_failure {c : ElectrumClient} {address : String} {amount : Int64}
    (h : Failed (c.getHistory address) ∨
      ∃ history entry, c.getHistory address = .ok history ∧ entry ∈ history ∧ 0 < entry.height ∧
        (Failed (c.getTransactionVerbose entry.txHash) ∨
          ∃ tx, c.getTransactionVerbose entry.txHash = .ok tx ∧
            (Failed (tx.totalReceivedAt address) ∨
              (tx.totalReceivedAt address = .ok 0 ∧ Failed (tx.totalSentFrom address))))) :
    verifyElectrumAmount c address amount = .lwsError := by
  rcases h with ⟨e, he⟩ | ⟨history, entry, hhistory, hmem, hpos, hfail⟩
  · simp [verifyElectrumAmount, he]
  · have hin : entry ∈ history.filter fun e => 0 < e.height :=
      List.mem_filter.mpr ⟨hmem, by simpa using hpos⟩
    simp [verifyElectrumAmount, hhistory, sumConfirmed_of_failure hfail hin]

/-- Every failure of a read is the verdict that changes no status. -/
theorem verifyFundingAmount_of_failure {chains : ChainClients} {tip : SocialTipRow}
    (h : AmountFailure chains tip) : verifyFundingAmount chains tip = some .lwsError := by
  unfold AmountFailure at h
  unfold verifyFundingAmount
  split at h <;> rename_i hasset
  · rcases h with hnone | ⟨c, address, hc, haddr, hfail⟩
    · simp [hasset, hnone]
    · simp [hasset, hc, haddr, verifyElectrumAmount_of_failure hfail]
  · rcases h with hnone | ⟨c, address, hc, haddr, hfail⟩
    · simp [hasset, hnone]
    · simp [hasset, hc, haddr, verifyElectrumAmount_of_failure hfail]
  · rcases h with hnone | ⟨c, address, viewKey, hc, haddr, hkey, e, he⟩
    · simp [hasset, hnone]
    · simp [hasset, hc, haddr, hkey, he]
  · rcases h with hnone | ⟨c, address, viewKey, hc, haddr, hkey, e, he⟩
    · simp [hasset, hnone]
    · simp [hasset, hc, haddr, hkey, he]
  · rcases h with hnone | ⟨c, commit, hc, hcommit, e, he⟩
    · simp [hasset, hnone]
    · simp [hasset, hc, hcommit, he]
  · exact h.elim

theorem verify_isolated_iff (chains : ChainClients) (now : Timestamp) (tip : SocialTipRow)
    (db : SocialTips) :
    FundingPass.verify.FailureIsolated chains now tip db ↔
      ¬ FundingPass.verify.isolationBroken chains now tip db := by
  simp only [FundingPass.FailureIsolated, FundingPass.isolationBroken, FundingPass.failure,
    FundingPass.run, not_and]
  refine forall_congr' fun hfail => ?_
  simp only [processPendingVerification, verifyFundingAmount_of_failure hfail]
  exact sameButLastCheck_touch_iff now tip db

/-- **Isolation from upstream failures.**  A pass of the funding worker is isolated exactly when no
daemon status is ignored by a count that moves the row, and no failed amount check is followed by
a stamp that moves `updated_at`. -/
theorem fundingPass_failureIsolated_iff (pass : FundingPass) (chains : ChainClients)
    (now : Timestamp) (tip : SocialTipRow) (db : SocialTips) :
    pass.FailureIsolated chains now tip db ↔ ¬ pass.isolationBroken chains now tip db := by
  cases pass with
  | countAsset => exact countAsset_isolated_iff chains now tip db
  | countGrin => exact ⟨fun _ h => h, fun _ => countGrin_isolated chains now tip db⟩
  | verify => exact verify_isolated_iff chains now tip db

/-! ### A busy daemon -/

/-- A Monero tip one confirmation short of its threshold. -/
def SocialTipRow.sampleCounting : SocialTipRow :=
  { ofNew 1 0 { NewSocialTip.grinSample with asset := "xmr" } .pendingConfirmation with
    fundingConfirmations := 9 }

/-- A daemon at height 120 that is too busy to look up transactions. -/
def LwsClient.busy : LwsClient where
  network := "Monero"
  daemonConfigured := true
  addressTxs _ _ := .error (.nodeError "unreachable")
  getInfo := .ok ⟨some 120, "OK", false⟩
  transactions _ := .ok ⟨none, "BUSY"⟩

/-- A busy daemon resets the count of the sample tip. -/
theorem sampleCounting_not_failureIsolated :
    ¬ FundingPass.countAsset.FailureIsolated ⟨none, none, some .busy, none, none⟩ 5
      .sampleCounting (.singleton .sampleCounting) := by
  intro hisolated
  have hfail : FundingPass.countAsset.failure ⟨none, none, some .busy, none, none⟩
      .sampleCounting := ⟨.busy, "f0", rfl, rfl, .inr (.inr (.inr ⟨_, rfl, by decide⟩))⟩
  have hcount := congrArg (Option.map SocialTipRow.fundingConfirmations) (hisolated hfail 1)
  exact absurd hcount (by decide)

end SmirkBackend
