import SmirkBackend.Tips.SweepReconciler

/-!
# Funding verification

The money-in worker decides whether what a tip's address received covers the declared amount.
XMR and WOW are classified from the light-wallet server's per-transaction totals, BTC and LTC from
the address history, Grin from the presence of the voucher.  Only a verified or a short receipt
moves the tip; every failure leaves it for the next poll.
-/

namespace SmirkBackend

/-- Whether the on-chain receipt covers the declared amount. -/
inductive FundingVerification
  /-- The confirmed net receipt covers the amount. -/
  | verified (observed : UInt64)
  /-- The confirmed net receipt is positive but too small. -/
  | short (observed : UInt64)
  /-- Nothing was received yet. -/
  | unfunded
  /-- The address has seen funds but holds less than the amount. -/
  | drained (net totalSent : UInt64)
  /-- The chain could not be read. -/
  | lwsError
  deriving DecidableEq

/-- A declared amount as an unsigned word; a negative one counts as 0. -/
def expectedU64 (expected : Int64) : UInt64 := if expected < 0 then 0 else expected.toUInt64

/-- The verdict from the two totals. -/
def classifyTotals (totalReceived totalSent : UInt64) (expected : Int64) : FundingVerification :=
  let net := Lib.saturatingSubU totalReceived totalSent
  if net < expectedU64 expected && 0 < totalSent then .drained net totalSent
  else if net = 0 then .unfunded
  else if expectedU64 expected ≤ net then .verified net
  else .short net

/-- `classify_funding_amount`; `none` when a total overflows, which traps. -/
def classifyFundingAmount (txs : AddressTxsResponse) (expected : Int64) :
    Option FundingVerification := do
  let confirmed := txs.transactions.filter fun tx => !tx.mempool && 0 < tx.height
  let totalReceived ← Lib.sumU (confirmed.map (·.totalReceived))
  let totalSent ← Lib.sumU (confirmed.map (·.totalSent))
  pure (classifyTotals totalReceived totalSent expected)

/-- `grin_amount_from_presence`: the declared amount is taken at its word. -/
def grinAmountFromPresence (present : Bool) (declared : Int64) : FundingVerification :=
  if present then .verified (expectedU64 declared) else .unfunded

/-- The loop over the confirmed history: the totals paid to the address and spent from it.  What a
transaction spends counts only when it pays nothing to the address and all its inputs are
resolved.  `none` when a transaction cannot be read. -/
def sumConfirmed (c : ElectrumClient) (address : String) (totalReceived totalSent : UInt64) :
    List ElectrumHistoryEntry → Option (UInt64 × UInt64)
  | [] => some (totalReceived, totalSent)
  | entry :: rest =>
    match c.getTransactionVerbose entry.txHash with
    | .error _ => none
    | .ok tx =>
      match tx.totalReceivedAt address with
      | .error _ => none
      | .ok recv =>
        let totalReceived := Lib.saturatingAddU totalReceived recv
        if recv = 0 then
          match tx.totalSentFrom address with
          | .ok (some sent) =>
            sumConfirmed c address totalReceived (Lib.saturatingAddU totalSent sent) rest
          | .ok none => sumConfirmed c address totalReceived totalSent rest
          | .error _ => none
        else sumConfirmed c address totalReceived totalSent rest

/-- The BTC and LTC arm of `verify_funding_amount`. -/
def verifyElectrumAmount (c : ElectrumClient) (address : String) (amount : Int64) :
    FundingVerification :=
  match c.getHistory address with
  | .error _ => .lwsError
  | .ok history =>
    let confirmed := history.filter fun e => 0 < e.height
    match sumConfirmed c address 0 0 confirmed with
    | none => .lwsError
    | some (totalReceived, totalSent) =>
      if confirmed.isEmpty then .unfunded else classifyTotals totalReceived totalSent amount

/-- `verify_funding_amount`; `none` when the classification traps. -/
def verifyFundingAmount (chains : ChainClients) (tip : SocialTipRow) :
    Option FundingVerification :=
  match toLowercase tip.asset with
  | "xmr" | "wow" =>
    match chains.lws (toLowercase tip.asset), tip.tipAddress, tip.tipViewKey with
    | some lws, some address, some viewKey =>
      match lws.getAddressTxs address viewKey with
      | .ok txs => classifyFundingAmount txs tip.amount
      | .error _ => some .lwsError
    | _, _, _ => some .lwsError
  | "btc" | "ltc" =>
    match chains.electrum (toLowercase tip.asset), tip.tipAddress with
    | some electrum, some address => some (verifyElectrumAmount electrum address tip.amount)
    | _, _ => some .lwsError
  | "grin" =>
    match chains.grin, grinCommitment tip with
    | some grin, some commit =>
      match grin.getOutputs [commit] with
      | .ok outputs =>
        some (grinAmountFromPresence (outputs.any fun o => o.commit = commit) tip.amount)
      | .error _ => some .lwsError
    | _, _ => some .lwsError
  | _ => some .lwsError

theorem verifyFundingAmount_of_cn {chains : ChainClients} {tip : SocialTipRow}
    (hasset : toLowercase tip.asset = "xmr" ∨ toLowercase tip.asset = "wow") :
    verifyFundingAmount chains tip =
      match chains.lws (toLowercase tip.asset), tip.tipAddress, tip.tipViewKey with
      | some lws, some address, some viewKey =>
        match lws.getAddressTxs address viewKey with
        | .ok txs => classifyFundingAmount txs tip.amount
        | .error _ => some .lwsError
      | _, _, _ => some .lwsError := by
  unfold verifyFundingAmount
  rcases hasset with h | h <;>
    · rw [h]
      rfl

/-- An observed total as a signed word; too large a one is capped. -/
def observedI64 (observed : UInt64) : Int64 :=
  if observed.toNat < 2 ^ 63 then observed.toInt64 else Int64.maxValue

/-- The body of `process_pending_verifications` for one tip: only a verified or a short receipt
moves it. -/
def processPendingVerification (chains : ChainClients) (now : Timestamp) (tip : SocialTipRow)
    (db : SocialTips) : SocialTips :=
  match verifyFundingAmount chains tip with
  | some (.verified observed) =>
    (SocialTips.markTipFundingVerified now db tip.id (observedI64 observed)).2
  | some (.short observed) =>
    (SocialTips.markTipFundingMismatch now db tip.id (observedI64 observed)).2
  | some .unfunded | some (.drained _ _) | some .lwsError => (SocialTips.touchTipLastCheck now db tip.id).2
  | none => db

/-- A count as the column holds it; too large a one is capped. -/
def confsI32 (confs : UInt64) : Int32 := (min confs 2147483647).toUInt32.toInt32

/-- The body of `check_asset_confirmations` for one tip: a failure leaves the row alone, an unknown
transaction counts as unconfirmed. -/
def checkTipConfirmations (lws : LwsClient) (now : Timestamp) (tip : SocialTipRow)
    (db : SocialTips) : SocialTips :=
  match tip.fundingTxid.filter fun s => !s.isEmpty with
  | none => db
  | some fundingTxid =>
    match lws.getTransactionConfirmations fundingTxid with
    | .ok (some confs) => (db.updateTipConfirmations now tip.id (confsI32 confs)).2
    | .ok none => (db.updateTipConfirmations now tip.id 0).2
    | .error _ => db

/-- `check_asset_confirmations`: the daemon may answer for each row anew; a disabled chain skips
the pass. -/
def checkAssetConfirmations (chains : SocialTipRow → ChainClients) (now : Timestamp)
    (asset : String) (db : SocialTips) : SocialTips :=
  (db.getTipsPendingConfirmation now asset).foldl
    (fun db tip =>
      match (chains tip).lws asset with
      | none => db
      | some lws => checkTipConfirmations lws now tip db) db

/-- The body of `check_grin_confirmations` for one tip: the voucher is looked up by its
commitment. -/
def checkGrinTipConfirmations (grin : GrinClient) (tipHeight : UInt64) (now : Timestamp)
    (tip : SocialTipRow) (db : SocialTips) : SocialTips :=
  match grinCommitment tip with
  | none => db
  | some commit =>
    match grin.getOutputs [commit] with
    | .ok outputs =>
      let confs := ((outputs.find? fun o => o.commit = commit).map
        (·.confirmations tipHeight)).getD 0
      (db.updateTipConfirmations now tip.id (confsI32 confs)).2
    | .error _ => db

/-- `check_grin_confirmations`: one height for the batch. -/
def checkGrinConfirmations (grin : Option GrinClient) (now : Timestamp) (db : SocialTips) :
    SocialTips :=
  match grin with
  | none => db
  | some grin =>
    match grin.getHeight with
    | .error _ => db
    | .ok tipHeight =>
      (db.getTipsPendingConfirmation now "grin").foldl
        (fun db tip => checkGrinTipConfirmations grin tipHeight now tip db) db

/-- The loop of `process_pending_verifications`: a classification that traps unwinds it. -/
def verifyEach (chains : SocialTipRow → ChainClients) (now : Timestamp) :
    List SocialTipRow → SocialTips → SocialTips
  | [], db => db
  | tip :: rest, db =>
    if (verifyFundingAmount (chains tip) tip).isNone then db
    else verifyEach chains now rest (processPendingVerification (chains tip) now tip db)

/-- `process_pending_verifications`. -/
def processPendingVerifications (chains : SocialTipRow → ChainClients) (now : Timestamp)
    (db : SocialTips) : SocialTips :=
  verifyEach chains now (db.getTipsAwaitingAmountVerification now) db

theorem verifyEach_eq_foldl (chains : SocialTipRow → ChainClients) (now : Timestamp)
    (tips : List SocialTipRow) (db : SocialTips) :
    verifyEach chains now tips db =
      (tips.takeWhile fun tip => (verifyFundingAmount (chains tip) tip).isSome).foldl
        (fun db tip => processPendingVerification (chains tip) now tip db) db := by
  induction tips generalizing db with
  | nil => rfl
  | cons tip rest ih =>
    rw [verifyEach, List.takeWhile_cons]
    cases verifyFundingAmount (chains tip) tip with
    | none => rfl
    | some v => exact ih _

end SmirkBackend
