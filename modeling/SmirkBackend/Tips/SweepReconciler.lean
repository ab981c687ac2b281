import SmirkBackend.Chain.Electrum
import SmirkBackend.Chain.Grin
import SmirkBackend.Chain.Lws
import SmirkBackend.Lib.Machine
import SmirkBackend.Tips.Store

/-!
# The sweep reconciler

The money-out worker.  Its confirm pass probes the chain for spends of a `claiming` tip and
settles the tip once the winning spend is deep enough; its reorg pass probes a settled tip again
and reverts it when the recorded sweep is gone.  A pass works on a snapshot of the row it polled,
against the table as it now stands.
-/

namespace SmirkBackend

/-- A confirmed spend of the tip address. -/
structure ConfirmedSpend where
  /-- On-chain identifier of the spend. -/
  txid : String
  /-- Height of the block that holds the spend. -/
  blockHeight : Int64
  /-- Hash of that block, when it is at hand. -/
  blockHash : Option String
  deriving DecidableEq

/-- `sweep_confirm_threshold`: confirmations the winning spend needs. -/
def sweepConfirmThreshold (asset : String) : UInt64 :=
  match toLowercase asset with
  | "btc" | "ltc" => 1
  | "wow" => 4
  | "xmr" => 10
  | "grin" => 10
  | _ => 10

/-- The order of `pick_winner`: height first, then transaction id. -/
def ConfirmedSpend.precedes (a b : ConfirmedSpend) : Bool :=
  a.blockHeight < b.blockHeight || (a.blockHeight = b.blockHeight && a.txid < b.txid)

/-- `pick_winner`: the first least spend. -/
def pickWinner : List ConfirmedSpend → Option ConfirmedSpend
  | [] => none
  | s :: rest => some (rest.foldl (fun best x => if x.precedes best then x else best) s)

/-- `is_verbose_tx_spend_of`: the transaction pays nothing to the address. -/
def isVerboseTxSpendOf (tx : VerboseTransaction) (address : String) : Except AppError Bool := do
  pure ((← tx.totalReceivedAt address) = 0)

/-- `grin_commitment`: the voucher commitment of a tip. -/
def grinCommitment (tip : SocialTipRow) : Option String :=
  ((tip.grinCommitment <|> tip.tipAddress).map trim).filter fun s => !s.isEmpty

/-- The clients of the enabled chains. -/
structure ChainClients where
  /-- Bitcoin. -/
  btc : Option ElectrumClient
  /-- Litecoin. -/
  ltc : Option ElectrumClient
  /-- Monero. -/
  xmr : Option LwsClient
  /-- Wownero. -/
  wow : Option LwsClient
  /-- Grin. -/
  grin : Option GrinClient

/-! ### Probes -/

/-- The client, or the error of a disabled chain. -/
def enabledOr {α : Type} (client : Option α) (e : AppError) : Except AppError α :=
  match client with
  | some c => .ok c
  | none => .error e

/-- The confirmed history entries that are spends of the address. -/
def spendsAmong (c : ElectrumClient) (address : String) :
    List ElectrumHistoryEntry → Except AppError (List ConfirmedSpend)
  | [] => .ok []
  | entry :: rest => do
    let tx ← c.getTransactionVerbose entry.txHash
    let isSpend ← isVerboseTxSpendOf tx address
    let spends ← spendsAmong c address rest
    pure (if isSpend then ⟨entry.txHash, entry.height, none⟩ :: spends else spends)

/-- The Electrum client of an asset. -/
def ChainClients.electrum (chains : ChainClients) (asset : String) : Option ElectrumClient :=
  if asset = "btc" then chains.btc else chains.ltc

/-- The light-wallet client of an asset. -/
def ChainClients.lws (chains : ChainClients) (asset : String) : Option LwsClient :=
  if asset = "xmr" then chains.xmr else chains.wow

/-- `probe_electrum_spends`. -/
def probeElectrumSpends (chains : ChainClients) (tip : SocialTipRow) (asset : String) :
    Except AppError (List ConfirmedSpend × Int64) := do
  let electrum ← enabledOr (chains.electrum asset)
    (.nodeError s!"{asset} Electrum client disabled")
  let address ← enabledOr tip.tipAddress
    (.validationError "tip_address missing for Electrum probe")
  let history ← electrum.getHistory address
  let tipHeight ← electrum.getTipHeight
  let spends ← spendsAmong electrum address (history.filter fun e => 0 < e.height)
  pure (spends, tipHeight)

/-- `probe_lws_spends`. -/
def probeLwsSpends (chains : ChainClients) (tip : SocialTipRow) (asset : String) :
    Except AppError (List ConfirmedSpend × Int64) := do
  let lws ← enabledOr (chains.lws asset) (.nodeError s!"{asset} LWS client disabled")
  let address ← enabledOr tip.tipAddress (.validationError "tip_address missing for LWS probe")
  let viewKey ← enabledOr tip.tipViewKey (.validationError "tip_view_key missing for LWS probe")
  let txs ← lws.getAddressTxs address viewKey
  let tipHeight ←
    if 0 < txs.blockchainHeight then pure txs.blockchainHeight.toInt64
    else UInt64.toInt64 <$> lws.getBlockchainHeight
  let spends := txs.transactions.filter fun t =>
    !t.mempool && 0 < t.height && 0 < t.totalSent && t.totalReceived = 0
  pure (spends.map fun t => ⟨t.hash, t.height.toInt64, none⟩, tipHeight)

/-- The recorded sweep excess of a Grin tip. -/
def sweepExcess (tip : SocialTipRow) : Option String := tip.sweepTxid.filter fun s => !s.isEmpty

/-- `probe_grin_spends`: a voucher in the output set is unspent; an absent one is dated by its
sweep kernel. -/
def probeGrinSpends (chains : ChainClients) (tip : SocialTipRow) :
    Except AppError (List ConfirmedSpend × Int64) := do
  let grin ← enabledOr chains.grin (.nodeError "grin client disabled")
  let commit ← enabledOr (grinCommitment tip)
    (.validationError "grin commitment missing for sweep probe")
  let tipHeight := (← grin.getHeight).toInt64
  let outputs ← grin.getOutputs [commit]
  if outputs.any fun o => o.commit = commit then pure ([], tipHeight)
  else
    match sweepExcess tip with
    | none => pure ([], tipHeight)
    | some excess =>
      match ← grin.getKernel excess with
      | some height => pure ([⟨excess, height.toInt64, none⟩], tipHeight)
      | none => pure ([], tipHeight)

/-- `probe_confirmed_spends`. -/
def probeConfirmedSpends (chains : ChainClients) (tip : SocialTipRow) :
    Except AppError (List ConfirmedSpend × Int64) :=
  let asset := toLowercase tip.asset
  match asset with
  | "btc" | "ltc" => probeElectrumSpends chains tip asset
  | "xmr" | "wow" => probeLwsSpends chains tip asset
  | "grin" => probeGrinSpends chains tip
  | other => .error (.validationError s!"sweep probe: unsupported asset {other}")

/-! ### The two passes -/

/-- The statements the reconciler issues. -/
inductive SweepStmt
  | touchTipLastCheck
  | confirmSweepOnchain
  | clearClaimedByOnSettle
  | revertSweepOnReorg
  | stampSweepConfirmedDmSent
  | stampReorgNotified
  deriving DecidableEq

/-- Which statements the database refuses, and with which error. -/
abbrev SweepFaults := SweepStmt → Option AppError

/-- Run a statement: a refused one leaves the table. -/
def SweepFaults.run (faults : SweepFaults) (s : SweepStmt) (db : SocialTips)
    (result : Option SocialTipRow × SocialTips) :
    Except AppError (Option SocialTipRow) × SocialTips :=
  match faults s with
  | some e => (.error e, db)
  | none => (.ok result.1, result.2)

section Passes

variable (faults : SweepFaults) (now : Timestamp)

/-- `touch_tip_last_check`, whose failure is only logged. -/
def touchAfter (tip : SocialTipRow) (db : SocialTips) : SocialTips :=
  (faults.run .touchTipLastCheck db (db.touchTipLastCheck now tip.id)).2

/-- `send_sweep_confirmed_dm_if_needed`. -/
def sendSweepConfirmedDmIfNeeded (tip : SocialTipRow) (db : SocialTips) : SocialTips :=
  if tip.sweepConfirmedDmSentAt.isSome then db
  else (faults.run .stampSweepConfirmedDmSent db (db.stampSweepConfirmedDmSent now tip.id)).2

/-- `send_reorg_dm_if_needed`. -/
def sendReorgDmIfNeeded (tip : SocialTipRow) (db : SocialTips) : SocialTips :=
  if tip.reorgNotifiedAt.isSome then db
  else (faults.run .stampReorgNotified db (db.stampReorgNotified now tip.id)).2

/-- The settlement of a winner: the recorded claimer is kept when the winner is the recorded
sweep. -/
def settleWinner (tip : SocialTipRow) (winner : ConfirmedSpend) (db : SocialTips) :
    Except AppError (Option SocialTipRow) × SocialTips :=
  if tip.sweepTxid = some winner.txid then
    faults.run .confirmSweepOnchain db
      (db.confirmSweepOnchain now tip.id winner.txid winner.blockHeight.toInt32 winner.blockHash none)
  else
    faults.run .clearClaimedByOnSettle db
      (db.clearClaimedByOnSettle now tip.id winner.txid winner.blockHeight.toInt32 winner.blockHash)

/-- The confirmations of a spend as the gate counts them. -/
def confirmationsOf (tipHeight : Int64) (winner : ConfirmedSpend) : Int64 :=
  Lib.saturatingAdd (Lib.saturatingSub tipHeight winner.blockHeight) 1

/-- `process_awaiting_tip`. -/
def processAwaitingTip (chains : ChainClients) (tip : SocialTipRow) (db : SocialTips) :
    Except AppError Unit × SocialTips :=
  let asset := toLowercase tip.asset
  match probeConfirmedSpends chains tip with
  | .error _ => (.ok (), touchAfter faults now tip db)
  | .ok (spends, tipHeight) =>
    match pickWinner spends with
    | none => (.ok (), touchAfter faults now tip db)
    | some winner =>
      let confirmations := confirmationsOf tipHeight winner
      let needed := sweepConfirmThreshold asset
      if confirmations.toUInt64 < needed then (.ok (), touchAfter faults now tip db)
      else
        match settleWinner faults now tip winner db with
        | (.error e, db') => (.error e, db')
        | (.ok none, db') => (.ok (), db')
        | (.ok (some settled), db') => (.ok (), sendSweepConfirmedDmIfNeeded faults now settled db')

/-- The revert of the reorg pass, with its notification. -/
def revertTip (tip : SocialTipRow) (db : SocialTips) : Except AppError Unit × SocialTips :=
  match faults.run .revertSweepOnReorg db (db.revertSweepOnReorg now tip.id) with
  | (.error e, db') => (.error e, db')
  | (.ok none, db') => (.ok (), db')
  | (.ok (some reverted), db') => (.ok (), sendReorgDmIfNeeded faults now reverted db')

/-- `process_settled_tip`. -/
def processSettledTip (chains : ChainClients) (tip : SocialTipRow) (db : SocialTips) :
    Except AppError Unit × SocialTips :=
  match tip.sweepTxid with
  | none => (.ok (), touchAfter faults now tip db)
  | some recordedTxid =>
    match probeConfirmedSpends chains tip with
    | .error _ => (.ok (), touchAfter faults now tip db)
    | .ok (spends, _) =>
      if spends.any fun s => s.txid = recordedTxid then (.ok (), touchAfter faults now tip db)
      else revertTip faults now tip db

/-- `BATCH_SIZE`. -/
def batchSize : ℕ := 50

/-- `confirm_cycle_inner`: the chains may answer each row's probe anew, and the failure of one row
does not stop the others. -/
def confirmCycleInner (chains : SocialTipRow → ChainClients) (db : SocialTips) : SocialTips :=
  (db.getTipsAwaitingSweepConfirmation now batchSize).foldl
    (fun db tip => (processAwaitingTip faults now (chains tip) tip db).2) db

/-- `reorg_cycle_inner`. -/
def reorgCycleInner (chains : SocialTipRow → ChainClients) (db : SocialTips) : SocialTips :=
  (db.getSettledTipsForReorgCheck now batchSize).foldl
    (fun db tip => (processSettledTip faults now (chains tip) tip db).2) db

end Passes

end SmirkBackend
