import Mathlib.Data.List.Sort
import SmirkBackend.Chain.Address
import SmirkBackend.Lib.Machine

/-!
# Batch queries of a BTC or LTC wallet

A wallet asks about several addresses at once: for the sum of their balances, for their unspent
outputs and for their history.  The Electrum client queries each address by itself, in one batch
under a deadline, and puts the answers together in the order of the addresses.
-/

namespace SmirkBackend

/-! ### Wire types -/

/-- `ElectrumBalance`. -/
structure ElectrumBalance where
  /-- Confirmed satoshis. -/
  confirmed : UInt64
  /-- Satoshis of the mempool; spends count negative. -/
  unconfirmed : Int64

/-- `ElectrumUtxo`. -/
structure ElectrumUtxo where
  /-- Transaction of the output. -/
  txHash : String
  /-- Index of the output. -/
  txPos : UInt64
  /-- Amount. -/
  value : UInt64
  /-- Block height; zero while unconfirmed. -/
  height : UInt64

/-- The output it is. -/
def ElectrumUtxo.outpoint (u : ElectrumUtxo) : String × UInt64 := (u.txHash, u.txPos)

/-- A history entry with the fee that servers give for the mempool. -/
structure FeeHistoryEntry extends ElectrumHistoryEntry where
  /-- Fee in satoshis. -/
  fee : Option UInt64

/-- `BatchError`. -/
inductive BatchError
  /-- A query failed. -/
  | app (e : AppError)
  /-- The batch ran out of time. -/
  | deadline

/-- `From<AppError> for BatchError`. -/
def liftBatch {α : Type} : Except AppError α → Except BatchError α := Except.mapError .app

/-- The network and codec of an Electrum client, and the answers its batch queries meet. -/
structure BatchClient where
  /-- Coin and network. -/
  net : UtxoNetwork
  /-- The encodings. -/
  codec : AddressCodec
  /-- Answers to `blockchain.scripthash.get_balance`. -/
  balanceOf : String → ElectrumCall ElectrumBalance
  /-- Answers to `blockchain.scripthash.listunspent`. -/
  unspentOf : String → ElectrumCall (List ElectrumUtxo)
  /-- Answers to `blockchain.scripthash.get_history`. -/
  historyOf : String → ElectrumCall (List FeeHistoryEntry)
  /-- Answers to `blockchain.transaction.get`. -/
  transactionOf : String → ElectrumCall VerboseTransaction

/-! ### Batches -/

/-- `try_collect` of a buffered stream: the results in input order, or the first error. -/
def tryCollect {α : Type} : List (Except AppError α) → Except AppError (List α)
  | [] => .ok []
  | result :: rest => do
    let a ← result
    let as ← tryCollect rest
    return a :: as

/-- `run_batch`; `late` says that the deadline has passed first. -/
def runBatch {α : Type} (late : Bool) (queries : List (Except AppError α)) :
    Except BatchError (List α) :=
  if late then .error .deadline else liftBatch (tryCollect queries)

/-- `i64::checked_add`, with the error of an overflow. -/
def checkedAddSigned (overflow : String) (a b : Int64) : Except AppError Int64 :=
  if -2 ^ 63 ≤ a.toInt + b.toInt ∧ a.toInt + b.toInt < 2 ^ 63 then .ok (a + b)
  else .error (.nodeError overflow)

/-- The loop of `sum_balances`. -/
def sumBalancesFrom (confirmed : UInt64) (unconfirmed : Int64) :
    List ElectrumBalance → Except AppError ElectrumBalance
  | [] => .ok ⟨confirmed, unconfirmed⟩
  | b :: rest => do
    let confirmed ← checkedAdd "confirmed balance sum overflow" confirmed b.confirmed
    let unconfirmed ←
      checkedAddSigned "unconfirmed balance sum overflow" unconfirmed b.unconfirmed
    sumBalancesFrom confirmed unconfirmed rest

/-- `sum_balances`. -/
def sumBalances (balances : List ElectrumBalance) : Except AppError ElectrumBalance :=
  sumBalancesFrom 0 0 balances

/-- Answers tagged with the address they are for, in input order. -/
def tagged {α : Type} (addresses : List String) (results : List (List α)) : List (String × α) :=
  (addresses.zip results).flatMap fun p => p.2.map fun a => (p.1, a)

namespace BatchClient

variable (c : BatchClient)

/-- `address_to_scripthash`. -/
def addressToScripthash (address : String) : Except AppError String :=
  c.net.addressToScripthash c.codec address

/-- A query of an address. -/
def query {α : Type} (answers : String → ElectrumCall α) (address : String) :
    Except AppError α := do
  let sh ← c.addressToScripthash address
  (answers sh).run

/-- `get_balance`. -/
def getBalance (address : String) : Except AppError ElectrumBalance := c.query c.balanceOf address

/-- `get_utxos`. -/
def getUtxos (address : String) : Except AppError (List ElectrumUtxo) :=
  c.query c.unspentOf address

/-- `get_history`. -/
def getHistory (address : String) : Except AppError (List FeeHistoryEntry) :=
  c.query c.historyOf address

/-- `get_transaction_verbose`. -/
def getTransactionVerbose (txid : String) : Except AppError VerboseTransaction :=
  (c.transactionOf txid).run

/-- `get_balance_sum`. -/
def getBalanceSum (late : Bool) (addresses : List String) : Except BatchError ElectrumBalance := do
  let acc ← runBatch late (addresses.map c.getBalance)
  liftBatch (sumBalances acc)

/-- `get_utxos_tagged`. -/
def getUtxosTagged (late : Bool) (addresses : List String) :
    Except BatchError (List (String × ElectrumUtxo)) := do
  let results ← runBatch late (addresses.map c.getUtxos)
  return tagged addresses results

/-- `get_history_tagged`. -/
def getHistoryTagged (late : Bool) (addresses : List String) :
    Except BatchError (List (String × FeeHistoryEntry)) := do
  let results ← runBatch late (addresses.map c.getHistory)
  return tagged addresses results

end BatchClient

/-! ### Amounts of a history -/

/-- `AMOUNT_RESOLUTION_LIMIT`. -/
def amountResolutionLimit : ℕ := 60

/-- The totals of a transaction so far, each with whether it is known. -/
structure AmountTotals where
  /-- Received at the addresses. -/
  received : UInt64
  /-- Every address was summed. -/
  receivedOk : Bool
  /-- Sent from the addresses. -/
  sent : UInt64
  /-- Every address was summed, with all inputs resolved. -/
  sentOk : Bool

/-- One address of the loop of `resolve_amounts`. -/
def AmountTotals.add (tx : VerboseTransaction) (t : AmountTotals) (address : String) :
    AmountTotals :=
  let t := match tx.totalReceivedAt address with
    | .ok v => { t with received := Lib.saturatingAddU t.received v }
    | .error _ => { t with receivedOk := false }
  match tx.totalSentFrom address with
  | .ok (some v) => { t with sent := Lib.saturatingAddU t.sent v }
  | _ => { t with sentOk := false }

/-- What a transaction paid to the addresses and spent from them, as far as it is known. -/
def amountsOf (tx : VerboseTransaction) (addresses : List String) :
    Option UInt64 × Option UInt64 :=
  let t := addresses.foldl (AmountTotals.add tx) ⟨0, true, 0, true⟩
  (if t.receivedOk then some t.received else none, if t.sentOk then some t.sent else none)

/-- `resolve_amounts`: the amounts of the first transactions of the list. -/
def resolveAmounts (c : BatchClient) (txids addresses : List String) :
    List (String × (Option UInt64 × Option UInt64)) :=
  (txids.take amountResolutionLimit).map fun txid =>
    (txid, match c.getTransactionVerbose txid with
      | .ok tx => amountsOf tx addresses
      | .error _ => (none, none))

/-! ### Handlers -/

/-- `MAX_MULTI_ADDRESSES`. -/
def maxMultiAddresses : ℕ := 32

/-- `validate_address_batch`. -/
def validateAddressBatch (addresses : List String) : Except AppError Unit :=
  if addresses.isEmpty then .error (.validationError "addresses must not be empty")
  else if maxMultiAddresses < addresses.length then
    .error (.validationError s!"too many addresses (max {maxMultiAddresses})")
  else .ok ()

/-- The clients of the instance. -/
structure UtxoClients where
  /-- Bitcoin. -/
  btc : Option BatchClient
  /-- Litecoin. -/
  ltc : Option BatchClient

/-- `electrum_for`. -/
def electrumFor (clients : UtxoClients) (asset : String) : Except AppError BatchClient := do
  let client ← match asset with
    | "btc" => .ok clients.btc
    | "ltc" => .ok clients.ltc
    | other => .error (.validationError s!"Invalid UTXO asset: {other} (expected btc or ltc)")
  match client with
  | some c => return c
  | none => .error (.validationError s!"{asset} support is not enabled on this server")

/-- `MultiAddressRequest`. -/
structure MultiAddressRequest where
  /-- `btc` or `ltc`. -/
  asset : String
  /-- The addresses. -/
  addresses : List String

/-- What the handlers do first; `auth` is the check of the bearer token. -/
def batchClient (clients : UtxoClients) (auth : Except AppError Unit) (req : MultiAddressRequest) :
    Except AppError (String × BatchClient) := do
  auth
  let asset := toLowercase req.asset
  validateAddressBatch req.addresses
  let client ← electrumFor clients asset
  return (asset, client)

/-- `MultiBalanceResponse`. -/
structure MultiBalanceResponse where
  /-- Asset code. -/
  asset : String
  /-- Confirmed satoshis. -/
  confirmed : UInt64
  /-- Satoshis of the mempool. -/
  unconfirmed : Int64

/-- `balance_multi`. -/
def balanceMulti (clients : UtxoClients) (auth : Except AppError Unit) (late : Bool)
    (req : MultiAddressRequest) : Except BatchError MultiBalanceResponse := do
  let (asset, client) ← liftBatch (batchClient clients auth req)
  let bal ← client.getBalanceSum late req.addresses
  return ⟨asset, bal.confirmed, bal.unconfirmed⟩

/-- `TaggedUtxo`. -/
structure TaggedUtxo where
  /-- Whose output it is. -/
  address : String
  /-- Transaction of the output. -/
  txid : String
  /-- Index of the output. -/
  vout : UInt64
  /-- Amount. -/
  value : UInt64
  /-- Block height. -/
  height : UInt64

/-- `MultiUtxosResponse`. -/
structure MultiUtxosResponse where
  /-- Asset code. -/
  asset : String
  /-- The outputs. -/
  utxos : List TaggedUtxo

/-- `utxos_multi`. -/
def utxosMulti (clients : UtxoClients) (auth : Except AppError Unit) (late : Bool)
    (req : MultiAddressRequest) : Except BatchError MultiUtxosResponse := do
  let (asset, client) ← liftBatch (batchClient clients auth req)
  let out ← client.getUtxosTagged late req.addresses
  return ⟨asset, out.map fun p => ⟨p.1, p.2.txHash, p.2.txPos, p.2.value, p.2.height⟩⟩

/-- `TaggedHistoryEntry`. -/
structure TaggedHistoryEntry where
  /-- Whose entry it is. -/
  address : String
  /-- The transaction. -/
  txid : String
  /-- Block height. -/
  height : Int64
  /-- Fee of a mempool entry. -/
  fee : Option UInt64
  /-- Paid to the addresses, when known. -/
  totalReceived : Option UInt64
  /-- Spent from the addresses, when known. -/
  totalSent : Option UInt64

/-- `MultiHistoryResponse`. -/
structure MultiHistoryResponse where
  /-- Asset code. -/
  asset : String
  /-- The entries. -/
  transactions : List TaggedHistoryEntry

/-- The key of the order: unconfirmed entries are above every block. -/
def historyRank (e : FeeHistoryEntry) : Int64 := if 0 < e.height then e.height else Int64.maxValue

/-- `sort_by_key` in descending order of the rank; the sort is stable. -/
def newestFirst (entries : List (String × FeeHistoryEntry)) : List (String × FeeHistoryEntry) :=
  entries.insertionSort fun p q => historyRank q.2 ≤ historyRank p.2

/-- The distinct transactions, in order. -/
def distinctTxids (entries : List (String × FeeHistoryEntry)) : List String :=
  entries.foldl (fun txids p => if txids.contains p.2.txHash then txids
    else txids ++ [p.2.txHash]) []

/-- The rows of a history, with their amounts. -/
def historyRows (c : BatchClient) (entries : List (String × FeeHistoryEntry))
    (addresses : List String) : List TaggedHistoryEntry :=
  let entries := newestFirst entries
  let amounts := resolveAmounts c (distinctTxids entries) addresses
  entries.map fun p =>
    let (received, sent) := (amounts.lookup p.2.txHash).getD (none, none)
    ⟨p.1, p.2.txHash, p.2.height, p.2.fee, received, sent⟩

/-- `history_multi`. -/
def historyMulti (clients : UtxoClients) (auth : Except AppError Unit) (late : Bool)
    (req : MultiAddressRequest) : Except BatchError MultiHistoryResponse := do
  let (asset, client) ← liftBatch (batchClient clients auth req)
  let entries ← client.getHistoryTagged late req.addresses
  return ⟨asset, historyRows client entries req.addresses⟩

/-! ### What the queries answer -/

theorem tryCollect_eq_ok_iff {α β : Type} {f : β → Except AppError α} {l : List β} {as : List α} :
    tryCollect (l.map f) = .ok as ↔ List.Forall₂ (fun b a => f b = .ok a) l as := by
  induction l generalizing as with
  | nil => simp [tryCollect, eq_comm]
  | cons b l ih =>
    simp only [List.map_cons, tryCollect, bind_eq_ok_iff, ih, List.forall₂_cons_left_iff]
    constructor
    · rintro ⟨a, ha, as', has', heq⟩
      obtain rfl := Except.ok.inj heq
      exact ⟨a, as', ha, has', rfl⟩
    · rintro ⟨a, as', ha, has', rfl⟩
      exact ⟨a, ha, as', has', rfl⟩

theorem liftBatch_eq_ok_iff {α : Type} {x : Except AppError α} {a : α} :
    liftBatch x = .ok a ↔ x = .ok a := by
  cases x <;> simp [liftBatch, Except.mapError]

theorem runBatch_eq_ok_iff {α β : Type} {f : β → Except AppError α} {late : Bool} {l : List β}
    {as : List α} : runBatch late (l.map f) = .ok as ↔
      late = false ∧ List.Forall₂ (fun b a => f b = .ok a) l as := by
  unfold runBatch
  cases late with
  | true => simp
  | false => simp [liftBatch_eq_ok_iff, tryCollect_eq_ok_iff]

/-- The sum of balances, when it answers, is that of the numbers. -/
theorem sumBalancesFrom_eq_ok {confirmed : UInt64} {unconfirmed : Int64}
    {bs : List ElectrumBalance} {b : ElectrumBalance}
    (h : sumBalancesFrom confirmed unconfirmed bs = .ok b) :
    b.confirmed.toNat = confirmed.toNat + (bs.map fun b => b.confirmed.toNat).sum ∧
      b.unconfirmed.toInt = unconfirmed.toInt + (bs.map fun b => b.unconfirmed.toInt).sum := by
  induction bs generalizing confirmed unconfirmed with
  | nil =>
    obtain rfl := Except.ok.inj h
    simp
  | cons b' bs ih =>
    simp only [sumBalancesFrom, bind_eq_ok_iff] at h
    obtain ⟨c, hc, u, hu, hrest⟩ := h
    obtain ⟨hconfirmed, hunconfirmed⟩ := ih hrest
    have hcval : c.toNat = confirmed.toNat + b'.confirmed.toNat := by
      unfold checkedAdd at hc
      split_ifs at hc with hfits
      rw [← Except.ok.inj hc, UInt64.toNat_add, Nat.mod_eq_of_lt hfits]
    have huval : u.toInt = unconfirmed.toInt + b'.unconfirmed.toInt := by
      unfold checkedAddSigned at hu
      split_ifs at hu with hfits
      rw [← Except.ok.inj hu, Int64.toInt_add]
      exact Int.bmod_eq_of_le (by omega) (by omega)
    rw [hconfirmed, hunconfirmed, hcval, huval, List.map_cons, List.sum_cons, List.map_cons,
      List.sum_cons]
    constructor <;> omega

end SmirkBackend
