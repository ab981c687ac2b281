import SmirkBackend.Basic
import SmirkBackend.Lib.Machine

/-!
# The light-wallet client

XMR and WOW are read from a light-wallet server, which scans an address with its view key, and
from the daemon behind it.  What an exchange gives is a parameter: a failure (transport, HTTP
status, size limit or undecodable body) or the decoded body.
-/

namespace SmirkBackend

/-- A transaction of `get_address_txs`. -/
structure AddressTx where
  /-- Transaction hash. -/
  hash : String
  /-- Block height, 0 when absent. -/
  height : UInt64
  /-- Amount received. -/
  totalReceived : UInt64
  /-- Amount possibly sent. -/
  totalSent : UInt64
  /-- Still unconfirmed. -/
  mempool : Bool
  deriving DecidableEq

/-- The decoded body of `get_address_txs`. -/
structure AddressTxsResponse where
  /-- The address's transactions. -/
  transactions : List AddressTx
  /-- Chain height, 0 when absent. -/
  blockchainHeight : UInt64
  deriving DecidableEq

/-- The decoded body of the daemon's `get_info`. -/
structure GetInfoResponse where
  /-- The chain height of a successful answer. -/
  result : Option UInt64
  /-- What the daemon says of its own answer; the client does not read it. -/
  status : String
  /-- The daemon reported an error. -/
  error : Bool
  deriving DecidableEq

/-- A transaction of `get_transactions`. -/
structure TxInfo where
  /-- Height of the block that holds the transaction. -/
  blockHeight : Option UInt64
  /-- Still unconfirmed. -/
  inPool : Option Bool
  deriving DecidableEq

/-- The decoded body of the daemon's `get_transactions`. -/
structure GetTransactionsResponse where
  /-- The transactions the daemon knows. -/
  txs : Option (List TxInfo)
  /-- "OK", or what kept the daemon from answering. -/
  status : String
  deriving DecidableEq

/-- The answers a light-wallet client meets. -/
structure LwsClient where
  /-- Network tag of the error messages. -/
  network : String
  /-- A daemon is configured. -/
  daemonConfigured : Bool
  /-- Exchange of `get_address_txs` for an address and view key. -/
  addressTxs : String → String → Except AppError AddressTxsResponse
  /-- Exchange of the daemon's `get_info`. -/
  getInfo : Except AppError GetInfoResponse
  /-- Exchange of the daemon's `get_transactions` for one transaction. -/
  transactions : String → Except AppError GetTransactionsResponse

namespace LwsClient

/-- Bound on the length of a decoded list. -/
def maxParsedVec : ℕ := 100000

/-- `node_err`. -/
def nodeErr (c : LwsClient) (label detail : String) : AppError :=
  .nodeError s!"{c.network} LWS {label}: {detail}"

/-- `get_address_txs`. -/
def getAddressTxs (c : LwsClient) (address viewKey : String) :
    Except AppError AddressTxsResponse := do
  let resp ← c.addressTxs address viewKey
  if maxParsedVec < resp.transactions.length then
    throw (c.nodeErr "get_address_txs" "response too large")
  pure resp

/-- `get_blockchain_height`. -/
def getBlockchainHeight (c : LwsClient) : Except AppError UInt64 :=
  if !c.daemonConfigured then .error (c.nodeErr "daemon" "daemon URL not configured")
  else do
    let resp ← c.getInfo
    if resp.error then throw (c.nodeErr "daemon get_info" "daemon returned an error")
    match resp.result with
    | some height => pure height
    | none => throw (c.nodeErr "daemon get_info" "no result")

/-- `confirmations_from`: a block above the reported height counts as unconfirmed. -/
def confirmationsFrom (blockHeight : Option UInt64) (inPool : Option Bool)
    (currentHeight : UInt64) : Option UInt64 :=
  if inPool = some true then some 0
  else
    match blockHeight with
    | some h =>
      if currentHeight < h then some 0
      else some (Lib.saturatingAddU (Lib.saturatingSubU currentHeight h) 1)
    | none => none

/-- A positive count puts the transaction that many blocks below the reported height. -/
theorem confirmationsFrom_pos {blockHeight : Option UInt64} {inPool : Option Bool} {H v : UInt64}
    (h : confirmationsFrom blockHeight inPool H = some v) (hpos : 0 < v.toNat) :
    ∃ b, blockHeight = some b ∧ inPool ≠ some true ∧ b.toNat ≤ H.toNat ∧
      v.toNat ≤ H.toNat - b.toNat + 1 := by
  unfold confirmationsFrom at h
  split at h
  · obtain rfl := Option.some.inj h
    exact absurd hpos (by decide)
  · rename_i hpool
    cases blockHeight with
    | none => cases h
    | some b =>
      simp only at h
      split at h
      · obtain rfl := Option.some.inj h
        exact absurd hpos (by decide)
      · rename_i hle
        obtain rfl := Option.some.inj h
        rw [UInt64.lt_iff_toNat_lt] at hle
        refine ⟨b, rfl, hpool, by omega, ?_⟩
        rw [Lib.toNat_saturatingAddU, Lib.toNat_saturatingSubU]
        exact Nat.min_le_left _ _

/-- `get_transaction_confirmations`: `none` when the daemon does not know the transaction, and when
its status is not "OK". -/
def getTransactionConfirmations (c : LwsClient) (txid : String) :
    Except AppError (Option UInt64) :=
  if !c.daemonConfigured then .error (c.nodeErr "daemon" "daemon URL not configured")
  else do
    let currentHeight ← c.getBlockchainHeight
    let resp ← c.transactions txid
    if resp.status ≠ "OK" then pure none
    else
      match resp.txs.bind List.head? with
      | none => pure none
      | some tx => pure (confirmationsFrom tx.blockHeight tx.inPool currentHeight)

end LwsClient

end SmirkBackend
