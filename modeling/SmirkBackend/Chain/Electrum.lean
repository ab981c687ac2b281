import SmirkBackend.Basic
import SmirkBackend.Lib.Binary64

/-!
# The Electrum client

BTC and LTC are read from external Electrum servers.  Each request is tried against the primary
server and then the fallbacks; the first usable answer wins.  What the servers answer is a
parameter: the client is the list of attempts each request meets.  Everything the client computes
from the answers is modelled: the envelope, the amounts and the per-address sums.
-/

namespace SmirkBackend

/-! ### Wire types -/

/-- A transaction-history entry for an address. -/
structure ElectrumHistoryEntry where
  /-- Transaction id. -/
  txHash : String
  /-- Block height; not positive while unconfirmed. -/
  height : Int64

/-- The addresses a script pays, in either wire form. -/
structure ScriptPubKeyInfo where
  /-- Modern form. -/
  address : Option String
  /-- Legacy form. -/
  addresses : Option (List String)

/-- The address of a script, checking both wire forms. -/
def ScriptPubKeyInfo.getAddress (s : ScriptPubKeyInfo) : Option String :=
  s.address <|> s.addresses.bind List.head?

/-- A resolved previous output; the value is in whole coins. -/
structure Prevout where
  /-- Amount in whole coins. -/
  value : Float
  /-- Where the output was paid to. -/
  scriptPubKey : ScriptPubKeyInfo

/-- A transaction input; not every server resolves the output it spends. -/
structure VerboseVin where
  /-- Transaction of the spent output. -/
  txid : Option String
  /-- Index of the spent output. -/
  vout : Option UInt32
  /-- The spent output, when the server resolves it. -/
  prevout : Option Prevout

/-- A transaction output; the value is in whole coins. -/
structure VerboseVout where
  /-- Amount in whole coins. -/
  value : Float
  /-- Output index. -/
  n : UInt32
  /-- Where the output is paid to. -/
  scriptPubKey : ScriptPubKeyInfo

/-- A decoded transaction. -/
structure VerboseTransaction where
  /-- Transaction id. -/
  txid : String
  /-- Inputs. -/
  vin : List VerboseVin
  /-- Outputs. -/
  vout : List VerboseVout

/-! ### Amounts -/

/-- `checked_btc_to_sat`: whole coins to satoshis, rejecting what is not a small non-negative
number. -/
def checkedBtcToSat (value : Float) : Except AppError UInt64 :=
  if !value.isFinite || value < 0.0 then
    .error (.nodeError "non-finite or negative amount from Electrum server")
  else
    let sats := Lib.roundHalfAway (value * 100000000.0)
    if 9007199254740992.0 ≤ sats then
      .error (.nodeError "amount out of range from Electrum server")
    else .ok sats.toUInt64

/-- `u64::checked_add`, with the error of an overflow. -/
def checkedAdd (overflow : String) (a b : UInt64) : Except AppError UInt64 :=
  if a.toNat + b.toNat < 2 ^ 64 then .ok (a + b) else .error (.nodeError overflow)

/-- Sum, in order, the amounts of the pairs that belong to `address`. -/
def sumAt (overflow : String) (address : String) (total : UInt64) :
    List (ScriptPubKeyInfo × Float) → Except AppError UInt64
  | [] => .ok total
  | (script, value) :: rest =>
    if script.getAddress = some address then do
      let sats ← checkedBtcToSat value
      let total ← checkedAdd overflow total sats
      sumAt overflow address total rest
    else sumAt overflow address total rest

namespace VerboseTransaction

/-- `total_received_at`: satoshis this transaction pays to `address`. -/
def totalReceivedAt (tx : VerboseTransaction) (address : String) : Except AppError UInt64 :=
  sumAt "output amount sum overflow" address 0 (tx.vout.map fun v => (v.scriptPubKey, v.value))

/-- `total_sent_from`: satoshis this transaction spends from `address`, when every input is
resolved. -/
def totalSentFrom (tx : VerboseTransaction) (address : String) :
    Except AppError (Option UInt64) :=
  if tx.vin.any fun vin => vin.prevout.isNone then .ok none
  else
    some <$> sumAt "input amount sum overflow" address 0
      ((tx.vin.filterMap (·.prevout)).map fun p => (p.scriptPubKey, p.value))

end VerboseTransaction

/-! ### Requests -/

/-- A JSON-RPC response frame. -/
structure JsonRpcResponse (α : Type) where
  /-- The answer. -/
  result : Option α
  /-- The message of a server-side error. -/
  error : Option String
  /-- The request the frame answers. -/
  id : UInt64

/-- `truncate_for_log`: drop control characters, cap the length. -/
def truncateForLog (s : String) (max : ℕ) : String :=
  let isControl (c : Char) : Bool := c.toNat < 0x20 || (0x7F ≤ c.toNat && c.toNat ≤ 0x9F)
  String.ofList ((s.toList.filter fun c => !isControl c).take max)

/-- `into_result`. -/
def JsonRpcResponse.intoResult {α : Type} (r : JsonRpcResponse α) (expectedId : UInt64) :
    Except AppError α :=
  match r.error with
  | some msg => .error (.nodeError s!"Electrum RPC error: {truncateForLog msg 200}")
  | none =>
    if r.id ≠ expectedId then .error (.nodeError "Electrum response id mismatch")
    else
      match r.result with
      | some v => .ok v
      | none => .error (.nodeError "empty Electrum response")

/-- One request: its id and, in the order the servers are tried, what each exchange gives. An
exchange fails when the server cannot be reached or its body cannot be decoded. -/
structure ElectrumCall (α : Type) where
  /-- Request id. -/
  id : UInt64
  /-- The outcomes of the servers that are tried. -/
  attempts : List (Except AppError (JsonRpcResponse α))

/-- The fail-over loop: the first usable answer, or the last error. -/
def firstUsable {α : Type} (id : UInt64) (lastErr : AppError) :
    List (Except AppError (JsonRpcResponse α)) → Except AppError α
  | [] => .error lastErr
  | attempt :: rest =>
    match attempt >>= fun r => r.intoResult id with
    | .ok v => .ok v
    | .error e => firstUsable id e rest

/-- `ElectrumClient::call`. -/
def ElectrumCall.run {α : Type} (c : ElectrumCall α) : Except AppError α :=
  if c.attempts.isEmpty then .error (.nodeError "no Electrum server configured")
  else firstUsable c.id (.nodeError "all Electrum servers failed") c.attempts

/-- The answers an Electrum client meets. -/
structure ElectrumClient where
  /-- `address_to_scripthash`. -/
  addressToScripthash : String → Except AppError String
  /-- Answers to `blockchain.scripthash.get_history`. -/
  historyOf : String → ElectrumCall (List ElectrumHistoryEntry)
  /-- Answers to `blockchain.headers.subscribe`. -/
  headers : ElectrumCall Int64
  /-- Answers to `blockchain.transaction.get`. -/
  transactionOf : String → ElectrumCall VerboseTransaction

namespace ElectrumClient

/-- `get_history`. -/
def getHistory (c : ElectrumClient) (address : String) :
    Except AppError (List ElectrumHistoryEntry) := do
  let sh ← c.addressToScripthash address
  (c.historyOf sh).run

/-- `get_tip_height`. -/
def getTipHeight (c : ElectrumClient) : Except AppError Int64 := c.headers.run

/-- `get_transaction_verbose`. -/
def getTransactionVerbose (c : ElectrumClient) (txid : String) :
    Except AppError VerboseTransaction :=
  (c.transactionOf txid).run

end ElectrumClient

end SmirkBackend
