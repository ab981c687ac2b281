import SmirkBackend.Chain.Electrum
import SmirkBackend.Chain.Grin
import SmirkBackend.Chain.Lws
import SmirkBackend.Lib.Hex
import SmirkBackend.Lib.Remote

/-!
# Delegated verification of payments

A peer asks whether a transaction has paid an amount to a destination.  The answer takes one to
three reads: the history of the address and the transaction from Electrum; the transactions of the
address from the light-wallet server, the height and the transaction from its daemon; the outputs
of a view credential and the height from Grin.  A read is asked on several servers, or twice, where
the client does so, and its reply holds all attempts.

The reads are those of the clients (`answered_getHistory`, `answered_getTransactionConfirmations`,
`answered_getHeight`).
-/

namespace SmirkBackend

open Lib (Exchange Remote)

/-! ### Reads -/

/-- An output that a view credential recognizes. -/
structure ViewWalletOutput where
  /-- Commitment. -/
  commit : String
  /-- Amount. -/
  value : UInt64
  /-- Height of the block that holds it. -/
  height : UInt64
  deriving DecidableEq

/-- `confirmations`: an output beyond the tip counts as unconfirmed. -/
def ViewWalletOutput.confirmations (o : ViewWalletOutput) (tipHeight : UInt64) : UInt64 :=
  if o.height = 0 || tipHeight < o.height then 0
  else Lib.saturatingAddU (Lib.saturatingSubU tipHeight o.height) 1

/-- The two attempts of a scan: decrypted envelopes, or failures of the channel. -/
structure ScanAttempts where
  /-- With the cached token. -/
  first : Except AppError (RpcEnvelope (List ViewWalletOutput))
  /-- With a fresh token. -/
  second : Except AppError (RpcEnvelope (List ViewWalletOutput))

/-- A read of the clients. -/
inductive UpstreamRead
  /-- `blockchain.scripthash.get_history`. -/
  | history (coin scripthash : String)
  /-- `blockchain.transaction.get`. -/
  | transaction (coin txid : String)
  /-- `get_address_txs`. -/
  | addressTxs (coin address viewKey : String)
  /-- The daemon's `get_info`. -/
  | daemonInfo (coin : String)
  /-- The daemon's `get_transactions`. -/
  | daemonTransactions (coin txid : String)
  /-- `scan_rewind_hash`. -/
  | scanRewindHash (rewindHash : String)
  /-- `get_status`. -/
  | nodeStatus
  deriving DecidableEq

/-- What a read gives, unless the transport fails or the body cannot be decoded. -/
abbrev UpstreamRead.Reply : UpstreamRead → Type
  | history _ _ => ElectrumCall (List ElectrumHistoryEntry)
  | transaction _ _ => ElectrumCall VerboseTransaction
  | addressTxs _ _ _ => AddressTxsResponse
  | daemonInfo _ => GetInfoResponse
  | daemonTransactions _ _ => GetTransactionsResponse
  | scanRewindHash _ => ScanAttempts
  | nodeStatus => RpcEnvelope UInt64

/-- A program that reads. -/
abbrev VerifyProgram := Remote UpstreamRead UpstreamRead.Reply AppError

/-- A read with its outcome. -/
abbrev VerifyExchange := Lib.Exchange UpstreamRead UpstreamRead.Reply AppError

/-- One read. -/
def ask (q : UpstreamRead) : VerifyProgram q.Reply := .question q

namespace Verify

/-- `get_history`; the client is given by its `address_to_scripthash`. -/
def getHistory (coin : String) (addressToScripthash : String → Except AppError String)
    (address : String) : VerifyProgram (List ElectrumHistoryEntry) := do
  let scripthash ← .ofExcept (addressToScripthash address)
  let call ← ask (.history coin scripthash)
  .ofExcept call.run

/-- `get_transaction_verbose`. -/
def getTransactionVerbose (coin txid : String) : VerifyProgram VerboseTransaction := do
  let call ← ask (.transaction coin txid)
  .ofExcept call.run

/-- `get_address_txs`; of the client only the network tag is used. -/
def getAddressTxs (coin : String) (c : LwsClient) (address viewKey : String) :
    VerifyProgram AddressTxsResponse := do
  let resp ← ask (.addressTxs coin address viewKey)
  if LwsClient.maxParsedVec < resp.transactions.length then
    .fail (c.nodeErr "get_address_txs" "response too large")
  else return resp

/-- `get_blockchain_height`. -/
def getBlockchainHeight (coin : String) (c : LwsClient) : VerifyProgram UInt64 :=
  if !c.daemonConfigured then .fail (c.nodeErr "daemon" "daemon URL not configured")
  else do
    let resp ← ask (.daemonInfo coin)
    if resp.error then .fail (c.nodeErr "daemon get_info" "daemon returned an error")
    else .ofExcept (resp.result.elim (.error (c.nodeErr "daemon get_info" "no result")) .ok)

/-- What the confirmations are, by the daemon's answer. -/
def confirmationsOf (resp : GetTransactionsResponse) (currentHeight : UInt64) : Option UInt64 :=
  if resp.status ≠ "OK" then none
  else
    (resp.txs.bind List.head?).bind fun tx =>
      LwsClient.confirmationsFrom tx.blockHeight tx.inPool currentHeight

/-- `get_transaction_confirmations`. -/
def getTransactionConfirmations (coin : String) (c : LwsClient) (txid : String) :
    VerifyProgram (Option UInt64) :=
  if !c.daemonConfigured then .fail (c.nodeErr "daemon" "daemon URL not configured")
  else do
    let currentHeight ← getBlockchainHeight coin c
    let resp ← ask (.daemonTransactions coin txid)
    return confirmationsOf resp currentHeight

/-- `scan_rewind_hash`: a failed attempt is repeated once. -/
def scanRewindHash (rewindHash : String) : VerifyProgram (List ViewWalletOutput) := do
  let attempts ← ask (.scanRewindHash rewindHash)
  match attempts.first >>= fun env => env.intoResult "grin wallet" with
  | .ok view => return view
  | .error _ => .ofExcept (attempts.second >>= fun env => env.intoResult "grin wallet")

/-- `get_height`. -/
def getHeight : VerifyProgram UInt64 := do
  let env ← ask .nodeStatus
  .ofExcept (env.intoResult "grin node")

end Verify

/-! ### Requests -/

/-- `VerifyRequest`, the fields that are read. -/
structure VerifyRequest where
  /-- Coin. -/
  coin : String
  /-- `utxo`, `cryptonote` or `grin`. -/
  family : String
  /-- Transaction, or commitment of an output. -/
  txRef : String
  /-- Amount, as a decimal. -/
  amount : String
  /-- Destination. -/
  destAddress : Option String
  /-- View credential. -/
  viewKey : Option String

/-- `VerifyResponse`. -/
structure VerifyResponse where
  /-- The payment was made. -/
  verified : Bool
  /-- Who paid. -/
  sender : Option String
  /-- The observed amount. -/
  amount : Option String
  /-- Why it does not count. -/
  reason : Option String
  deriving DecidableEq

/-- `reason::NOT_FOUND`. -/
def notFoundReason : String := "not_found"

/-- `reason::NOT_CONFIRMED`. -/
def notConfirmedReason : String := "not_confirmed"

/-- `reason::AMOUNT_TOO_LOW`. -/
def amountTooLowReason : String := "amount_too_low"

/-- `reason::DESTINATION_MISMATCH`. -/
def destinationMismatchReason : String := "destination_mismatch"

/-- `VerifyResponse::verified`. -/
def VerifyResponse.ofAmount (amount : UInt64) : VerifyResponse :=
  ⟨true, none, some (toString amount.toNat), none⟩

/-- `VerifyResponse::failed`. -/
def VerifyResponse.failed (reason : String) : VerifyResponse := ⟨false, none, none, some reason⟩

/-- The response to an outcome. -/
def VerifyResponse.ofOutcome : Except String UInt64 → VerifyResponse
  | .ok observed => .ofAmount observed
  | .error reason => .failed reason

/-- `str::parse::<u64>`. -/
def parseU64 (s : String) : Option UInt64 :=
  let digits := if s.toList.head? = some '+' then s.toList.tail else s.toList
  if digits.isEmpty || !digits.all Char.isDigit then none
  else
    let n := digits.foldl (fun n c => 10 * n + (c.toNat - 48)) 0
    if n < 2 ^ 64 then some (UInt64.ofNat n) else none

/-- All characters are hexadecimal digits. -/
def isHexText (s : String) : Bool := s.toList.all fun c => (Lib.hexValue c).isSome

/-- `validate_hex`. -/
def validateHex (value field : String) (max : ℕ) : Except AppError Unit :=
  if value.isEmpty || max < value.utf8ByteSize then
    .error (.validationError s!"{field} has invalid length")
  else if value.utf8ByteSize % 2 ≠ 0 || !isHexText value then
    .error (.validationError s!"{field} must be even-length hexadecimal")
  else .ok ()

/-- `validate_hex64`. -/
def validateHex64 (value field : String) : Except AppError Unit :=
  if value.utf8ByteSize ≠ 64 || !isHexText value then
    .error (.validationError s!"{field} must be 64 hexadecimal characters")
  else .ok ()

/-- `validate_view_key`. -/
def validateViewKey (viewKey : String) : Except AppError Unit := validateHex64 viewKey "view_key"

/-- `validate_cn_address`. -/
def validateCnAddress (address : String) : Except AppError Unit :=
  if address.isEmpty || 256 < address.utf8ByteSize then
    .error (.validationError "address has invalid length")
  else .ok ()

/-! ### The endpoint -/

/-- The clients of an instance. -/
structure VerifyInstance where
  /-- `str::to_lowercase`. -/
  lowercase : String → String
  /-- BTC, by its decoder of addresses. -/
  btc : Option (String → Except AppError String)
  /-- LTC, by its decoder of addresses. -/
  ltc : Option (String → Except AppError String)
  /-- XMR. -/
  xmr : Option LwsClient
  /-- WOW. -/
  wow : Option LwsClient
  /-- Grin is on. -/
  grin : Bool

namespace VerifyInstance

variable (inst : VerifyInstance)

/-- A client that must be there. -/
def enabled {α : Type} (coin : String) : Option α → Except AppError α
  | some client => .ok client
  | none => .error (.validationError s!"{coin} not enabled")

/-- `electrum_for`. -/
def electrumFor (coin : String) : Except AppError (String → Except AppError String) :=
  match coin with
  | "btc" => enabled coin inst.btc
  | "ltc" => enabled coin inst.ltc
  | other => .error (.validationError s!"Invalid UTXO coin: {other} (expected btc or ltc)")

/-- `lws_for`. -/
def lwsFor (coin : String) : Except AppError LwsClient :=
  match coin with
  | "xmr" => enabled coin inst.xmr
  | "wow" => enabled coin inst.wow
  | other => .error (.validationError s!"Invalid CryptoNote coin: {other} (expected xmr or wow)")

/-- `grin_for`. -/
def grinFor (coin : String) : Except AppError Unit :=
  if coin ≠ "grin" then .error (.validationError s!"Invalid Grin coin: {coin} (expected grin)")
  else if inst.grin then .ok ()
  else .error (.validationError s!"{coin} not enabled")

end VerifyInstance

/-- `confirmations_for_asset`. -/
def confirmationsForAsset : String → Int32
  | "xmr" => 10
  | "grin" => 10
  | "wow" => 4
  | _ => 0

/-- `confirmations_for_asset(coin).max(0) as u64`. -/
def neededConfirmations (coin : String) : UInt64 :=
  UInt64.ofNat (max (confirmationsForAsset coin).toInt 0).toNat

/-- `utxo_amount_outcome`. -/
def utxoAmountOutcome (paidToDest expected : UInt64) : Except String UInt64 :=
  if paidToDest = 0 then .error destinationMismatchReason
  else if paidToDest < expected then .error amountTooLowReason
  else .ok paidToDest

/-- `grin_amount_outcome`. -/
def grinAmountOutcome (value confs needed expected : UInt64) : Except String UInt64 :=
  if confs < needed then .error notConfirmedReason
  else if value < expected then .error amountTooLowReason
  else .ok value

section Families

variable (inst : VerifyInstance) (coin : String) (req : VerifyRequest) (expected : UInt64)

/-- `verify_utxo`. -/
def verifyUtxo : VerifyProgram VerifyResponse := do
  let electrum ← .ofExcept (inst.electrumFor coin)
  match req.destAddress with
  | none => return .failed destinationMismatchReason
  | some destAddress => do
    .ofExcept (validateHex req.txRef "tx_ref" 64)
    let history ← Verify.getHistory coin electrum destAddress
    match history.find? fun e => e.txHash = req.txRef with
    | none => return .failed notFoundReason
    | some entry =>
      if entry.height ≤ 0 then return .failed notConfirmedReason
      else do
        let tx ← Verify.getTransactionVerbose coin req.txRef
        let paidToDest ← .ofExcept (tx.totalReceivedAt destAddress)
        return .ofOutcome (utxoAmountOutcome paidToDest expected)

/-- `verify_cryptonote` after the transaction was found in a block. -/
def verifyDepth (lws : LwsClient) (tx : AddressTx) : VerifyProgram VerifyResponse := do
  let confirmations ← Verify.getTransactionConfirmations coin lws req.txRef
  if confirmations.any fun n => neededConfirmations coin ≤ n then
    if tx.totalReceived < expected then return .failed amountTooLowReason
    else return .ofAmount tx.totalReceived
  else return .failed notConfirmedReason

/-- `verify_cryptonote`. -/
def verifyCryptonote : VerifyProgram VerifyResponse := do
  let lws ← .ofExcept (inst.lwsFor coin)
  match req.viewKey with
  | none => return .failed notFoundReason
  | some viewKey =>
    match req.destAddress with
    | none => return .failed destinationMismatchReason
    | some destAddress => do
      .ofExcept (validateHex req.txRef "tx_ref" 64)
      .ofExcept (validateViewKey viewKey)
      .ofExcept (validateCnAddress destAddress)
      let txs ← Verify.getAddressTxs coin lws destAddress viewKey
      match txs.transactions.find? fun t => t.hash = req.txRef with
      | none => return .failed notFoundReason
      | some tx =>
        if tx.mempool || tx.height = 0 then return .failed notConfirmedReason
        else verifyDepth coin req expected lws tx

/-- `verify_grin`. -/
def verifyGrin : VerifyProgram VerifyResponse := do
  .ofExcept (inst.grinFor coin)
  match req.viewKey with
  | none => return .failed notFoundReason
  | some rewindHash => do
    .ofExcept (validateHex req.txRef "tx_ref" 66)
    .ofExcept (validateHex64 rewindHash "view_key")
    let outputs ← Verify.scanRewindHash rewindHash
    match outputs.find? fun o => toLowercase o.commit = toLowercase req.txRef with
    | none => return .failed notFoundReason
    | some output => do
      let tip ← Verify.getHeight
      return .ofOutcome (grinAmountOutcome output.value (output.confirmations tip)
        (neededConfirmations coin) expected)

end Families

/-- `verify_handler`. -/
def verifyHandler (inst : VerifyInstance) (req : VerifyRequest) : VerifyProgram VerifyResponse :=
  let coin := inst.lowercase req.coin
  let family := inst.lowercase req.family
  match parseU64 req.amount with
  | none => .fail (.validationError "amount must be a base-unit integer")
  | some expected =>
    match family with
    | "utxo" => verifyUtxo inst coin req expected
    | "cryptonote" => verifyCryptonote inst coin req expected
    | "grin" => verifyGrin inst coin req expected
    | other => .fail (.validationError s!"unknown settlement family: {other}")

/-! ### The reads are those of the clients -/

section Clients

variable {answers : (q : UpstreamRead) → Except AppError q.Reply}

theorem answered_getHistory (c : ElectrumClient) (coin address : String)
    (hanswers : ∀ sh, answers (.history coin sh) = .ok (c.historyOf sh)) :
    (Verify.getHistory coin c.addressToScripthash address).answered answers =
      c.getHistory address := by
  simp only [Verify.getHistory, ask, Remote.answered_bind, Remote.answered_ofExcept,
    Remote.answered_question, hanswers]
  rfl

theorem answered_getTransactionVerbose (c : ElectrumClient) (coin txid : String)
    (hanswers : answers (.transaction coin txid) = .ok (c.transactionOf txid)) :
    (Verify.getTransactionVerbose coin txid).answered answers = c.getTransactionVerbose txid := by
  simp only [Verify.getTransactionVerbose, ask, Remote.answered_bind, Remote.answered_ofExcept,
    Remote.answered_question, hanswers]
  rfl

theorem answered_getAddressTxs (c : LwsClient) (coin address viewKey : String)
    (hanswers : answers (.addressTxs coin address viewKey) = c.addressTxs address viewKey) :
    (Verify.getAddressTxs coin c address viewKey).answered answers =
      c.getAddressTxs address viewKey := by
  simp only [Verify.getAddressTxs, LwsClient.getAddressTxs, ask, Remote.answered_bind,
    Remote.answered_question, hanswers]
  cases c.addressTxs address viewKey with
  | error e => rfl
  | ok resp =>
    simp only [bind, Except.bind]
    split_ifs <;> rfl

theorem answered_getBlockchainHeight (c : LwsClient) (coin : String)
    (hanswers : answers (.daemonInfo coin) = c.getInfo) :
    (Verify.getBlockchainHeight coin c).answered answers = c.getBlockchainHeight := by
  unfold Verify.getBlockchainHeight LwsClient.getBlockchainHeight
  split_ifs
  · rfl
  · simp only [ask, Remote.answered_bind, Remote.answered_question, hanswers]
    rcases c.getInfo with e | ⟨result, status, error⟩
    · rfl
    · cases error <;> cases result <;> rfl

theorem answered_getTransactionConfirmations (c : LwsClient) (coin txid : String)
    (hinfo : answers (.daemonInfo coin) = c.getInfo)
    (htxs : answers (.daemonTransactions coin txid) = c.transactions txid) :
    (Verify.getTransactionConfirmations coin c txid).answered answers =
      c.getTransactionConfirmations txid := by
  unfold Verify.getTransactionConfirmations LwsClient.getTransactionConfirmations
  split_ifs
  · rfl
  · simp only [Remote.answered_bind, answered_getBlockchainHeight c coin hinfo, ask,
      Remote.answered_question, htxs]
    cases c.getBlockchainHeight with
    | error e => rfl
    | ok height =>
      rcases c.transactions txid with e | ⟨txs, status⟩
      · rfl
      · simp only [bind, Except.bind, Verify.confirmationsOf]
        split_ifs
        · rfl
        · cases txs.bind List.head? <;> rfl

theorem answered_getHeight (c : GrinClient) (hanswers : answers .nodeStatus = c.status) :
    Verify.getHeight.answered answers = c.getHeight := by
  simp only [Verify.getHeight, ask, Remote.answered_bind, Remote.answered_ofExcept,
    Remote.answered_question, hanswers]
  rfl

end Clients

end SmirkBackend
