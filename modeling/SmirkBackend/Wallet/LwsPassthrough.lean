import SmirkBackend.Chain.LwsWire
import SmirkBackend.LetterCase
import SmirkBackend.Lib.JsonText

/-!
# What wallets are told of a light-wallet server

The balance, history and output endpoints pass on what the light-wallet server says of an address: a
wallet has the spend key and finds out itself what was spent.  Amounts go on as decimal texts.

A label, the subaddress of an output or of a spend, decides the key image that the wallet looks
for.  What a server writes into labels changes no more than labels: neither an amount, a height or a
key, nor whether there is an answer, nor what tips are paid.

`labels_alone` proves this for every server and every other one that writes other labels
(`LwsReads.Edited`), and `answers_lossless` says what wallets can make of the answers.
-/

namespace SmirkBackend

open Lib (Json Record EachMember)
open LwsWire (Labels forgetIf SameBut)

/-! ### Answers -/

namespace XmrWow

/-- `SubaddrIndexDto` -/
structure SubaddrIndexDto where
  /-- Account. -/
  major : UInt32
  /-- Index in the account. -/
  minor : UInt32

/-- A label for wallets. -/
def indexDto (i : SubaddrIndex) : SubaddrIndexDto := ⟨i.majI, i.minI⟩

/-- `SpentOutputDto` -/
structure SpentOutputDto where
  /-- Amount. -/
  amount : UInt64
  /-- Key image. -/
  keyImage : String
  /-- Transaction key. -/
  txPubKey : String
  /-- Position in its transaction. -/
  outIndex : UInt64
  /-- Ring size. -/
  mixin : UInt64
  /-- Where the spent output was received. -/
  subaddrIndex : SubaddrIndexDto

/-- `TxDto` -/
structure TxDto where
  /-- Transaction hash. -/
  hash : String
  /-- Block height. -/
  height : UInt64
  /-- Time of the block. -/
  timestamp : String
  /-- Amount received. -/
  totalReceived : UInt64
  /-- Amount possibly sent. -/
  totalSent : UInt64
  /-- Still unconfirmed. -/
  mempool : Bool
  /-- Lock. -/
  unlockTime : UInt64
  /-- Payment id. -/
  paymentId : Option String
  /-- What it may spend. -/
  spentOutputs : List SpentOutputDto
  /-- Where it was received. -/
  subaddrIndex : SubaddrIndexDto

/-- `UnspentOutputDto` -/
structure UnspentOutputDto where
  /-- Amount. -/
  amount : UInt64
  /-- Its key. -/
  publicKey : String
  /-- Transaction key. -/
  txPubKey : String
  /-- Position in its transaction. -/
  index : UInt32
  /-- Position in the chain. -/
  globalIndex : UInt64
  /-- Block height. -/
  height : UInt64
  /-- Time of the block. -/
  timestamp : String
  /-- Transaction hash. -/
  txHash : String
  /-- Commitment data. -/
  rct : String
  /-- Key images that may spend it. -/
  spendKeyImages : List String
  /-- Where it was received. -/
  subaddrIndex : SubaddrIndexDto

/-- `LwsBalanceResponse` -/
structure LwsBalanceResponse where
  /-- `xmr` or `wow`. -/
  asset : String
  /-- Amount received. -/
  totalReceived : UInt64
  /-- Locked amount. -/
  lockedBalance : UInt64
  /-- Unconfirmed amount. -/
  pendingBalance : UInt64
  /-- Height that the scan started from. -/
  startHeight : UInt64
  /-- Height of the scan. -/
  scannedHeight : UInt64
  /-- Height of the chain. -/
  blockchainHeight : UInt64
  /-- Number of transactions. -/
  transactionCount : UInt64
  /-- What may be spent. -/
  spentOutputs : List SpentOutputDto

/-- `LwsHistoryResponse` -/
structure LwsHistoryResponse where
  /-- `xmr` or `wow`. -/
  asset : String
  /-- The transactions. -/
  transactions : List TxDto

/-- `UnspentOutsResponse` -/
structure UnspentOutsResponse where
  /-- `xmr` or `wow`. -/
  asset : String
  /-- The outputs. -/
  outputs : List UnspentOutputDto
  /-- Fee for a byte. -/
  perByteFee : UInt64
  /-- Rounding of fees. -/
  feeMask : UInt64
  /-- Consensus version. -/
  forkVersion : UInt8

/-- `spent_dto`: the label is that of the spend. -/
def spentDto (s : LwsWire.SpentOutput) : SpentOutputDto where
  amount := s.amount
  keyImage := s.keyImage
  txPubKey := s.txPubKey
  outIndex := s.outIndex
  mixin := s.mixin
  subaddrIndex := indexDto s.sender

/-- `tx_dto` -/
def txDto (t : LwsWire.AddressTx) : TxDto where
  hash := t.hash
  height := t.height
  timestamp := t.timestamp
  totalReceived := t.totalReceived
  totalSent := t.totalSent
  mempool := t.mempool
  unlockTime := t.unlockTime
  paymentId := t.paymentId
  spentOutputs := t.spentOutputs.map spentDto
  subaddrIndex := indexDto t.recipient

/-- `unspent_dto` -/
def unspentDto (u : LwsWire.UnspentOutput) : UnspentOutputDto where
  amount := u.amount
  publicKey := u.publicKey
  txPubKey := u.txPubKey
  index := u.index
  globalIndex := u.globalIndex
  height := u.height
  timestamp := u.timestamp
  txHash := u.txHash
  rct := u.rct
  spendKeyImages := u.spendKeyImages
  subaddrIndex := indexDto u.recipient

/-! ### Their JSON -/

/-- `ser_u64_str`: an amount as a decimal. -/
def serU64Str (n : UInt64) : Json := .str (toString n.toNat)

/-- A number. -/
def serNumber (n : UInt64) : Json := .num (.pos n)

/-- A text, if there is one. -/
def serOption : Option String → Json
  | none => .null
  | some s => .str s

/-- A label. -/
def SubaddrIndexDto.toJson (i : SubaddrIndexDto) : Json :=
  .obj [("major", serNumber i.major.toUInt64), ("minor", serNumber i.minor.toUInt64)]

/-- A spend. -/
def SpentOutputDto.toJson (s : SpentOutputDto) : Json :=
  .obj [("amount", serU64Str s.amount), ("key_image", .str s.keyImage),
    ("tx_pub_key", .str s.txPubKey), ("out_index", serNumber s.outIndex),
    ("mixin", serNumber s.mixin), ("subaddr_index", s.subaddrIndex.toJson)]

/-- A transaction. -/
def TxDto.toJson (t : TxDto) : Json :=
  .obj [("hash", .str t.hash), ("height", serNumber t.height), ("timestamp", .str t.timestamp),
    ("total_received", serU64Str t.totalReceived), ("total_sent", serU64Str t.totalSent),
    ("mempool", .bool t.mempool), ("unlock_time", serNumber t.unlockTime),
    ("payment_id", serOption t.paymentId), ("spent_outputs", .arr (t.spentOutputs.map (·.toJson))),
    ("subaddr_index", t.subaddrIndex.toJson)]

/-- An output. -/
def UnspentOutputDto.toJson (u : UnspentOutputDto) : Json :=
  .obj [("amount", serU64Str u.amount), ("public_key", .str u.publicKey),
    ("tx_pub_key", .str u.txPubKey), ("index", serNumber u.index.toUInt64),
    ("global_index", serNumber u.globalIndex), ("height", serNumber u.height),
    ("timestamp", .str u.timestamp), ("tx_hash", .str u.txHash), ("rct", .str u.rct),
    ("spend_key_images", .arr (u.spendKeyImages.map .str)), ("subaddr_index", u.subaddrIndex.toJson)]

/-- The answer about a balance. -/
def LwsBalanceResponse.toJson (r : LwsBalanceResponse) : Json :=
  .obj [("asset", .str r.asset), ("total_received", serU64Str r.totalReceived),
    ("locked_balance", serU64Str r.lockedBalance), ("pending_balance", serU64Str r.pendingBalance),
    ("start_height", serNumber r.startHeight), ("scanned_height", serNumber r.scannedHeight),
    ("blockchain_height", serNumber r.blockchainHeight),
    ("transaction_count", serNumber r.transactionCount),
    ("spent_outputs", .arr (r.spentOutputs.map (·.toJson)))]

/-- The answer about a history. -/
def LwsHistoryResponse.toJson (r : LwsHistoryResponse) : Json :=
  .obj [("asset", .str r.asset), ("transactions", .arr (r.transactions.map (·.toJson)))]

/-- The answer about outputs. -/
def UnspentOutsResponse.toJson (r : UnspentOutsResponse) : Json :=
  .obj [("asset", .str r.asset), ("outputs", .arr (r.outputs.map (·.toJson))),
    ("per_byte_fee", serNumber r.perByteFee), ("fee_mask", serNumber r.feeMask),
    ("fork_version", serNumber r.forkVersion.toUInt64)]

/-! ### Without labels -/

/-- A label, forgotten if edits may touch it. -/
def SubaddrIndexDto.forgetIf (allowed : Bool) (i : SubaddrIndexDto) : SubaddrIndexDto :=
  if allowed then ⟨0, 0⟩ else i

/-- A spend without its label. -/
def SpentOutputDto.forget (a : Labels) (s : SpentOutputDto) : SpentOutputDto :=
  { s with subaddrIndex := s.subaddrIndex.forgetIf a.spent }

/-- A transaction without its labels. -/
def TxDto.forget (a : Labels) (t : TxDto) : TxDto :=
  { t with
    spentOutputs := t.spentOutputs.map (SpentOutputDto.forget a)
    subaddrIndex := t.subaddrIndex.forgetIf a.received }

/-- An output without its label. -/
def UnspentOutputDto.forget (a : Labels) (u : UnspentOutputDto) : UnspentOutputDto :=
  { u with subaddrIndex := u.subaddrIndex.forgetIf a.received }

/-- A balance without labels. -/
def LwsBalanceResponse.forget (a : Labels) (r : LwsBalanceResponse) : LwsBalanceResponse :=
  { r with spentOutputs := r.spentOutputs.map (SpentOutputDto.forget a) }

/-- A history without labels. -/
def LwsHistoryResponse.forget (a : Labels) (r : LwsHistoryResponse) : LwsHistoryResponse :=
  { r with transactions := r.transactions.map (TxDto.forget a) }

/-- Outputs without labels. -/
def UnspentOutsResponse.forget (a : Labels) (r : UnspentOutsResponse) : UnspentOutsResponse :=
  { r with outputs := r.outputs.map (UnspentOutputDto.forget a) }

theorem indexDto_forgetIf (allowed : Bool) (i : SubaddrIndex) :
    indexDto (forgetIf allowed i) = (indexDto i).forgetIf allowed := by
  cases allowed <;> rfl

theorem spentDto_forget (a : Labels) (s : LwsWire.SpentOutput) :
    spentDto (s.forget a) = (spentDto s).forget a := by
  simp only [spentDto, LwsWire.SpentOutput.forget, SpentOutputDto.forget, indexDto_forgetIf]

theorem txDto_forget (a : Labels) (t : LwsWire.AddressTx) :
    txDto (t.forget a) = (txDto t).forget a := by
  simp only [txDto, LwsWire.AddressTx.forget, TxDto.forget, indexDto_forgetIf, List.map_map,
    Function.comp_def, spentDto_forget]

theorem unspentDto_forget (a : Labels) (u : LwsWire.UnspentOutput) :
    unspentDto (u.forget a) = (unspentDto u).forget a := by
  simp only [unspentDto, LwsWire.UnspentOutput.forget, UnspentOutputDto.forget, indexDto_forgetIf]

end XmrWow

/-! ### The client -/

/-- `sum_mempool_received` -/
def sumMempoolReceived (txs : List LwsWire.AddressTx) : UInt64 :=
  ((txs.filter (·.mempool)).map (·.totalReceived)).foldl Lib.saturatingAddU 0

/-- What a light-wallet server answers for an address and its view key: a body, or a transport
failure, an error status or too large a body. -/
structure LwsReads where
  /-- Network tag of the error messages. -/
  network : String
  /-- `get_address_info` -/
  addressInfo : String → String → Except AppError Json
  /-- `get_address_txs` -/
  addressTxs : String → String → Except AppError Json
  /-- `get_unspent_outs` -/
  unspentOuts : String → String → Except AppError Json

namespace LwsReads

/-- `node_err`. -/
def nodeErr (c : LwsReads) (label detail : String) : AppError :=
  .nodeError s!"{c.network} LWS {label}: {detail}"

/-- The end of `post_json`. -/
def parse {α : Type} (c : LwsReads) (label : String) (r : Record α) (body : Json) :
    Except AppError α :=
  (r.decode body).elim (.error (c.nodeErr label "invalid response")) .ok

/-- A list of a body is not too long. -/
def bounded {α : Type} (c : LwsReads) (label : String) (length : α → ℕ) (x : α) : Except AppError α :=
  if LwsClient.maxParsedVec < length x then .error (c.nodeErr label "response too large") else .ok x

/-- `get_address_info` -/
def getAddressInfo (c : LwsReads) (address viewKey : String) : Except AppError LwsWire.AddressInfo :=
  c.addressInfo address viewKey >>= c.parse "get_address_info" LwsWire.AddressInfo.record

/-- `get_address_txs` -/
def getAddressTxs (c : LwsReads) (address viewKey : String) :
    Except AppError LwsWire.AddressTxsResponse := do
  let body ← c.addressTxs address viewKey
  let resp ← c.parse "get_address_txs" LwsWire.AddressTxsResponse.record body
  c.bounded "get_address_txs" (·.transactions.length) resp

/-- `get_unspent_outs` -/
def getUnspentOuts (c : LwsReads) (address viewKey : String) :
    Except AppError LwsWire.UnspentOutsResponse := do
  let body ← c.unspentOuts address viewKey
  let resp ← c.parse "get_unspent_outs" LwsWire.UnspentOutsResponse.record body
  c.bounded "get_unspent_outs" (·.outputs.length) resp

/-- The client of tips and verification with this server behind it. -/
def client (c : LwsReads) (daemon : LwsClient) : LwsClient :=
  { daemon with
    network := c.network
    addressTxs := fun address viewKey => do
      let body ← c.addressTxs address viewKey
      let resp ← c.parse "get_address_txs" LwsWire.AddressTxsResponse.record body
      pure resp.core }

end LwsReads

/-! ### The endpoints -/

/-- `ViewRequest` -/
structure ViewRequest where
  /-- `xmr` or `wow`. -/
  asset : String
  /-- Address. -/
  address : String
  /-- Private view key. -/
  viewKey : String

/-- The part of an instance that the endpoints read. -/
structure LwsInstance where
  /-- `str::to_lowercase`. -/
  lowercase : String → String
  /-- XMR. -/
  xmr : Option LwsReads
  /-- WOW. -/
  wow : Option LwsReads

namespace LwsInstance

open XmrWow

variable (inst : LwsInstance)

/-- `lws_for`. -/
def lwsFor (asset : String) : Except AppError LwsReads :=
  let enabled (client : Option LwsReads) :=
    client.elim (.error (.validationError (asset ++ " support is not enabled on this server"))) .ok
  match asset with
  | "xmr" => enabled inst.xmr
  | "wow" => enabled inst.wow
  | other => .error (.validationError
      ("Invalid CryptoNote asset: " ++ other ++ " (expected xmr or wow)"))

/-- What the endpoints check first. -/
def view (user : Except AppError Uuid) (req : ViewRequest) : Except AppError LwsReads := do
  let _ ← user
  let c ← inst.lwsFor (inst.lowercase req.asset)
  validateCnAddress req.address
  validateViewKey req.viewKey
  pure c

/-- `balance`; of two failures that of `get_address_info` is answered. -/
def balance (user : Except AppError Uuid) (req : ViewRequest) : Except AppError LwsBalanceResponse := do
  let c ← inst.view user req
  let info ← c.getAddressInfo req.address req.viewKey
  let txs ← c.getAddressTxs req.address req.viewKey
  pure {
    asset := inst.lowercase req.asset
    totalReceived := info.totalReceived
    lockedBalance := info.lockedFunds
    pendingBalance := sumMempoolReceived txs.transactions
    startHeight := info.startHeight
    scannedHeight := info.scannedHeight
    blockchainHeight := info.blockchainHeight
    transactionCount := info.transactionCount
    spentOutputs := (txs.transactions.flatMap (·.spentOutputs)).map spentDto }

/-- `history` -/
def history (user : Except AppError Uuid) (req : ViewRequest) : Except AppError LwsHistoryResponse := do
  let c ← inst.view user req
  let txs ← c.getAddressTxs req.address req.viewKey
  pure ⟨inst.lowercase req.asset, txs.transactions.map txDto⟩

/-- `unspent_outs` -/
def unspentOuts (user : Except AppError Uuid) (req : ViewRequest) :
    Except AppError UnspentOutsResponse := do
  let c ← inst.view user req
  let outs ← c.getUnspentOuts req.address req.viewKey
  pure ⟨inst.lowercase req.asset, outs.outputs.map unspentDto, outs.perByteFee, outs.feeMask,
    outs.forkVersion⟩

end LwsInstance

/-! ### Other labels -/

open Lib (ExceptRel)

namespace LwsReads

/-- Servers that answer alike but for labels. -/
structure Edited (a : Labels) (c c' : LwsReads) : Prop where
  /-- The same network. -/
  network : c.network = c'.network
  /-- `get_address_info` has no labels. -/
  addressInfo : c.addressInfo = c'.addressInfo
  /-- Edited transactions. -/
  addressTxs : ∀ address viewKey, ExceptRel (EachMember (LwsWire.TxsMember a))
    (c.addressTxs address viewKey) (c'.addressTxs address viewKey)
  /-- Edited outputs. -/
  unspentOuts : ∀ address viewKey, ExceptRel (EachMember (LwsWire.OutsMember a))
    (c.unspentOuts address viewKey) (c'.unspentOuts address viewKey)

variable {a : Labels} {c c' : LwsReads}

theorem Edited.nodeErr (h : Edited a c c') : c.nodeErr = c'.nodeErr := by
  funext label detail
  rw [LwsReads.nodeErr, LwsReads.nodeErr, h.network]

theorem Edited.parse {α : Type} {r : Record α} {E : Json → Json → Prop} {forget : α → α}
    (h : Edited a c c') (hr : r.decode.Respects E (SameBut forget)) (label : String) {v w : Json}
    (hvw : E v w) : ExceptRel (SameBut forget) (c.parse label r v) (c'.parse label r w) := by
  have hread := hr v w hvw
  unfold LwsReads.parse
  rw [h.nodeErr]
  generalize r.decode v = o at hread ⊢
  generalize r.decode w = o' at hread ⊢
  cases hread with
  | none => exact .error _
  | some hsame => exact .ok hsame

theorem Edited.bounded {α : Type} {forget : α → α} {length : α → ℕ} (h : Edited a c c')
    (label : String) (hlength : ∀ x, length (forget x) = length x) {x y : α}
    (hxy : SameBut forget x y) :
    ExceptRel (SameBut forget) (c.bounded label length x) (c'.bounded label length y) := by
  unfold LwsReads.bounded
  rw [h.nodeErr, ← hlength x, ← hlength y, show forget x = forget y from hxy]
  split
  · exact .error _
  · exact .ok hxy

theorem Edited.getAddressTxs (h : Edited a c c') (address viewKey : String) :
    ExceptRel (SameBut (LwsWire.AddressTxsResponse.forget a)) (c.getAddressTxs address viewKey)
      (c'.getAddressTxs address viewKey) := by
  refine (h.addressTxs address viewKey).bind fun v w hvw => ?_
  refine (h.parse (LwsWire.respects_txs a) _ hvw).bind fun r r' hr => ?_
  refine h.bounded _ (fun r => ?_) hr
  exact List.length_map (LwsWire.AddressTx.forget a) 

theorem Edited.getUnspentOuts (h : Edited a c c') (address viewKey : String) :
    ExceptRel (SameBut (LwsWire.UnspentOutsResponse.forget a)) (c.getUnspentOuts address viewKey)
      (c'.getUnspentOuts address viewKey) := by
  refine (h.unspentOuts address viewKey).bind fun v w hvw => ?_
  refine (h.parse (LwsWire.respects_outs a) _ hvw).bind fun r r' hr => ?_
  refine h.bounded _ (fun r => ?_) hr
  exact List.length_map (LwsWire.UnspentOutput.forget a) 

theorem Edited.getAddressInfo (h : Edited a c c') (address viewKey : String) :
    c.getAddressInfo address viewKey = c'.getAddressInfo address viewKey := by
  unfold LwsReads.getAddressInfo LwsReads.parse
  rw [h.addressInfo, h.nodeErr]

end LwsReads

namespace LwsWire

theorem AddressTxsResponse.core_forget (a : Labels) (r : AddressTxsResponse) :
    (r.forget a).core = r.core := by
  simp only [AddressTxsResponse.core, AddressTxsResponse.forget, List.map_map]
  rfl

end LwsWire

theorem LwsReads.Edited.client {a : Labels} {c c' : LwsReads} (h : c.Edited a c') (daemon : LwsClient) :
    c.client daemon = c'.client daemon := by
  unfold LwsReads.client
  rw [h.network]
  congr 1
  funext address viewKey
  refine ExceptRel.eq ((h.addressTxs address viewKey).bind fun v w hvw => ?_)
  refine (h.parse (LwsWire.respects_txs a) _ hvw).bind fun r r' hr => .ok ?_
  rw [← LwsWire.AddressTxsResponse.core_forget a r, ← LwsWire.AddressTxsResponse.core_forget a r',
    show r.forget a = r'.forget a from hr]

theorem sumMempoolReceived_forget (a : Labels) (txs : List LwsWire.AddressTx) :
    sumMempoolReceived (txs.map (LwsWire.AddressTx.forget a)) = sumMempoolReceived txs := by
  have hfilter : (txs.map (LwsWire.AddressTx.forget a)).filter (·.mempool) =
      (txs.filter (·.mempool)).map (LwsWire.AddressTx.forget a) := by
    rw [List.filter_map]
    rfl
  unfold sumMempoolReceived
  rw [hfilter, List.map_map]
  rfl

namespace LwsInstance

open XmrWow

/-- Instances whose servers answer alike but for labels. -/
structure Edited (a : Labels) (inst inst' : LwsInstance) : Prop where
  /-- `str::to_lowercase`. -/
  lowercase : inst.lowercase = inst'.lowercase
  /-- XMR. -/
  xmr : Option.Rel (LwsReads.Edited a) inst.xmr inst'.xmr
  /-- WOW. -/
  wow : Option.Rel (LwsReads.Edited a) inst.wow inst'.wow

variable {a : Labels} {inst inst' : LwsInstance}

theorem Edited.lwsFor (h : Edited a inst inst') (asset : String) :
    ExceptRel (LwsReads.Edited a) (inst.lwsFor asset) (inst'.lwsFor asset) := by
  have henabled {o o' : Option LwsReads} (ho : Option.Rel (LwsReads.Edited a) o o') (e : AppError) :
      ExceptRel (LwsReads.Edited a) (o.elim (.error e) .ok) (o'.elim (.error e) .ok) := by
    cases ho with
    | none => exact .error e
    | some hc => exact .ok hc
  unfold LwsInstance.lwsFor
  split
  · exact henabled h.xmr _
  · exact henabled h.wow _
  · exact .error _

theorem Edited.view (h : Edited a inst inst') (user : Except AppError Uuid) (req : ViewRequest) :
    ExceptRel (LwsReads.Edited a) (inst.view user req) (inst'.view user req) := by
  unfold LwsInstance.view
  rw [h.lowercase]
  refine (ExceptRel.same (fun _ => rfl) user).bind fun _ _ _ => ?_
  refine (h.lwsFor _).bind fun c c' hc => ?_
  refine (ExceptRel.same (fun _ => rfl) (validateCnAddress req.address)).bind fun _ _ _ => ?_
  exact (ExceptRel.same (fun _ => rfl) (validateViewKey req.viewKey)).bind fun _ _ _ => .ok hc

theorem Edited.history (h : Edited a inst inst') (user : Except AppError Uuid) (req : ViewRequest) :
    (inst.history user req).map (LwsHistoryResponse.forget a) =
      (inst'.history user req).map (LwsHistoryResponse.forget a) := by
  refine ExceptRel.map_eq ((h.view user req).bind fun c c' hc => ?_) fun _ _ h => h
  refine (hc.getAddressTxs req.address req.viewKey).bind fun r r' hr => .ok ?_
  have htxs : r.transactions.map (LwsWire.AddressTx.forget a) =
      r'.transactions.map (LwsWire.AddressTx.forget a) :=
    congrArg LwsWire.AddressTxsResponse.transactions hr
  have hdto (txs : List LwsWire.AddressTx) : (txs.map txDto).map (TxDto.forget a) =
      (txs.map (LwsWire.AddressTx.forget a)).map txDto := by
    simp only [List.map_map, Function.comp_def, txDto_forget]
  simp only [LwsHistoryResponse.forget, h.lowercase, hdto, htxs]

theorem Edited.unspentOuts (h : Edited a inst inst') (user : Except AppError Uuid)
    (req : ViewRequest) : (inst.unspentOuts user req).map (UnspentOutsResponse.forget a) =
      (inst'.unspentOuts user req).map (UnspentOutsResponse.forget a) := by
  refine ExceptRel.map_eq ((h.view user req).bind fun c c' hc => ?_) fun _ _ h => h
  refine (hc.getUnspentOuts req.address req.viewKey).bind fun r r' hr => .ok ?_
  obtain ⟨houts, hfee, hmask, hfork⟩ := (LwsWire.UnspentOutsResponse.mk.injEq ..).mp hr
  have hdto (outs : List LwsWire.UnspentOutput) : (outs.map unspentDto).map (UnspentOutputDto.forget a) =
      (outs.map (LwsWire.UnspentOutput.forget a)).map unspentDto := by
    simp only [List.map_map, Function.comp_def, unspentDto_forget]
  simp only [UnspentOutsResponse.forget, h.lowercase, hdto, houts, hfee, hmask, hfork]

theorem Edited.balance (h : Edited a inst inst') (user : Except AppError Uuid) (req : ViewRequest) :
    (inst.balance user req).map (LwsBalanceResponse.forget a) =
      (inst'.balance user req).map (LwsBalanceResponse.forget a) := by
  refine ExceptRel.map_eq ((h.view user req).bind fun c c' hc => ?_) fun _ _ h => h
  rw [hc.getAddressInfo]
  refine (ExceptRel.same (fun _ => rfl) (c'.getAddressInfo req.address req.viewKey)).bind ?_
  rintro info _ rfl
  refine (hc.getAddressTxs req.address req.viewKey).bind fun r r' hr => .ok ?_
  have htxs : r.transactions.map (LwsWire.AddressTx.forget a) =
      r'.transactions.map (LwsWire.AddressTx.forget a) :=
    congrArg LwsWire.AddressTxsResponse.transactions hr
  have hpending : sumMempoolReceived r.transactions = sumMempoolReceived r'.transactions := by
    rw [← sumMempoolReceived_forget a r.transactions, htxs, sumMempoolReceived_forget]
  have hspent (txs : List LwsWire.AddressTx) :
      ((txs.flatMap (·.spentOutputs)).map spentDto).map (SpentOutputDto.forget a) =
        ((txs.map (LwsWire.AddressTx.forget a)).flatMap (·.spentOutputs)).map spentDto := by
    simp only [List.map_map, Function.comp_def, List.map_flatMap, List.flatMap_map,
      LwsWire.AddressTx.forget, spentDto_forget]
  simp only [LwsBalanceResponse.forget, h.lowercase, hpending, hspent, htxs]

end LwsInstance

/-- **Labels change labels only.**  Let light-wallet servers write other labels, of what was received,
of what is spent or of both: any values that can be read as labels for any such values.  Then the
balance, history and output endpoints answer as before but for those labels, with the same errors,
and tips and verification see the same transactions.  A value that cannot be read as a label hides
the whole history. -/
theorem labels_alone {a : Labels} {inst inst' : LwsInstance} (h : LwsInstance.Edited a inst inst')
    (user : Except AppError Uuid) (req : ViewRequest) :
    ((inst.balance user req).map (XmrWow.LwsBalanceResponse.forget a) =
        (inst'.balance user req).map (XmrWow.LwsBalanceResponse.forget a) ∧
      (inst.history user req).map (XmrWow.LwsHistoryResponse.forget a) =
        (inst'.history user req).map (XmrWow.LwsHistoryResponse.forget a) ∧
      (inst.unspentOuts user req).map (XmrWow.UnspentOutsResponse.forget a) =
        (inst'.unspentOuts user req).map (XmrWow.UnspentOutsResponse.forget a)) ∧
    (∀ asset daemon, (inst.lwsFor asset).map (·.client daemon) =
      (inst'.lwsFor asset).map (·.client daemon)) ∧
    ∀ c body l, inst.view user req = .ok c → c.addressTxs req.address req.viewKey = .ok body →
      isLabel l = false → LwsWire.TxLabel body l →
      inst.history user req = .error (c.nodeErr "get_address_txs" "invalid response") := by
  refine ⟨⟨h.balance user req, h.history user req, h.unspentOuts user req⟩, ?_, ?_⟩
  · intro asset daemon
    exact (h.lwsFor asset).map_eq fun c c' hc => hc.client daemon
  · intro c body l hview hbody hl htx
    have hnone := LwsWire.decode_txs_eq_none hl htx
    have htxs : c.getAddressTxs req.address req.viewKey =
        .error (c.nodeErr "get_address_txs" "invalid response") := by
      unfold LwsReads.getAddressTxs LwsReads.parse
      rw [hbody]
      simp only [bind, Except.bind, hnone, Option.elim_none]
    unfold LwsInstance.history
    rw [hview]
    simp only [bind, Except.bind, htxs]

/-- A server whose only transaction has a label. -/
def labelledReads (l : Json) : LwsReads where
  network := "monero"
  addressInfo _ _ := .ok (.obj [])
  addressTxs _ _ := .ok (.obj [("transactions", .arr [.obj [("hash", .str "aa"),
    ("total_received", .str "5000000000000"), ("recipient", l)]])])
  unspentOuts _ _ := .ok (.obj [])

/-- An instance with that server. -/
def labelledInstance (l : Json) : LwsInstance := ⟨id, some (labelledReads l), none⟩

theorem edited_labelled {l l' : Json} (h : isLabel l = isLabel l') :
    LwsInstance.Edited ⟨true, false⟩ (labelledInstance l) (labelledInstance l') := by
  refine ⟨rfl, .some ⟨rfl, rfl, fun _ _ => .ok (.obj ?_), fun _ _ => .ok (.same _)⟩, .none⟩
  refine .cons ⟨rfl, .arr (.cons (.obj ?_) .nil)⟩ .nil
  exact .cons ⟨rfl, rfl⟩ (.cons ⟨rfl, rfl⟩ (.cons ⟨rfl, h⟩ .nil))

/-- A view of an address. -/
def ViewRequest.sample : ViewRequest := ⟨"xmr", "4A", String.ofList (List.replicate 64 'a')⟩

/-- Indices that are no numbers leave the amount; `null` in place of a label hides it. -/
theorem garbled_label_alone :
    ((labelledInstance (.obj [("maj_i", .bool true), ("min_i", .str "seven")])).history (.ok 1)
        .sample).map (XmrWow.LwsHistoryResponse.forget ⟨true, false⟩) =
      ((labelledInstance (.obj [("maj_i", .null), ("min_i", XmrWow.serNumber 7)])).history (.ok 1)
        .sample).map (XmrWow.LwsHistoryResponse.forget ⟨true, false⟩) ∧
    (labelledInstance .null).history (.ok 1) .sample =
      .error (.nodeError "monero LWS get_address_txs: invalid response") := by
  refine ⟨(labels_alone (edited_labelled rfl) (.ok 1) .sample).1.2.1, ?_⟩
  exact (labels_alone (edited_labelled (l := .null) rfl) (.ok 1) .sample).2.2 (labelledReads .null) _ .null
    rfl rfl rfl ⟨_, _, _, rfl, List.mem_singleton.mpr rfl, List.mem_singleton.mpr rfl,
      .tail _ (.tail _ (.head _))⟩

/-! ### Nothing is lost -/

namespace XmrWow

theorem serU64Str_injective {m n : UInt64} (h : serU64Str m = serU64Str n) : m = n := by
  have htext : m.toNat.repr = n.toNat.repr := Json.str.inj h
  exact UInt64.toNat_inj.mp (Nat.repr_injective htext)

theorem serNumber_injective {m n : UInt64} (h : serNumber m = serNumber n) : m = n :=
  Lib.JsonNumber.pos.inj (Json.num.inj h)

theorem serOption_injective {s t : Option String} (h : serOption s = serOption t) : s = t := by
  cases s with
  | none =>
    cases t with
    | none => rfl
    | some _ => cases h
  | some _ =>
    cases t with
    | none => cases h
    | some _ => exact congrArg some (Json.str.inj h)

theorem SubaddrIndexDto.toJson_injective : Function.Injective SubaddrIndexDto.toJson := by
  rintro ⟨major, minor⟩ ⟨major', minor'⟩ h
  simp only [toJson, Json.obj.injEq, List.cons.injEq, Prod.mk.injEq, true_and, and_true] at h
  obtain ⟨hmajor, hminor⟩ := h
  rw [UInt32.toUInt64_inj.mp (serNumber_injective hmajor),
    UInt32.toUInt64_inj.mp (serNumber_injective hminor)]

theorem SpentOutputDto.toJson_injective : Function.Injective SpentOutputDto.toJson := by
  rintro ⟨amount, keyImage, txPubKey, outIndex, mixin, index⟩
    ⟨amount', keyImage', txPubKey', outIndex', mixin', index'⟩ h
  simp only [toJson, Json.obj.injEq, Json.str.injEq, List.cons.injEq, Prod.mk.injEq, true_and,
    and_true] at h
  obtain ⟨hamount, rfl, rfl, hout, hmixin, hindex⟩ := h
  rw [serU64Str_injective hamount, serNumber_injective hout, serNumber_injective hmixin,
    SubaddrIndexDto.toJson_injective hindex]

theorem TxDto.toJson_injective : Function.Injective TxDto.toJson := by
  rintro ⟨hash, height, timestamp, received, sent, mempool, unlock, payment, spent, index⟩
    ⟨hash', height', timestamp', received', sent', mempool', unlock', payment', spent', index'⟩ h
  simp only [toJson, Json.obj.injEq, Json.str.injEq, Json.bool.injEq, Json.arr.injEq,
    List.cons.injEq, Prod.mk.injEq, true_and, and_true] at h
  obtain ⟨rfl, hheight, rfl, hreceived, hsent, rfl, hunlock, hpayment, hspent, hindex⟩ := h
  rw [serNumber_injective hheight, serU64Str_injective hreceived, serU64Str_injective hsent,
    serNumber_injective hunlock, serOption_injective hpayment,
    List.map_injective_iff.mpr SpentOutputDto.toJson_injective hspent,
    SubaddrIndexDto.toJson_injective hindex]

theorem UnspentOutputDto.toJson_injective : Function.Injective UnspentOutputDto.toJson := by
  rintro ⟨amount, publicKey, txPubKey, index, global, height, timestamp, txHash, rct, images, label⟩
    ⟨amount', publicKey', txPubKey', index', global', height', timestamp', txHash', rct', images',
      label'⟩ h
  simp only [toJson, Json.obj.injEq, Json.str.injEq, Json.arr.injEq, List.cons.injEq,
    Prod.mk.injEq, true_and, and_true] at h
  obtain ⟨hamount, rfl, rfl, hindex, hglobal, hheight, rfl, rfl, rfl, himages, hlabel⟩ := h
  have hstr : Function.Injective Json.str := fun _ _ h => Json.str.inj h
  rw [serU64Str_injective hamount, UInt32.toUInt64_inj.mp (serNumber_injective hindex),
    serNumber_injective hglobal, serNumber_injective hheight,
    List.map_injective_iff.mpr hstr himages, SubaddrIndexDto.toJson_injective hlabel]

theorem indexDto_injective : Function.Injective indexDto := by
  rintro ⟨major, minor⟩ ⟨major', minor'⟩ h
  obtain ⟨rfl, rfl⟩ := (SubaddrIndexDto.mk.injEq ..).mp h
  rfl

theorem spentDto_injective : Function.Injective spentDto := by
  rintro ⟨_, _, _, _, _, sender⟩ ⟨_, _, _, _, _, sender'⟩ h
  simp only [spentDto, SpentOutputDto.mk.injEq] at h
  obtain ⟨rfl, rfl, rfl, rfl, rfl, hsender⟩ := h
  rw [indexDto_injective hsender]

theorem txDto_injective : Function.Injective txDto := by
  rintro ⟨_, _, _, _, _, _, _, _, spent, recipient⟩ ⟨_, _, _, _, _, _, _, _, spent', recipient'⟩ h
  simp only [txDto, TxDto.mk.injEq] at h
  obtain ⟨rfl, rfl, rfl, rfl, rfl, rfl, rfl, rfl, hspent, hrecipient⟩ := h
  rw [List.map_injective_iff.mpr spentDto_injective hspent, indexDto_injective hrecipient]

theorem unspentDto_injective : Function.Injective unspentDto := by
  rintro ⟨_, _, _, _, _, _, _, _, _, _, recipient⟩ ⟨_, _, _, _, _, _, _, _, _, _, recipient'⟩ h
  simp only [unspentDto, UnspentOutputDto.mk.injEq] at h
  obtain ⟨rfl, rfl, rfl, rfl, rfl, rfl, rfl, rfl, rfl, rfl, hrecipient⟩ := h
  rw [indexDto_injective hrecipient]

end XmrWow

theorem parseU64_toString (n : UInt64) : parseU64 (toString n.toNat) = some n := by
  have htext : (toString n.toNat).toList = Nat.toDigits 10 n.toNat := Nat.toList_repr
  have hdigits : ∀ c ∈ Nat.toDigits 10 n.toNat, c.isDigit := fun c hc =>
    Nat.isDigit_of_mem_toDigits (by decide) (by decide) hc
  have hplus : (Nat.toDigits 10 n.toNat).head? ≠ some '+' := fun hhead =>
    absurd (hdigits '+' (List.mem_of_mem_head? hhead)) (by decide)
  have hvalue : (Nat.toDigits 10 n.toNat).foldl (fun n c => 10 * n + (c.toNat - 48)) 0 = n.toNat :=
    Nat.ofDigitChars_ten_toDigits
  unfold parseU64
  rw [htext, if_neg hplus, if_neg]
  · simp only [hvalue, if_pos n.toNat_lt, UInt64.ofNat_toNat]
  · simpa using hdigits

/-- **Answers lose nothing.**  What two history endpoints answer is the same JSON only if the servers
reported the same transactions, labels included, and likewise for outputs; of a balance, all amounts
and heights and the candidate spends.  An amount is a text that is read as that amount. -/
theorem answers_lossless {inst inst' : LwsInstance} {user user' : Except AppError Uuid}
    {req req' : ViewRequest} {c c' : LwsReads} (h : inst.view user req = .ok c)
    (h' : inst'.view user' req' = .ok c') :
    (∀ txs txs', c.getAddressTxs req.address req.viewKey = .ok txs →
      c'.getAddressTxs req'.address req'.viewKey = .ok txs' →
      (inst.history user req).map (·.toJson) = (inst'.history user' req').map (·.toJson) →
      txs.transactions = txs'.transactions) ∧
    (∀ outs outs', c.getUnspentOuts req.address req.viewKey = .ok outs →
      c'.getUnspentOuts req'.address req'.viewKey = .ok outs' →
      (inst.unspentOuts user req).map (·.toJson) = (inst'.unspentOuts user' req').map (·.toJson) →
      outs = outs') ∧
    (∀ info info' txs txs', c.getAddressInfo req.address req.viewKey = .ok info →
      c'.getAddressInfo req'.address req'.viewKey = .ok info' →
      c.getAddressTxs req.address req.viewKey = .ok txs →
      c'.getAddressTxs req'.address req'.viewKey = .ok txs' →
      (inst.balance user req).map (·.toJson) = (inst'.balance user' req').map (·.toJson) →
      info.totalReceived = info'.totalReceived ∧ info.lockedFunds = info'.lockedFunds ∧
        info.startHeight = info'.startHeight ∧ info.scannedHeight = info'.scannedHeight ∧
        info.blockchainHeight = info'.blockchainHeight ∧
        info.transactionCount = info'.transactionCount ∧
        sumMempoolReceived txs.transactions = sumMempoolReceived txs'.transactions ∧
        txs.transactions.flatMap (·.spentOutputs) = txs'.transactions.flatMap (·.spentOutputs)) ∧
    ∀ n s, XmrWow.serU64Str n = .str s → parseU64 s = some n := by
  refine ⟨?_, ?_, ?_, ?_⟩
  · intro txs txs' htxs htxs' heq
    simp only [LwsInstance.history, h, h', htxs, htxs', bind, Except.bind, pure, Except.pure,
      Except.map, Except.ok.injEq, XmrWow.LwsHistoryResponse.toJson, Json.obj.injEq, Json.arr.injEq,
      List.cons.injEq, Prod.mk.injEq, true_and, and_true] at heq
    exact List.map_injective_iff.mpr XmrWow.txDto_injective
      (List.map_injective_iff.mpr XmrWow.TxDto.toJson_injective heq.2)
  · intro outs outs' houts houts' heq
    simp only [LwsInstance.unspentOuts, h, h', houts, houts', bind, Except.bind, pure, Except.pure,
      Except.map, Except.ok.injEq, XmrWow.UnspentOutsResponse.toJson, Json.obj.injEq,
      Json.arr.injEq, List.cons.injEq, Prod.mk.injEq, true_and, and_true] at heq
    obtain ⟨-, hlist, hfee, hmask, hfork⟩ := heq
    have houtputs := List.map_injective_iff.mpr XmrWow.unspentDto_injective
      (List.map_injective_iff.mpr XmrWow.UnspentOutputDto.toJson_injective hlist)
    exact (LwsWire.UnspentOutsResponse.mk.injEq ..).mpr ⟨houtputs, XmrWow.serNumber_injective hfee,
      XmrWow.serNumber_injective hmask, UInt8.toUInt64_inj.mp (XmrWow.serNumber_injective hfork)⟩
  · intro info info' txs txs' hinfo hinfo' htxs htxs' heq
    simp only [LwsInstance.balance, h, h', hinfo, hinfo', htxs, htxs', bind, Except.bind, pure,
      Except.pure, Except.map, Except.ok.injEq, XmrWow.LwsBalanceResponse.toJson, Json.obj.injEq,
      Json.arr.injEq, List.cons.injEq, Prod.mk.injEq, true_and, and_true] at heq
    obtain ⟨-, hreceived, hlocked, hpending, hstart, hscanned, hchain, hcount, hspent⟩ := heq
    have hcandidates := List.map_injective_iff.mpr XmrWow.spentDto_injective
      (List.map_injective_iff.mpr XmrWow.SpentOutputDto.toJson_injective hspent)
    exact ⟨XmrWow.serU64Str_injective hreceived, XmrWow.serU64Str_injective hlocked,
      XmrWow.serNumber_injective hstart, XmrWow.serNumber_injective hscanned,
      XmrWow.serNumber_injective hchain, XmrWow.serNumber_injective hcount,
      XmrWow.serU64Str_injective hpending, hcandidates⟩
  · rintro n s hs
    obtain rfl := Json.str.inj hs
    exact parseU64_toString n

/-- Two histories that differ in a label only. -/
theorem labels_told : ((labelledInstance (.obj [("min_i", XmrWow.serNumber 7)])).history (.ok 1)
      .sample).map (·.toJson) ≠
    ((labelledInstance (.obj [("min_i", .str "8")])).history (.ok 1) .sample).map (·.toJson) := by
  intro heq
  have hview (l : Json) : (labelledInstance l).view (.ok 1) .sample = .ok (labelledReads l) := rfl
  have htxs := (answers_lossless (hview _) (hview _)).1
    ⟨[⟨"aa", 0, "", 5000000000000, 0, false, 0, none, [], ⟨0, 7⟩⟩], 0, 0, 0⟩
    ⟨[⟨"aa", 0, "", 5000000000000, 0, false, 0, none, [], ⟨0, 8⟩⟩], 0, 0, 0⟩ rfl rfl heq
  exact absurd htxs (by decide)

end SmirkBackend
