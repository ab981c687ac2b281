import SmirkBackend.Chain.LwsImport
import SmirkBackend.Lib.Decode
import SmirkBackend.Wallet.DelegatedVerify

/-!
# The bodies of the light-wallet server

A light-wallet server writes numbers as numbers or as strings.  Amounts are read strictly: what is no
number in range is an error of the whole body.  The subaddress indices that label an output or a
spend are read loosely: what is no number in range is 0, the primary address.  The label itself must
still be an object or an array, or be missing.

So labels leave the rest of a body alone (`LwsWire.respects_txs`, `LwsWire.respects_outs`), as long
as they stay labels (`isSome_subaddrIndex`).  An edit touches the members of objects: a body that
gives a record as an array, field by field, is compared as it is.  The depth at which the parser
gives up on nested values is not modelled, so neither is a label that is too deep for it.
-/

namespace SmirkBackend

open Lib (Json Decoder RecordField Record EachItem EachMember)

/-! ### Numbers -/

/-- A decimal below a bound. -/
def parseBelow (bound : ℕ) (s : String) : Option ℕ :=
  ((parseU64 s).map UInt64.toNat).filter fun n => decide (n < bound)

/-- A number below a bound, or the text of one. -/
def stringOrInt (bound : ℕ) : Decoder ℕ
  | .str s => parseBelow bound s
  | .num (.pos n) => (some n.toNat).filter fun n => decide (n < bound)
  | _ => none

/-- `string_or_u64` -/
def stringOrU64 : Decoder UInt64 := fun v => (stringOrInt (2 ^ 64) v).map UInt64.ofNat

/-- `string_or_u64_default`: `null` is 0. -/
def stringOrU64Default : Decoder UInt64
  | .null => some 0
  | v => stringOrU64 v

/-- `string_or_u32` -/
def stringOrU32 : Decoder UInt32 := fun v => (stringOrInt (2 ^ 32) v).map UInt32.ofNat

/-- `string_or_u32_default`: all that is no number in range is 0. -/
def stringOrU32Default : Decoder UInt32 := fun v => some ((stringOrU32 v).getD 0)

/-- `string_or_u8_default` -/
def stringOrU8Default : Decoder UInt8
  | .null => some 0
  | v => (stringOrInt (2 ^ 8) v).map UInt8.ofNat

/-! ### Labels -/

/-- `SubaddrIndex`: the subaddress of an output. -/
structure SubaddrIndex where
  /-- Account. -/
  majI : UInt32
  /-- Index in the account. -/
  minI : UInt32
  deriving DecidableEq

/-- The primary address. -/
def SubaddrIndex.primary : SubaddrIndex := ⟨0, 0⟩

/-- The reader of labels. -/
def SubaddrIndex.record : Record SubaddrIndex :=
  ((Record.of SubaddrIndex.mk).field ⟨["maj_i"], stringOrU32Default, some 0⟩).field
    ⟨["min_i"], stringOrU32Default, some 0⟩

/-- An object that says each index once at most, or an array of them. -/
def isLabel : Json → Bool
  | .obj ms => decide (ms.countP (fun m => m.1 = "maj_i") ≤ 1) &&
      decide (ms.countP (fun m => m.1 = "min_i") ≤ 1)
  | .arr vs => decide (vs.length ≤ 2)
  | _ => false

/-- An index of an object is read whatever it is, unless it is said twice. -/
theorem isSome_ofMembers_u32 (name : String) (ms : List (String × Json)) :
    (RecordField.ofMembers ⟨[name], stringOrU32Default, some 0⟩ ms).isSome =
      decide (ms.countP (fun m => m.1 = name) ≤ 1) := by
  rw [List.countP_eq_length_filter]
  unfold RecordField.ofMembers
  simp only [List.mem_singleton]
  cases ms.filter fun m => decide (m.1 = name) with
  | nil => rfl
  | cons m rest =>
    cases rest with
    | nil => rfl
    | cons _ _ => simp

theorem isSome_subaddrIndex (v : Json) : (SubaddrIndex.record.decode v).isSome = isLabel v := by
  cases v with
  | obj ms =>
    have hmaj := isSome_ofMembers_u32 "maj_i" ms
    have hmin := isSome_ofMembers_u32 "min_i" ms
    simp only [Record.decode, SubaddrIndex.record, Record.field, Record.of, isLabel, ← hmaj, ← hmin]
    cases RecordField.ofMembers ⟨["maj_i"], stringOrU32Default, some 0⟩ ms <;>
      cases RecordField.ofMembers ⟨["min_i"], stringOrU32Default, some 0⟩ ms <;> rfl
  | arr vs =>
    rcases vs with _ | ⟨_, _ | ⟨_, _ | ⟨_, _⟩⟩⟩
    · rfl
    · rfl
    · rfl
    · simp [Record.decode, SubaddrIndex.record, Record.field, Record.of, RecordField.ofItems,
        stringOrU32Default, isLabel]
  | _ => rfl

/-! ### Bodies -/

namespace LwsWire

/-- `SpentOutput`: an output that the transaction may spend. -/
structure SpentOutput where
  /-- Amount. -/
  amount : UInt64
  /-- Key image. -/
  keyImage : String
  /-- Transaction key. -/
  txPubKey : String
  /-- Position in its transaction. -/
  outIndex : UInt64
  /-- Ring size. -/
  mixin : UInt64
  /-- Where the spent output was received. -/
  sender : SubaddrIndex
  deriving DecidableEq

/-- `AddressTx` -/
structure AddressTx where
  /-- Transaction hash. -/
  hash : String
  /-- Block height. -/
  height : UInt64
  /-- Time of the block. -/
  timestamp : String
  /-- Amount received. -/
  totalReceived : UInt64
  /-- Amount possibly sent. -/
  totalSent : UInt64
  /-- Still unconfirmed. -/
  mempool : Bool
  /-- Lock. -/
  unlockTime : UInt64
  /-- Payment id. -/
  paymentId : Option String
  /-- What it may spend. -/
  spentOutputs : List SpentOutput
  /-- Where it was received. -/
  recipient : SubaddrIndex
  deriving DecidableEq

/-- `AddressTxsResponse` -/
structure AddressTxsResponse where
  /-- The address's transactions. -/
  transactions : List AddressTx
  /-- All that was received. -/
  totalReceived : UInt64
  /-- Height of the scan. -/
  scannedHeight : UInt64
  /-- Height of the chain. -/
  blockchainHeight : UInt64
  deriving DecidableEq

/-- `AddressInfo` -/
structure AddressInfo where
  /-- Locked amount. -/
  lockedFunds : UInt64
  /-- Amount received. -/
  totalReceived : UInt64
  /-- Amount possibly sent. -/
  totalSent : UInt64
  /-- Height of the scan. -/
  scannedHeight : UInt64
  /-- Height that the scan started from. -/
  startHeight : UInt64
  /-- Number of transactions. -/
  transactionCount : UInt64
  /-- Block of the scan. -/
  scannedBlockHash : String
  /-- Height of the chain. -/
  blockchainHeight : UInt64
  deriving DecidableEq

/-- `UnspentOutput` -/
structure UnspentOutput where
  /-- Amount. -/
  amount : UInt64
  /-- Its key. -/
  publicKey : String
  /-- Transaction key. -/
  txPubKey : String
  /-- Position in its transaction. -/
  index : UInt32
  /-- Position in the chain. -/
  globalIndex : UInt64
  /-- Block height. -/
  height : UInt64
  /-- Time of the block. -/
  timestamp : String
  /-- Transaction hash. -/
  txHash : String
  /-- Commitment data. -/
  rct : String
  /-- Key images that may spend it. -/
  spendKeyImages : List String
  /-- Where it was received. -/
  recipient : SubaddrIndex
  deriving DecidableEq

/-- `UnspentOutsResponse` -/
structure UnspentOutsResponse where
  /-- The outputs. -/
  outputs : List UnspentOutput
  /-- Fee for a byte. -/
  perByteFee : UInt64
  /-- Rounding of fees. -/
  feeMask : UInt64
  /-- Consensus version. -/
  forkVersion : UInt8
  deriving DecidableEq

/-- A field that has to be there. -/
def required {α : Type} (name : String) (d : Decoder α) : RecordField α := ⟨[name], d, none⟩

/-- A field with a default. -/
def defaulted {α : Type} (name : String) (d : Decoder α) (a : α) : RecordField α := ⟨[name], d, some a⟩

/-- A number that is 0 when it is missing. -/
def number (name : String) : RecordField UInt64 := defaulted name stringOrU64Default 0

/-- A label under its names. -/
def label (names : List String) : RecordField SubaddrIndex :=
  ⟨names, SubaddrIndex.record.decode, some .primary⟩

/-- The reader of `SpentOutput`; `recipient` is another name of the label. -/
def SpentOutput.record : Record SpentOutput :=
  (((((Record.of SpentOutput.mk).field (number "amount")).field
    (required "key_image" .string)).field
    (required "tx_pub_key" .string)).field
    (number "out_index")).field
    (number "mixin") |>.field
    (label ["sender", "recipient"])

/-- The reader of `AddressTx`. -/
def AddressTx.record : Record AddressTx :=
  (((((((((Record.of AddressTx.mk).field (required "hash" .string)).field
    (number "height")).field
    (defaulted "timestamp" .string "")).field
    (number "total_received")).field
    (number "total_sent")).field
    (defaulted "mempool" .bool false)).field
    (number "unlock_time")).field
    (defaulted "payment_id" (.option .string) none)).field
    (defaulted "spent_outputs" (.list SpentOutput.record.decode) []) |>.field
    (label ["recipient"])

/-- The reader of `AddressTxsResponse`. -/
def AddressTxsResponse.record : Record AddressTxsResponse :=
  ((((Record.of AddressTxsResponse.mk).field
    (defaulted "transactions" (.list AddressTx.record.decode) [])).field
    (number "total_received")).field
    (number "scanned_height")).field
    (number "blockchain_height")

/-- The reader of `AddressInfo`. -/
def AddressInfo.record : Record AddressInfo :=
  ((((((((Record.of AddressInfo.mk).field (number "locked_funds")).field
    (number "total_received")).field
    (number "total_sent")).field
    (number "scanned_height")).field
    (number "start_height")).field
    (number "transaction_count")).field
    (defaulted "scanned_block_hash" .string "")).field
    (number "blockchain_height")

/-- The reader of `UnspentOutput`. -/
def UnspentOutput.record : Record UnspentOutput :=
  ((((((((((Record.of UnspentOutput.mk).field (required "amount" stringOrU64)).field
    (required "public_key" .string)).field
    (required "tx_pub_key" .string)).field
    (required "index" stringOrU32)).field
    (required "global_index" stringOrU64)).field
    (required "height" stringOrU64)).field
    (defaulted "timestamp" .string "")).field
    (defaulted "tx_hash" .string "")).field
    (defaulted "rct" .string "")).field
    (defaulted "spend_key_images" (.list .string) []) |>.field
    (label ["recipient"])

/-- The reader of `UnspentOutsResponse`. -/
def UnspentOutsResponse.record : Record UnspentOutsResponse :=
  ((((Record.of UnspentOutsResponse.mk).field
    (defaulted "outputs" (.list UnspentOutput.record.decode) [])).field
    (number "per_byte_fee")).field
    (number "fee_mask")).field
    (defaulted "fork_version" stringOrU8Default 0)

/-- What tips and verification read of a transaction. -/
def AddressTx.core (t : AddressTx) : SmirkBackend.AddressTx :=
  ⟨t.hash, t.height, t.totalReceived, t.totalSent, t.mempool⟩

/-- What tips and verification read of the body. -/
def AddressTxsResponse.core (r : AddressTxsResponse) : SmirkBackend.AddressTxsResponse :=
  ⟨r.transactions.map AddressTx.core, r.blockchainHeight⟩

/-! ### Edits of labels -/

/-- Which labels an edit may touch. -/
structure Labels where
  /-- Those of transactions and outputs. -/
  received : Bool
  /-- Those of spends. -/
  spent : Bool

/-- An edit of a label: it is read as one before and after, or neither. -/
def LabelEdit (allowed : Bool) (v w : Json) : Prop :=
  if allowed then isLabel v = isLabel w else v = w

/-- The edits in a spend. -/
def SpentMember (a : Labels) (name : String) (v w : Json) : Prop :=
  if name = "sender" ∨ name = "recipient" then LabelEdit a.spent v w else v = w

/-- The edits in a transaction. -/
def TxMember (a : Labels) (name : String) (v w : Json) : Prop :=
  if name = "recipient" then LabelEdit a.received v w
  else if name = "spent_outputs" then EachItem (EachMember (SpentMember a)) v w
  else v = w

/-- The edits in a body of `get_address_txs`. -/
def TxsMember (a : Labels) (name : String) (v w : Json) : Prop :=
  if name = "transactions" then EachItem (EachMember (TxMember a)) v w else v = w

/-- The edits in an output. -/
def OutMember (a : Labels) (name : String) (v w : Json) : Prop :=
  if name = "recipient" then LabelEdit a.received v w else v = w

/-- The edits in a body of `get_unspent_outs`. -/
def OutsMember (a : Labels) (name : String) (v w : Json) : Prop :=
  if name = "outputs" then EachItem (EachMember (OutMember a)) v w else v = w

/-- A label, forgotten if edits may touch it. -/
def forgetIf (allowed : Bool) (i : SubaddrIndex) : SubaddrIndex := if allowed then .primary else i

/-- A spend without its label. -/
def SpentOutput.forget (a : Labels) (s : SpentOutput) : SpentOutput :=
  { s with sender := forgetIf a.spent s.sender }

/-- A transaction without its labels. -/
def AddressTx.forget (a : Labels) (t : AddressTx) : AddressTx :=
  { t with
    spentOutputs := t.spentOutputs.map (SpentOutput.forget a)
    recipient := forgetIf a.received t.recipient }

/-- A body without its labels. -/
def AddressTxsResponse.forget (a : Labels) (r : AddressTxsResponse) : AddressTxsResponse :=
  { r with transactions := r.transactions.map (AddressTx.forget a) }

/-- An output without its label. -/
def UnspentOutput.forget (a : Labels) (o : UnspentOutput) : UnspentOutput :=
  { o with recipient := forgetIf a.received o.recipient }

/-- A body without its labels. -/
def UnspentOutsResponse.forget (a : Labels) (r : UnspentOutsResponse) : UnspentOutsResponse :=
  { r with outputs := r.outputs.map (UnspentOutput.forget a) }

/-- Things that are the same but for labels. -/
abbrev SameBut {α : Type} (forget : α → α) (x y : α) : Prop := forget x = forget y

theorem forall₂_sameBut {α : Type} {forget : α → α} {xs ys : List α} :
    List.Forall₂ (SameBut forget) xs ys ↔ xs.map forget = ys.map forget := by
  rw [← List.forall₂_eq_eq_eq, List.forall₂_map_left_iff, List.forall₂_map_right_iff]

/-! ### Readers and edits -/

theorem respects_label {E : String → Json → Json → Prop} (names : List String) (allowed : Bool)
    (h : ∀ name ∈ names, ∀ v w, E name v w → LabelEdit allowed v w) :
    (label names).Respects E (SameBut (forgetIf allowed)) := by
  refine ⟨fun _ => rfl, fun name hname v w hvw => ?_⟩
  have hedit := h name hname v w hvw
  cases allowed with
  | false =>
    obtain rfl : v = w := hedit
    exact Lib.rel_refl (fun _ => rfl) _
  | true =>
    have hread : isLabel v = isLabel w := hedit
    rw [← isSome_subaddrIndex, ← isSome_subaddrIndex] at hread
    exact Lib.rel_of_isSome hread fun _ _ => rfl

theorem respects_items {α : Type} {E : String → Json → Json → Prop} {E' : Json → Json → Prop}
    (name : String) {d : Decoder α} {forget : α → α} (hd : d.Respects E' (SameBut forget))
    (h : ∀ v w, E name v w → EachItem E' v w) :
    (defaulted name (.list d) []).Respects E (SameBut (List.map forget)) := by
  refine ⟨fun _ => rfl, fun name' hname v w hvw => ?_⟩
  obtain rfl := List.mem_singleton.mp hname
  exact Lib.rel_mono (hd.list (fun _ => rfl) v w (h v w hvw)) fun _ _ => forall₂_sameBut.mp

theorem respects_plain {α : Type} {E : String → Json → Json → Prop} (edited : List String)
    (hE : ∀ name ∉ edited, ∀ v w, E name v w → v = w) (f : RecordField α)
    (hf : ∀ name ∈ f.names, name ∉ edited) : f.Respects E Eq :=
  .same fun name hname v w hvw => hE name (hf name hname) v w hvw

variable (a : Labels)

theorem respects_spent : SpentOutput.record.decode.Respects (EachMember (SpentMember a))
    (SameBut (SpentOutput.forget a)) := by
  refine Record.Respects.decode ?_ fun _ => rfl
  have hplain {β : Type} := respects_plain (α := β) (E := SpentMember a) ["sender", "recipient"]
    fun name hname v w hvw => by
      rwa [SpentMember, if_neg (by simpa using hname)] at hvw
  have hlabel := respects_label (E := SpentMember a) ["sender", "recipient"] a.spent
    fun name hname v w hvw => by
      rwa [SpentMember, if_pos (by simpa using hname)] at hvw
  unfold SpentOutput.record
  refine .field (.field (.field (.field (.field (.field (.of ?_) (hplain _ ?_)) (hplain _ ?_))
    (hplain _ ?_)) (hplain _ ?_)) (hplain _ ?_)) hlabel
  · rintro amount _ rfl keyImage _ rfl txPubKey _ rfl outIndex _ rfl mixin _ rfl sender sender' hsender
    simp only [SameBut, SpentOutput.forget, SpentOutput.mk.injEq, true_and]
    exact hsender
  all_goals decide

theorem respects_tx : AddressTx.record.decode.Respects (EachMember (TxMember a))
    (SameBut (AddressTx.forget a)) := by
  refine Record.Respects.decode ?_ fun _ => rfl
  have hplain {β : Type} := respects_plain (α := β) (E := TxMember a) ["recipient", "spent_outputs"]
    fun name hname v w hvw => by
      simp only [List.mem_cons, List.not_mem_nil, or_false, not_or] at hname
      rwa [TxMember, if_neg hname.1, if_neg hname.2] at hvw
  have hspent := respects_items (E := TxMember a) "spent_outputs" (respects_spent a)
    fun v w hvw => hvw
  have hlabel := respects_label (E := TxMember a) ["recipient"] a.received
    fun name hname v w hvw => by
      obtain rfl := List.mem_singleton.mp hname
      exact hvw
  unfold AddressTx.record
  refine .field (.field (.field (.field (.field (.field (.field (.field (.field (.field (.of ?_)
    (hplain _ ?_)) (hplain _ ?_)) (hplain _ ?_)) (hplain _ ?_)) (hplain _ ?_)) (hplain _ ?_))
    (hplain _ ?_)) (hplain _ ?_)) hspent) hlabel
  · rintro hash _ rfl height _ rfl timestamp _ rfl totalReceived _ rfl totalSent _ rfl mempool _ rfl
      unlockTime _ rfl paymentId _ rfl spent spent' hsame recipient recipient' hrecipient
    simp only [SameBut, AddressTx.forget, AddressTx.mk.injEq, true_and]
    exact ⟨hsame, hrecipient⟩
  all_goals decide

/-- Whatever labels say, the rest of the transactions is read alike. -/
theorem respects_txs : AddressTxsResponse.record.decode.Respects (EachMember (TxsMember a))
    (SameBut (AddressTxsResponse.forget a)) := by
  refine Record.Respects.decode ?_ fun _ => rfl
  have hplain {β : Type} := respects_plain (α := β) (E := TxsMember a) ["transactions"]
    fun name hname v w hvw => by
      rwa [TxsMember, if_neg (by simpa using hname)] at hvw
  have htxs := respects_items (E := TxsMember a) "transactions" (respects_tx a)
    fun v w hvw => hvw
  unfold AddressTxsResponse.record
  refine .field (.field (.field (.field (.of ?_) htxs) (hplain _ ?_)) (hplain _ ?_)) (hplain _ ?_)
  · rintro txs txs' hsame totalReceived _ rfl scannedHeight _ rfl blockchainHeight _ rfl
    simp only [SameBut, AddressTxsResponse.forget, AddressTxsResponse.mk.injEq, and_true]
    exact hsame
  all_goals decide

theorem respects_out : UnspentOutput.record.decode.Respects (EachMember (OutMember a))
    (SameBut (UnspentOutput.forget a)) := by
  refine Record.Respects.decode ?_ fun _ => rfl
  have hplain {β : Type} := respects_plain (α := β) (E := OutMember a) ["recipient"]
    fun name hname v w hvw => by
      rwa [OutMember, if_neg (by simpa using hname)] at hvw
  have hlabel := respects_label (E := OutMember a) ["recipient"] a.received
    fun name hname v w hvw => by
      obtain rfl := List.mem_singleton.mp hname
      exact hvw
  unfold UnspentOutput.record
  refine .field (.field (.field (.field (.field (.field (.field (.field (.field (.field (.field (.of ?_)
    (hplain _ ?_)) (hplain _ ?_)) (hplain _ ?_)) (hplain _ ?_)) (hplain _ ?_)) (hplain _ ?_))
    (hplain _ ?_)) (hplain _ ?_)) (hplain _ ?_)) (hplain _ ?_)) hlabel
  · rintro amount _ rfl publicKey _ rfl txPubKey _ rfl index _ rfl globalIndex _ rfl height _ rfl
      timestamp _ rfl txHash _ rfl rct _ rfl images _ rfl recipient recipient' hrecipient
    simp only [SameBut, UnspentOutput.forget, UnspentOutput.mk.injEq, true_and]
    exact hrecipient
  all_goals decide

/-- Whatever labels say, the rest of the outputs is read alike. -/
theorem respects_outs : UnspentOutsResponse.record.decode.Respects (EachMember (OutsMember a))
    (SameBut (UnspentOutsResponse.forget a)) := by
  refine Record.Respects.decode ?_ fun _ => rfl
  have hplain {β : Type} := respects_plain (α := β) (E := OutsMember a) ["outputs"]
    fun name hname v w hvw => by
      rwa [OutsMember, if_neg (by simpa using hname)] at hvw
  have houts := respects_items (E := OutsMember a) "outputs" (respects_out a)
    fun v w hvw => hvw
  unfold UnspentOutsResponse.record
  refine .field (.field (.field (.field (.of ?_) houts) (hplain _ ?_)) (hplain _ ?_)) (hplain _ ?_)
  · rintro outs outs' hsame perByteFee _ rfl feeMask _ rfl forkVersion _ rfl
    simp only [SameBut, UnspentOutsResponse.forget, UnspentOutsResponse.mk.injEq, and_true]
    exact hsame
  all_goals decide

/-! ### Labels that are none -/

/-- A transaction of a body has a value in place of its label. -/
def TxLabel (body label : Json) : Prop :=
  ∃ ms vs ts, body = .obj ms ∧ ("transactions", .arr vs) ∈ ms ∧ .obj ts ∈ vs ∧
    ("recipient", label) ∈ ts

theorem decode_txs_eq_none {body l : Json} (hl : isLabel l = false) (h : TxLabel body l) :
    AddressTxsResponse.record.decode body = none := by
  obtain ⟨ms, vs, ts, rfl, hms, hvs, hts⟩ := h
  have hlabel : SubaddrIndex.record.decode l = none := by
    rw [← Option.not_isSome_iff_eq_none, isSome_subaddrIndex, hl]
    exact Bool.false_ne_true
  have htx : AddressTx.record.decode (.obj ts) = none :=
    Record.field_eq_none (.inr (RecordField.ofMembers_eq_none hts (List.mem_singleton.mpr rfl) hlabel))
  have htxs : (Decoder.list AddressTx.record.decode) (.arr vs) = none :=
    Decoder.items_eq_none hvs htx
  have hfield := RecordField.ofMembers_eq_none
    (f := defaulted "transactions" (.list AddressTx.record.decode) []) hms (List.mem_singleton.mpr rfl) htxs
  exact Record.field_eq_none (.inl (Record.field_eq_none (.inl (Record.field_eq_none (.inl
    (Record.field_eq_none (.inr hfield)))))))

end LwsWire

end SmirkBackend
