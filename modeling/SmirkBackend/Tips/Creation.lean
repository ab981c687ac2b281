import SmirkBackend.Config.Settings
import SmirkBackend.Tips.World
import SmirkBackend.Wallet.DelegatedVerify

/-!
# Creating a tip

The request is checked before anything is written: who sends and who receives it, the amount, the
asset, the claim key of a public tip, the ciphertext, and the address.  A Grin tip is held at a
voucher, whose commitment the client sends as address and as commitment; both are checked for
their form and stored as they were sent.  A tip without a funding transaction is a draft.

`TipInstance.planTip` are the values that are stored, and a creation is one call of the tips system
(`TipWorld.Created.step`).
-/

namespace SmirkBackend

open Lib (Table)

/-- `CreateSocialTipRequest`; the anonymity of the sender is not read. -/
structure CreateSocialTipRequest where
  /-- Platform of the recipient's handle. -/
  platform : Option String
  /-- Handle of the recipient. -/
  username : Option String
  /-- Asset code. -/
  asset : String
  /-- Declared amount. -/
  amount : Int64
  /-- The claim secret, encrypted, in hexadecimal. -/
  encryptedKey : Option String
  /-- Whoever holds the link may claim. -/
  isPublic : Bool
  /-- Hash of the claim key, in hexadecimal. -/
  claimKeyHash : Option String
  /-- The address the sender funds. -/
  tipAddress : Option String
  /-- The funding transaction. -/
  fundingTxid : Option String
  /-- View key of the address. -/
  tipViewKey : Option String
  /-- Commitment of the voucher. -/
  grinCommitment : Option String

/-- The settings of an instance, and what it looks up. -/
structure TipInstance where
  /-- Tips are on. -/
  tips : Bool
  /-- Tips for one user are on. -/
  targetedTips : Bool
  /-- The enabled chains. -/
  chains : Config.ChainFlags
  /-- Where links to tips begin. -/
  tipShareBase : Option String
  /-- `str::to_lowercase`. -/
  lowercase : String → String
  /-- `get_user_by_username`. -/
  getUserByUsername : String → Except AppError (Option Uuid)

/-- `MAX_ENCRYPTED_KEY_HEX`. -/
def maxEncryptedKeyHex : ℕ := 4096

/-- A field that says something. -/
def filled (field : Option String) : Option String := field.filter fun s => !s.isEmpty

/-- A condition of the request. -/
def demand (ok : Bool) (msg : String) : Except AppError Unit :=
  if ok then .ok () else .error (.validationError msg)

/-- `validate_tip_address`. -/
def validateTipAddress (asset address : String) : Except AppError Unit :=
  if address.isEmpty || 255 < address.utf8ByteSize then
    .error (.validationError "tip_address is invalid.")
  else
    match asset with
    | "xmr" | "wow" => validateCnAddress address
    | "btc" | "ltc" =>
      demand (14 ≤ address.utf8ByteSize && address.toList.all Char.isAlphanum)
        "tip_address is invalid."
    | "grin" => demand (address.utf8ByteSize = 66 && isHexText address) "tip_address is invalid."
    | _ => .error (.validationError "unsupported tip asset.")

/-- An address that is there must be valid. -/
def validateFilled (asset : String) : Option String → Except AppError Unit
  | none => .ok ()
  | some address => validateTipAddress asset address

namespace CreateSocialTipRequest

variable (req : CreateSocialTipRequest)

/-- The claim key's hash, which a public tip needs and a targeted one does not have. -/
def keyHash (recipient : Option Uuid) : Except AppError (Option String) :=
  match recipient, filled req.claimKeyHash with
  | some _, _ => .ok none
  | none, none => .error (.validationError "claim_key_hash is required for a public tip.")
  | none, some h =>
    if h.utf8ByteSize ≠ 64 || (Lib.hexDecode h).isNone then
      .error (.validationError "claim_key_hash must be a 64-character hex SHA256.")
    else .ok (some h)

/-- The ciphertext of a request. -/
def ciphertext : Except AppError (Option (List UInt8)) :=
  match filled req.encryptedKey with
  | none => .ok none
  | some h =>
    if maxEncryptedKeyHex < h.utf8ByteSize then
      .error (.validationError "encrypted_key is too large.")
    else
      match Lib.hexDecode h with
      | none => .error (.validationError "encrypted_key must be hex.")
      | some bytes => .ok (some bytes)

/-- The commitment of a Grin tip: the explicit field, or else the address. -/
def commitment (asset : String) : Option String :=
  if asset = "grin" then filled req.grinCommitment <|> filled req.tipAddress else none

end CreateSocialTipRequest

/-- What is settled before the addresses are looked at. -/
structure VettedTip where
  /-- Who sends it. -/
  sender : Uuid
  /-- Whom it is addressed to. -/
  recipient : Option Uuid
  /-- The asset, in lower case. -/
  asset : String
  /-- Hash of the claim key. -/
  claimKeyHash : Option String
  /-- The ciphertext. -/
  encryptedKey : Option (List UInt8)

/-- A tip to be stored. -/
structure PlannedTip where
  /-- Its funding is attached later. -/
  isDraft : Bool
  /-- Its values. -/
  new : NewSocialTip
  deriving DecidableEq

/-- The tip of a vetted request. -/
def VettedTip.planned (vetted : VettedTip) (req : CreateSocialTipRequest) : PlannedTip where
  isDraft := (filled req.fundingTxid).isNone
  new :=
    { senderUserId := vetted.sender
      asset := vetted.asset
      amount := req.amount
      claimKeyHash := vetted.claimKeyHash
      encryptedKey := vetted.encryptedKey
      tipAddress := filled req.tipAddress
      fundingTxid := filled req.fundingTxid
      tipViewKey := filled req.tipViewKey
      confirmationsRequired := confirmationsForAsset vetted.asset
      grinCommitment := req.commitment vetted.asset
      recipientUserId := vetted.recipient }

/-- `CreateSocialTipResponse`. -/
structure CreateSocialTipResponse where
  /-- Text of the id. -/
  tipId : String
  /-- Status of the row. -/
  status : TipStatus
  /-- Link to the tip. -/
  shareUrl : Option String

namespace TipInstance

variable (inst : TipInstance)

/-- `ensure_tips_enabled`. -/
def ensureTipsEnabled : Except AppError Unit :=
  demand inst.tips "Tips are not available on this instance."

/-- `resolve_tip_recipient`. -/
def resolveTipRecipient (req : CreateSocialTipRequest) : Except AppError Uuid := do
  demand inst.targetedTips "Targeted tips are not enabled on this instance; set is_public = true."
  let platform := inst.lowercase (req.platform.getD "smirk")
  demand (platform = "smirk") s!"This instance resolves Smirk handles only, not '{platform}'."
  let handle := filled (req.username.map fun u =>
    inst.lowercase (String.ofList ((trim u).toList.dropWhile (· = '@'))))
  match handle with
  | none => throw (.validationError "username is required for a targeted tip.")
  | some username =>
    match ← inst.getUserByUsername username with
    | none => throw (.validationError s!"No Smirk user owns the handle '{username}'.")
    | some user => pure user

/-- `supported_tip_asset`. -/
def supportedTipAsset (asset : String) : Bool :=
  match asset with
  | "btc" => inst.chains.btc
  | "ltc" => inst.chains.ltc
  | "xmr" => inst.chains.xmr
  | "wow" => inst.chains.wow
  | "grin" => inst.chains.grin
  | _ => false

/-- Whom a tip is addressed to; a public one to nobody. -/
def addressee (req : CreateSocialTipRequest) : Except AppError (Option Uuid) :=
  if req.isPublic then .ok none else some <$> inst.resolveTipRecipient req

/-- The first half of `create_social_tip`, up to the addresses; `bearer` is the user of the
token. -/
def vet (bearer : Except AppError Uuid) (req : CreateSocialTipRequest) :
    Except AppError VettedTip := do
  let sender ← bearer
  inst.ensureTipsEnabled
  let recipient ← inst.addressee req
  demand (0 < req.amount) "amount must be positive."
  let asset := inst.lowercase req.asset
  demand (inst.supportedTipAsset asset)
    s!"asset '{asset}' is not enabled for tips on this instance."
  let claimKeyHash ← req.keyHash recipient
  let encryptedKey ← req.ciphertext
  return ⟨sender, recipient, asset, claimKeyHash, encryptedKey⟩

/-- The values that `create_social_tip` stores. -/
def planTip (bearer : Except AppError Uuid) (req : CreateSocialTipRequest) :
    Except AppError PlannedTip := do
  let vetted ← inst.vet bearer req
  let plan := vetted.planned req
  demand (!plan.isDraft || plan.new.tipAddress.isSome)
    "tip_address is required to create a tip draft."
  validateFilled vetted.asset plan.new.tipAddress
  validateFilled "grin" plan.new.grinCommitment
  return plan

theorem planTip_ok {inst : TipInstance} {bearer : Except AppError Uuid}
    {req : CreateSocialTipRequest} {plan : PlannedTip} (h : inst.planTip bearer req = .ok plan) :
    ∃ vetted, inst.vet bearer req = .ok vetted ∧ plan = vetted.planned req ∧
      validateFilled "grin" (req.commitment vetted.asset) = .ok () := by
  obtain ⟨vetted, hvet, h⟩ := bind_eq_ok_iff.mp h
  obtain ⟨_, -, h⟩ := bind_eq_ok_iff.mp h
  obtain ⟨_, -, h⟩ := bind_eq_ok_iff.mp h
  obtain ⟨⟨⟩, hcommit, h⟩ := bind_eq_ok_iff.mp h
  exact ⟨vetted, hvet, (Except.ok.inj h).symm, hcommit⟩

theorem vet_asset {inst : TipInstance} {bearer : Except AppError Uuid}
    {req : CreateSocialTipRequest} {vetted : VettedTip} (h : inst.vet bearer req = .ok vetted) :
    vetted.asset = inst.lowercase req.asset := by
  -- the user, the switch, the recipient, the amount, the asset, the hash and the ciphertext
  iterate 7 obtain ⟨_, -, h⟩ := bind_eq_ok_iff.mp h
  rw [← Except.ok.inj h]

/-- The link to a tip. -/
def shareUrl (id : Uuid) : Option String :=
  inst.tipShareBase.map fun base =>
    let trimmed := String.ofList (base.toList.reverse.dropWhile (· = '/')).reverse
    s!"{trimmed}/{uuidText id}"

end TipInstance

namespace PlannedTip

variable (plan : PlannedTip)

/-- The status of the stored row. -/
def status : TipStatus := if plan.isDraft then .draft else .pendingConfirmation

/-- The statement that stores it. -/
def op (now : Timestamp) (id : Uuid) : TipOp :=
  if plan.isDraft then .createDraft now id plan.new else .create now id plan.new

/-- The statement, refused when a `CHECK` fails. -/
def insert? (now : Timestamp) (id : Uuid) (t : SocialTips) : Option SocialTips :=
  if plan.isDraft then t.createDraftSocialTip now id plan.new
  else t.createSocialTip now id plan.new

theorem insert?_eq (now : Timestamp) (id : Uuid) (t : SocialTips) :
    plan.insert? now id t = t.insertSocialTip now id plan.new plan.status := by
  unfold insert? status
  split <;> rfl

theorem op_creates (now : Timestamp) (id : Uuid) : (plan.op now id).creates = some id := by
  unfold op
  split <;> rfl

theorem op_asked (now : Timestamp) (id : Uuid) : (plan.op now id).asked := by
  unfold op
  split <;> rfl

theorem op_apply {now : Timestamp} {id : Uuid} {t t' : SocialTips}
    (h : plan.insert? now id t = some t') : (plan.op now id).apply t = t' := by
  unfold insert? at h
  unfold op
  split <;> rename_i hdraft <;> simp only [hdraft] at h
  · exact (congrArg (Option.getD · t) h : _)
  · exact (congrArg (Option.getD · t) h : _)

end PlannedTip

/-- `create_social_tip`: the answer, and the table afterwards; `id` is generated for the row. -/
def TipInstance.createSocialTip (inst : TipInstance) (bearer : Except AppError Uuid)
    (now : Timestamp) (id : Uuid) (req : CreateSocialTipRequest) (t : SocialTips) :
    Except AppError CreateSocialTipResponse × SocialTips :=
  match inst.planTip bearer req with
  | .error e => (.error e, t)
  | .ok plan =>
    match plan.insert? now id t with
    | none => (.error (.databaseError "new row violates check constraint"), t)
    | some t' => (.ok ⟨uuidText id, plan.status, inst.shareUrl id⟩, t')

theorem TipInstance.createSocialTip_ok {inst : TipInstance} {bearer : Except AppError Uuid}
    {now : Timestamp} {id : Uuid} {req : CreateSocialTipRequest} {t t' : SocialTips}
    {resp : CreateSocialTipResponse}
    (h : inst.createSocialTip bearer now id req t = (.ok resp, t')) :
    ∃ plan, inst.planTip bearer req = .ok plan ∧ plan.insert? now id t = some t' := by
  unfold createSocialTip at h
  split at h
  case h_1 => cases h
  case h_2 plan hplan =>
    split at h
    case h_1 => cases h
    case h_2 t₁ hinsert =>
      cases h
      exact ⟨plan, hplan, hinsert⟩

/-- The request created the tip `id` in the world `w`, which became `w'`. -/
def TipWorld.Created (inst : TipInstance) (bearer : Except AppError Uuid) (now : Timestamp)
    (id : Uuid) (req : CreateSocialTipRequest) (w w' : TipWorld) : Prop :=
  id ∉ w.issued ∧ ∃ resp t, inst.createSocialTip bearer now id req w.db = (.ok resp, t) ∧
    w' = { w with db := t, issued := id :: w.issued }

/-- A creation is one call of the system. -/
theorem TipWorld.Created.step {inst : TipInstance} {bearer : Except AppError Uuid}
    {now : Timestamp} {id : Uuid} {req : CreateSocialTipRequest} {w w' : TipWorld}
    (h : TipWorld.Created inst bearer now id req w w') :
    ∃ plan, inst.planTip bearer req = .ok plan ∧ w.step (.call (plan.op now id)) = some w' := by
  obtain ⟨hfresh, resp, t, hresp, rfl⟩ := h
  obtain ⟨plan, hplan, hinsert⟩ := TipInstance.createSocialTip_ok hresp
  refine ⟨plan, hplan, ?_⟩
  simp [TipWorld.step, plan.op_asked, plan.op_creates, hfresh, plan.op_apply hinsert]

end SmirkBackend
