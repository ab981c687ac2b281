import SmirkBackend.Lib.Hex
import SmirkBackend.Lib.Restrict
import SmirkBackend.Tips.Claimable
import SmirkBackend.Tips.Creation

/-!
# The handlers of the tips API

Every handler finds out who asks, refuses when tips are off, checks what it was sent and runs one
statement on `social_tips`.  The lists are queries for the rows of the caller; the page behind a
link to a tip is open to everybody and shows public tips only.

So a request runs at most one statement (`TipApi.handle_snd`), and one that is refused leaves the
table as it was (`TipApi.handle_error`).
-/

namespace SmirkBackend

open Lib (Table Patch)

/-- An instance as the tips API sees it. -/
structure TipApi extends TipInstance where
  /-- `DateTime::to_rfc3339`. -/
  rfc3339 : Timestamp → String

/-- `SentTip`: a tip in a list. -/
structure SentTip where
  /-- Text of the id. -/
  id : String
  /-- Text of the sender's id. -/
  senderUserId : String
  /-- Always absent. -/
  recipientPlatform : Option String
  /-- Always absent. -/
  recipientUsername : Option String
  /-- Asset code. -/
  asset : String
  /-- Declared amount. -/
  amount : Int64
  /-- Anyone holding the claim URL may claim. -/
  isPublic : Bool
  /-- Place in the lifecycle. -/
  status : TipStatus
  /-- Insertion instant. -/
  createdAt : String
  /-- When it was claimed. -/
  claimedAt : Option String
  /-- When it was taken back. -/
  clawedBackAt : Option String
  /-- Confirmations of the funding. -/
  fundingConfirmations : Int32
  /-- Confirmations it needs. -/
  confirmationsRequired : Int32
  /-- It can be claimed. -/
  isClaimable : Bool
  deriving DecidableEq

/-- `PublicTipInfo`: the page behind a link. -/
structure PublicTipInfo where
  /-- Text of the id. -/
  id : String
  /-- Asset code. -/
  asset : String
  /-- Declared amount. -/
  amount : Int64
  /-- Place in the lifecycle. -/
  status : TipStatus
  /-- Insertion instant. -/
  createdAt : String
  /-- Always true. -/
  isPublic : Bool
  /-- The claim secret, encrypted, in hexadecimal. -/
  encryptedKey : Option String
  /-- The address to sweep. -/
  tipAddress : Option String
  /-- Confirmations of the funding. -/
  fundingConfirmations : Int32
  /-- Confirmations it needs. -/
  confirmationsRequired : Int32
  /-- It can be claimed. -/
  isClaimable : Bool
  deriving DecidableEq

/-- `ClaimTipResponse`. -/
structure ClaimTipResponse where
  /-- Always true. -/
  success : Bool
  /-- The claim secret, encrypted, in hexadecimal. -/
  encryptedKey : Option String
  /-- The address to sweep. -/
  tipAddress : Option String
  deriving DecidableEq

/-- `ConfirmSweepResponse`. -/
structure ConfirmSweepResponse where
  /-- The sweep that was recorded first. -/
  sweepTxid : Option String
  /-- Place in the lifecycle. -/
  status : TipStatus
  deriving DecidableEq

deriving instance DecidableEq for CreateSocialTipResponse

namespace SocialTips

/-- `ORDER BY created_at DESC`. -/
def newestFirst (a b : SocialTipRow) : Bool := b.createdAt ≤ a.createdAt

/-- `get_sent_social_tips`. -/
def getSentSocialTips (t : SocialTips) (sender : Uuid) : List SocialTipRow :=
  t.select (fun r => r.senderUserId = sender) newestFirst

/-- `get_received_social_tips`. -/
def getReceivedSocialTips (t : SocialTips) (recipient : Uuid) : List SocialTipRow :=
  t.select (fun r => r.recipientUserId = some recipient) newestFirst

end SocialTips

/-- A value that must be there. -/
def require {α : Type} (o : Option α) (e : AppError) : Except AppError α :=
  match o with
  | some a => .ok a
  | none => .error e

theorem none_of_require_map {α β γ : Type} {o : Option α} {e e' : AppError} {f : α → β} {g : β → γ}
    (h : ((require o e').map f).map g = .error e) : o = none := by
  cases o with
  | none => rfl
  | some a => cases h

/-- The transaction id of a request: the blanks around it go, and the rest must fit the column. -/
def txidField (field text : String) : Except AppError String := do
  let txid := trim text
  demand (!txid.isEmpty) s!"{field} is required."
  demand (txid.utf8ByteSize ≤ 128) s!"{field} is too long."
  return txid

namespace TipApi

variable (api : TipApi) (bearer : Except AppError Uuid) (now : Timestamp) (t : SocialTips)

/-- `to_sent_tip`. -/
def toSentTip (row : SocialTipRow) : SentTip where
  id := uuidText row.id
  senderUserId := uuidText row.senderUserId
  recipientPlatform := none
  recipientUsername := none
  asset := row.asset
  amount := row.amount
  isPublic := row.isPublic
  status := row.status
  createdAt := api.rfc3339 row.createdAt
  claimedAt := row.claimedAt.map api.rfc3339
  clawedBackAt := row.clawedBackAt.map api.rfc3339
  fundingConfirmations := row.fundingConfirmations
  confirmationsRequired := row.confirmationsRequired
  isClaimable := isClaimable row

/-- `to_public_info`. -/
def toPublicInfo (row : SocialTipRow) : PublicTipInfo where
  id := uuidText row.id
  asset := row.asset
  amount := row.amount
  status := row.status
  createdAt := api.rfc3339 row.createdAt
  isPublic := row.isPublic
  encryptedKey := row.encryptedKey.map Lib.hexEncode
  tipAddress := row.tipAddress
  fundingConfirmations := row.fundingConfirmations
  confirmationsRequired := row.confirmationsRequired
  isClaimable := isClaimable row

/-- Who asks, on an instance where tips are on. -/
def caller : Except AppError Uuid := do
  let user ← bearer
  api.ensureTipsEnabled
  return user

/-- Who asks, and the transaction it names. -/
def callerWith (field text : String) : Except AppError (Uuid × String) := do
  let user ← api.caller bearer
  let txid ← txidField field text
  return (user, txid)

/-- `get_sent_social_tips`. -/
def getSentSocialTips : Except AppError (List SentTip) := do
  let user ← api.caller bearer
  return (t.getSentSocialTips user).map api.toSentTip

/-- `get_received_social_tips`. -/
def getReceivedSocialTips : Except AppError (List SentTip) := do
  let user ← api.caller bearer
  if api.targetedTips then return (t.getReceivedSocialTips user).map api.toSentTip else return []

/-- `get_claimable_social_tips`. -/
def getClaimableSocialTips : Except AppError (List SentTip) := do
  let user ← api.caller bearer
  if api.targetedTips then return (t.getClaimableSocialTips user).map api.toSentTip else return []

/-- `get_public_social_tip`. -/
def getPublicSocialTip (tipId : Uuid) : Except AppError PublicTipInfo := do
  api.ensureTipsEnabled
  let row ← require ((t.get? tipId).filter (·.isPublic)) (.notFound "tip not found")
  return api.toPublicInfo row

/-- `cancel_social_tip`; the answer is always `true`. -/
def cancelSocialTip (tipId : Uuid) : Except AppError Bool × SocialTips :=
  match api.caller bearer with
  | .error e => (.error e, t)
  | .ok user =>
    let (cancelled, t') := t.cancelDraftSocialTip now tipId user
    ((require cancelled (.notFound "no cancellable draft tip")).map fun _ => true, t')

/-- `attach_funding`. -/
def attachFunding (tipId : Uuid) (fundingTxid : String) :
    Except AppError CreateSocialTipResponse × SocialTips :=
  match api.callerWith bearer "funding_txid" fundingTxid with
  | .error e => (.error e, t)
  | .ok (user, txid) =>
    let (attached, t') := t.attachFundingToTip now tipId user txid
    (attached.map fun tip => ⟨uuidText tip.id, tip.status, api.shareUrl tip.id⟩, t')

/-- `claim_social_tip`. -/
def claimSocialTip (tipId : Uuid) : Except AppError ClaimTipResponse × SocialTips :=
  match api.caller bearer with
  | .error e => (.error e, t)
  | .ok user =>
    let (claimed, t') := t.markTipClaiming now tipId user
    ((require claimed (.validationError "tip not claimable")).map fun row =>
      ⟨true, row.encryptedKey.map Lib.hexEncode, row.tipAddress⟩, t')

/-- `confirm_sweep`. -/
def confirmSweep (tipId : Uuid) (sweepTxid : String) :
    Except AppError ConfirmSweepResponse × SocialTips :=
  match api.callerWith bearer "sweep_txid" sweepTxid with
  | .error e => (.error e, t)
  | .ok (user, txid) =>
    let (recorded, t') := t.confirmTipSweep now tipId user txid
    ((require recorded (.validationError "tip not claiming")).map fun row =>
      ⟨row.sweepTxid, row.status⟩, t')

/-- `clawback_social_tip`; the answer is always `true`. -/
def clawbackSocialTip (tipId : Uuid) : Except AppError Bool × SocialTips :=
  match api.caller bearer with
  | .error e => (.error e, t)
  | .ok user =>
    let (clawedBack, t') := t.clawbackSocialTip now tipId user
    ((require clawedBack (.validationError "tip not clawable")).map fun _ => true, t')

end TipApi

/-! ### One request -/

/-- The routes of the API, with what a request sends. -/
inductive TipRequest
  /-- `POST /tips/social`; `id` is generated for the row. -/
  | create (id : Uuid) (req : CreateSocialTipRequest)
  | sent
  | received
  | claimable
  | publicInfo (tipId : Uuid)
  | cancel (tipId : Uuid)
  | attachFunding (tipId : Uuid) (fundingTxid : String)
  | claim (tipId : Uuid)
  | confirmSweep (tipId : Uuid) (sweepTxid : String)
  | clawback (tipId : Uuid)

/-- What the routes answer. -/
inductive TipReply
  | created (resp : CreateSocialTipResponse)
  | tips (tips : List SentTip)
  | publicInfo (info : PublicTipInfo)
  | cancelled (ok : Bool)
  | claimed (resp : ClaimTipResponse)
  | sweep (resp : ConfirmSweepResponse)
  | clawedBack (success : Bool)
  deriving DecidableEq

/-- The answer of a handler as one of the API. -/
def TipReply.answer {α : Type} (reply : α → TipReply) (result : Except AppError α × SocialTips) :
    Except AppError TipReply × SocialTips :=
  (result.1.map reply, result.2)

@[simp] theorem TipReply.answer_snd {α : Type} (reply : α → TipReply)
    (result : Except AppError α × SocialTips) : (answer reply result).2 = result.2 := rfl

namespace TipRequest

/-- The id a request uses up. -/
def creates : TipRequest → Option Uuid
  | create id _ => some id
  | _ => none

end TipRequest

namespace TipApi

variable (api : TipApi) (bearer : Except AppError Uuid) (now : Timestamp)

/-- The routes. -/
def handle (req : TipRequest) (t : SocialTips) : Except AppError TipReply × SocialTips :=
  match req with
  | .create id req => TipReply.answer .created (api.createSocialTip bearer now id req t)
  | .sent => ((api.getSentSocialTips bearer t).map .tips, t)
  | .received => ((api.getReceivedSocialTips bearer t).map .tips, t)
  | .claimable => ((api.getClaimableSocialTips bearer t).map .tips, t)
  | .publicInfo k => ((api.getPublicSocialTip t k).map .publicInfo, t)
  | .cancel k => TipReply.answer .cancelled (api.cancelSocialTip bearer now t k)
  | .attachFunding k txid => TipReply.answer .created (api.attachFunding bearer now t k txid)
  | .claim k => TipReply.answer .claimed (api.claimSocialTip bearer now t k)
  | .confirmSweep k txid => TipReply.answer .sweep (api.confirmSweep bearer now t k txid)
  | .clawback k => TipReply.answer .clawedBack (api.clawbackSocialTip bearer now t k)

/-- The statement a request runs; `none` when it runs none. -/
def op (req : TipRequest) : Option TipOp :=
  match req with
  | .create id req => (api.planTip bearer req).toOption.map fun plan => plan.op now id
  | .cancel k => (api.caller bearer).toOption.map fun user => .cancelDraft now k user
  | .attachFunding k text =>
    (api.callerWith bearer "funding_txid" text).toOption.map fun (user, txid) =>
      .attachFunding now k user txid
  | .claim k => (api.caller bearer).toOption.map fun user => .claim now k user
  | .confirmSweep k text =>
    (api.callerWith bearer "sweep_txid" text).toOption.map fun (user, txid) =>
      .confirmSweep now k user txid
  | .clawback k => (api.caller bearer).toOption.map fun user => .clawback now k user
  | .sent | .received | .claimable | .publicInfo _ => none

variable {api bearer now}

theorem createSocialTip_snd (id : Uuid) (req : CreateSocialTipRequest) (t : SocialTips) :
    (api.createSocialTip bearer now id req t).2 =
      ((api.planTip bearer req).toOption.map fun plan => plan.op now id).elim t
        (TipOp.apply t) := by
  unfold TipInstance.createSocialTip
  cases hplan : api.planTip bearer req with
  | error e => rfl
  | ok plan =>
    simp only [Except.toOption, Option.map_some, Option.elim_some]
    cases hins : plan.insert? now id t with
    | none =>
      have hrefused : (plan.op now id).apply t = t := by
        unfold PlannedTip.insert? at hins
        unfold PlannedTip.op
        split <;> rename_i hdraft <;> simp only [hdraft] at hins
        · exact congrArg (Option.getD · t) hins
        · exact congrArg (Option.getD · t) hins
      exact hrefused.symm
    | some t' => exact (plan.op_apply hins).symm

/-- **One statement at most.**  The table after a request is the table after its statement. -/
theorem handle_snd (req : TipRequest) (t : SocialTips) :
    (api.handle bearer now req t).2 = (api.op bearer now req).elim t (TipOp.apply t) := by
  cases req with
  | create id req => exact createSocialTip_snd id req t
  | sent | received | claimable | publicInfo k => rfl
  | cancel k =>
    simp only [handle, op, cancelSocialTip]
    cases api.caller bearer <;> rfl
  | attachFunding k text =>
    simp only [handle, op, attachFunding]
    cases api.callerWith bearer "funding_txid" text <;> rfl
  | claim k =>
    simp only [handle, op, claimSocialTip]
    cases api.caller bearer <;> rfl
  | confirmSweep k text =>
    simp only [handle, op, confirmSweep]
    cases api.callerWith bearer "sweep_txid" text <;> rfl
  | clawback k =>
    simp only [handle, op, clawbackSocialTip]
    cases api.caller bearer <;> rfl

theorem attachFundingToTip_error {t : SocialTips} {id sender : Uuid} {txid : String} {e : AppError}
    (h : (t.attachFundingToTip now id sender txid).1 = .error e) :
    (t.attachFundingToTip now id sender txid).2 = t := by
  rw [SocialTips.attachFundingToTip_snd]
  refine Table.updateOne_of_none t ?_
  unfold SocialTips.attachFundingToTip at h
  cases hupdate : t.attachFundingUpdate now id sender txid with
  | mk updated t' =>
    cases updated with
    | none => exact congrArg Prod.fst hupdate
    | some tip => simp [hupdate] at h

theorem confirmTipSweep_none {t : SocialTips} {id claimer : Uuid} {txid : String}
    (h : (t.confirmTipSweep now id claimer txid).1 = none) :
    (t.confirmTipSweep now id claimer txid).2 = t := by
  rw [SocialTips.confirmTipSweep_snd]
  refine Table.updateOne_of_none t ?_
  unfold SocialTips.confirmTipSweep at h
  cases hupdate : t.confirmTipSweepUpdate now id claimer txid with
  | mk recorded t' =>
    cases recorded with
    | none => exact congrArg Prod.fst hupdate
    | some tip => simp [hupdate] at h

/-- **A refused request changes nothing.** -/
theorem handle_error {req : TipRequest} {t : SocialTips} {e : AppError}
    (h : (api.handle bearer now req t).1 = .error e) : (api.handle bearer now req t).2 = t := by
  cases req with
  | create id req =>
    simp only [handle, TipReply.answer, TipInstance.createSocialTip] at h ⊢
    cases hplan : api.planTip bearer req with
    | error e' => rfl
    | ok plan =>
      simp only [hplan] at h ⊢
      cases hins : plan.insert? now id t with
      | none => rfl
      | some t' =>
        simp only [hins] at h
        cases h
  | sent | received | claimable | publicInfo k => rfl
  | cancel k =>
    simp only [handle, TipReply.answer, cancelSocialTip] at h ⊢
    cases hcaller : api.caller bearer with
    | error e' => rfl
    | ok user =>
      simp only [hcaller] at h ⊢
      exact Table.updateOne_of_none t (none_of_require_map h)
  | attachFunding k text =>
    simp only [handle, TipReply.answer, attachFunding] at h ⊢
    cases hcaller : api.callerWith bearer "funding_txid" text with
    | error e' => rfl
    | ok pair =>
      obtain ⟨user, txid⟩ := pair
      simp only [hcaller] at h ⊢
      cases hattach : (t.attachFundingToTip now k user txid).1 with
      | error e' => exact attachFundingToTip_error hattach
      | ok tip =>
        rw [hattach] at h
        cases h
  | claim k =>
    simp only [handle, TipReply.answer, claimSocialTip] at h ⊢
    cases hcaller : api.caller bearer with
    | error e' => rfl
    | ok user =>
      simp only [hcaller] at h ⊢
      exact Table.updateOne_of_none t (none_of_require_map h)
  | confirmSweep k text =>
    simp only [handle, TipReply.answer, confirmSweep] at h ⊢
    cases hcaller : api.callerWith bearer "sweep_txid" text with
    | error e' => rfl
    | ok pair =>
      obtain ⟨user, txid⟩ := pair
      simp only [hcaller] at h ⊢
      exact confirmTipSweep_none (none_of_require_map h)
  | clawback k =>
    simp only [handle, TipReply.answer, clawbackSocialTip] at h ⊢
    cases hcaller : api.caller bearer with
    | error e' => rfl
    | ok user =>
      simp only [hcaller] at h ⊢
      exact Table.updateOne_of_none t (none_of_require_map h)

end TipApi

end SmirkBackend
