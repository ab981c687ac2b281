import SmirkBackend.Tips.Row

/-!
# The guarded updates of `social_tips`

Every status transition of a tip is one guarded `UPDATE … WHERE … RETURNING`, so that concurrent
claims, sweeps and clawbacks race on the database.  Each function below is one such statement:
it takes the table and the instant `NOW()` of its transaction, and returns the row the
statement returned with the table it left.

The trigger `social_tips_updated_at` runs before every update and stamps `updated_at`, whatever
the `SET` list says; `guardedUpdate` is a statement followed by that trigger.
-/

namespace SmirkBackend

open Lib (Table Patch)

/-- The `social_tips` table. -/
abbrev SocialTips := Table SocialTipRow

namespace SocialTips

/-- The trigger `social_tips_touch_updated_at`. -/
def touchUpdatedAt (now : Timestamp) : Patch SocialTipRow where
  set r := { r with updatedAt := now }

/-- One row's guarded update, with the trigger. -/
def guardedUpdate (now : Timestamp) (t : SocialTips) (id : Uuid) (guard : SocialTipRow → Bool)
    (f : Patch SocialTipRow) : Option SocialTipRow × SocialTips :=
  t.updateOne id guard (f.andThen (touchUpdatedAt now))

theorem get?_guardedUpdate (now : Timestamp) (t : SocialTips) (id : Uuid)
    (guard : SocialTipRow → Bool) (f : Patch SocialTipRow) (k : Uuid) :
    (guardedUpdate now t id guard f).2.get? k =
      (t.get? k).map fun r =>
        if k = id ∧ guard r then { f.set r with updatedAt := now } else r :=
  Table.get?_updateOne t id k guard _

theorem guardedUpdate_of_guard (now : Timestamp) {t : SocialTips} {id : Uuid}
    {guard : SocialTipRow → Bool} {r : SocialTipRow} (f : Patch SocialTipRow)
    (hr : t.get? id = some r) (hg : guard r) :
    (guardedUpdate now t id guard f).1 = some { f.set r with updatedAt := now } ∧
      (guardedUpdate now t id guard f).2.get? id = some { f.set r with updatedAt := now } := by
  constructor
  · simp [guardedUpdate, Table.updateOne, hr, Option.filter, hg, touchUpdatedAt]
  · simp [get?_guardedUpdate, hr, hg]

/-- A guarded update that finds no row for its guard returns nothing and stores nothing. -/
theorem guardedUpdate_of_not_guard (now : Timestamp) {t : SocialTips} {id : Uuid}
    {guard : SocialTipRow → Bool} (f : Patch SocialTipRow)
    (h : ∀ r, t.get? id = some r → ¬ guard r) :
    (guardedUpdate now t id guard f).1 = none ∧
      ∀ k, (guardedUpdate now t id guard f).2.get? k = t.get? k := by
  constructor
  · cases hr : t.get? id with
    | none => simp [guardedUpdate, Table.updateOne, hr]
    | some r => simp [guardedUpdate, Table.updateOne, hr, Option.filter, h r hr]
  · intro k
    rw [get?_guardedUpdate]
    cases hr : t.get? k with
    | none => rfl
    | some r =>
      have hneg : ¬ (k = id ∧ guard r) := by
        rintro ⟨rfl, hg⟩
        exact h r hr hg
      simp [hneg]

/-! ### Queries -/

/-- The per-row rate limit of the workers: the row was not looked at in the last 30 seconds. -/
def notJustChecked (now : Timestamp) (r : SocialTipRow) : Bool :=
  r.lastConfirmationCheck.all (· < now - seconds 30)

/-- Ascending order of a nullable column: `NULL` comes last. -/
def nullsLast : Option Timestamp → Option Timestamp → Bool
  | some a, some b => a ≤ b
  | none, some _ => false
  | _, none => true

/-- `ORDER BY created_at ASC`. -/
def oldestFirst (a b : SocialTipRow) : Bool := a.createdAt ≤ b.createdAt

/-- `get_claimable_social_tips`: the inbox of a user. -/
def getClaimableSocialTips (t : SocialTips) (recipient : Uuid) : List SocialTipRow :=
  t.select
    (fun r =>
      r.recipientUserId = some recipient &&
      (r.status = .pending || r.status = .claiming) &&
      r.confirmationsRequired ≤ r.fundingConfirmations &&
      r.fundingAmountVerified &&
      r.sweepConfirmedAt.isNone)
    (fun a b => b.createdAt ≤ a.createdAt)

/-- `get_tips_pending_confirmation`: the tips of an asset whose confirmations are still counted. -/
def getTipsPendingConfirmation (now : Timestamp) (t : SocialTips) (asset : String) :
    List SocialTipRow :=
  (t.select
    (fun r =>
      (r.status = .pending || r.status = .pendingConfirmation) &&
      r.asset = asset &&
      0 < r.confirmationsRequired &&
      r.fundingConfirmations < r.confirmationsRequired &&
      r.fundingTxid.isSome &&
      notJustChecked now r)
    oldestFirst).take 50

/-- `get_tips_awaiting_amount_verification`. -/
def getTipsAwaitingAmountVerification (now : Timestamp) (t : SocialTips) : List SocialTipRow :=
  (t.select
    (fun r =>
      r.status = .pendingConfirmation &&
      !r.fundingAmountVerified &&
      r.confirmationsRequired ≤ r.fundingConfirmations &&
      notJustChecked now r)
    oldestFirst).take 50

/-- `get_tips_awaiting_sweep_confirmation`. -/
def getTipsAwaitingSweepConfirmation (now : Timestamp) (t : SocialTips) (limit : ℕ) :
    List SocialTipRow :=
  (t.select
    (fun r =>
      r.status = .claiming && r.sweepConfirmedAt.isNone && r.fundingAmountVerified &&
        notJustChecked now r)
    (fun a b => nullsLast a.claimedAt b.claimedAt)).take limit

/-- `get_settled_tips_for_reorg_check`. -/
def getSettledTipsForReorgCheck (now : Timestamp) (t : SocialTips) (limit : ℕ) :
    List SocialTipRow :=
  (t.select
    (fun r =>
      r.status = .claimed && r.sweepConfirmedAt.isSome && r.sweepBlockHeight.isSome &&
        notJustChecked now r)
    (fun a b => nullsLast a.sweepConfirmedAt b.sweepConfirmedAt)).take limit

/-! ### Creation -/

/-- `insert_social_tip`: the row is refused when a `CHECK` fails or the id is taken. -/
def insertSocialTip (now : Timestamp) (t : SocialTips) (id : Uuid) (new : NewSocialTip)
    (status : TipStatus) : Option SocialTips :=
  let row := SocialTipRow.ofNew id now new status
  if row.checks then t.insert? row else none

/-- `create_draft_social_tip`: a tip whose funding is attached later. -/
def createDraftSocialTip (now : Timestamp) (t : SocialTips) (id : Uuid) (new : NewSocialTip) :
    Option SocialTips :=
  insertSocialTip now t id new .draft

/-- `create_social_tip`: a tip created with its funding. -/
def createSocialTip (now : Timestamp) (t : SocialTips) (id : Uuid) (new : NewSocialTip) :
    Option SocialTips :=
  insertSocialTip now t id new .pendingConfirmation

/-- `cancel_draft_social_tip`: the sender drops an unfunded draft. -/
def cancelDraftSocialTip (now : Timestamp) (t : SocialTips) (id sender : Uuid) :
    Option SocialTipRow × SocialTips :=
  guardedUpdate now t id (fun r => r.senderUserId = sender && r.status = .draft)
    { set := fun r => { r with status := .cancelled } }

/-! ### Money in -/

/-- The row is a draft that no funding transaction is attached to. -/
def unfundedDraft (r : SocialTipRow) : Bool := r.status = .draft && r.fundingTxid.isNone

/-- The statement of `attach_funding_to_tip`: a draft without funding takes the transaction and
advances; a row that already carries it is matched and keeps its columns. -/
def attachFundingUpdate (now : Timestamp) (t : SocialTips) (id sender : Uuid)
    (fundingTxid : String) : Option SocialTipRow × SocialTips :=
  guardedUpdate now t id
    (fun r => r.senderUserId = sender && (unfundedDraft r || r.fundingTxid = some fundingTxid))
    { set := fun r =>
        { r with
          fundingTxid := r.fundingTxid <|> some fundingTxid
          status := if unfundedDraft r then .pendingConfirmation else r.status
          updatedAt := if unfundedDraft r then now else r.updatedAt } }

/-- `attach_funding_to_tip`: when the statement matches nothing, a second read tells an unknown
tip from one with another transaction and one of the wrong status. -/
def attachFundingToTip (now : Timestamp) (t : SocialTips) (id sender : Uuid)
    (fundingTxid : String) : Except AppError SocialTipRow × SocialTips :=
  let (updated, t') := attachFundingUpdate now t id sender fundingTxid
  match updated with
  | some tip => (.ok tip, t')
  | none =>
    match (t'.get? id).filter fun r => r.senderUserId = sender with
    | none => (.error (.notFound s!"Tip {uuidText id} not found or not yours"), t')
    | some current =>
      match current.fundingTxid with
      | some existing =>
        if existing ≠ fundingTxid then
          (.error (.validationError
            s!"Tip {uuidText id} already has a different funding_txid attached"), t')
        else (.ok current, t')
      | none =>
        (.error (.validationError
          (s!"Tip {uuidText id} is in status {current.status.asStr} — " ++
            "funding can only be attached to drafts")), t')

/-- `update_tip_confirmations`: record a confirmation count, whatever the status. -/
def updateTipConfirmations (now : Timestamp) (t : SocialTips) (id : Uuid)
    (confirmations : Int32) : Option SocialTipRow × SocialTips :=
  guardedUpdate now t id (fun _ => true)
    { set := fun r =>
        { r with
          fundingConfirmations := confirmations
          lastConfirmationCheck := some now
          fundingConfirmedAt :=
            if r.confirmationsRequired ≤ confirmations && r.fundingConfirmedAt.isNone then some now
            else r.fundingConfirmedAt
          updatedAt := now } }

/-- `touch_tip_last_check`: stamp the rate limit of the row. -/
def touchTipLastCheck (now : Timestamp) (t : SocialTips) (id : Uuid) :
    Option SocialTipRow × SocialTips :=
  guardedUpdate now t id (fun _ => true)
    { set := fun r => { r with lastConfirmationCheck := some now } }

/-- The shared guard of the amount verifier's two verdicts. -/
def awaitingVerdict (r : SocialTipRow) : Bool :=
  r.status = .pendingConfirmation && !r.fundingAmountVerified

/-- A verdict of the amount verifier. -/
def markTipFunding (verdict : TipStatus) (now : Timestamp) (t : SocialTips) (id : Uuid)
    (observedAmount : Int64) : Option SocialTipRow × SocialTips :=
  guardedUpdate now t id awaitingVerdict
    { set := fun r =>
        { r with
          status := verdict
          fundingAmountVerified := true
          fundingAmountObserved := some observedAmount
          fundingAmountVerifiedAt := some now
          updatedAt := now } }

/-- `mark_tip_funding_verified`. -/
def markTipFundingVerified := markTipFunding .pending

/-- `mark_tip_funding_mismatch`. -/
def markTipFundingMismatch := markTipFunding .fundingMismatch

/-! ### Money out -/

/-- `mark_tip_claiming`: lock a claimable tip. -/
def markTipClaiming (now : Timestamp) (t : SocialTips) (id claimedBy : Uuid) :
    Option SocialTipRow × SocialTips :=
  guardedUpdate now t id
    (fun r =>
      (r.status = .pending || r.status = .claiming) &&
      r.confirmationsRequired ≤ r.fundingConfirmations &&
      r.fundingAmountVerified &&
      r.sweepConfirmedAt.isNone &&
      (r.isPublic || r.recipientUserId = some claimedBy))
    { set := fun r =>
        { r with
          status := .claiming
          claimedAt := some now
          claimedByUserId := some claimedBy
          updatedAt := now } }

/-- The statement of `confirm_tip_sweep`: record the claimer's sweep, the first recorder wins. -/
def confirmTipSweepUpdate (now : Timestamp) (t : SocialTips) (id claimer : Uuid)
    (sweepTxid : String) : Option SocialTipRow × SocialTips :=
  guardedUpdate now t id
    (fun r =>
      r.status = .claiming && r.sweepConfirmedAt.isNone && r.isPublic &&
      (r.sweepTxid.isNone || r.sweepTxid = some sweepTxid))
    { set := fun r =>
        { r with
          sweepTxid := r.sweepTxid <|> some sweepTxid
          claimedByUserId := r.claimedByUserId <|> some claimer
          claimedAt := r.claimedAt <|> some now
          updatedAt := now } }

/-- `confirm_tip_sweep`: a row the statement did not match is returned as it stands when it is
`claiming` or `claimed`. -/
def confirmTipSweep (now : Timestamp) (t : SocialTips) (id claimer : Uuid) (sweepTxid : String) :
    Option SocialTipRow × SocialTips :=
  let (recorded, t') := confirmTipSweepUpdate now t id claimer sweepTxid
  match recorded with
  | some tip => (some tip, t')
  | none => ((t'.get? id).filter fun r => r.status = .claiming || r.status = .claimed, t')

/-- The statuses a sender can still take the funds back from. -/
def clawable (s : TipStatus) : Bool :=
  s = .pending || s = .pendingConfirmation || s = .claiming || s = .fundingMismatch ||
    s = .cancelled

/-- `clawback_social_tip`. -/
def clawbackSocialTip (now : Timestamp) (t : SocialTips) (id sender : Uuid) :
    Option SocialTipRow × SocialTips :=
  guardedUpdate now t id
    (fun r => r.senderUserId = sender && clawable r.status && r.sweepConfirmedAt.isNone)
    { set := fun r =>
        { r with status := .clawedBack, clawedBackAt := some now, updatedAt := now } }

/-- The one-way lock of both settlements. -/
def awaitingSettlement (r : SocialTipRow) : Bool :=
  r.status = .claiming && r.sweepConfirmedAt.isNone

/-- A settlement: `claiming` becomes `claimed`, and `attribution` decides `claimed_by_user_id`. -/
def settle (attribution : Option Uuid → Option Uuid) (now : Timestamp) (t : SocialTips) (id : Uuid)
    (winnerTxid : String) (blockHeight : Int32) (blockHash : Option String) :
    Option SocialTipRow × SocialTips :=
  guardedUpdate now t id awaitingSettlement
    { set := fun r =>
        { r with
          status := .claimed
          sweepConfirmedAt := some now
          sweepTxid := some winnerTxid
          sweepBlockHeight := some blockHeight
          sweepBlockHash := blockHash
          claimedByUserId := attribution r.claimedByUserId
          updatedAt := now } }

/-- `confirm_sweep_onchain`: settle, and set or keep the claimer. -/
def confirmSweepOnchain (now : Timestamp) (t : SocialTips) (id : Uuid) (winnerTxid : String)
    (blockHeight : Int32) (blockHash : Option String) (claimedBy : Option Uuid) :
    Option SocialTipRow × SocialTips :=
  settle (fun old => claimedBy <|> old) now t id winnerTxid blockHeight blockHash

/-- `clear_claimed_by_on_settle`: settle, and forget the claimer. -/
def clearClaimedByOnSettle (now : Timestamp) (t : SocialTips) (id : Uuid) (winnerTxid : String)
    (blockHeight : Int32) (blockHash : Option String) : Option SocialTipRow × SocialTips :=
  settle (fun _ => none) now t id winnerTxid blockHeight blockHash

/-- The guard of the reorg revert. -/
def settled (r : SocialTipRow) : Bool := r.status = .claimed && r.sweepConfirmedAt.isSome

/-- `revert_sweep_on_reorg`: undo a settlement, keeping the recorded sweep. -/
def revertSweepOnReorg (now : Timestamp) (t : SocialTips) (id : Uuid) :
    Option SocialTipRow × SocialTips :=
  guardedUpdate now t id settled
    { set := fun r =>
        { r with
          status := .claiming
          sweepConfirmedAt := none
          sweepBlockHeight := none
          sweepBlockHash := none
          sweepConfirmedDmSentAt := none
          updatedAt := now } }

/-- `stamp_sweep_confirmed_dm_sent`. -/
def stampSweepConfirmedDmSent (now : Timestamp) (t : SocialTips) (id : Uuid) :
    Option SocialTipRow × SocialTips :=
  guardedUpdate now t id (fun r => r.sweepConfirmedDmSentAt.isNone)
    { set := fun r => { r with sweepConfirmedDmSentAt := some now, updatedAt := now } }

/-- `stamp_reorg_notified`. -/
def stampReorgNotified (now : Timestamp) (t : SocialTips) (id : Uuid) :
    Option SocialTipRow × SocialTips :=
  guardedUpdate now t id (fun r => r.reorgNotifiedAt.isNone)
    { set := fun r => { r with reorgNotifiedAt := some now, updatedAt := now } }

/-! ### Garbage collection -/

/-- Rows of status `status` inserted more than seven days ago are cancelled. -/
def cancelStale (status : TipStatus) (now : Timestamp) (t : SocialTips) : SocialTips :=
  t.updateWhere (fun r => r.status = status && r.createdAt < now - days 7)
    (Patch.andThen { set := fun r => { r with status := .cancelled, updatedAt := now } }
      (touchUpdatedAt now))

/-- `cancel_old_drafts`. -/
def cancelOldDrafts := cancelStale .draft

/-- `cancel_stuck_pending_confirmation`. -/
def cancelStuckPendingConfirmation := cancelStale .pendingConfirmation

end SocialTips

end SmirkBackend
