import SmirkBackend.Lib.Run
import SmirkBackend.Tips.Store

/-!
# The life of a tip

The API, two funding workers, two reconciler passes and the garbage collector all update the
same row, in any order.  Above the statements stands the lifecycle the schema draws: a relation
`TipStatus.Next` between statuses.  Every statement moves every row along that relation and
keeps the row invariant `SocialTipRow.Inv`, so whole runs do.

* `TipOp.apply_rowwise` : one operation inserts a fresh row or evolves the rows that are there.
* `tip_state_machine` : the invariant and the lifecycle along every run.
-/

namespace SmirkBackend

open Lib (Table Patch)

/-! ### The abstract lifecycle -/

namespace TipStatus

/-- The edges of the lifecycle; a reorg is the only way back. -/
inductive Next : TipStatus → TipStatus → Prop
  | fund : Next draft pendingConfirmation
  | drop : Next draft cancelled
  | verify : Next pendingConfirmation pending
  | mismatch : Next pendingConfirmation fundingMismatch
  | expire : Next pendingConfirmation cancelled
  | claim : Next pending claiming
  | settle : Next claiming claimed
  | reorg : Next claimed claiming
  | clawback {s : TipStatus} : SocialTips.clawable s → Next s clawedBack

/-- Some number of lifecycle edges. -/
abbrev Leads : TipStatus → TipStatus → Prop := Relation.ReflTransGen Next

/-- The statuses from which a tip can no longer be claimed. -/
def dead (s : TipStatus) : Bool := s = fundingMismatch || s = cancelled || s = clawedBack

theorem Next.dead {s s' : TipStatus} (h : Next s s') (hs : s.dead) : s'.dead := by
  cases h <;> simp_all [TipStatus.dead]

theorem Next.not_clawedBack {s s' : TipStatus} (h : Next s s') : s ≠ clawedBack := by
  rintro rfl
  cases h with
  | clawback hs => simp [SocialTips.clawable] at hs

theorem Leads.dead {s s' : TipStatus} (h : Leads s s') (hs : s.dead) : s'.dead := by
  induction h with
  | refl => exact hs
  | tail _ hst ih => exact hst.dead ih

theorem Leads.clawedBack {s' : TipStatus} (h : Leads clawedBack s') : s' = clawedBack := by
  induction h with
  | refl => rfl
  | tail _ hst ih => exact absurd ih hst.not_clawedBack

end TipStatus

/-! ### Rows -/

namespace SocialTipRow

/-- What holds of every stored row. -/
structure Inv (r : SocialTipRow) : Prop where
  /-- A row is settled exactly when its status says so. -/
  claimed_iff : r.status = .claimed ↔ r.sweepConfirmedAt.isSome
  /-- A settled row names its sweep. -/
  sweep_of_claimed : r.status = .claimed → r.sweepTxid.isSome ∧ r.sweepBlockHeight.isSome
  /-- Only rows with a verdict on their amount are claimable or later. -/
  verified : r.status = .pending ∨ r.status = .claiming ∨ r.status = .claimed →
    r.fundingAmountVerified
  /-- A tip is public exactly when it names no recipient. -/
  public_iff : r.isPublic ↔ r.recipientUserId = none

/-- `r'` is a possible later version of `r`. -/
structure Evolves (r r' : SocialTipRow) : Prop where
  /-- The status moved along the lifecycle. -/
  status : TipStatus.Leads r.status r'.status
  /-- An attached funding transaction stays. -/
  fundingTxid : r.fundingTxid.isSome → r'.fundingTxid = r.fundingTxid
  /-- The sender stays. -/
  sender : r'.senderUserId = r.senderUserId
  /-- The addressee stays. -/
  recipient : r'.recipientUserId = r.recipientUserId
  /-- The kind of the tip stays. -/
  isPublic : r'.isPublic = r.isPublic

namespace Evolves

theorem refl (r : SocialTipRow) : Evolves r r := ⟨.refl, fun _ => rfl, rfl, rfl, rfl⟩

theorem trans {r₁ r₂ r₃ : SocialTipRow} (h : Evolves r₁ r₂) (h' : Evolves r₂ r₃) :
    Evolves r₁ r₃ where
  status := h.status.trans h'.status
  fundingTxid hs := by
    have h₂ := h.fundingTxid hs
    exact (h'.fundingTxid (h₂ ▸ hs)).trans h₂
  sender := h'.sender.trans h.sender
  recipient := h'.recipient.trans h.recipient
  isPublic := h'.isPublic.trans h.isPublic

end Evolves

/-- A step of one row: it keeps the invariant and evolves the row. -/
def Step (r r' : SocialTipRow) : Prop := r.Inv → r'.Inv ∧ Evolves r r'

theorem Step.refl (r : SocialTipRow) : Step r r := fun h => ⟨h, .refl r⟩

/-- A fresh row satisfies the invariant, whatever the caller passed. -/
theorem inv_ofNew {id : Uuid} {now : Timestamp} {new : NewSocialTip} {status : TipStatus}
    (h : status = .draft ∨ status = .pendingConfirmation) : (ofNew id now new status).Inv := by
  rcases h with rfl | rfl <;> constructor <;> simp [ofNew]

end SocialTipRow

/-! ### Statements, row by row -/

namespace SocialTips

open SocialTipRow

/-- `t'` is the table after one statement: the rows of `t` took a step, and every new row
satisfies the invariant. -/
structure Rowwise (t t' : SocialTips) : Prop where
  /-- Rows are stepped, never lost. -/
  old : ∀ k r, t.get? k = some r → ∃ r', t'.get? k = some r' ∧ r.Step r'
  /-- New rows are well formed. -/
  new : ∀ k r', t.get? k = none → t'.get? k = some r' → r'.Inv

theorem Rowwise.refl (t : SocialTips) : Rowwise t t where
  old _ r h := ⟨r, h, .refl r⟩
  new k r' h h' := by simp [h] at h'

theorem rowwise_updateWhere {t : SocialTips} {p : SocialTipRow → Bool} {f : Patch SocialTipRow}
    (h : ∀ r, p r → r.Step (f.set r)) : Rowwise t (t.updateWhere p f) where
  old k r hr := by
    refine ⟨if p r then f.set r else r, by rw [Table.get?_updateWhere, hr]; rfl, ?_⟩
    split
    · exact h r ‹_›
    · exact .refl r
  new k r' hr hr' := by simp [Table.get?_updateWhere, hr] at hr'

theorem step_touchUpdatedAt {r r' : SocialTipRow} (now : Timestamp) (h : r.Step r') :
    r.Step ((touchUpdatedAt now).set r') := by
  intro hi
  obtain ⟨⟨hc, hs, hv, hp⟩, ⟨hst, hf, hsn, hr, hpu⟩⟩ := h hi
  exact ⟨⟨hc, hs, hv, hp⟩, ⟨hst, hf, hsn, hr, hpu⟩⟩

theorem rowwise_guardedUpdate {now : Timestamp} {t : SocialTips} {id : Uuid}
    {guard : SocialTipRow → Bool} {f : Patch SocialTipRow}
    (h : ∀ r, guard r → r.Step (f.set r)) : Rowwise t (guardedUpdate now t id guard f).2 := by
  apply rowwise_updateWhere
  intro r hr
  simp only [Bool.and_eq_true] at hr
  exact step_touchUpdatedAt now (h r hr.2)

theorem rowwise_insertSocialTip {now : Timestamp} {t t' : SocialTips} {id : Uuid}
    {new : NewSocialTip} {status : TipStatus}
    (hs : status = .draft ∨ status = .pendingConfirmation)
    (h : insertSocialTip now t id new status = some t') : Rowwise t t' := by
  simp only [insertSocialTip] at h
  split_ifs at h
  have hget := Table.get?_insert? h
  have hfree := (Table.insert?_eq_some_iff.mp h).1
  constructor
  · intro k r hr
    refine ⟨r, ?_, .refl r⟩
    rw [hget, if_neg, hr]
    rintro rfl
    exact absurd (hfree.symm.trans hr) (by simp)
  · intro k r' hr hr'
    rw [hget] at hr'
    split_ifs at hr'
    · obtain rfl := Option.some.inj hr'
      exact inv_ofNew hs
    · simp [hr] at hr'

/-- A patch that moves an unsettled row along one edge to an unsettled status is a step. -/
theorem step_of_next {r r' : SocialTipRow} (hnext : r.status.Next r'.status)
    (hold : r.status ≠ .claimed) (hnew : r'.status ≠ .claimed)
    (hconf : r'.sweepConfirmedAt = r.sweepConfirmedAt)
    (hver : r'.status = .pending ∨ r'.status = .claiming → r'.fundingAmountVerified)
    (hfund : r.fundingTxid.isSome → r'.fundingTxid = r.fundingTxid)
    (hsender : r'.senderUserId = r.senderUserId)
    (hrecipient : r'.recipientUserId = r.recipientUserId) (hpublic : r'.isPublic = r.isPublic) :
    r.Step r' := by
  intro hi
  refine ⟨⟨?_, ?_, ?_, ?_⟩, ⟨.single hnext, hfund, hsender, hrecipient, hpublic⟩⟩
  · rw [hconf, ← hi.claimed_iff]
    simp [hold, hnew]
  · intro h
    exact absurd h hnew
  · rintro (h | h | h)
    · exact hver (.inl h)
    · exact hver (.inr h)
    · exact absurd h hnew
  · rw [hpublic, hrecipient]
    exact hi.public_iff

/-- A patch that keeps the status and the columns the invariant reads is a step. -/
theorem step_of_same {r r' : SocialTipRow} (hstatus : r'.status = r.status)
    (hconf : r'.sweepConfirmedAt = r.sweepConfirmedAt)
    (htxid : r.sweepTxid.isSome → r'.sweepTxid.isSome)
    (hheight : r'.sweepBlockHeight = r.sweepBlockHeight)
    (hver : r'.fundingAmountVerified = r.fundingAmountVerified)
    (hfund : r.fundingTxid.isSome → r'.fundingTxid = r.fundingTxid)
    (hsender : r'.senderUserId = r.senderUserId)
    (hrecipient : r'.recipientUserId = r.recipientUserId) (hpublic : r'.isPublic = r.isPublic) :
    r.Step r' := by
  intro hi
  refine ⟨⟨?_, ?_, ?_, ?_⟩, ⟨by rw [hstatus], hfund, hsender, hrecipient, hpublic⟩⟩
  · rw [hstatus, hconf]
    exact hi.claimed_iff
  · intro h
    obtain ⟨ht, hh⟩ := hi.sweep_of_claimed (hstatus ▸ h)
    exact ⟨htxid ht, hheight ▸ hh⟩
  · rw [hstatus, hver]
    exact hi.verified
  · rw [hpublic, hrecipient]
    exact hi.public_iff

theorem rowwise_cancelDraftSocialTip (now : Timestamp) (t : SocialTips) (id sender : Uuid) :
    Rowwise t (cancelDraftSocialTip now t id sender).2 := by
  apply rowwise_guardedUpdate
  intro r hg
  simp only [Bool.and_eq_true, decide_eq_true_eq] at hg
  refine step_of_next ?_ (by simp [hg.2]) (by simp) rfl (by simp) (fun _ => rfl) rfl rfl rfl
  rw [hg.2]
  exact .drop

theorem rowwise_attachFundingUpdate (now : Timestamp) (t : SocialTips) (id sender : Uuid)
    (txid : String) : Rowwise t (attachFundingUpdate now t id sender txid).2 := by
  apply rowwise_guardedUpdate
  intro r hg
  by_cases hd : unfundedDraft r
  · -- the funding arm: the row leaves `draft`
    simp only [unfundedDraft, Bool.and_eq_true, decide_eq_true_eq, Option.isNone_iff_eq_none] at hd
    have hdraft : r.status = .draft := hd.1
    refine step_of_next ?_ (by simp [hdraft]) ?_ rfl ?_ (by simp [hd.2]) rfl rfl rfl
    all_goals simp [unfundedDraft, hd]
    exact .fund
  · -- the retry arm: the same transaction is already there
    simp only [hd, Bool.false_or, Bool.and_eq_true, decide_eq_true_eq] at hg
    exact step_of_same (by simp [hd]) rfl (fun h => h) rfl rfl (by simp [hg.2]) rfl rfl rfl

theorem rowwise_updateTipConfirmations (now : Timestamp) (t : SocialTips) (id : Uuid)
    (confirmations : Int32) : Rowwise t (updateTipConfirmations now t id confirmations).2 := by
  apply rowwise_guardedUpdate
  intro r _
  exact step_of_same rfl rfl (fun h => h) rfl rfl (fun _ => rfl) rfl rfl rfl

theorem rowwise_touchTipLastCheck (now : Timestamp) (t : SocialTips) (id : Uuid) :
    Rowwise t (touchTipLastCheck now t id).2 := by
  apply rowwise_guardedUpdate
  intro r _
  exact step_of_same rfl rfl (fun h => h) rfl rfl (fun _ => rfl) rfl rfl rfl

theorem rowwise_markTipFunding {verdict : TipStatus}
    (hv : TipStatus.Next .pendingConfirmation verdict) (hc : verdict ≠ .claimed)
    (now : Timestamp) (t : SocialTips) (id : Uuid) (observed : Int64) :
    Rowwise t (markTipFunding verdict now t id observed).2 := by
  apply rowwise_guardedUpdate
  intro r hg
  simp only [awaitingVerdict, Bool.and_eq_true, decide_eq_true_eq] at hg
  refine step_of_next ?_ (by simp [hg.1]) hc rfl (fun _ => rfl) (fun _ => rfl) rfl rfl rfl
  rw [hg.1]
  exact hv

theorem rowwise_markTipClaiming (now : Timestamp) (t : SocialTips) (id claimedBy : Uuid) :
    Rowwise t (markTipClaiming now t id claimedBy).2 := by
  apply rowwise_guardedUpdate
  intro r hg
  simp only [Bool.and_eq_true, Bool.or_eq_true, decide_eq_true_eq] at hg
  obtain ⟨⟨⟨⟨hstatus, _⟩, hver⟩, _⟩, _⟩ := hg
  rcases hstatus with hpending | hclaiming
  · refine step_of_next ?_ (by simp [hpending]) (by simp) rfl (fun _ => hver) (fun _ => rfl) rfl rfl rfl
    rw [hpending]
    exact .claim
  · exact step_of_same hclaiming.symm rfl (fun h => h) rfl rfl (fun _ => rfl) rfl rfl rfl

theorem rowwise_confirmTipSweepUpdate (now : Timestamp) (t : SocialTips) (id claimer : Uuid)
    (txid : String) : Rowwise t (confirmTipSweepUpdate now t id claimer txid).2 := by
  apply rowwise_guardedUpdate
  intro r _
  exact step_of_same rfl rfl (by simp) rfl rfl (fun _ => rfl) rfl rfl rfl

theorem rowwise_clawbackSocialTip (now : Timestamp) (t : SocialTips) (id sender : Uuid) :
    Rowwise t (clawbackSocialTip now t id sender).2 := by
  apply rowwise_guardedUpdate
  intro r hg
  simp only [Bool.and_eq_true] at hg
  have hold : r.status ≠ .claimed := by
    intro h
    simp [h, clawable] at hg
  exact step_of_next (.clawback hg.1.2) hold (by simp) rfl (by simp) (fun _ => rfl) rfl rfl rfl

theorem rowwise_settle (attribution : Option Uuid → Option Uuid) (now : Timestamp) (t : SocialTips)
    (id : Uuid) (txid : String) (height : Int32) (hash : Option String) :
    Rowwise t (settle attribution now t id txid height hash).2 := by
  apply rowwise_guardedUpdate
  intro r hg hi
  simp only [awaitingSettlement, Bool.and_eq_true, decide_eq_true_eq] at hg
  have hver : r.fundingAmountVerified := hi.verified (.inr (.inl hg.1))
  refine ⟨⟨by simp, by simp, fun _ => hver, hi.public_iff⟩, ?_, fun _ => rfl, rfl, rfl, rfl⟩
  rw [hg.1]
  exact .single .settle

theorem rowwise_revertSweepOnReorg (now : Timestamp) (t : SocialTips) (id : Uuid) :
    Rowwise t (revertSweepOnReorg now t id).2 := by
  apply rowwise_guardedUpdate
  intro r hg hi
  simp only [settled, Bool.and_eq_true, decide_eq_true_eq] at hg
  have hver : r.fundingAmountVerified := hi.verified (.inr (.inr hg.1))
  refine ⟨⟨by simp, by simp, fun _ => hver, hi.public_iff⟩, ?_, fun _ => rfl, rfl, rfl, rfl⟩
  rw [hg.1]
  exact .single .reorg

theorem rowwise_stampSweepConfirmedDmSent (now : Timestamp) (t : SocialTips) (id : Uuid) :
    Rowwise t (stampSweepConfirmedDmSent now t id).2 := by
  apply rowwise_guardedUpdate
  intro r _
  exact step_of_same rfl rfl (fun h => h) rfl rfl (fun _ => rfl) rfl rfl rfl

theorem rowwise_stampReorgNotified (now : Timestamp) (t : SocialTips) (id : Uuid) :
    Rowwise t (stampReorgNotified now t id).2 := by
  apply rowwise_guardedUpdate
  intro r _
  exact step_of_same rfl rfl (fun h => h) rfl rfl (fun _ => rfl) rfl rfl rfl

theorem rowwise_cancelStale {status : TipStatus} (hs : status.Next .cancelled)
    (now : Timestamp) (t : SocialTips) : Rowwise t (cancelStale status now t) := by
  apply rowwise_updateWhere
  intro r hg
  simp only [Bool.and_eq_true, decide_eq_true_eq] at hg
  have hold : r.status ≠ .claimed := by
    rw [hg.1]
    rintro rfl
    cases hs
  refine step_touchUpdatedAt now (step_of_next ?_ hold (by simp) rfl (by simp) (fun _ => rfl) rfl rfl rfl)
  rw [hg.1]
  exact hs

theorem attachFundingToTip_snd (now : Timestamp) (t : SocialTips) (id sender : Uuid)
    (txid : String) :
    (attachFundingToTip now t id sender txid).2 = (attachFundingUpdate now t id sender txid).2 := by
  simp only [attachFundingToTip]
  split
  · rfl
  · split
    · rfl
    · split
      · split_ifs <;> rfl
      · rfl

theorem confirmTipSweep_snd (now : Timestamp) (t : SocialTips) (id claimer : Uuid)
    (txid : String) :
    (confirmTipSweep now t id claimer txid).2 = (confirmTipSweepUpdate now t id claimer txid).2 := by
  simp only [confirmTipSweep]
  split <;> rfl

end SocialTips

/-! ### Operations and runs -/

/-- An operation on `social_tips` with its arguments, and the instant it runs at. -/
inductive TipOp
  | createDraft (now : Timestamp) (id : Uuid) (new : NewSocialTip)
  | create (now : Timestamp) (id : Uuid) (new : NewSocialTip)
  | cancelDraft (now : Timestamp) (id sender : Uuid)
  | attachFunding (now : Timestamp) (id sender : Uuid) (txid : String)
  | updateConfirmations (now : Timestamp) (id : Uuid) (confirmations : Int32)
  | touch (now : Timestamp) (id : Uuid)
  | verified (now : Timestamp) (id : Uuid) (observed : Int64)
  | mismatch (now : Timestamp) (id : Uuid) (observed : Int64)
  | claim (now : Timestamp) (id claimedBy : Uuid)
  | confirmSweep (now : Timestamp) (id claimer : Uuid) (txid : String)
  | clawback (now : Timestamp) (id sender : Uuid)
  | confirmOnchain (now : Timestamp) (id : Uuid) (txid : String) (height : Int32)
      (hash : Option String) (claimedBy : Option Uuid)
  | clearClaimedBy (now : Timestamp) (id : Uuid) (txid : String) (height : Int32)
      (hash : Option String)
  | revert (now : Timestamp) (id : Uuid)
  | stampDmSent (now : Timestamp) (id : Uuid)
  | stampReorg (now : Timestamp) (id : Uuid)
  | cancelOldDrafts (now : Timestamp)
  | cancelStuck (now : Timestamp)

namespace TipOp

open SocialTips

/-- The table an operation leaves; a refused insert leaves it as it was. -/
def apply (t : SocialTips) : TipOp → SocialTips
  | createDraft now id new => (createDraftSocialTip now t id new).getD t
  | create now id new => (createSocialTip now t id new).getD t
  | cancelDraft now id sender => (cancelDraftSocialTip now t id sender).2
  | attachFunding now id sender txid => (attachFundingToTip now t id sender txid).2
  | updateConfirmations now id n => (updateTipConfirmations now t id n).2
  | touch now id => (touchTipLastCheck now t id).2
  | verified now id observed => (markTipFundingVerified now t id observed).2
  | mismatch now id observed => (markTipFundingMismatch now t id observed).2
  | claim now id claimedBy => (markTipClaiming now t id claimedBy).2
  | confirmSweep now id claimer txid => (confirmTipSweep now t id claimer txid).2
  | clawback now id sender => (clawbackSocialTip now t id sender).2
  | confirmOnchain now id txid height hash claimedBy =>
    (confirmSweepOnchain now t id txid height hash claimedBy).2
  | clearClaimedBy now id txid height hash => (clearClaimedByOnSettle now t id txid height hash).2
  | revert now id => (revertSweepOnReorg now t id).2
  | stampDmSent now id => (stampSweepConfirmedDmSent now t id).2
  | stampReorg now id => (stampReorgNotified now t id).2
  | cancelOldDrafts now => SocialTips.cancelOldDrafts now t
  | cancelStuck now => cancelStuckPendingConfirmation now t

theorem rowwise_getD {t : SocialTips} {o : Option SocialTips}
    (h : ∀ t', o = some t' → Rowwise t t') : Rowwise t (o.getD t) := by
  cases ho : o with
  | none => exact .refl t
  | some t' => exact h t' ho

/-- One operation, whatever its arguments, steps the rows that are there and inserts only
well-formed ones. -/
theorem apply_rowwise (t : SocialTips) (op : TipOp) : Rowwise t (op.apply t) := by
  cases op with
  | createDraft now id new => exact rowwise_getD fun _ => rowwise_insertSocialTip (.inl rfl)
  | create now id new => exact rowwise_getD fun _ => rowwise_insertSocialTip (.inr rfl)
  | cancelDraft now id sender => exact rowwise_cancelDraftSocialTip now t id sender
  | attachFunding now id sender txid =>
    rw [apply, attachFundingToTip_snd]
    exact rowwise_attachFundingUpdate now t id sender txid
  | updateConfirmations now id n => exact rowwise_updateTipConfirmations now t id n
  | touch now id => exact rowwise_touchTipLastCheck now t id
  | verified now id observed => exact rowwise_markTipFunding .verify (by simp) now t id observed
  | mismatch now id observed => exact rowwise_markTipFunding .mismatch (by simp) now t id observed
  | claim now id claimedBy => exact rowwise_markTipClaiming now t id claimedBy
  | confirmSweep now id claimer txid =>
    rw [apply, confirmTipSweep_snd]
    exact rowwise_confirmTipSweepUpdate now t id claimer txid
  | clawback now id sender => exact rowwise_clawbackSocialTip now t id sender
  | confirmOnchain now id txid height hash claimedBy =>
    exact rowwise_settle _ now t id txid height hash
  | clearClaimedBy now id txid height hash => exact rowwise_settle _ now t id txid height hash
  | revert now id => exact rowwise_revertSweepOnReorg now t id
  | stampDmSent now id => exact rowwise_stampSweepConfirmedDmSent now t id
  | stampReorg now id => exact rowwise_stampReorgNotified now t id
  | cancelOldDrafts now => exact rowwise_cancelStale .drop now t
  | cancelStuck now => exact rowwise_cancelStale .expire now t

end TipOp

namespace SocialTips

/-- The table under any interleaving of operations. -/
def system : Lib.System SocialTips TipOp := .ofFn TipOp.apply

theorem run_foldl (t : SocialTips) (ops : List TipOp) :
    system.Run t ops (ops.foldl TipOp.apply t) :=
  Lib.System.Run.ofFn_iff.mpr rfl

/-- Every row of the table satisfies the row invariant. -/
def Inv (t : SocialTips) : Prop := ∀ k r, t.get? k = some r → r.Inv

/-- The rows of `t` are all in `t'`, evolved. -/
def Evolves (t t' : SocialTips) : Prop :=
  ∀ k r, t.get? k = some r → ∃ r', t'.get? k = some r' ∧ r.Evolves r'

theorem inv_empty : Inv Table.empty := by simp [Inv]

theorem Rowwise.inv {t t' : SocialTips} (h : Rowwise t t') (hi : Inv t) : Inv t' := by
  intro k r' hr'
  cases hr : t.get? k with
  | none => exact h.new k r' hr hr'
  | some r =>
    obtain ⟨r'', hr'', hstep⟩ := h.old k r hr
    obtain rfl := Option.some.inj (hr'.symm.trans hr'')
    exact (hstep (hi k r hr)).1

theorem Rowwise.evolves {t t' : SocialTips} (h : Rowwise t t') (hi : Inv t) : Evolves t t' := by
  intro k r hr
  obtain ⟨r', hr', hstep⟩ := h.old k r hr
  exact ⟨r', hr', (hstep (hi k r hr)).2⟩

theorem Evolves.trans {t₁ t₂ t₃ : SocialTips} (h : Evolves t₁ t₂) (h' : Evolves t₂ t₃) :
    Evolves t₁ t₃ := by
  intro k r hr
  obtain ⟨r₂, hr₂, he⟩ := h k r hr
  obtain ⟨r₃, hr₃, he'⟩ := h' k r₂ hr₂
  exact ⟨r₃, hr₃, he.trans he'⟩

theorem inv_step {t t' : SocialTips} {op : TipOp} (h : system.step t op t') (hi : Inv t) :
    Inv t' := by
  subst h
  exact (op.apply_rowwise t).inv hi

theorem inv_run {t : SocialTips} {ops : List TipOp} (h : system.Run Table.empty ops t) : Inv t :=
  h.invariant (fun _ _ _ => inv_step) inv_empty

theorem evolves_run {t t' : SocialTips} {ops : List TipOp} (h : system.Run t ops t')
    (hi : Inv t) : Evolves t t' := by
  refine h.relates (I := Inv) (R := Evolves) ?_ (fun _ _ _ => Evolves.trans)
    (fun _ _ _ => inv_step) ?_ hi
  · intro t k r hr
    exact ⟨r, hr, .refl r⟩
  · rintro t op _ rfl hi
    exact (op.apply_rowwise t).evolves hi

end SocialTips

/-- **The tip state machine.**  Take any row a run of operations has built, and the row it has
become after any further operations.  Both are settled exactly when they are `claimed`, with the
sweep on record; both carry a verdict on the amount when they are claimable or later; a row that
was ever dead is never claimable again, and `clawed_back` stays; funding transaction, sender,
addressee and kind never change. -/
theorem tip_state_machine {t t' : SocialTips} {ops ops' : List TipOp} {r r' : SocialTipRow}
    (id : Uuid) (hrun : SocialTips.system.Run Table.empty ops t)
    (hrun' : SocialTips.system.Run t ops' t') (hr : t.get? id = some r)
    (hr' : t'.get? id = some r') :
    ((r'.status = .claimed ↔ r'.sweepConfirmedAt.isSome) ∧
      (r'.status = .claimed → r'.sweepTxid.isSome ∧ r'.sweepBlockHeight.isSome)) ∧
    (r'.status = .pending ∨ r'.status = .claiming ∨ r'.status = .claimed →
      r'.fundingAmountVerified) ∧
    ((r.status = .fundingMismatch ∨ r.status = .cancelled ∨ r.status = .clawedBack →
        r'.status ≠ .pending ∧ r'.status ≠ .claiming ∧ r'.status ≠ .claimed) ∧
      (r.status = .clawedBack → r'.status = .clawedBack)) ∧
    ((r.fundingTxid.isSome → r'.fundingTxid = r.fundingTxid) ∧
      r'.senderUserId = r.senderUserId ∧ r'.recipientUserId = r.recipientUserId ∧
      r'.isPublic = r.isPublic ∧ (r'.isPublic ↔ r'.recipientUserId = none)) := by
  have hinv := SocialTips.inv_run (hrun.trans hrun') id r' hr'
  obtain ⟨r'', hr'', hev⟩ := SocialTips.evolves_run hrun' (SocialTips.inv_run hrun) id r hr
  obtain rfl := Option.some.inj (hr'.symm.trans hr'')
  refine ⟨⟨hinv.claimed_iff, hinv.sweep_of_claimed⟩, hinv.verified, ⟨?_, ?_⟩,
    hev.fundingTxid, hev.sender, hev.recipient, hev.isPublic, hinv.public_iff⟩
  · intro hdead
    have hdead' : r'.status.dead := hev.status.dead (by simpa [TipStatus.dead, or_assoc] using hdead)
    refine ⟨?_, ?_, ?_⟩ <;>
      · intro h
        simp [h, TipStatus.dead] at hdead'
  · intro h
    exact (h ▸ hev.status).clawedBack

/-- A public tip of 5 units, funded at creation. -/
def NewSocialTip.sample : NewSocialTip where
  senderUserId := 7
  asset := "btc"
  amount := 5
  claimKeyHash := some "00"
  encryptedKey := none
  tipAddress := some "bc1tip"
  fundingTxid := some "f0"
  tipViewKey := none
  confirmationsRequired := 0
  grinCommitment := none
  recipientUserId := none

/-- The sample tip is created and its amount verified. -/
def TipOp.sampleFunding : List TipOp := [.create 0 1 .sample, .verified 1 1 5]

/-- The sample tip is claimed and its sweep settles. -/
def TipOp.sampleClaim : List TipOp := [.claim 2 1 8, .confirmOnchain 3 1 "5e" 100 none none]

theorem tip_state_machine_claimed :
    ∃ r r' : SocialTipRow,
      (TipOp.sampleFunding.foldl TipOp.apply Table.empty).get? 1 = some r ∧
      (TipOp.sampleClaim.foldl TipOp.apply
        (TipOp.sampleFunding.foldl TipOp.apply Table.empty)).get? 1 = some r' ∧
      r.status = .pending ∧ r'.status = .claimed ∧ r'.sweepConfirmedAt.isSome ∧
      r'.fundingTxid = r.fundingTxid := by
  have hrun := SocialTips.run_foldl Table.empty TipOp.sampleFunding
  have hrun' := SocialTips.run_foldl (TipOp.sampleFunding.foldl TipOp.apply Table.empty)
    TipOp.sampleClaim
  refine ⟨_, _, rfl, rfl, rfl, rfl, ?_, rfl⟩
  exact (tip_state_machine 1 hrun hrun' rfl rfl).1.1.mp rfl

end SmirkBackend
