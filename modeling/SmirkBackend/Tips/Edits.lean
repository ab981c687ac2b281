import SmirkBackend.Tips.Lifecycle

/-!
# What an operation does to one row

Every operation on `social_tips` either leaves a row as it is or edits it in one way.  The
relation `TipOp.Edits` lists these edits with the conditions under which they happen, so that an
invariant of rows is checked edit by edit, without unfolding the statements again.

An operation edits the row under every key, and never drops one (`TipOp.apply_edits`); the rows it
adds are fresh (`TipOp.apply_new`).  So what the edits keep, every run keeps
(`SocialTips.Kept.run`).
-/

namespace SmirkBackend

open Lib (Table Patch)

namespace TipOp

open SocialTips

/-- The row an operation inserts. -/
def creates : TipOp → Option Uuid
  | createDraft _ id _ | create _ id _ => some id
  | _ => none

/-- The operation can turn the row `r` into `r'`. -/
inductive Edits : TipOp → SocialTipRow → SocialTipRow → Prop
  | skip (op : TipOp) (r : SocialTipRow) : Edits op r r
  | cancelDraft (now : Timestamp) (r : SocialTipRow) (hstatus : r.status = .draft) :
      Edits (.cancelDraft now r.id r.senderUserId) r
        { r with status := .cancelled, updatedAt := now }
  | attach (now : Timestamp) (txid : String) (r : SocialTipRow) (hstatus : r.status = .draft)
      (hfree : r.fundingTxid = none) :
      Edits (.attachFunding now r.id r.senderUserId txid) r
        { r with fundingTxid := some txid, status := .pendingConfirmation, updatedAt := now }
  | reattach (now : Timestamp) (txid : String) (r : SocialTipRow)
      (hsame : r.fundingTxid = some txid) :
      Edits (.attachFunding now r.id r.senderUserId txid) r { r with updatedAt := now }
  | updateConfirmations (now : Timestamp) (n : Int32) (confirmedAt : Option Timestamp)
      (r : SocialTipRow) :
      Edits (.updateConfirmations now r.id n) r
        { r with
          fundingConfirmations := n
          lastConfirmationCheck := some now
          fundingConfirmedAt := confirmedAt
          updatedAt := now }
  | touch (now : Timestamp) (r : SocialTipRow) :
      Edits (.touch now r.id) r { r with lastConfirmationCheck := some now, updatedAt := now }
  | verified (now : Timestamp) (observed : Int64) (r : SocialTipRow)
      (hstatus : r.status = .pendingConfirmation) (hopen : r.fundingAmountVerified = false) :
      Edits (.verified now r.id observed) r
        { r with
          status := .pending
          fundingAmountVerified := true
          fundingAmountObserved := some observed
          fundingAmountVerifiedAt := some now
          updatedAt := now }
  | mismatch (now : Timestamp) (observed : Int64) (r : SocialTipRow)
      (hstatus : r.status = .pendingConfirmation) (hopen : r.fundingAmountVerified = false) :
      Edits (.mismatch now r.id observed) r
        { r with
          status := .fundingMismatch
          fundingAmountVerified := true
          fundingAmountObserved := some observed
          fundingAmountVerifiedAt := some now
          updatedAt := now }
  | claim (now : Timestamp) (u : Uuid) (r : SocialTipRow)
      (hstatus : r.status = .pending ∨ r.status = .claiming)
      (hdepth : r.confirmationsRequired ≤ r.fundingConfirmations)
      (hverified : r.fundingAmountVerified) (hopen : r.sweepConfirmedAt = none)
      (hmay : r.isPublic ∨ r.recipientUserId = some u) :
      Edits (.claim now r.id u) r
        { r with
          status := .claiming
          claimedAt := some now
          claimedByUserId := some u
          updatedAt := now }
  | report (now : Timestamp) (u : Uuid) (txid : String) (r : SocialTipRow)
      (hstatus : r.status = .claiming) (hopen : r.sweepConfirmedAt = none) (hpublic : r.isPublic)
      (hfirst : r.sweepTxid = none ∨ r.sweepTxid = some txid) :
      Edits (.confirmSweep now r.id u txid) r
        { r with
          sweepTxid := some txid
          claimedByUserId := r.claimedByUserId <|> some u
          claimedAt := r.claimedAt <|> some now
          updatedAt := now }
  | clawback (now : Timestamp) (r : SocialTipRow) (hstatus : clawable r.status)
      (hopen : r.sweepConfirmedAt = none) :
      Edits (.clawback now r.id r.senderUserId) r
        { r with status := .clawedBack, clawedBackAt := some now, updatedAt := now }
  | confirmOnchain (now : Timestamp) (txid : String) (height : Int32) (hash : Option String)
      (claimedBy : Option Uuid) (r : SocialTipRow) (hstatus : r.status = .claiming)
      (hopen : r.sweepConfirmedAt = none) :
      Edits (.confirmOnchain now r.id txid height hash claimedBy) r
        { r with
          status := .claimed
          sweepConfirmedAt := some now
          sweepTxid := some txid
          sweepBlockHeight := some height
          sweepBlockHash := hash
          claimedByUserId := claimedBy <|> r.claimedByUserId
          updatedAt := now }
  | clearClaimedBy (now : Timestamp) (txid : String) (height : Int32) (hash : Option String)
      (r : SocialTipRow) (hstatus : r.status = .claiming) (hopen : r.sweepConfirmedAt = none) :
      Edits (.clearClaimedBy now r.id txid height hash) r
        { r with
          status := .claimed
          sweepConfirmedAt := some now
          sweepTxid := some txid
          sweepBlockHeight := some height
          sweepBlockHash := hash
          claimedByUserId := none
          updatedAt := now }
  | revert (now : Timestamp) (r : SocialTipRow) (hstatus : r.status = .claimed)
      (hsettled : r.sweepConfirmedAt.isSome) :
      Edits (.revert now r.id) r
        { r with
          status := .claiming
          sweepConfirmedAt := none
          sweepBlockHeight := none
          sweepBlockHash := none
          sweepConfirmedDmSentAt := none
          updatedAt := now }
  | stampDmSent (now : Timestamp) (r : SocialTipRow) :
      Edits (.stampDmSent now r.id) r
        { r with sweepConfirmedDmSentAt := some now, updatedAt := now }
  | stampReorg (now : Timestamp) (r : SocialTipRow) :
      Edits (.stampReorg now r.id) r { r with reorgNotifiedAt := some now, updatedAt := now }
  | expire (now : Timestamp) (op : TipOp) (r : SocialTipRow)
      (hop : op = .cancelOldDrafts now ∧ r.status = .draft ∨
        op = .cancelStuck now ∧ r.status = .pendingConfirmation) :
      Edits op r { r with status := .cancelled, updatedAt := now }

theorem edits_guardedUpdate {op : TipOp} {now : Timestamp} {t : SocialTips} {id k : Uuid}
    {guard : SocialTipRow → Bool} {f : Patch SocialTipRow} {r : SocialTipRow}
    (hr : t.get? k = some r)
    (hf : r.id = id → guard r → Edits op r { f.set r with updatedAt := now }) :
    ∃ r', (guardedUpdate now t id guard f).2.get? k = some r' ∧ Edits op r r' := by
  have hid : r.id = k := Table.key_of_get? hr
  rw [get?_guardedUpdate, hr, Option.map_some]
  by_cases hhit : k = id ∧ guard r
  · rw [if_pos hhit]
    exact ⟨_, rfl, hf (hid.trans hhit.1) hhit.2⟩
  · rw [if_neg hhit]
    exact ⟨r, rfl, .skip op r⟩

theorem edits_insert {op : TipOp} {now : Timestamp} {t : SocialTips} {id k : Uuid}
    {new : NewSocialTip} {status : TipStatus} {r : SocialTipRow} (hr : t.get? k = some r) :
    ∃ r', ((insertSocialTip now t id new status).getD t).get? k = some r' ∧ Edits op r r' := by
  refine ⟨r, ?_, .skip op r⟩
  cases hins : insertSocialTip now t id new status with
  | none => exact hr
  | some t' =>
    simp only [insertSocialTip] at hins
    split at hins
    · have hfree := (Table.insert?_eq_some_iff.mp hins).1
      rw [Option.getD_some, Table.get?_insert? hins, if_neg, hr]
      rintro rfl
      exact absurd (hfree.symm.trans hr) (by simp)
    · cases hins

theorem edits_cancelStale {op : TipOp} {now : Timestamp} {t : SocialTips} {k : Uuid}
    {status : TipStatus} {r : SocialTipRow} (hr : t.get? k = some r)
    (hop : r.status = status → op = .cancelOldDrafts now ∧ r.status = .draft ∨
      op = .cancelStuck now ∧ r.status = .pendingConfirmation) :
    ∃ r', (cancelStale status now t).get? k = some r' ∧ Edits op r r' := by
  rw [cancelStale, Table.get?_updateWhere, hr, Option.map_some]
  by_cases hstale : (r.status = status && r.createdAt < now - days 7)
  · rw [if_pos hstale]
    simp only [Bool.and_eq_true, decide_eq_true_eq] at hstale
    exact ⟨_, rfl, .expire now op r (hop hstale.1)⟩
  · rw [if_neg hstale]
    exact ⟨r, rfl, .skip op r⟩

/-- An operation edits the row under every key. -/
theorem apply_edits {t : SocialTips} {k : Uuid} {r : SocialTipRow} (op : TipOp)
    (hr : t.get? k = some r) : ∃ r', (op.apply t).get? k = some r' ∧ Edits op r r' := by
  cases op with
  | createDraft now id new => exact edits_insert hr
  | create now id new => exact edits_insert hr
  | cancelDraft now id sender =>
    refine edits_guardedUpdate hr fun hid hg => ?_
    simp only [Bool.and_eq_true, decide_eq_true_eq] at hg
    obtain ⟨rfl, hstatus⟩ := hg
    subst hid
    exact .cancelDraft now r hstatus
  | attachFunding now id sender txid =>
    rw [apply, attachFundingToTip_snd]
    refine edits_guardedUpdate hr fun hid hg => ?_
    simp only [Bool.and_eq_true, Bool.or_eq_true, decide_eq_true_eq] at hg
    obtain ⟨rfl, hcase⟩ := hg
    subst hid
    by_cases hd : unfundedDraft r
    · have hd' := hd
      simp only [unfundedDraft, Bool.and_eq_true, decide_eq_true_eq,
        Option.isNone_iff_eq_none] at hd'
      simpa [hd, hd'.2] using Edits.attach now txid r hd'.1 hd'.2
    · have hsame : r.fundingTxid = some txid := hcase.resolve_left hd
      simpa [hd, hsame] using Edits.reattach now txid r hsame
  | updateConfirmations now id n =>
    refine edits_guardedUpdate hr fun hid _ => ?_
    subst hid
    exact .updateConfirmations now n _ r
  | touch now id =>
    refine edits_guardedUpdate hr fun hid _ => ?_
    subst hid
    exact .touch now r
  | verified now id observed =>
    refine edits_guardedUpdate hr fun hid hg => ?_
    simp only [awaitingVerdict, Bool.and_eq_true, decide_eq_true_eq, Bool.not_eq_true'] at hg
    subst hid
    exact .verified now observed r hg.1 hg.2
  | mismatch now id observed =>
    refine edits_guardedUpdate hr fun hid hg => ?_
    simp only [awaitingVerdict, Bool.and_eq_true, decide_eq_true_eq, Bool.not_eq_true'] at hg
    subst hid
    exact .mismatch now observed r hg.1 hg.2
  | claim now id u =>
    refine edits_guardedUpdate hr fun hid hg => ?_
    simp only [Bool.and_eq_true, Bool.or_eq_true, decide_eq_true_eq,
      Option.isNone_iff_eq_none] at hg
    obtain ⟨⟨⟨⟨hstatus, hdepth⟩, hverified⟩, hopen⟩, hmay⟩ := hg
    subst hid
    exact .claim now u r hstatus hdepth hverified hopen hmay
  | confirmSweep now id u txid =>
    rw [apply, confirmTipSweep_snd]
    refine edits_guardedUpdate hr fun hid hg => ?_
    simp only [Bool.and_eq_true, Bool.or_eq_true, decide_eq_true_eq,
      Option.isNone_iff_eq_none] at hg
    obtain ⟨⟨⟨hstatus, hopen⟩, hpublic⟩, hfirst⟩ := hg
    subst hid
    have hsweep : (r.sweepTxid <|> some txid) = some txid := by
      rcases hfirst with h | h <;> simp [h]
    simpa [hsweep] using Edits.report now u txid r hstatus hopen hpublic hfirst
  | clawback now id sender =>
    refine edits_guardedUpdate hr fun hid hg => ?_
    simp only [Bool.and_eq_true, decide_eq_true_eq, Option.isNone_iff_eq_none] at hg
    obtain ⟨⟨rfl, hstatus⟩, hopen⟩ := hg
    subst hid
    exact .clawback now r hstatus hopen
  | confirmOnchain now id txid height hash claimedBy =>
    refine edits_guardedUpdate hr fun hid hg => ?_
    simp only [awaitingSettlement, Bool.and_eq_true, decide_eq_true_eq,
      Option.isNone_iff_eq_none] at hg
    subst hid
    exact .confirmOnchain now txid height hash claimedBy r hg.1 hg.2
  | clearClaimedBy now id txid height hash =>
    refine edits_guardedUpdate hr fun hid hg => ?_
    simp only [awaitingSettlement, Bool.and_eq_true, decide_eq_true_eq,
      Option.isNone_iff_eq_none] at hg
    subst hid
    exact .clearClaimedBy now txid height hash r hg.1 hg.2
  | revert now id =>
    refine edits_guardedUpdate hr fun hid hg => ?_
    simp only [settled, Bool.and_eq_true, decide_eq_true_eq] at hg
    subst hid
    exact .revert now r hg.1 hg.2
  | stampDmSent now id =>
    refine edits_guardedUpdate hr fun hid _ => ?_
    subst hid
    exact .stampDmSent now r
  | stampReorg now id =>
    refine edits_guardedUpdate hr fun hid _ => ?_
    subst hid
    exact .stampReorg now r
  | cancelOldDrafts now => exact edits_cancelStale hr fun h => .inl ⟨rfl, h⟩
  | cancelStuck now => exact edits_cancelStale hr fun h => .inr ⟨rfl, h⟩

/-- A row that was not there before an operation is the fresh one it inserts. -/
theorem apply_new {t : SocialTips} {k : Uuid} {r' : SocialTipRow} (op : TipOp)
    (hr : t.get? k = none) (hr' : (op.apply t).get? k = some r') :
    op.creates = some k ∧ ∃ now new status, (status = .draft ∨ status = .pendingConfirmation) ∧
      r' = .ofNew k now new status := by
  -- an update finds no row
  have hupdate : ∀ now id guard f, (guardedUpdate now t id guard f).2.get? k ≠ some r' := by
    intro now id guard f
    rw [get?_guardedUpdate, hr]
    simp
  have hstale : ∀ status now, (cancelStale status now t).get? k ≠ some r' := by
    intro status now
    rw [cancelStale, Table.get?_updateWhere, hr]
    simp
  have hinsert : ∀ now id new status,
      ((insertSocialTip now t id new status).getD t).get? k = some r' →
        id = k ∧ r' = .ofNew k now new status := by
    intro now id new status h
    cases hins : insertSocialTip now t id new status with
    | none => simp [hins, hr] at h
    | some t' =>
      rw [hins, Option.getD_some] at h
      simp only [insertSocialTip] at hins
      split at hins
      · rw [Table.get?_insert? hins] at h
        split at h
        · rename_i hk
          obtain rfl := hk
          exact ⟨rfl, (Option.some.inj h).symm⟩
        · simp [hr] at h
      · cases hins
  cases op with
  | createDraft now id new =>
    obtain ⟨rfl, hnew⟩ := hinsert now id new _ hr'
    exact ⟨rfl, now, new, .draft, .inl rfl, hnew⟩
  | create now id new =>
    obtain ⟨rfl, hnew⟩ := hinsert now id new _ hr'
    exact ⟨rfl, now, new, .pendingConfirmation, .inr rfl, hnew⟩
  | attachFunding now id sender txid =>
    rw [apply, attachFundingToTip_snd] at hr'
    exact absurd hr' (hupdate _ _ _ _)
  | confirmSweep now id u txid =>
    rw [apply, confirmTipSweep_snd] at hr'
    exact absurd hr' (hupdate _ _ _ _)
  | cancelOldDrafts now => exact absurd hr' (hstale _ _)
  | cancelStuck now => exact absurd hr' (hstale _ _)
  | cancelDraft | updateConfirmations | touch | verified | mismatch | claim | clawback |
    confirmOnchain | clearClaimedBy | revert | stampDmSent | stampReorg =>
    exact absurd hr' (hupdate _ _ _ _)

end TipOp

namespace SocialTips

/-- A property of rows that fresh rows have and every edit of an allowed operation keeps. -/
structure Kept (ok : TipOp → Prop) (P : SocialTipRow → Prop) : Prop where
  /-- Fresh rows have it. -/
  new : ∀ id now new status, status = .draft ∨ status = .pendingConfirmation →
    P (.ofNew id now new status)
  /-- An edit keeps it. -/
  edit : ∀ op r r', ok op → TipOp.Edits op r r' → P r → P r'

/-- Every row of the table has the property. -/
def Rows (P : SocialTipRow → Prop) (t : SocialTips) : Prop := ∀ k r, t.get? k = some r → P r

theorem Kept.apply {ok : TipOp → Prop} {P : SocialTipRow → Prop} (h : Kept ok P) {t : SocialTips}
    {op : TipOp} (hop : ok op) (ht : Rows P t) : Rows P (op.apply t) := by
  intro k r' hr'
  cases hr : t.get? k with
  | none =>
    obtain ⟨-, now, new, status, hstatus, rfl⟩ := op.apply_new hr hr'
    exact h.new k now new status hstatus
  | some r =>
    obtain ⟨r'', hr'', hedit⟩ := op.apply_edits hr
    obtain rfl := Option.some.inj (hr'.symm.trans hr'')
    exact h.edit op r r' hop hedit (ht k r hr)

/-- What every allowed operation keeps, every run of them keeps. -/
theorem Kept.run {ok : TipOp → Prop} {P : SocialTipRow → Prop} (h : Kept ok P)
    {t t' : SocialTips} {ops : List TipOp} (hrun : system.Run t ops t') (hops : ∀ op ∈ ops, ok op)
    (ht : Rows P t) : Rows P t' := by
  induction hrun with
  | nil t => exact ht
  | cons hstep _ ih =>
    subst hstep
    obtain ⟨hop, hrest⟩ := List.forall_mem_cons.mp hops
    exact ih hrest (h.apply hop ht)

theorem rows_empty (P : SocialTipRow → Prop) : Rows P Table.empty := by simp [Rows]

end SocialTips

end SmirkBackend
