import SmirkBackend.Lib.Noninterference
import SmirkBackend.Tips.Api

/-!
# Tips between others go unnoticed

A targeted tip is the business of its sender and its recipient.  Any number of other users put their
heads together: they call every route with every tip id, before, between and after the calls of
everybody else, the statements of the workers and the deletion of accounts.  They are answered as if
the targeted tips they neither sent nor receive had never existed, with one exception: a sweep that
is confirmed for such a tip while it is being claimed or when it was claimed is answered with the
sweep on record and the status, because the second read of `confirm_tip_sweep` has no guard but the
status.

The proof is by unwinding: leaving out the hidden rows commutes with every statement.

* `TipDesk.run_of_step` : every event of the tips subsystem is one of some calls.
* `hidden_tips_unnoticed` : the answers to a coalition, with what leaks (`TipDesk.leak`).
-/

namespace SmirkBackend

open Lib (Table Patch)

/-- A targeted tip between users outside the coalition `C`. -/
def SocialTipRow.hiddenFrom (C : Uuid → Bool) (r : SocialTipRow) : Bool :=
  !r.isPublic && !C r.senderUserId && !r.recipientUserId.any C

/-! ### Statements -/

namespace TipOp

/-- The row a statement may update. -/
def target : TipOp → Option Uuid
  | cancelDraft _ k _ | attachFunding _ k _ _ | updateConfirmations _ k _ | touch _ k
  | verified _ k _ | mismatch _ k _ | claim _ k _ | confirmSweep _ k _ _ | clawback _ k _
  | confirmOnchain _ k _ _ _ _ | clearClaimedBy _ k _ _ _ | revert _ k | stampDmSent _ k
  | stampReorg _ k => some k
  | createDraft .. | create .. | cancelOldDrafts .. | cancelStuck .. => none

/-- The row a statement may insert. -/
def fresh : TipOp → Option SocialTipRow
  | createDraft now id new => some (.ofNew id now new .draft)
  | create now id new => some (.ofNew id now new .pendingConfirmation)
  | _ => none

/-- The statement is about a row that is hidden from the coalition. -/
def hides (C : Uuid → Bool) (t : SocialTips) (op : TipOp) : Bool :=
  op.target.any (fun k => (t.get? k).any (·.hiddenFrom C)) || op.fresh.any (·.hiddenFrom C)

end TipOp

namespace SocialTips

variable {C : Uuid → Bool} (t : SocialTips)

/-- What the second read of `confirm_tip_sweep` shows of a hidden tip. -/
def shownOfHidden (C : Uuid → Bool) (id : Uuid) : Option SocialTipRow :=
  (t.get? id).filter fun r => r.hiddenFrom C && (r.status = .claiming || r.status = .claimed)

theorem guardedUpdate_without (now : Timestamp) (id : Uuid) (guard : SocialTipRow → Bool)
    {f : Patch SocialTipRow} (hf : f.Keeps (·.hiddenFrom C)) :
    (guardedUpdate now (t.deleteWhere (·.hiddenFrom C)) id guard f).2 =
      (guardedUpdate now t id guard f).2.deleteWhere (·.hiddenFrom C) :=
  t.updateWhere_deleteWhere _ fun r => hf r

theorem guardedUpdate_fst_without (now : Timestamp) (id : Uuid) {guard : SocialTipRow → Bool}
    (hguard : ∀ r, guard r → r.hiddenFrom C = false) {f : Patch SocialTipRow}
    (hf : f.Keeps (·.hiddenFrom C)) :
    (guardedUpdate now (t.deleteWhere (·.hiddenFrom C)) id guard f).1 =
      (guardedUpdate now t id guard f).1 := by
  have hkeeps : (f.andThen (touchUpdatedAt now)).Keeps (·.hiddenFrom C) := fun r => hf r
  have hrest := congrArg Prod.fst (t.updateOne_deleteWhere id hguard hkeeps)
  exact hrest

theorem guardedUpdate_of_missing {t : SocialTips} (now : Timestamp) {id : Uuid}
    (hid : t.get? id = none) (guard : SocialTipRow → Bool) (f : Patch SocialTipRow) :
    (guardedUpdate now t id guard f).2 = t :=
  Table.updateOne_of_none t (guardedUpdate_of_not_guard now f (by simp [hid])).1

theorem cancelStale_without (status : TipStatus) (now : Timestamp) :
    cancelStale status now (t.deleteWhere (·.hiddenFrom C)) =
      (cancelStale status now t).deleteWhere (·.hiddenFrom C) :=
  t.updateWhere_deleteWhere _ fun _ => rfl

theorem insertSocialTip_without {t : SocialTips} {now : Timestamp} {id : Uuid}
    {new : NewSocialTip} {status : TipStatus} (hid : t.get? id = none)
    (hnew : (SocialTipRow.ofNew id now new status).hiddenFrom C = false) :
    insertSocialTip now (t.deleteWhere (·.hiddenFrom C)) id new status =
      (insertSocialTip now t id new status).map (·.deleteWhere (·.hiddenFrom C)) := by
  simp only [insertSocialTip]
  split
  case isTrue =>
    obtain ⟨t', ht'⟩ := Table.exists_insert? (t := t) (r := SocialTipRow.ofNew id now new status) hid
    rw [ht', Table.insert?_deleteWhere hnew ht', Option.map_some]
  case isFalse => rfl

end SocialTips

namespace TipOp

open SocialTips

variable {C : Uuid → Bool} {t : SocialTips}

theorem apply_of_missing {op : TipOp} {k : Uuid} (hop : op.target = some k)
    (hk : t.get? k = none) : op.apply t = t := by
  have hupdate := fun now guard f => guardedUpdate_of_missing now hk guard f
  cases op with
  | createDraft | create | cancelOldDrafts | cancelStuck => cases hop
  | attachFunding now id sender txid =>
    obtain rfl := Option.some.inj hop
    simp only [apply, attachFundingToTip_snd]
    exact hupdate _ _ _
  | confirmSweep now id claimer txid =>
    obtain rfl := Option.some.inj hop
    simp only [apply, confirmTipSweep_snd]
    exact hupdate _ _ _
  | _ =>
    obtain rfl := Option.some.inj hop
    exact hupdate _ _ _

theorem apply_without {op : TipOp} (hop : op.fresh = none) :
    op.apply (t.deleteWhere (·.hiddenFrom C)) = (op.apply t).deleteWhere (·.hiddenFrom C) := by
  cases op with
  | createDraft | create => cases hop
  | attachFunding now id sender txid =>
    simp only [apply, attachFundingToTip_snd]
    exact t.guardedUpdate_without _ _ _ fun _ => rfl
  | confirmSweep now id claimer txid =>
    simp only [apply, confirmTipSweep_snd]
    exact t.guardedUpdate_without _ _ _ fun _ => rfl
  | cancelOldDrafts now | cancelStuck now => exact t.cancelStale_without _ _
  | _ => exact t.guardedUpdate_without _ _ _ fun _ => rfl

theorem apply_of_fresh {op : TipOp} {r : SocialTipRow} (h : op.fresh = some r) :
    ∃ now new status, r = .ofNew r.id now new status ∧ op.creates = some r.id ∧
      ∀ t, op.apply t = (insertSocialTip now t r.id new status).getD t := by
  cases op with
  | createDraft now id new =>
    obtain rfl := Option.some.inj h
    exact ⟨now, new, .draft, rfl, rfl, fun _ => rfl⟩
  | create now id new =>
    obtain rfl := Option.some.inj h
    exact ⟨now, new, .pendingConfirmation, rfl, rfl, fun _ => rfl⟩
  | _ => cases h

theorem apply_of_hides {op : TipOp} (h : op.hides C t) :
    (op.apply t).deleteWhere (·.hiddenFrom C) = t.deleteWhere (·.hiddenFrom C) := by
  rw [hides, Bool.or_eq_true, Option.any_eq_true, Option.any_eq_true] at h
  rcases h with ⟨k, hk, hrow⟩ | ⟨r, hr, hhidden⟩
  · have hfresh : op.fresh = none := by
      cases op <;> first | rfl | cases hk
    have hmissing : (t.deleteWhere (·.hiddenFrom C)).get? k = none := by
      obtain ⟨r, hr, hhidden⟩ := (Option.any_eq_true _ _).mp hrow
      simp [Table.get?_deleteWhere, hr, Option.filter, hhidden]
    rw [← apply_without hfresh, apply_of_missing hk hmissing]
  · obtain ⟨now, new, status, hrow, -, happly⟩ := apply_of_fresh hr
    rw [happly]
    cases hins : insertSocialTip now t r.id new status with
    | none => rfl
    | some t' =>
      simp only [insertSocialTip, ← hrow] at hins
      split_ifs at hins
      exact Table.deleteWhere_of_insert? hhidden hins

theorem apply_of_not_hidden {op : TipOp} (h : op.fresh.any (·.hiddenFrom C) = false)
    (hnew : ∀ k, op.creates = some k → t.get? k = none) :
    op.apply (t.deleteWhere (·.hiddenFrom C)) = (op.apply t).deleteWhere (·.hiddenFrom C) := by
  cases hfresh : op.fresh with
  | none => exact apply_without hfresh
  | some r =>
    obtain ⟨now, new, status, hrow, hcreates, happly⟩ := apply_of_fresh hfresh
    have hvisible : (SocialTipRow.ofNew r.id now new status).hiddenFrom C = false := by
      rw [← hrow]
      simpa [hfresh] using h
    rw [happly, happly, insertSocialTip_without (hnew r.id hcreates) hvisible]
    cases insertSocialTip now t r.id new status <;> rfl

end TipOp

/-! ### The table and all that happens to it -/

/-- The table, and the ids that were ever given to a tip. -/
structure TipDesk where
  /-- The stored rows. -/
  db : SocialTips
  /-- The ids in use and those used up. -/
  issued : List Uuid

/-- What happens: requests, each to an instance as it is set up at that moment, statements of the
workers, and the deletion of accounts. -/
inductive TipCall
  | request (api : TipApi) (bearer : Except AppError Uuid) (now : Timestamp) (req : TipRequest)
  | background (op : TipOp)
  | deleteUser (now : Timestamp) (u : Uuid)

/-- The answer to a request; nobody is told about the rest. -/
abbrev TipAnswer := Option (Except AppError TipReply)

namespace TipDesk

/-- No tip was ever created. -/
def empty : TipDesk := ⟨.empty, []⟩

/-- The table after a call, with its answer; an id is given to one tip only. -/
def service : Lib.Service TipDesk TipCall TipAnswer where
  act d call :=
    match call with
    | .request api bearer now req =>
      if req.creates.all (!d.issued.contains ·) then
        let (answer, t) := api.handle bearer now req d.db
        some (⟨t, req.creates.toList ++ d.issued⟩, some answer)
      else none
    | .background op =>
      if op.creates.all (!d.issued.contains ·) then
        some (⟨op.apply d.db, op.creates.toList ++ d.issued⟩, none)
      else none
    | .deleteUser now u =>
      (Lib.fireAll SocialTipRow.checks u (SocialTipRow.fks now) d.db).map fun t =>
        (⟨t, d.issued⟩, none)

variable (C : Uuid → Bool)

/-- The coalition gets the answer: it asked, or somebody without an account did, or for a page
that is open to everybody. -/
def observes : TipCall → Bool
  | .request _ _ _ (.publicInfo _) | .request _ (.error _) _ _ => true
  | .request _ (.ok user) _ _ => C user
  | _ => false

/-- The calls that are the business of others. -/
def hides (d : TipDesk) (call : TipCall) : Bool :=
  match call with
  | .request api bearer now req =>
    !observes C call && (api.op bearer now req).any (·.hides C d.db)
  | .background op => op.hides C d.db
  | .deleteUser .. => false

/-- The tip whose sweep a member of the coalition is told although it is hidden. -/
def leak (d : TipDesk) : TipCall → Option SocialTipRow
  | .request api bearer _ (.confirmSweep k text) =>
    match api.callerWith bearer "sweep_txid" text with
    | .ok _ => d.db.shownOfHidden C k
    | .error _ => none
  | _ => none

/-- What the coalition is told, compared with the answer `a` it would get if the hidden tips had
never existed. -/
structure Told (e : Lib.Service.Exchange TipDesk TipCall TipAnswer) (a : TipAnswer) : Prop where
  /-- The same, unless there is a leak. -/
  same : leak C e.before e.call = none → e.answer = a
  /-- A leak tells the recorded sweep and the status of a tip it would know nothing about. -/
  leaked : ∀ r, leak C e.before e.call = some r →
    e.answer = some (.ok (.sweep ⟨r.sweepTxid, r.status⟩)) ∧
      a = some (.error (.validationError "tip not claiming"))

end TipDesk

/-! ### Answers to the coalition -/

theorem TipApi.bearer_of_caller {api : TipApi} {bearer : Except AppError Uuid} {user : Uuid}
    (h : api.caller bearer = .ok user) : bearer = .ok user := by
  obtain ⟨_, hbearer, h⟩ := bind_eq_ok_iff.mp h
  obtain ⟨_, -, h⟩ := bind_eq_ok_iff.mp h
  rw [hbearer]
  exact h

theorem TipApi.bearer_of_callerWith {api : TipApi} {bearer : Except AppError Uuid} {user : Uuid}
    {field text txid : String} (h : api.callerWith bearer field text = .ok (user, txid)) :
    bearer = .ok user := by
  obtain ⟨_, hcaller, h⟩ := bind_eq_ok_iff.mp h
  obtain ⟨_, -, h⟩ := bind_eq_ok_iff.mp h
  obtain ⟨rfl, -⟩ := Prod.mk.inj (Except.ok.inj h)
  exact bearer_of_caller hcaller

theorem TipInstance.bearer_of_planTip {inst : TipInstance} {bearer : Except AppError Uuid}
    {req : CreateSocialTipRequest} {plan : PlannedTip} (h : inst.planTip bearer req = .ok plan) :
    bearer = .ok plan.new.senderUserId := by
  obtain ⟨vetted, hvet, rfl, -⟩ := planTip_ok h
  obtain ⟨sender, hbearer, hvet⟩ := bind_eq_ok_iff.mp hvet
  iterate 6 obtain ⟨_, -, hvet⟩ := bind_eq_ok_iff.mp hvet
  obtain rfl := Except.ok.inj hvet
  exact hbearer

namespace SocialTipRow

variable {C : Uuid → Bool} {r : SocialTipRow} {user : Uuid}

theorem hiddenFrom_of_sender (hC : C user) (h : r.senderUserId = user) :
    r.hiddenFrom C = false := by
  simp [hiddenFrom, h, hC]

theorem hiddenFrom_of_recipient (hC : C user) (h : r.recipientUserId = some user) :
    r.hiddenFrom C = false := by
  simp [hiddenFrom, h, hC]

theorem hiddenFrom_of_public (h : r.isPublic) : r.hiddenFrom C = false := by
  simp [hiddenFrom, h]

end SocialTipRow

namespace SocialTips

variable {C : Uuid → Bool} {user : Uuid} (t : SocialTips)

theorem getSentSocialTips_without (hC : C user) :
    getSentSocialTips (t.deleteWhere (·.hiddenFrom C)) user = t.getSentSocialTips user :=
  t.select_deleteWhere (fun _ hr => SocialTipRow.hiddenFrom_of_sender hC (of_decide_eq_true hr)) _

theorem getReceivedSocialTips_without (hC : C user) :
    getReceivedSocialTips (t.deleteWhere (·.hiddenFrom C)) user = t.getReceivedSocialTips user :=
  t.select_deleteWhere
    (fun _ hr => SocialTipRow.hiddenFrom_of_recipient hC (of_decide_eq_true hr)) _

theorem getClaimableSocialTips_without (hC : C user) :
    getClaimableSocialTips (t.deleteWhere (·.hiddenFrom C)) user =
      t.getClaimableSocialTips user := by
  refine t.select_deleteWhere (fun r hr => SocialTipRow.hiddenFrom_of_recipient hC ?_) _
  simp only [Bool.and_eq_true, decide_eq_true_eq] at hr
  exact hr.1.1.1.1

theorem cancelDraftSocialTip_without (hC : C user) (now : Timestamp) (id : Uuid) :
    (cancelDraftSocialTip now (t.deleteWhere (·.hiddenFrom C)) id user).1 =
      (cancelDraftSocialTip now t id user).1 := by
  refine t.guardedUpdate_fst_without now id (fun r hr => ?_) fun _ => rfl
  simp only [Bool.and_eq_true, decide_eq_true_eq] at hr
  exact SocialTipRow.hiddenFrom_of_sender hC hr.1

theorem clawbackSocialTip_without (hC : C user) (now : Timestamp) (id : Uuid) :
    (clawbackSocialTip now (t.deleteWhere (·.hiddenFrom C)) id user).1 =
      (clawbackSocialTip now t id user).1 := by
  refine t.guardedUpdate_fst_without now id (fun r hr => ?_) fun _ => rfl
  simp only [Bool.and_eq_true, decide_eq_true_eq] at hr
  exact SocialTipRow.hiddenFrom_of_sender hC hr.1.1

theorem markTipClaiming_without (hC : C user) (now : Timestamp) (id : Uuid) :
    (markTipClaiming now (t.deleteWhere (·.hiddenFrom C)) id user).1 =
      (markTipClaiming now t id user).1 := by
  refine t.guardedUpdate_fst_without now id (fun r hr => ?_) fun _ => rfl
  simp only [Bool.and_eq_true, Bool.or_eq_true, decide_eq_true_eq] at hr
  rcases hr.2 with hpublic | hrecipient
  · exact SocialTipRow.hiddenFrom_of_public hpublic
  · exact SocialTipRow.hiddenFrom_of_recipient hC hrecipient

/-- The second read of an attachment is for the sender only. -/
theorem attachFundingToTip_without (hC : C user) (now : Timestamp) (id : Uuid) (txid : String) :
    (attachFundingToTip now (t.deleteWhere (·.hiddenFrom C)) id user txid).1 =
      (attachFundingToTip now t id user txid).1 := by
  have hrow : (attachFundingUpdate now (t.deleteWhere (·.hiddenFrom C)) id user txid).1 =
      (attachFundingUpdate now t id user txid).1 := by
    refine t.guardedUpdate_fst_without now id (fun r hr => ?_) fun _ => rfl
    simp only [Bool.and_eq_true, decide_eq_true_eq] at hr
    exact SocialTipRow.hiddenFrom_of_sender hC hr.1
  have hrest : (attachFundingUpdate now (t.deleteWhere (·.hiddenFrom C)) id user txid).2 =
      (attachFundingUpdate now t id user txid).2.deleteWhere (·.hiddenFrom C) :=
    t.guardedUpdate_without now id _ fun _ => rfl
  unfold attachFundingToTip
  cases hfull : attachFundingUpdate now t id user txid with
  | mk updated t' =>
    rw [hfull] at hrow hrest
    have hupdate : attachFundingUpdate now (t.deleteWhere (·.hiddenFrom C)) id user txid =
        (updated, t'.deleteWhere (·.hiddenFrom C)) := Prod.ext hrow hrest
    rw [hupdate]
    cases updated with
    | some tip => rfl
    | none =>
      have hread : ((Table.get? (t'.deleteWhere (·.hiddenFrom C)) id).filter fun r =>
          r.senderUserId = user) = (t'.get? id).filter fun r => r.senderUserId = user := by
        rw [Table.get?_deleteWhere]
        cases t'.get? id with
        | none => rfl
        | some r =>
          by_cases hsender : r.senderUserId = user
          · simp [Option.filter, hsender, SocialTipRow.hiddenFrom_of_sender hC hsender]
          · by_cases hhidden : r.hiddenFrom C <;> simp [Option.filter, hsender, hhidden]
      simp only [hread]
      cases (t'.get? id).filter fun r => r.senderUserId = user with
      | none => rfl
      | some current =>
        simp only
        cases current.fundingTxid with
        | none => rfl
        | some existing => by_cases hsame : existing = txid <;> simp [hsame]

theorem confirmTipSweepUpdate_without (now : Timestamp) (id claimer : Uuid) (txid : String) :
    confirmTipSweepUpdate now (t.deleteWhere (·.hiddenFrom C)) id claimer txid =
      ((confirmTipSweepUpdate now t id claimer txid).1,
        (confirmTipSweepUpdate now t id claimer txid).2.deleteWhere (·.hiddenFrom C)) := by
  refine Prod.ext ?_ (t.guardedUpdate_without now id _ fun _ => rfl)
  refine t.guardedUpdate_fst_without now id (fun r hr => ?_) fun _ => rfl
  simp only [Bool.and_eq_true, decide_eq_true_eq] at hr
  exact SocialTipRow.hiddenFrom_of_public hr.1.2

/-- The answer to a sweep when nothing hidden is shown. -/
theorem confirmTipSweep_without {id : Uuid} (hnone : t.shownOfHidden C id = none)
    (now : Timestamp) (claimer : Uuid) (txid : String) :
    (confirmTipSweep now (t.deleteWhere (·.hiddenFrom C)) id claimer txid).1 =
      (confirmTipSweep now t id claimer txid).1 := by
  unfold confirmTipSweep
  rw [confirmTipSweepUpdate_without]
  cases hupdate : confirmTipSweepUpdate now t id claimer txid with
  | mk recorded t' =>
    cases recorded with
    | some tip => rfl
    | none =>
      obtain rfl : t' = t := by
        have hsame := Table.updateOne_of_none t (congrArg Prod.fst hupdate)
        exact (congrArg Prod.snd hupdate).symm.trans hsame
      simp only [Table.get?_deleteWhere]
      cases hrow : t'.get? id with
      | none => rfl
      | some r =>
        rw [shownOfHidden, hrow] at hnone
        by_cases hhidden : r.hiddenFrom C
        · simp_all [Option.filter]
        · simp [Option.filter, hhidden]

/-- The answer to a sweep when a hidden tip is shown, and the answer without that tip. -/
theorem confirmTipSweep_of_shown {id : Uuid} {r : SocialTipRow}
    (hshown : t.shownOfHidden C id = some r) (now : Timestamp) (claimer : Uuid) (txid : String) :
    (confirmTipSweep now t id claimer txid).1 = some r ∧
      (confirmTipSweep now (t.deleteWhere (·.hiddenFrom C)) id claimer txid).1 = none := by
  obtain ⟨hrow, hr⟩ := Option.filter_eq_some_iff.mp hshown
  rw [Bool.and_eq_true] at hr
  have hprivate : r.isPublic = false := by
    cases hpublic : r.isPublic with
    | false => rfl
    | true => simp [SocialTipRow.hiddenFrom_of_public hpublic] at hr
  have hnone : (confirmTipSweepUpdate now t id claimer txid).1 = none := by
    refine (guardedUpdate_of_not_guard now _ fun r' hr' => ?_).1
    obtain rfl := Option.some.inj (hrow.symm.trans hr')
    simp [hprivate]
  have hsame : (confirmTipSweepUpdate now t id claimer txid).2 = t :=
    Table.updateOne_of_none t hnone
  have hupdate : confirmTipSweepUpdate now t id claimer txid = (none, t) := Prod.ext hnone hsame
  have hmissing : Table.get? (t.deleteWhere (·.hiddenFrom C)) id = none := by
    simp [Table.get?_deleteWhere, hrow, Option.filter, hr.1]
  constructor
  · unfold confirmTipSweep
    rw [hupdate]
    exact Option.filter_eq_some_iff.mpr ⟨hrow, hr.2⟩
  · unfold confirmTipSweep
    rw [confirmTipSweepUpdate_without, hupdate]
    simp only [hmissing, Option.filter_none]

end SocialTips

namespace TipApi

open SocialTips

variable {C : Uuid → Bool} {api : TipApi} {bearer : Except AppError Uuid} {now : Timestamp}
  {t : SocialTips}

theorem createSocialTip_without (hmember : ∀ user, bearer = .ok user → C user) {id : Uuid}
    (hid : t.get? id = none) (req : CreateSocialTipRequest) :
    (api.createSocialTip bearer now id req (t.deleteWhere (·.hiddenFrom C))).1 =
      (api.createSocialTip bearer now id req t).1 := by
  unfold TipInstance.createSocialTip
  cases hplan : api.planTip bearer req with
  | error e => rfl
  | ok plan =>
    have hC := hmember _ (TipInstance.bearer_of_planTip hplan)
    have hvisible : (SocialTipRow.ofNew id now plan.new plan.status).hiddenFrom C = false :=
      SocialTipRow.hiddenFrom_of_sender hC rfl
    simp only [plan.insert?_eq, insertSocialTip_without hid hvisible]
    cases insertSocialTip now t id plan.new plan.status <;> rfl

/-- **The answer to a member of the coalition**, or to somebody without an account, unless a hidden
tip is shown. -/
theorem handle_fst_without {req : TipRequest}
    (hobs : TipDesk.observes C (.request api bearer now req))
    (hid : ∀ k, req.creates = some k → t.get? k = none)
    (hleak : ∀ k text user txid, req = .confirmSweep k text →
      api.callerWith bearer "sweep_txid" text = .ok (user, txid) → t.shownOfHidden C k = none) :
    (api.handle bearer now req (t.deleteWhere (·.hiddenFrom C))).1 =
      (api.handle bearer now req t).1 := by
  have hmember (hreq : ∀ k, req ≠ .publicInfo k) : ∀ user, bearer = .ok user → C user := by
    rintro user rfl
    cases req with
    | publicInfo k => exact absurd rfl (hreq k)
    | _ => exact hobs
  cases req with
  | create id req =>
    exact congrArg (Except.map TipReply.created)
      (createSocialTip_without (hmember (by simp)) (hid id rfl) req)
  | sent =>
    simp only [handle, TipApi.getSentSocialTips]
    cases hcaller : api.caller bearer with
    | error e => rfl
    | ok user =>
      have hC := hmember (by simp) user (bearer_of_caller hcaller)
      simp only [bind, Except.bind, getSentSocialTips_without t hC]
  | received =>
    simp only [handle, TipApi.getReceivedSocialTips]
    cases hcaller : api.caller bearer with
    | error e => rfl
    | ok user =>
      have hC := hmember (by simp) user (bearer_of_caller hcaller)
      simp only [bind, Except.bind, getReceivedSocialTips_without t hC]
  | claimable =>
    simp only [handle, TipApi.getClaimableSocialTips]
    cases hcaller : api.caller bearer with
    | error e => rfl
    | ok user =>
      have hC := hmember (by simp) user (bearer_of_caller hcaller)
      simp only [bind, Except.bind, getClaimableSocialTips_without t hC]
  | publicInfo k =>
    have hrow : (Table.get? (t.deleteWhere (·.hiddenFrom C)) k).filter (·.isPublic) =
        (t.get? k).filter (·.isPublic) := by
      rw [Table.get?_deleteWhere]
      cases t.get? k with
      | none => rfl
      | some r =>
        cases hpublic : r.isPublic with
        | true => simp [Option.filter, hpublic, SocialTipRow.hiddenFrom_of_public hpublic]
        | false => by_cases hhidden : r.hiddenFrom C <;> simp [Option.filter, hpublic, hhidden]
    simp only [handle, getPublicSocialTip, hrow]
  | cancel k =>
    simp only [handle, TipReply.answer, cancelSocialTip]
    cases hcaller : api.caller bearer with
    | error e => rfl
    | ok user =>
      have hC := hmember (by simp) user (bearer_of_caller hcaller)
      simp only [cancelDraftSocialTip_without t hC]
  | attachFunding k text =>
    simp only [handle, TipReply.answer, attachFunding]
    cases hcaller : api.callerWith bearer "funding_txid" text with
    | error e => rfl
    | ok pair =>
      have hC := hmember (by simp) pair.1 (bearer_of_callerWith hcaller)
      simp only [attachFundingToTip_without t hC]
  | claim k =>
    simp only [handle, TipReply.answer, claimSocialTip]
    cases hcaller : api.caller bearer with
    | error e => rfl
    | ok user =>
      have hC := hmember (by simp) user (bearer_of_caller hcaller)
      simp only [markTipClaiming_without t hC]
  | confirmSweep k text =>
    simp only [handle, TipReply.answer, confirmSweep]
    cases hcaller : api.callerWith bearer "sweep_txid" text with
    | error e => rfl
    | ok pair =>
      have hnone := hleak k text pair.1 pair.2 rfl hcaller
      simp only [t.confirmTipSweep_without hnone]
  | clawback k =>
    simp only [handle, TipReply.answer, clawbackSocialTip]
    cases hcaller : api.caller bearer with
    | error e => rfl
    | ok user =>
      have hC := hmember (by simp) user (bearer_of_caller hcaller)
      simp only [clawbackSocialTip_without t hC]

end TipApi

/-! ### Runs -/

namespace TipDesk

variable {C : Uuid → Bool}

/-- The desk `d'` is the desk `d` without the tips that are hidden from the coalition. -/
structure Without (C : Uuid → Bool) (d d' : TipDesk) : Prop where
  /-- Its rows are the others. -/
  db : d'.db = d.db.deleteWhere (·.hiddenFrom C)
  /-- It gave out no other ids. -/
  issued : ∀ k ∈ d'.issued, k ∈ d.issued
  /-- The stored rows have ids that were given out. -/
  stored : ∀ r ∈ d.db.rows, r.id ∈ d.issued

theorem Without.get?_eq_none {d d' : TipDesk} (h : Without C d d') {k : Uuid}
    (hk : k ∉ d.issued) : d.db.get? k = none := by
  refine Table.get?_eq_none_iff.mpr fun r hr => ?_
  rintro rfl
  exact hk (h.stored r hr)

theorem stored_apply {d : TipDesk} (h : ∀ r ∈ d.db.rows, r.id ∈ d.issued) (op : TipOp) :
    ∀ r ∈ (op.apply d.db).rows, r.id ∈ op.creates.toList ++ d.issued := by
  intro r' hr'
  have hget := Table.get?_of_mem hr'
  cases hr : d.db.get? (Lib.key r') with
  | none =>
    have hcreates := (op.apply_new hr hget).1
    simp [hcreates]
  | some r =>
    have hid := h r (Table.mem_of_get? hr)
    rw [show r.id = r'.id from Table.key_of_get? hr] at hid
    exact List.mem_append_right _ hid

theorem creates_op {api : TipApi} {bearer : Except AppError Uuid} {now : Timestamp}
    {req : TipRequest} {op : TipOp} (h : api.op bearer now req = some op) {k : Uuid}
    (hk : op.creates = some k) : req.creates = some k := by
  cases req with
  | create id req =>
    obtain ⟨plan, -, rfl⟩ := Option.map_eq_some_iff.mp h
    rw [plan.op_creates] at hk
    exact hk
  | sent | received | claimable | publicInfo => cases h
  | cancel | attachFunding | claim | confirmSweep | clawback =>
    obtain ⟨_, -, rfl⟩ := Option.map_eq_some_iff.mp h
    cases hk

theorem stored_handle {d : TipDesk} (h : ∀ r ∈ d.db.rows, r.id ∈ d.issued) (api : TipApi)
    (bearer : Except AppError Uuid) (now : Timestamp) (req : TipRequest) :
    ∀ r ∈ (api.handle bearer now req d.db).2.rows, r.id ∈ req.creates.toList ++ d.issued := by
  intro r hr
  rw [TipApi.handle_snd] at hr
  cases hop : api.op bearer now req with
  | none =>
    rw [hop] at hr
    exact List.mem_append_right _ (h r hr)
  | some op =>
    rw [hop] at hr
    rcases List.mem_append.mp (stored_apply h op r hr) with hnew | hold
    · have hcreates := creates_op hop (Option.mem_toList.mp hnew)
      exact List.mem_append_left _ (Option.mem_toList.mpr hcreates)
    · exact List.mem_append_right _ hold

/-- The coalition creates no tip that is hidden from it. -/
theorem fresh_of_observes {api : TipApi} {bearer : Except AppError Uuid} {now : Timestamp}
    {req : TipRequest} {op : TipOp} (hobs : observes C (.request api bearer now req))
    (hop : api.op bearer now req = some op) : op.fresh.any (·.hiddenFrom C) = false := by
  cases req with
  | create id req =>
    obtain ⟨plan, hplan, rfl⟩ := Option.map_eq_some_iff.mp hop
    have hbearer : bearer = .ok plan.new.senderUserId := by
      cases hresult : api.planTip bearer req with
      | error e =>
        rw [hresult] at hplan
        cases hplan
      | ok plan' =>
        rw [hresult] at hplan
        obtain rfl := Option.some.inj hplan
        exact TipInstance.bearer_of_planTip hresult
    subst hbearer
    unfold PlannedTip.op
    split <;> exact SocialTipRow.hiddenFrom_of_sender hobs rfl
  | sent | received | claimable | publicInfo => cases hop
  | cancel | attachFunding | claim | confirmSweep | clawback =>
    obtain ⟨_, -, rfl⟩ := Option.map_eq_some_iff.mp hop
    rfl

theorem handle_snd_without {d d' : TipDesk} (h : Without C d d') {api : TipApi}
    {bearer : Except AppError Uuid} {now : Timestamp} {req : TipRequest}
    (hfresh : ∀ k, req.creates = some k → k ∉ d.issued)
    (hop : ∀ op, api.op bearer now req = some op → op.fresh.any (·.hiddenFrom C) = false) :
    (api.handle bearer now req d'.db).2 =
      (api.handle bearer now req d.db).2.deleteWhere (·.hiddenFrom C) := by
  rw [TipApi.handle_snd, TipApi.handle_snd, h.db]
  cases hreq : api.op bearer now req with
  | none => rfl
  | some op =>
    exact TipOp.apply_of_not_hidden (hop op hreq) fun k hk =>
      h.get?_eq_none (hfresh k (creates_op hreq hk))

/-- Clearing a reference where the constraints allow it makes no tip hidden or visible. -/
theorem fks_stays (now : Timestamp) :
    ∀ fk ∈ SocialTipRow.fks now, fk.Stays SocialTipRow.checks (·.hiddenFrom C) := by
  have hsender : SocialTipRow.senderFk.Stays SocialTipRow.checks (·.hiddenFrom C) := nofun
  have hclaimer : (SocialTipRow.claimedByFk now).Stays SocialTipRow.checks (·.hiddenFrom C) := by
    intro clear hclear r _
    cases hclear
    rfl
  have hrecipient : (SocialTipRow.recipientFk now).Stays SocialTipRow.checks (·.hiddenFrom C) := by
    intro clear hclear r hcheck
    cases hclear
    -- without a recipient the constraints hold of public tips only
    have hpublic : r.isPublic := by
      simp only [SocialTipRow.checks, Bool.and_eq_true, Bool.or_eq_true, Option.isSome_none,
        Bool.false_eq_true, or_false] at hcheck
      exact hcheck.1.2
    have hbefore : r.hiddenFrom C = false := SocialTipRow.hiddenFrom_of_public hpublic
    have hafter : SocialTipRow.hiddenFrom C { r with recipientUserId := none, updatedAt := now } =
        false := SocialTipRow.hiddenFrom_of_public hpublic
    exact hafter.trans hbefore.symm
  simp only [SocialTipRow.fks, List.forall_mem_cons, List.not_mem_nil, false_imp_iff,
    implies_true, and_true]
  exact ⟨hsender, hclaimer, hrecipient⟩

theorem all_unissued_iff {new : Option Uuid} {issued : List Uuid} :
    new.all (!issued.contains ·) ↔ ∀ k, new = some k → k ∉ issued := by
  simp only [Option.all_eq_true, Bool.not_eq_true', List.contains_eq_mem, decide_eq_false_iff_not]

theorem act_request {d d₁ : TipDesk} {api : TipApi} {bearer : Except AppError Uuid}
    {now : Timestamp} {req : TipRequest} {a : TipAnswer} :
    service.act d (.request api bearer now req) = some (d₁, a) ↔
      (∀ k, req.creates = some k → k ∉ d.issued) ∧
        d₁ = ⟨(api.handle bearer now req d.db).2, req.creates.toList ++ d.issued⟩ ∧
          a = some (api.handle bearer now req d.db).1 := by
  simp only [service, Option.ite_none_right_eq_some, Option.some.injEq, Prod.mk.injEq,
    all_unissued_iff]
  constructor <;> rintro ⟨hfresh, rfl, rfl⟩ <;> exact ⟨hfresh, rfl, rfl⟩

theorem act_background {d d₁ : TipDesk} {op : TipOp} {a : TipAnswer} :
    service.act d (.background op) = some (d₁, a) ↔
      (∀ k, op.creates = some k → k ∉ d.issued) ∧
        d₁ = ⟨op.apply d.db, op.creates.toList ++ d.issued⟩ ∧ a = none := by
  simp only [service, Option.ite_none_right_eq_some, Option.some.injEq, Prod.mk.injEq,
    all_unissued_iff]
  constructor <;> rintro ⟨hfresh, rfl, rfl⟩ <;> exact ⟨hfresh, rfl, rfl⟩

theorem act_deleteUser {d d₁ : TipDesk} {now : Timestamp} {u : Uuid} {a : TipAnswer} :
    service.act d (.deleteUser now u) = some (d₁, a) ↔
      ∃ t, Lib.fireAll SocialTipRow.checks u (SocialTipRow.fks now) d.db = some t ∧
        d₁ = ⟨t, d.issued⟩ ∧ a = none := by
  simp only [service, Option.map_eq_some_iff, Prod.mk.injEq]
  constructor <;> rintro ⟨t, hfire, rfl, rfl⟩ <;> exact ⟨t, hfire, rfl, rfl⟩

/-- A hidden call leaves the rest of the desk as it was. -/
theorem Without.skip {d d' d₁ : TipDesk} {call : TipCall} {a : TipAnswer} (h : Without C d d')
    (hcall : hides C d call) (hact : service.act d call = some (d₁, a)) : Without C d₁ d' := by
  cases call with
  | request api bearer now req =>
    obtain ⟨-, rfl, -⟩ := act_request.mp hact
    rw [hides, Bool.and_eq_true, Option.any_eq_true] at hcall
    obtain ⟨-, op, hop, hhides⟩ := hcall
    refine ⟨?_, fun k hk => List.mem_append_right _ (h.issued k hk), stored_handle h.stored api bearer now req⟩
    rw [TipApi.handle_snd, hop, Option.elim_some, TipOp.apply_of_hides hhides]
    exact h.db
  | background op =>
    obtain ⟨-, rfl, -⟩ := act_background.mp hact
    refine ⟨?_, fun k hk => List.mem_append_right _ (h.issued k hk), stored_apply h.stored op⟩
    rw [TipOp.apply_of_hides hcall]
    exact h.db
  | deleteUser now u => cases hcall

theorem Without.issued_append {d d' : TipDesk} (h : Without C d d') (new : Option Uuid) :
    ∀ k ∈ new.toList ++ d'.issued, k ∈ new.toList ++ d.issued := by
  intro k hk
  rcases List.mem_append.mp hk with hk | hk
  · exact List.mem_append_left _ hk
  · exact List.mem_append_right _ (h.issued k hk)

/-- The answer to a request that the coalition observes. -/
theorem Without.told {d d' : TipDesk} {api : TipApi} {bearer : Except AppError Uuid}
    {now : Timestamp} {req : TipRequest} (h : Without C d d')
    (hfresh : ∀ k, req.creates = some k → k ∉ d.issued)
    (hobs : observes C (.request api bearer now req)) :
    Told C ⟨d, .request api bearer now req, some (api.handle bearer now req d.db).1⟩
      (some (api.handle bearer now req d'.db).1) := by
  constructor
  · intro hnone
    rw [h.db, TipApi.handle_fst_without hobs fun k hk => h.get?_eq_none (hfresh k hk)]
    rintro k text user txid rfl hcaller
    simpa only [leak, hcaller] using hnone
  · intro r hr
    cases req with
    | confirmSweep k text =>
      simp only [leak] at hr
      cases hcaller : api.callerWith bearer "sweep_txid" text with
      | error e =>
        rw [hcaller] at hr
        cases hr
      | ok pair =>
        rw [hcaller] at hr
        obtain ⟨hfull, hrest⟩ := d.db.confirmTipSweep_of_shown hr now pair.1 pair.2
        rw [h.db]
        simp only [TipApi.handle, TipReply.answer, TipApi.confirmSweep, hcaller, hfull, hrest]
        exact ⟨rfl, rfl⟩
    | _ => cases hr

/-- The conditions on single calls. -/
theorem unwinds (C : Uuid → Bool) :
    service.Unwinds (hides C) (Without C) fun e a => observes C e.call → Told C e a where
  skip h hcall hact := h.skip hcall hact
  step := by
    intro d d' d₁ call a h hcall hact
    cases call with
    | request api bearer now req =>
      obtain ⟨hfresh, rfl, rfl⟩ := act_request.mp hact
      refine ⟨_, _, act_request.mpr ⟨fun k hk hold => hfresh k hk (h.issued k hold), rfl, rfl⟩,
        ⟨?_, h.issued_append _, stored_handle h.stored api bearer now req⟩, h.told hfresh⟩
      cases hobs : observes C (.request api bearer now req) with
      | false =>
        refine handle_snd_without h hfresh fun op hop => ?_
        simp only [hides, hobs, hop, Bool.not_false, Bool.true_and, Option.any_some] at hcall
        exact (Bool.or_eq_false_iff.mp hcall).2
      | true => exact handle_snd_without h hfresh fun op hop => fresh_of_observes hobs hop
    | background op =>
      obtain ⟨hfresh, rfl, rfl⟩ := act_background.mp hact
      refine ⟨_, _, act_background.mpr ⟨fun k hk hold => hfresh k hk (h.issued k hold), rfl, rfl⟩,
        ⟨?_, h.issued_append _, stored_apply h.stored op⟩, nofun⟩
      rw [h.db]
      exact TipOp.apply_of_not_hidden (Bool.or_eq_false_iff.mp hcall).2 fun k hk => h.get?_eq_none (hfresh k hk)
    | deleteUser now u =>
      obtain ⟨t, hfire, rfl, rfl⟩ := act_deleteUser.mp hact
      refine ⟨_, _, act_deleteUser.mpr ⟨t.deleteWhere (·.hiddenFrom C), ?_, rfl, rfl⟩,
        ⟨rfl, h.issued, ?_⟩, nofun⟩
      · rw [h.db]
        exact Lib.fireAll_deleteWhere (fks_stays now) hfire
      · intro r' hr'
        obtain ⟨r, hr, hkey⟩ := Lib.exists_mem_of_fireAll hfire hr'
        have hid := h.stored r hr
        rwa [show r.id = r'.id from hkey] at hid

/-! ### The subsystem -/

theorem run_background (issued : List Uuid) {ops : List TipOp}
    (hops : ∀ op ∈ ops, op.creates = none) (t : SocialTips) :
    service.run ⟨t, issued⟩ (ops.map .background) =
      some (⟨ops.foldl TipOp.apply t, issued⟩, ops.map fun _ => none) := by
  induction ops generalizing t with
  | nil => rfl
  | cons op ops ih =>
    have hop := hops op List.mem_cons_self
    have hact : service.act ⟨t, issued⟩ (.background op) = some (⟨op.apply t, issued⟩, none) :=
      act_background.mpr ⟨by simp [hop], by simp [hop], rfl⟩
    have hrest := ih (fun op' hop' => hops op' (List.mem_cons_of_mem _ hop')) (op.apply t)
    exact service.run_cons_eq_some.mpr ⟨_, _, _, hact, hrest, rfl⟩

/-- **Nothing is left out.**  Every event of the tips subsystem is a sequence of calls: a turn of a
worker is one of statements, and what the workers hold in memory does not matter here. -/
theorem run_of_step {w w' : TipWorld} {e : TipEvent} (h : w.step e = some w') :
    ∃ calls answers, service.run ⟨w.db, w.issued⟩ calls = some (⟨w'.db, w'.issued⟩, answers) := by
  cases e with
  | call op =>
    simp only [TipWorld.step] at h
    split_ifs at h with hop
    cases h
    simp only [Bool.and_eq_true, Option.all_eq_true, decide_eq_true_eq] at hop
    have hact : service.act ⟨w.db, w.issued⟩ (.background op) = some (_, none) :=
      act_background.mpr ⟨hop.2, rfl, rfl⟩
    exact ⟨[.background op], [none], service.run_cons_eq_some.mpr ⟨_, _, _, hact, rfl, rfl⟩⟩
  | poll pass now =>
    cases h
    exact ⟨[], [], rfl⟩
  | turn pass faults chains now tip =>
    simp only [TipWorld.step] at h
    split_ifs at h
    cases h
    obtain ⟨ops, hops, hturn⟩ := pass.updated_turn faults chains now tip w.db
    simp only [hturn]
    exact ⟨_, _, run_background w.issued (fun op hop => (hops op hop).2) w.db⟩
  | drop pass tip =>
    cases h
    exact ⟨[], [], rfl⟩
  | deleteUser now u =>
    obtain ⟨t, hfire, rfl⟩ := Option.map_eq_some_iff.mp h
    have hact : service.act ⟨w.db, w.issued⟩ (.deleteUser now u) = some (_, none) :=
      act_deleteUser.mpr ⟨t, hfire, rfl, rfl⟩
    exact ⟨[.deleteUser now u], [none], service.run_cons_eq_some.mpr ⟨_, _, _, hact, rfl, rfl⟩⟩

end TipDesk

/-- **Tips between others go unnoticed.**  Whatever happens from an empty table on, the coalition is
told what it would be told if all that happened to the targeted tips of others had not happened,
except for the recorded sweep and the status of a tip that is claimed or being claimed, when it
names that tip as one it swept. -/
theorem hidden_tips_unnoticed (C : Uuid → Bool) {calls : List TipCall} {d : TipDesk}
    {answers : List TipAnswer} (hrun : TipDesk.service.run .empty calls = some (d, answers)) :
    ∃ d' answers',
      TipDesk.service.run .empty (TipDesk.service.purge (TipDesk.hides C) .empty calls) =
          some (d', answers') ∧
        d'.db = d.db.deleteWhere (·.hiddenFrom C) ∧
        List.Forall₂ (fun e a => TipDesk.observes C e.call → TipDesk.Told C e a)
          (TipDesk.service.kept (TipDesk.hides C) .empty calls) answers' := by
  have hstart : TipDesk.Without C .empty .empty :=
    ⟨rfl, fun _ hk => hk, by simp [TipDesk.empty]⟩
  obtain ⟨d', answers', hrun', hwithout, htold⟩ := (TipDesk.unwinds C).run hstart hrun
  exact ⟨d', answers', hrun', hwithout.db, htold⟩

/-- An instance where users may tip each other in bitcoin. -/
def TipApi.bitcoin : TipApi where
  tips := true
  targetedTips := true
  chains := { btc := true, ltc := false, xmr := false, wow := false, grin := false }
  tipShareBase := none
  lowercase := id
  getUserByUsername _ := .ok (some 8)
  rfc3339 _ := ""

/-- A funded tip for the user 8. -/
def CreateSocialTipRequest.forEight : CreateSocialTipRequest where
  platform := none
  username := some "eight"
  asset := "btc"
  amount := 5
  encryptedKey := some "01"
  isPublic := false
  claimKeyHash := none
  tipAddress := none
  fundingTxid := some "f0"
  tipViewKey := none
  grinCommitment := none

/-- The user 7 tips the user 8, who claims; the user 9 names a sweep. -/
def TipCall.overheard : List TipCall :=
  [.request .bitcoin (.ok 7) 0 (.create 1 .forEight),
    .background (.updateConfirmations 1 1 6), .background (.verified 2 1 5),
    .request .bitcoin (.ok 8) 3 (.claim 1), .request .bitcoin (.ok 9) 4 (.confirmSweep 1 "5e")]

/-- The user 9 learns that the tip is being claimed, and without the tip would learn nothing. -/
theorem overheard_sweep : ∃ d answers d' answers',
    TipDesk.service.run .empty TipCall.overheard = some (d, answers) ∧
    TipDesk.service.run .empty
        (TipDesk.service.purge (TipDesk.hides (· = 9)) .empty TipCall.overheard) =
      some (d', answers') ∧
    answers.getLast? = some (some (.ok (.sweep ⟨none, .claiming⟩))) ∧
    answers' = [some (.error (.validationError "tip not claiming"))] := by
  have hanswer : (TipDesk.service.run .empty TipCall.overheard).map (·.2.getLast?) =
      some (some (some (.ok (.sweep ⟨none, .claiming⟩)))) := by decide +kernel
  obtain ⟨⟨d, answers⟩, hrun, hlast⟩ := Option.map_eq_some_iff.mp hanswer
  obtain ⟨d', answers', hrun', -, htold⟩ := hidden_tips_unnoticed (· = 9) hrun
  refine ⟨d, answers, d', answers', hrun, hrun', hlast, ?_⟩
  have hkept : ∃ before answer, TipDesk.service.kept (TipDesk.hides (· = 9)) .empty TipCall.overheard =
      [⟨before, .request .bitcoin (.ok 9) 4 (.confirmSweep 1 "5e"), answer⟩] ∧
        (TipDesk.leak (· = 9) before
          (.request .bitcoin (.ok 9) 4 (.confirmSweep 1 "5e"))).isSome := by
    refine ⟨_, _, rfl, ?_⟩
    decide +kernel
  obtain ⟨before, answer, hkept, hleak⟩ := hkept
  rw [hkept] at htold
  obtain ⟨r, hr⟩ := Option.isSome_iff_exists.mp hleak
  cases htold with
  | cons hhead htail =>
    cases htail
    have hasked := (hhead rfl).leaked r hr
    rw [hasked.2]

end SmirkBackend
