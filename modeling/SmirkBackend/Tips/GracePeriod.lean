import Mathlib.Data.List.Induction
import SmirkBackend.Tips.Edits

/-!
# The grace period of unconfirmed tips

The garbage collector cancels the tips that are stuck in `pending_confirmation`.  It measures their
age from the insertion of the row, and a tip that was inserted as a draft enters that status only
when its funding is attached.

`entered_of_run` says how a tip came into `pending_confirmation`, and `gracePeriod_iff` in which
runs what is cancelled as stuck was there for seven days.  In `no_grace` a tip is cancelled right
after its funding.
-/

namespace SmirkBackend

open Lib (Table)

/-- The instant of an operation. -/
def TipOp.now : TipOp → Timestamp
  | createDraft now .. | create now .. | cancelDraft now .. | attachFunding now ..
  | updateConfirmations now .. | touch now .. | verified now .. | mismatch now .. | claim now ..
  | confirmSweep now .. | clawback now .. | confirmOnchain now .. | clearClaimedBy now ..
  | revert now .. | stampDmSent now .. | stampReorg now .. | cancelOldDrafts now
  | cancelStuck now => now

namespace SocialTips

/-- The table after a run. -/
def after (ops : List TipOp) : SocialTips := ops.foldl TipOp.apply Table.empty

/-- The status of a tip after a run. -/
def statusAfter (ops : List TipOp) (k : Uuid) : Option TipStatus :=
  ((after ops).get? k).map SocialTipRow.status

theorem after_append (ops : List TipOp) (op : TipOp) :
    after (ops ++ [op]) = op.apply (after ops) := by
  simp [after]

end SocialTips

open SocialTips

/-- At the end of the run, the tip has been in the status since an operation at `c` or earlier. -/
def HeldSince (past : List TipOp) (k : Uuid) (s : TipStatus) (c : Timestamp) : Prop :=
  ∃ before op later, past = before ++ op :: later ∧ op.now ≤ c ∧
    ∀ mid, mid <+: later → statusAfter (before ++ op :: mid) k = some s

/-- **The grace period.** A tip that is cancelled as stuck has been in `pending_confirmation` for
at least seven days. -/
def GracePeriod (ops : List TipOp) : Prop :=
  ∀ past now future, ops = past ++ .cancelStuck now :: future → ∀ k,
    statusAfter past k = some .pendingConfirmation →
    statusAfter (past ++ [.cancelStuck now]) k = some .cancelled →
      HeldSince past k .pendingConfirmation (now - days 7)

/-- After `before`, the operation attached the funding of the draft `k`. -/
def Attached (before : List TipOp) (op : TipOp) (k : Uuid) : Prop :=
  (∃ now sender txid, op = .attachFunding now k sender txid) ∧
    statusAfter before k = some .draft ∧
    statusAfter (before ++ [op]) k = some .pendingConfirmation

/-- No pass of the collector meets an unconfirmed tip that was inserted more than seven days before
it, and whose funding was attached less than seven days before it. -/
def NoFreshFunding (ops : List TipOp) : Prop :=
  ∀ past now future, ops = past ++ .cancelStuck now :: future → ∀ k r,
    (after past).get? k = some r → r.status = .pendingConfirmation → r.createdAt < now - days 7 →
    ∀ before op later, past = before ++ op :: later → Attached before op k →
      op.now ≤ now - days 7

/-! ### Entering the status -/

namespace TipOp.Edits

theorem createdAt {op : TipOp} {r r' : SocialTipRow} (h : Edits op r r') :
    r'.createdAt = r.createdAt := by
  cases h <;> rfl

/-- The status is entered from a draft, by an operation that attaches the funding. -/
theorem pendingConfirmation {op : TipOp} {r r' : SocialTipRow} (h : Edits op r r')
    (hstatus : r'.status = .pendingConfirmation) :
    r.status = .pendingConfirmation ∨ r.status = .draft ∧
      ∃ now sender txid, op = .attachFunding now r.id sender txid := by
  cases h with
  | attach now txid _ hdraft => exact .inr ⟨hdraft, now, _, txid, rfl⟩
  | skip => exact .inl hstatus
  | reattach => exact .inl hstatus
  | updateConfirmations => exact .inl hstatus
  | touch => exact .inl hstatus
  | report => exact .inl hstatus
  | stampDmSent => exact .inl hstatus
  | stampReorg => exact .inl hstatus
  | cancelDraft | verified | mismatch | claim | clawback | confirmOnchain | clearClaimedBy | revert
    | expire => cases hstatus

end TipOp.Edits

/-- A new row was inserted at the instant of the operation. -/
theorem TipOp.createdAt_of_new {t : SocialTips} {k : Uuid} {r : SocialTipRow} (op : TipOp)
    (hr : t.get? k = none) (hr' : (op.apply t).get? k = some r) : r.createdAt = op.now := by
  have hinsert : ∀ now id new status,
      ((insertSocialTip now t id new status).getD t).get? k = some r → r.createdAt = now := by
    intro now id new status h
    cases hins : insertSocialTip now t id new status with
    | none => simp [hins, hr] at h
    | some t' =>
      rw [hins, Option.getD_some] at h
      simp only [insertSocialTip] at hins
      split_ifs at hins
      rw [Table.get?_insert? hins] at h
      split_ifs at h
      · rw [← Option.some.inj h]
        rfl
      · simp [hr] at h
  have hcreates := (op.apply_new hr hr').1
  cases op with
  | createDraft now id new => exact hinsert now id new _ hr'
  | create now id new => exact hinsert now id new _ hr'
  | _ => simp [TipOp.creates] at hcreates

/-- The operation brought the tip into `pending_confirmation`: it inserted the row, or attached the
funding of a draft. -/
def Entered (before : List TipOp) (op : TipOp) (k : Uuid) (createdAt : Timestamp) : Prop :=
  op.now = createdAt ∨ Attached before op k

/-- **How a tip came into the status.** A tip in `pending_confirmation` was brought into it by one
operation, and has been in it since. -/
theorem entered_of_run {past : List TipOp} {k : Uuid} {r : SocialTipRow}
    (hr : (after past).get? k = some r) (hstatus : r.status = .pendingConfirmation) :
    ∃ before op later, past = before ++ op :: later ∧ Entered before op k r.createdAt ∧
      ∀ mid, mid <+: later → statusAfter (before ++ op :: mid) k = some .pendingConfirmation := by
  induction past using List.reverseRecOn generalizing r with
  | nil => simp [after] at hr
  | append_singleton past op ih =>
    have hnow : statusAfter (past ++ [op]) k = some .pendingConfirmation := by
      rw [statusAfter, hr, Option.map_some, hstatus]
    -- the last operation may be the one
    have hlast (hentered : Entered past op k r.createdAt) :
        ∃ before op' later, past ++ [op] = before ++ op' :: later ∧
          Entered before op' k r.createdAt ∧ ∀ mid, mid <+: later →
            statusAfter (before ++ op' :: mid) k = some .pendingConfirmation := by
      refine ⟨past, op, [], rfl, hentered, fun mid hmid => ?_⟩
      rw [List.prefix_nil.mp hmid]
      exact hnow
    have happly := hr
    rw [after_append] at happly
    cases hold : (after past).get? k with
    | none => exact hlast (.inl (op.createdAt_of_new hold happly).symm)
    | some r₀ =>
      obtain ⟨r', hr', hedit⟩ := op.apply_edits hold
      obtain rfl := Option.some.inj (happly.symm.trans hr')
      rcases hedit.pendingConfirmation hstatus with hbefore | ⟨hdraft, s, sender, txid, rfl⟩
      · -- it was there already
        obtain ⟨before, op', later, rfl, hentered, hheld⟩ := ih hold hbefore
        refine ⟨before, op', later ++ [op], by simp, hedit.createdAt ▸ hentered, fun mid hmid => ?_⟩
        rcases List.prefix_concat_iff.mp hmid with rfl | hmid
        · simpa using hnow
        · exact hheld mid hmid
      · refine hlast (.inr ⟨⟨s, sender, txid, ?_⟩, ?_, hnow⟩)
        · have hid : r₀.id = k := Table.key_of_get? hold
          rw [hid]
        · rw [statusAfter, hold, Option.map_some, hdraft]

/-! ### The grace period -/

/-- A pass of the collector cancels the unconfirmed tips that were inserted more than seven days
before it, and no other tip that is unconfirmed. -/
theorem cancelStuck_iff {past : List TipOp} {now : Timestamp} {k : Uuid} {r : SocialTipRow}
    (hr : (after past).get? k = some r) (hstatus : r.status = .pendingConfirmation) :
    statusAfter (past ++ [.cancelStuck now]) k = some .cancelled ↔ r.createdAt < now - days 7 := by
  have happly : TipOp.apply (after past) (.cancelStuck now) =
    cancelStale .pendingConfirmation now (after past) := rfl
  rw [statusAfter, after_append, happly, cancelStale, Table.get?_updateWhere, hr]
  by_cases hold : r.createdAt < now - days 7
  · simp [hstatus, hold, Lib.Patch.andThen, touchUpdatedAt]
  · simp [hstatus, hold]

/-- Along a run the clock does not go back. -/
def Clocked (ops : List TipOp) : Prop := (ops.map TipOp.now).Pairwise (· ≤ ·)

instance (ops : List TipOp) : Decidable (Clocked ops) :=
  inferInstanceAs (Decidable ((ops.map TipOp.now).Pairwise (· ≤ ·)))

theorem Clocked.le {before later : List TipOp} {op op' : TipOp}
    (h : Clocked (before ++ op :: later)) (hop' : op' ∈ later) : op.now ≤ op'.now := by
  unfold Clocked at h
  rw [List.map_append, List.map_cons, List.pairwise_append] at h
  exact List.rel_of_pairwise_cons h.2.1 (List.mem_map_of_mem hop')

/-- **The grace period, exactly.** In a run under a clock that does not go back, whatever the
collector cancels as stuck has been in `pending_confirmation` for seven days if and only if no pass
meets a tip that was inserted more than seven days before it and funded less than seven days before
it. -/
theorem gracePeriod_iff {ops : List TipOp} (hclock : Clocked ops) :
    GracePeriod ops ↔ NoFreshFunding ops := by
  constructor
  · intro hgrace past now future hops k r hr hstatus hcreated before op later hpast hattached
    have hnow : statusAfter past k = some .pendingConfirmation := by
      rw [statusAfter, hr, Option.map_some, hstatus]
    obtain ⟨before', op', later', hpast', hle, hheld⟩ :=
      hgrace past now future hops k hnow ((cancelStuck_iff hr hstatus).mpr hcreated)
    -- before its funding the tip was a draft
    have horder : op' = op ∨ op' ∈ later := by
      rcases List.append_eq_append_iff.mp (hpast'.symm.trans hpast) with
        ⟨l, hbefore, hrest⟩ | ⟨l, hbefore, hrest⟩
      · cases l with
        | nil => exact .inl (List.cons.inj hrest).1
        | cons x l =>
          obtain ⟨rfl, rfl⟩ := List.cons.inj hrest
          have hdraft := hattached.2.1
          rw [hbefore, hheld l (List.prefix_append _ _)] at hdraft
          cases hdraft
      · cases l with
        | nil => exact .inl (List.cons.inj hrest).1.symm
        | cons x l =>
          obtain ⟨-, hlater⟩ := List.cons.inj hrest
          exact .inr (hlater ▸ by simp)
    rcases horder with rfl | hlater
    · exact hle
    · have hclocked : Clocked (before ++ op :: (later ++ .cancelStuck now :: future)) := by
        have heq : ops = before ++ op :: (later ++ .cancelStuck now :: future) := by
          rw [hops, hpast]
          simp
        exact heq ▸ hclock
      exact (hclocked.le (List.mem_append_left _ hlater)).trans hle
  · intro hfresh past now future hops k hbefore hafter
    obtain ⟨r, hr, hstatus⟩ := Option.map_eq_some_iff.mp hbefore
    have hcreated := (cancelStuck_iff hr hstatus).mp hafter
    obtain ⟨before, op, later, hpast, hentered, hheld⟩ := entered_of_run hr hstatus
    refine ⟨before, op, later, hpast, ?_, hheld⟩
    rcases hentered with heq | hattached
    · exact heq ▸ hcreated.le
    · exact hfresh past now future hops k r hr hstatus hcreated before op later hpast hattached

/-- A draft. -/
def lateDraft : NewSocialTip := { NewSocialTip.sample with fundingTxid := none }

/-- A draft is funded after `wait`, and the collector passes at `now`. -/
def fundedAfter (wait now : Timestamp) : List TipOp :=
  [.createDraft 0 1 lateDraft, .attachFunding wait 1 7 "f0", .cancelStuck now]

theorem fundedAfter_split {wait now now' : Timestamp} {past future : List TipOp}
    (h : fundedAfter wait now = past ++ .cancelStuck now' :: future) :
    past = [.createDraft 0 1 lateDraft, .attachFunding wait 1 7 "f0"] ∧ now' = now := by
  rcases past with _ | ⟨op₁, _ | ⟨op₂, _ | ⟨op₃, past⟩⟩⟩ <;> simp_all [fundedAfter]

/-- A tip that is funded at once, and cancelled a day after it could be. -/
theorem gracePeriod_prompt : GracePeriod (fundedAfter 1 (days 8)) := by
  refine (gracePeriod_iff (by decide)).mpr ?_
  intro past now future hops k r _ _ _ before op later hpast hattached
  obtain ⟨rfl, rfl⟩ := fundedAfter_split hops
  obtain ⟨⟨s, sender, txid, rfl⟩, -⟩ := hattached
  rcases before with _ | ⟨op₁, _ | ⟨op₂, before⟩⟩
  · simp at hpast
  · obtain ⟨rfl, -⟩ : 1 = s ∧ _ := by simpa using (List.cons.inj (List.cons.inj hpast).2).1
    change (1 : Timestamp) ≤ days 8 - days 7
    decide
  · simp at hpast

/-- **No grace at all.** A draft that is funded seven days after its insertion is cancelled as stuck
by a pass two microseconds later. -/
theorem no_grace : Clocked (fundedAfter (days 7) (days 7 + 2)) ∧
    statusAfter [.createDraft 0 1 lateDraft] 1 = some .draft ∧
    statusAfter [.createDraft 0 1 lateDraft, .attachFunding (days 7) 1 7 "f0"] 1 =
      some .pendingConfirmation ∧
    statusAfter (fundedAfter (days 7) (days 7 + 2)) 1 = some .cancelled ∧
    ¬ GracePeriod (fundedAfter (days 7) (days 7 + 2)) := by
  have hdraft : statusAfter [.createDraft 0 1 lateDraft] 1 = some .draft := by decide
  have hfunded : statusAfter [.createDraft 0 1 lateDraft, .attachFunding (days 7) 1 7 "f0"] 1 =
      some .pendingConfirmation := by decide
  have hcancelled : statusAfter (fundedAfter (days 7) (days 7 + 2)) 1 = some .cancelled := by
    decide
  refine ⟨by decide, hdraft, hfunded, hcancelled, fun hgrace => ?_⟩
  obtain ⟨before, op, later, hpast, hle, hheld⟩ := hgrace _ _ [] rfl 1 hfunded hcancelled
  rcases before with _ | ⟨op₁, _ | ⟨op₂, before⟩⟩
  · -- the draft was not in the status
    obtain ⟨rfl, -⟩ := List.cons.inj hpast
    have hstatus := hheld [] (List.nil_prefix)
    cases hdraft.symm.trans hstatus
  · obtain ⟨rfl, -⟩ := List.cons.inj (List.cons.inj hpast).2
    exact absurd hle (by decide)
  · simp at hpast

end SmirkBackend
