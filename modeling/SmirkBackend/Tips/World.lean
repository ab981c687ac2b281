import SmirkBackend.Erasure.Execute
import SmirkBackend.Tips.Attribution
import SmirkBackend.Tips.FundingFailure

/-!
# The tips subsystem as a system

The API and the garbage collector issue single statements.  The workers poll a batch of rows and
then take each polled row in turn, against their own nodes and against the table as it then
stands: between the poll and the turn anything may happen to the row, and any number of workers
may hold a copy of it.  An erasure deletes the tips a user sent.

`TipWorld.step_row` says what one event can do to one row.  Every copy a worker holds agrees with
the stored row on the columns that are fixed at creation (`TipWorld.inv_run`).
-/

namespace SmirkBackend

open Lib (Table Patch)

/-! ### Passes -/

/-- The passes of the funding worker and of the reconciler. -/
inductive TipPass
  | countXmr
  | countWow
  | countGrin
  | verify
  | confirm
  | reorg
  deriving DecidableEq

namespace TipPass

/-- The rows a pass polls. -/
def poll (pass : TipPass) (now : Timestamp) (t : SocialTips) : List SocialTipRow :=
  match pass with
  | countXmr => t.getTipsPendingConfirmation now "xmr"
  | countWow => t.getTipsPendingConfirmation now "wow"
  | countGrin => t.getTipsPendingConfirmation now "grin"
  | verify => t.getTipsAwaitingAmountVerification now
  | confirm => t.getTipsAwaitingSweepConfirmation now batchSize
  | reorg => t.getSettledTipsForReorgCheck now batchSize

/-- The table after a pass has taken one row in turn; `tip` is the row as it was polled. -/
def turn (pass : TipPass) (faults : SweepFaults) (chains : ChainClients) (now : Timestamp)
    (tip : SocialTipRow) (db : SocialTips) : SocialTips :=
  match pass with
  | countXmr | countWow => FundingPass.countAsset.run chains now tip db
  | countGrin => FundingPass.countGrin.run chains now tip db
  | verify => FundingPass.verify.run chains now tip db
  | confirm => (processAwaitingTip faults now chains tip db).2
  | reorg => (processSettledTip faults now chains tip db).2

/-- The statements a pass issues. -/
def Issues : TipPass → TipOp → Prop
  | countXmr, .updateConfirmations .. | countWow, .updateConfirmations ..
  | countGrin, .updateConfirmations .. => True
  | verify, .verified .. | verify, .mismatch .. | verify, .touch .. => True
  | confirm, .touch .. | confirm, .confirmOnchain .. | confirm, .clearClaimedBy ..
  | confirm, .stampDmSent .. => True
  | reorg, .touch .. | reorg, .revert .. | reorg, .stampReorg .. => True
  | _, _ => False

end TipPass

/-- The operations that the API and the garbage collector ask for. -/
def TipOp.asked : TipOp → Bool
  | createDraft .. | create .. | cancelDraft .. | attachFunding .. | claim .. | confirmSweep ..
  | clawback .. | cancelOldDrafts .. | cancelStuck .. => true
  | _ => false

/-! ### The world -/

/-- The table with the copies of rows that the workers hold. -/
structure TipWorld where
  /-- The stored rows. -/
  db : SocialTips
  /-- Rows that were polled and still await their turn; several workers may hold the same one. -/
  polled : List (TipPass × SocialTipRow)
  /-- The ids that were ever given to a tip; `gen_random_uuid` repeats none. -/
  issued : List Uuid

/-- What can happen. -/
inductive TipEvent
  /-- A call of the API or of the garbage collector. -/
  | call (op : TipOp)
  /-- A worker polls a batch. -/
  | poll (pass : TipPass) (now : Timestamp)
  /-- A worker takes a polled row in turn, with the answers its nodes give. -/
  | turn (pass : TipPass) (faults : SweepFaults) (chains : ChainClients) (now : Timestamp)
      (tip : SocialTipRow)
  /-- A worker stops before the turn of a polled row. -/
  | drop (pass : TipPass) (tip : SocialTipRow)
  /-- A user is deleted, with what the foreign keys of `social_tips` entail. -/
  | deleteUser (now : Timestamp) (u : Uuid)

namespace TipWorld

/-- No tip was ever created. -/
def empty : TipWorld := ⟨.empty, [], []⟩

/-- The world after an event; `none` when the event cannot happen. -/
def step (w : TipWorld) : TipEvent → Option TipWorld
  | .call op =>
    if op.asked && op.creates.all (· ∉ w.issued) then
      some { w with db := op.apply w.db, issued := op.creates.toList ++ w.issued }
    else none
  | .poll pass now =>
    some { w with polled := w.polled ++ (pass.poll now w.db).map fun r => (pass, r) }
  | .turn pass faults chains now tip =>
    if (pass, tip) ∈ w.polled then
      some { w with
        db := pass.turn faults chains now tip w.db
        polled := w.polled.erase (pass, tip) }
    else none
  | .drop pass tip => some { w with polled := w.polled.erase (pass, tip) }
  | .deleteUser now u =>
    (Lib.fireAll SocialTipRow.checks u (SocialTipRow.fks now) w.db).map fun t => { w with db := t }

/-- Any interleaving of events. -/
def system : Lib.System TipWorld TipEvent := .ofOption step

end TipWorld

/-! ### Statements of a turn -/

namespace SocialTips

/-- `t'` is `t` after some allowed updates. -/
def Updated (ok : TipOp → Prop) (t t' : SocialTips) : Prop :=
  ∃ ops : List TipOp, (∀ op ∈ ops, ok op ∧ op.creates = none) ∧ t' = ops.foldl TipOp.apply t

namespace Updated

variable {ok : TipOp → Prop}

theorem refl (t : SocialTips) : Updated ok t t := ⟨[], by simp, rfl⟩

theorem single (op : TipOp) (hok : ok op) (hnew : op.creates = none) (t : SocialTips) :
    Updated ok t (op.apply t) := ⟨[op], by simp [hok, hnew], rfl⟩

theorem trans {t₁ t₂ t₃ : SocialTips} (h : Updated ok t₁ t₂) (h' : Updated ok t₂ t₃) :
    Updated ok t₁ t₃ := by
  obtain ⟨ops, hops, rfl⟩ := h
  obtain ⟨ops', hops', rfl⟩ := h'
  refine ⟨ops ++ ops', ?_, by rw [List.foldl_append]⟩
  intro op hop
  rcases List.mem_append.mp hop with hop | hop
  · exact hops op hop
  · exact hops' op hop

/-- One row was edited by the allowed operations, several times perhaps. -/
abbrev Row (ok : TipOp → Prop) : SocialTipRow → SocialTipRow → Prop :=
  Relation.ReflTransGen fun r r' => ∃ op, ok op ∧ TipOp.Edits op r r'

/-- Updates edit the rows that are there and add none. -/
theorem row {t t' : SocialTips} (h : Updated ok t t') {k : Uuid} {r' : SocialTipRow}
    (hr' : t'.get? k = some r') : ∃ r, t.get? k = some r ∧ Row ok r r' := by
  obtain ⟨ops, hops, rfl⟩ := h
  induction ops generalizing t with
  | nil => exact ⟨r', hr', .refl⟩
  | cons op ops ih =>
    obtain ⟨⟨hok, hnew⟩, hrest⟩ := List.forall_mem_cons.mp hops
    obtain ⟨r₁, hr₁, hrow⟩ := ih hrest hr'
    cases hr : t.get? k with
    | none =>
      have hcreates := (op.apply_new hr hr₁).1
      simp [hnew] at hcreates
    | some r =>
      obtain ⟨r₂, hr₂, hedit⟩ := op.apply_edits hr
      obtain rfl := Option.some.inj (hr₁.symm.trans hr₂)
      exact ⟨r, rfl, .head ⟨op, hok, hedit⟩ hrow⟩

theorem inv {t t' : SocialTips} (h : Updated ok t t') (hi : t.Inv) : t'.Inv := by
  obtain ⟨ops, -, rfl⟩ := h
  induction ops generalizing t with
  | nil => exact hi
  | cons op ops ih => exact ih ((op.apply_rowwise t).inv hi)

end Updated

end SocialTips

open SocialTips (Updated)

section Turns

variable (faults : SweepFaults) (now : Timestamp)

theorem updated_run (op : TipOp) {ok : TipOp → Prop} (hok : ok op) (hnew : op.creates = none)
    {s : SweepStmt} {db : SocialTips} {result : Option SocialTipRow × SocialTips}
    (hresult : result.2 = op.apply db) : Updated ok db (faults.run s db result).2 := by
  unfold SweepFaults.run
  split
  · exact .refl db
  · rw [hresult]
    exact .single op hok hnew db

theorem updated_settleWinner (tip : SocialTipRow) (winner : ConfirmedSpend) (db : SocialTips) :
    Updated TipPass.confirm.Issues db (settleWinner faults now tip winner db).2 := by
  unfold settleWinner
  split
  · exact updated_run faults (.confirmOnchain now tip.id winner.txid winner.blockHeight.toInt32
      winner.blockHash none) trivial rfl rfl
  · exact updated_run faults (.clearClaimedBy now tip.id winner.txid winner.blockHeight.toInt32
      winner.blockHash) trivial rfl rfl

theorem updated_processAwaitingTip (chains : ChainClients) (tip : SocialTipRow) (db : SocialTips) :
    Updated TipPass.confirm.Issues db (processAwaitingTip faults now chains tip db).2 := by
  rcases processAwaitingTip_cases faults now chains tip db with
    h | ⟨-, -, winner, -, -, -, h | ⟨settled, -, h⟩⟩
  · rw [h]
    exact updated_run faults (.touch now tip.id) trivial rfl rfl
  · rw [h]
    exact updated_settleWinner faults now tip winner db
  · rw [h]
    refine (updated_settleWinner faults now tip winner db).trans ?_
    unfold sendSweepConfirmedDmIfNeeded
    split
    · exact .refl _
    · exact updated_run faults (.stampDmSent now settled.id) trivial rfl rfl

theorem updated_revertTip (tip : SocialTipRow) (db : SocialTips) :
    Updated TipPass.reorg.Issues db (revertTip faults now tip db).2 := by
  have hrevert : Updated TipPass.reorg.Issues db
      (faults.run .revertSweepOnReorg db (db.revertSweepOnReorg now tip.id)).2 :=
    updated_run faults (.revert now tip.id) trivial rfl rfl
  unfold revertTip
  split <;> rename_i heq <;> rw [heq] at hrevert
  · exact hrevert
  · exact hrevert
  · refine hrevert.trans ?_
    unfold sendReorgDmIfNeeded
    split
    · exact .refl _
    · exact updated_run faults (.stampReorg now _) trivial rfl rfl

theorem updated_processSettledTip (chains : ChainClients) (tip : SocialTipRow) (db : SocialTips) :
    Updated TipPass.reorg.Issues db (processSettledTip faults now chains tip db).2 := by
  have htouch : Updated TipPass.reorg.Issues db (touchAfter faults now tip db) :=
    updated_run faults (.touch now tip.id) trivial rfl rfl
  unfold processSettledTip
  split
  · exact htouch
  · split
    · exact htouch
    · split
      · exact htouch
      · exact updated_revertTip faults now tip db

end Turns

namespace TipPass

/-- The confirmations a count turn learns, as the column holds them; `none` when it learns nothing,
and of the other passes. -/
def count (pass : TipPass) (chains : ChainClients) (tip : SocialTipRow) : Option Int32 :=
  match pass with
  | countXmr | countWow => do
    let lws ← chains.lws tip.asset
    let fundingTxid ← tip.fundingTxid.filter fun s => !s.isEmpty
    let confs ← (lws.getTransactionConfirmations fundingTxid).toOption
    pure (confsI32 (confs.getD 0))
  | countGrin => do
    let grin ← chains.grin
    let tipHeight ← grin.getHeight.toOption
    let commit ← grinCommitment tip
    let outputs ← (grin.getOutputs [commit]).toOption
    pure (confsI32 (((outputs.find? fun o => o.commit = commit).map
      (·.confirmations tipHeight)).getD 0))
  | _ => none

/-- The passes that count confirmations. -/
def counts : TipPass → Bool
  | countXmr | countWow | countGrin => true
  | _ => false

/-- A count turn writes what it learns. -/
theorem turn_of_counts {pass : TipPass} (hpass : pass.counts) (faults : SweepFaults)
    (chains : ChainClients) (now : Timestamp) (tip : SocialTipRow) (db : SocialTips) :
    pass.turn faults chains now tip db =
      ((pass.count chains tip).map fun n => (db.updateTipConfirmations now tip.id n).2).getD db := by
  have hasset : FundingPass.countAsset.run chains now tip db =
      ((countXmr.count chains tip).map fun n =>
        (db.updateTipConfirmations now tip.id n).2).getD db := by
    simp only [FundingPass.run, count]
    cases chains.lws tip.asset with
    | none => rfl
    | some lws =>
      simp only [checkTipConfirmations, Option.bind_eq_bind, Option.bind_some]
      cases tip.fundingTxid.filter fun s => !s.isEmpty with
      | none => rfl
      | some txid =>
        simp only [Option.bind_some]
        rcases lws.getTransactionConfirmations txid with e | (_ | confs) <;> rfl
  have hgrin : FundingPass.countGrin.run chains now tip db =
      ((countGrin.count chains tip).map fun n =>
        (db.updateTipConfirmations now tip.id n).2).getD db := by
    simp only [FundingPass.run, count]
    cases chains.grin with
    | none => rfl
    | some grin =>
      simp only [Option.bind_eq_bind, Option.bind_some]
      cases grin.getHeight with
      | error e => rfl
      | ok tipHeight =>
        simp only [checkGrinTipConfirmations]
        cases grinCommitment tip with
        | none => rfl
        | some commit =>
          simp only [Except.toOption, Option.bind_some]
          cases grin.getOutputs [commit] <;> rfl
  cases pass with
  | countXmr => exact hasset
  | countWow => exact hasset
  | countGrin => exact hgrin
  | verify | confirm | reorg => cases hpass

theorem updated_turn (pass : TipPass) (faults : SweepFaults) (chains : ChainClients)
    (now : Timestamp) (tip : SocialTipRow) (db : SocialTips) :
    Updated pass.Issues db (pass.turn faults chains now tip db) := by
  have hcount : pass.counts → Updated pass.Issues db (pass.turn faults chains now tip db) := by
    intro hpass
    rw [turn_of_counts hpass]
    cases pass.count chains tip with
    | none => exact .refl db
    | some n =>
      have hissues : pass.Issues (.updateConfirmations now tip.id n) := by
        cases pass with
        | countXmr | countWow | countGrin => trivial
        | verify | confirm | reorg => cases hpass
      exact .single _ hissues rfl db
  cases pass with
  | countXmr | countWow | countGrin => exact hcount rfl
  | verify =>
    simp only [turn, FundingPass.run, processPendingVerification]
    split
    · exact .single (.verified now tip.id _) trivial rfl db
    · exact .single (.mismatch now tip.id _) trivial rfl db
    · exact .single (.touch now tip.id) trivial rfl db
    · exact .single (.touch now tip.id) trivial rfl db
    · exact .single (.touch now tip.id) trivial rfl db
    · exact .refl db
  | confirm => exact updated_processAwaitingTip faults now chains tip db
  | reorg => exact updated_processSettledTip faults now chains tip db

theorem get?_of_mem_poll {pass : TipPass} {now : Timestamp} {t : SocialTips} {r : SocialTipRow}
    (h : r ∈ pass.poll now t) : t.get? r.id = some r := by
  have hrow : r ∈ t.rows := by
    cases pass <;> exact (Table.mem_select.mp (List.mem_of_mem_take h)).1
  exact Table.get?_of_mem hrow

end TipPass

/-! ### Deletion -/

/-- The deletion of a user leaves of the other users' tips all but the name of their claimer. -/
theorem row_of_deleteUser {t t' : SocialTips} {now : Timestamp} {u k : Uuid} {r' : SocialTipRow}
    (hinv : t.Inv)
    (h : Lib.fireAll SocialTipRow.checks u (SocialTipRow.fks now) t = some t')
    (hr' : t'.get? k = some r') :
    ∃ r, t.get? k = some r ∧ (r' = r ∨ r' = { r with claimedByUserId := none, updatedAt := now }) := by
  obtain ⟨t₁, h₁, hrest⟩ := Lib.fireAll_cons_eq_some_iff.mp h
  obtain ⟨t₂, h₂, hrest⟩ := Lib.fireAll_cons_eq_some_iff.mp hrest
  obtain ⟨t₃, h₃, hnil⟩ := Lib.fireAll_cons_eq_some_iff.mp hrest
  obtain rfl := Option.some.inj hnil
  -- the three actions, backwards
  obtain ⟨r₂, hr₂, hcase₃⟩ := Lib.ForeignKey.mem_fire h₃ (Table.mem_of_get? hr')
  obtain ⟨r₁, hr₁, hcase₂⟩ := Lib.ForeignKey.mem_fire h₂ hr₂
  obtain ⟨r, hr, hcase₁⟩ := Lib.ForeignKey.mem_fire h₁ hr₁
  have hsame : r₁ = r := by
    rcases hcase₁ with ⟨rfl, -⟩ | ⟨clear, hc, -⟩
    · rfl
    · cases hc
  subst hsame
  have hclaimer : r₂ = r₁ ∨ r₂ = { r₁ with claimedByUserId := none, updatedAt := now } := by
    rcases hcase₂ with ⟨rfl, -⟩ | ⟨clear, hc, -, rfl⟩
    · exact .inl rfl
    · obtain rfl := Lib.OnDelete.setNull.inj hc
      exact .inr rfl
  have hkept : r₂.recipientUserId = r₁.recipientUserId ∧ r₂.isPublic = r₁.isPublic := by
    rcases hclaimer with rfl | rfl <;> exact ⟨rfl, rfl⟩
  have hrecipient : r' = r₂ := by
    rcases hcase₃ with ⟨rfl, -⟩ | ⟨clear, hc, href, rfl⟩
    · rfl
    · -- a tip that names a recipient is targeted, so clearing the name violates a `CHECK`
      obtain rfl := Lib.OnDelete.setNull.inj hc
      have hclear := Lib.ForeignKey.fire_isSome_iff.mp (Option.isSome_iff_exists.mpr ⟨_, h₃⟩)
      have hcheck := hclear r₂ hr₂ href
      have href' : r₁.recipientUserId = some u := hkept.1.symm.trans href
      have hpublic := (hinv r₁.id r₁ (Table.get?_of_mem hr)).public_iff
      simp only [SocialTipRow.checks, hkept.2, Bool.and_eq_true, Bool.or_eq_true,
        Option.isSome_none, Bool.false_eq_true, or_false] at hcheck
      simp [href', hcheck.1.2] at hpublic
  subst hrecipient
  have hk : r₁.id = k := by
    have hid := Table.key_of_get? hr'
    rcases hclaimer with rfl | rfl <;> exact hid
  refine ⟨r₁, hk ▸ Table.get?_of_mem hr, hclaimer⟩

/-! ### What one event does to one row -/

/-- The columns of a tip that are fixed at creation. -/
structure TipTerms where
  /-- Asset code. -/
  asset : String
  /-- Declared amount. -/
  amount : Int64
  /-- The address the tip is funded at and swept from. -/
  tipAddress : Option String
  /-- View key of an XMR or WOW tip address. -/
  tipViewKey : Option String
  /-- Voucher commitment of a Grin tip. -/
  grinCommitment : Option String
  /-- Confirmations the funding needs. -/
  confirmationsRequired : Int32

/-- The terms of a tip. -/
def SocialTipRow.terms (r : SocialTipRow) : TipTerms where
  asset := r.asset
  amount := r.amount
  tipAddress := r.tipAddress
  tipViewKey := r.tipViewKey
  grinCommitment := r.grinCommitment
  confirmationsRequired := r.confirmationsRequired

/-- The statements an event issues. -/
def TipEvent.Issues : TipEvent → TipOp → Prop
  | .call op => fun op' => op' = op
  | .turn pass .. => pass.Issues
  | _ => fun _ => False

/-- What an event can make of a stored row. -/
inductive TipEvent.Changes (e : TipEvent) : SocialTipRow → SocialTipRow → Prop
  | edited {r r' : SocialTipRow} (h : SocialTips.Updated.Row e.Issues r r') : Changes e r r'
  | forgotten {r : SocialTipRow} (now : Timestamp) (u : Uuid) (h : e = .deleteUser now u) :
      Changes e r { r with claimedByUserId := none, updatedAt := now }

theorem TipEvent.Changes.keeps {e : TipEvent} (P : SocialTipRow → SocialTipRow → Prop)
    (hrefl : ∀ r, P r r) (htrans : ∀ r₁ r₂ r₃, P r₁ r₂ → P r₂ r₃ → P r₁ r₃)
    (hedit : ∀ op r r', e.Issues op → TipOp.Edits op r r' → P r r')
    (hforget : ∀ (r : SocialTipRow) now,
      P r { r with claimedByUserId := none, updatedAt := now })
    {r r' : SocialTipRow} (h : e.Changes r r') : P r r' := by
  cases h with
  | edited h =>
    induction h with
    | refl => exact hrefl r
    | tail _ hstep ih =>
      obtain ⟨op, hop, hlast⟩ := hstep
      exact htrans _ _ _ ih (hedit op _ _ hop hlast)
  | forgotten now u h => exact hforget r now

namespace TipOp.Edits

variable {op : TipOp} {r r' : SocialTipRow}

theorem terms (h : Edits op r r') : r'.terms = r.terms := by
  cases h <;> rfl

theorem id (h : Edits op r r') : r'.id = r.id := by
  cases h <;> rfl

theorem fundingTxid (h : Edits op r r') (hs : r.fundingTxid.isSome) :
    r'.fundingTxid = r.fundingTxid := by
  cases h with
  | attach _ _ _ _ hfree => simp [hfree] at hs
  | _ => rfl

end TipOp.Edits

namespace TipEvent.Changes

variable {e : TipEvent} {r r' : SocialTipRow}

theorem terms (h : e.Changes r r') : r'.terms = r.terms := by
  refine h.keeps (fun r r' => r'.terms = r.terms) (fun _ => rfl) ?_ ?_ (fun _ _ => rfl)
  · intro r₁ r₂ r₃ h₁ h₂
    exact h₂.trans h₁
  · intro op r r' _ hedit
    exact hedit.terms

theorem fundingTxid (h : e.Changes r r') (hs : r.fundingTxid.isSome) :
    r'.fundingTxid = r.fundingTxid := by
  refine h.keeps (fun r r' => r.fundingTxid.isSome → r'.fundingTxid = r.fundingTxid)
    (fun _ _ => rfl) ?_ ?_ (fun _ _ _ => rfl) hs
  · intro r₁ r₂ r₃ h₁ h₂ hs
    have h := h₁ hs
    exact (h₂ (by rw [h]; exact hs)).trans h
  · intro op r r' _ hedit
    exact hedit.fundingTxid

end TipEvent.Changes

namespace TipWorld

/-- A row after an event is fresh, or was there before and the event changed it. -/
theorem step_row {w w' : TipWorld} {e : TipEvent} (hinv : w.db.Inv) (h : w.step e = some w')
    {k : Uuid} {r' : SocialTipRow} (hr' : w'.db.get? k = some r') :
    (k ∉ w.issued ∧ k ∈ w'.issued ∧ ∃ now new status,
        (status = .draft ∨ status = .pendingConfirmation) ∧ r' = .ofNew k now new status) ∨
      ∃ r, w.db.get? k = some r ∧ e.Changes r r' := by
  cases e with
  | call op =>
    simp only [step] at h
    split at h
    case isFalse => cases h
    case isTrue hop =>
      cases h
      simp only [Bool.and_eq_true, Option.all_eq_true, decide_eq_true_eq] at hop
      cases hr : w.db.get? k with
      | none =>
        obtain ⟨hcreates, hfresh⟩ := op.apply_new hr hr'
        exact .inl ⟨hop.2 k hcreates, by simp [hcreates], hfresh⟩
      | some r =>
        obtain ⟨r'', hr'', hedit⟩ := op.apply_edits hr
        obtain rfl := Option.some.inj (hr'.symm.trans hr'')
        exact .inr ⟨r, rfl, .edited (.single ⟨op, rfl, hedit⟩)⟩
  | poll pass now =>
    cases h
    exact .inr ⟨r', hr', .edited .refl⟩
  | turn pass faults chains now tip =>
    simp only [step] at h
    split at h
    case isFalse => cases h
    case isTrue =>
      cases h
      obtain ⟨r, hr, hrow⟩ := (pass.updated_turn faults chains now tip w.db).row hr'
      exact .inr ⟨r, hr, .edited hrow⟩
  | drop pass tip =>
    cases h
    exact .inr ⟨r', hr', .edited .refl⟩
  | deleteUser now u =>
    simp only [step, Option.map_eq_some_iff] at h
    obtain ⟨t, ht, rfl⟩ := h
    obtain ⟨r, hr, rfl | rfl⟩ := row_of_deleteUser hinv ht hr'
    · exact .inr ⟨_, hr, .edited .refl⟩
    · exact .inr ⟨r, hr, .forgotten now u rfl⟩

/-- A row gets into a status that fresh rows do not have by one of the statements of the event. -/
theorem entered_status {w w' : TipWorld} {e : TipEvent} {s : TipStatus} (hinv : w.db.Inv)
    (h : w.step e = some w') {k : Uuid} {r' : SocialTipRow} (hr' : w'.db.get? k = some r')
    (hfresh : s ≠ .draft ∧ s ≠ .pendingConfirmation) (hstatus : r'.status = s)
    (hbefore : ∀ r, w.db.get? k = some r → r.status ≠ s) :
    ∃ op r₁ r₂, e.Issues op ∧ TipOp.Edits op r₁ r₂ ∧ r₁.status ≠ s ∧ r₂.status = s := by
  by_contra hnone
  rcases step_row hinv h hr' with ⟨-, -, now, new, status, hnew, rfl⟩ | ⟨r, hr, hchange⟩
  · rcases hnew with rfl | rfl
    · exact hfresh.1 hstatus.symm
    · exact hfresh.2 hstatus.symm
  · refine hbefore r hr ?_
    refine hchange.keeps (fun r r' => r'.status = s → r.status = s) (fun _ h => h)
      (fun _ _ _ h h' hs => h (h' hs)) ?_ (fun _ _ h => h) hstatus
    intro op r₁ r₂ hop hedit hs
    by_contra hne
    exact hnone ⟨op, r₁, r₂, hop, hedit, hne, hs⟩

theorem turn_of_issues {w w' : TipWorld} {e : TipEvent} {op : TipOp} (h : w.step e = some w')
    (hop : e.Issues op) (hworker : op.asked = false) :
    ∃ pass faults chains now tip, e = .turn pass faults chains now tip ∧ pass.Issues op := by
  cases e with
  | call op' =>
    obtain rfl := hop
    simp [step, hworker] at h
  | turn pass faults chains now tip => exact ⟨pass, faults, chains, now, tip, rfl, hop⟩
  | poll | drop | deleteUser => exact hop.elim

/-- What holds in every world that events build from the empty one. -/
structure Inv (w : TipWorld) : Prop where
  /-- The row invariant. -/
  rows : w.db.Inv
  /-- The stored ids were issued. -/
  issued : ∀ k r, w.db.get? k = some r → k ∈ w.issued
  /-- A copy is what its pass polled once. -/
  polled : ∀ p ∈ w.polled, ∃ now t, p.2 ∈ p.1.poll now t
  /-- The polled ids were issued. -/
  polledIssued : ∀ p ∈ w.polled, p.2.id ∈ w.issued
  /-- A copy agrees with the stored row on the terms. -/
  terms : ∀ p ∈ w.polled, ∀ r, w.db.get? p.2.id = some r → r.terms = p.2.terms
  /-- The funding transaction of a copy is the one of the stored row. -/
  fundingTxid : ∀ p ∈ w.polled, ∀ r, w.db.get? p.2.id = some r → p.2.fundingTxid.isSome →
    r.fundingTxid = p.2.fundingTxid

theorem inv_empty : Inv empty where
  rows := SocialTips.inv_empty
  issued := by simp [empty]
  polled := by simp [empty]
  polledIssued := by simp [empty]
  terms := by simp [empty]
  fundingTxid := by simp [empty]

theorem mem_issued_step {w w' : TipWorld} {e : TipEvent} (h : w.step e = some w') {k : Uuid}
    (hk : k ∈ w.issued) : k ∈ w'.issued := by
  cases e <;> simp only [step, Option.ite_none_right_eq_some, Option.some.injEq,
    Option.map_eq_some_iff] at h
  case call =>
    obtain ⟨-, rfl⟩ := h
    exact List.mem_append_right _ hk
  case turn =>
    obtain ⟨-, rfl⟩ := h
    exact hk
  case deleteUser =>
    obtain ⟨t, -, rfl⟩ := h
    exact hk
  all_goals
    subst h
    exact hk

/-- A copy after an event was there before, or is a stored row that the event polled. -/
theorem mem_polled_step {w w' : TipWorld} {e : TipEvent} (h : w.step e = some w')
    {p : TipPass × SocialTipRow} (hp : p ∈ w'.polled) :
    p ∈ w.polled ∨ ∃ now, e = .poll p.1 now ∧ p.2 ∈ p.1.poll now w.db ∧ w'.db = w.db := by
  cases e <;> simp only [step, Option.ite_none_right_eq_some, Option.some.injEq,
    Option.map_eq_some_iff] at h
  case call =>
    obtain ⟨-, rfl⟩ := h
    exact .inl hp
  case poll pass now =>
    subst h
    rcases List.mem_append.mp hp with hold | hnew
    · exact .inl hold
    · obtain ⟨r, hr, rfl⟩ := List.mem_map.mp hnew
      exact .inr ⟨now, rfl, hr, rfl⟩
  case turn =>
    obtain ⟨-, rfl⟩ := h
    exact .inl (List.mem_of_mem_erase hp)
  case drop =>
    subst h
    exact .inl (List.mem_of_mem_erase hp)
  case deleteUser =>
    obtain ⟨t, -, rfl⟩ := h
    exact .inl hp

theorem agrees_step {w w' : TipWorld} {e : TipEvent} (hinv : w.Inv) (h : w.step e = some w')
    (P : SocialTipRow → SocialTipRow → Prop) (hrefl : ∀ r, P r r)
    (hkeep : ∀ tip r r', e.Changes r r' → P tip r → P tip r')
    (hagree : ∀ p ∈ w.polled, ∀ r, w.db.get? p.2.id = some r → P p.2 r) :
    ∀ p ∈ w'.polled, ∀ r', w'.db.get? p.2.id = some r' → P p.2 r' := by
  intro p hp r' hr'
  rcases mem_polled_step h hp with hold | ⟨now, -, hpoll, hdb⟩
  · rcases step_row hinv.rows h hr' with ⟨hfresh, -⟩ | ⟨r, hr, hchange⟩
    · exact absurd (hinv.polledIssued p hold) hfresh
    · exact hkeep p.2 r r' hchange (hagree p hold r hr)
  · rw [hdb, TipPass.get?_of_mem_poll hpoll] at hr'
    obtain rfl := Option.some.inj hr'
    exact hrefl _

theorem inv_step {w w' : TipWorld} {e : TipEvent} (h : w.step e = some w') (hinv : w.Inv) :
    w'.Inv where
  rows := by
    cases e <;> simp only [step, Option.ite_none_right_eq_some, Option.some.injEq,
      Option.map_eq_some_iff] at h
    case call op =>
      obtain ⟨-, rfl⟩ := h
      exact (op.apply_rowwise w.db).inv hinv.rows
    case turn pass faults chains now tip =>
      obtain ⟨-, rfl⟩ := h
      exact (pass.updated_turn faults chains now tip w.db).inv hinv.rows
    case deleteUser now u =>
      obtain ⟨t, ht, rfl⟩ := h
      intro k r' hr'
      obtain ⟨r, hr, rfl | rfl⟩ := row_of_deleteUser hinv.rows ht hr'
      · exact hinv.rows k _ hr
      · obtain ⟨hclaimed, hsweep, hverified, hpublic⟩ := hinv.rows k r hr
        exact ⟨hclaimed, hsweep, hverified, hpublic⟩
    all_goals
      subst h
      exact hinv.rows
  issued := by
    intro k r' hr'
    rcases step_row hinv.rows h hr' with ⟨-, hissued, -⟩ | ⟨r, hr, -⟩
    · exact hissued
    · exact mem_issued_step h (hinv.issued k r hr)
  polled := by
    intro p hp
    rcases mem_polled_step h hp with hold | ⟨now, -, hpoll, -⟩
    · exact hinv.polled p hold
    · exact ⟨now, w.db, hpoll⟩
  polledIssued := by
    intro p hp
    rcases mem_polled_step h hp with hold | ⟨now, -, hpoll, -⟩
    · exact mem_issued_step h (hinv.polledIssued p hold)
    · exact mem_issued_step h (hinv.issued _ _ (TipPass.get?_of_mem_poll hpoll))
  terms := by
    refine agrees_step hinv h (fun tip r => r.terms = tip.terms) (fun _ => rfl) ?_ hinv.terms
    intro tip r r' hchange hsame
    exact (hchange.terms).trans hsame
  fundingTxid := by
    refine agrees_step hinv h
      (fun tip r => tip.fundingTxid.isSome → r.fundingTxid = tip.fundingTxid) (fun _ _ => rfl) ?_
      hinv.fundingTxid
    intro tip r r' hchange hsame hs
    exact (hchange.fundingTxid (by rw [hsame hs]; exact hs)).trans (hsame hs)

theorem inv_run {w : TipWorld} {events : List TipEvent} (h : system.Run empty events w) : w.Inv :=
  h.invariant (fun _ _ _ => inv_step) inv_empty

/-! ### Cycles without interference -/

section Cycle

variable (pass : TipPass) (faults : SweepFaults) (now : Timestamp)
  (chains : SocialTipRow → ChainClients)

/-- The turns of the rows `tips`, one after the other. -/
def turns (tips : List SocialTipRow) : List TipEvent :=
  tips.map fun tip => .turn pass faults (chains tip) now tip

theorem run_turns {w : TipWorld} {tips : List SocialTipRow}
    (h : (tips.map fun tip => (pass, tip)).Subperm w.polled) :
    ∃ w', system.Run w (turns pass faults now chains tips) w' ∧
      w'.db = tips.foldl (fun db tip => pass.turn faults (chains tip) now tip db) w.db := by
  induction tips generalizing w with
  | nil => exact ⟨w, .nil w, rfl⟩
  | cons tip tips ih =>
    have hmem : (pass, tip) ∈ w.polled := h.subset List.mem_cons_self
    have hrest : (tips.map fun tip => (pass, tip)).Subperm (w.polled.erase (pass, tip)) := by
      have herase := h.erase (pass, tip)
      rwa [List.map_cons, List.erase_cons_head] at herase
    obtain ⟨w', hrun, hdb⟩ := ih
      (w := ⟨pass.turn faults (chains tip) now tip w.db, w.polled.erase (pass, tip), w.issued⟩) hrest
    refine ⟨w', .cons ?_ hrun, hdb⟩
    simp only [system, Lib.System.ofOption_step, step, if_pos hmem]

theorem run_cycle (w : TipWorld) :
    ∃ w', system.Run w (.poll pass now :: turns pass faults now chains (pass.poll now w.db)) w' ∧
      w'.db = (pass.poll now w.db).foldl
        (fun db tip => pass.turn faults (chains tip) now tip db) w.db := by
  obtain ⟨w', hrun, hdb⟩ := run_turns pass faults now chains
    (w := { w with polled := w.polled ++ (pass.poll now w.db).map fun r => (pass, r) })
    (List.sublist_append_right _ _).subperm
  exact ⟨w', .cons rfl hrun, hdb⟩

/-- A cycle of the reconciler is a run of the system. -/
theorem run_confirmCycleInner (w : TipWorld) :
    ∃ w', system.Run w (.poll .confirm now ::
        turns .confirm faults now chains (TipPass.confirm.poll now w.db)) w' ∧
      w'.db = confirmCycleInner faults now chains w.db := run_cycle .confirm faults now chains w

theorem run_reorgCycleInner (w : TipWorld) :
    ∃ w', system.Run w (.poll .reorg now ::
        turns .reorg faults now chains (TipPass.reorg.poll now w.db)) w' ∧
      w'.db = reorgCycleInner faults now chains w.db := run_cycle .reorg faults now chains w

/-- A classification that traps ends the cycle of the funding pass. -/
theorem run_processPendingVerifications (w : TipWorld) :
    ∃ w', system.Run w (.poll .verify now ::
        turns .verify faults now chains ((TipPass.verify.poll now w.db).takeWhile fun tip =>
          (verifyFundingAmount (chains tip) tip).isSome)) w' ∧
      w'.db = processPendingVerifications chains now w.db := by
  have hsublist : ((TipPass.verify.poll now w.db).takeWhile fun tip =>
      (verifyFundingAmount (chains tip) tip).isSome).Sublist (TipPass.verify.poll now w.db) :=
    List.takeWhile_sublist _
  obtain ⟨w', hrun, hdb⟩ := run_turns .verify faults now chains
    (w := { w with
      polled := w.polled ++ (TipPass.verify.poll now w.db).map fun r => (TipPass.verify, r) })
    ((hsublist.map _).trans (List.sublist_append_right _ _)).subperm
  exact ⟨w', .cons rfl hrun, hdb.trans (verifyEach_eq_foldl chains now _ w.db).symm⟩

end Cycle

end TipWorld

end SmirkBackend
