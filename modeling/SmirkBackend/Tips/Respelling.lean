import SmirkBackend.Lib.MapRows
import SmirkBackend.Tips.World

/-!
# What the spelling of an address can change

Two columns of a tip say where its money is: the address and the commitment of the voucher.  No
statement looks at them.  They are read when a worker asks its nodes about the row, and when the
row is created.  So a world whose tips are respelled takes the same events to the respelled world,
as long as the nodes make nothing of the difference.

`TipPass.turn_respell` and `TipWorld.step_respell` prove this of turns and events, and
`TipWorld.run_respell` of runs.
-/

namespace SmirkBackend

open Lib (Table Patch ForeignKey)

/-! ### The columns -/

/-- The address of a tip and the commitment of its voucher. -/
abbrev VoucherTexts := Option String × Option String

namespace SocialTipRow

/-- The two texts of a row. -/
def texts (r : SocialTipRow) : VoucherTexts := (r.tipAddress, r.grinCommitment)

/-- The row with other texts. -/
def withTexts (r : SocialTipRow) (p : VoucherTexts) : SocialTipRow :=
  { r with tipAddress := p.1, grinCommitment := p.2 }

/-- The row but for its texts. -/
def unspelled (r : SocialTipRow) : SocialTipRow := r.withTexts (none, none)

@[simp] theorem texts_withTexts (r : SocialTipRow) (p : VoucherTexts) :
    (r.withTexts p).texts = p := rfl

@[simp] theorem withTexts_texts (r : SocialTipRow) : r.withTexts r.texts = r := rfl

@[simp] theorem unspelled_withTexts (r : SocialTipRow) (p : VoucherTexts) :
    (r.withTexts p).unspelled = r.unspelled := rfl

theorem eq_withTexts_of_unspelled {r r' : SocialTipRow} (h : r.unspelled = r'.unspelled) :
    r' = r.withTexts r'.texts :=
  (congrArg (fun r : SocialTipRow => r.withTexts r'.texts) h).symm

end SocialTipRow

/-- A rewriting of the texts of each row, which may depend on the tip and its asset. -/
def respelling (τ : Uuid → String → VoucherTexts → VoucherTexts) : Patch SocialTipRow where
  set r := r.withTexts (τ r.id r.asset r.texts)

section Respell

variable (τ : Uuid → String → VoucherTexts → VoucherTexts)

theorem respelling_set (r : SocialTipRow) :
    (respelling τ).set r = r.withTexts (τ r.id r.asset r.texts) := rfl

@[simp] theorem respelling_id (r : SocialTipRow) : ((respelling τ).set r).id = r.id := rfl

theorem respelling_injective (hτ : ∀ id asset, Function.Injective (τ id asset)) :
    Function.Injective (respelling τ).set := by
  intro r r' h
  have hrest : r.unspelled = r'.unspelled := (congrArg SocialTipRow.unspelled h : _)
  have hid : r.id = r'.id := (congrArg SocialTipRow.id h : _)
  have hasset : r.asset = r'.asset := (congrArg SocialTipRow.asset h : _)
  have htexts : τ r.id r.asset r.texts = τ r.id r.asset r'.texts := by
    have h' : τ r.id r.asset r.texts = τ r'.id r'.asset r'.texts :=
      (congrArg SocialTipRow.texts h : _)
    rwa [← hid, ← hasset] at h'
  rw [SocialTipRow.eq_withTexts_of_unspelled hrest, ← hτ _ _ htexts, SocialTipRow.withTexts_texts]

theorem hides_of_withTexts {α : Type} {p : SocialTipRow → α}
    (h : ∀ (r : SocialTipRow) q, p (r.withTexts q) = p r) : (respelling τ).Hides p :=
  fun r => h r _

theorem commutes_of_withTexts {g : Patch SocialTipRow}
    (hterms : ∀ r, (g.set r).asset = r.asset ∧ (g.set r).texts = r.texts)
    (h : ∀ (r : SocialTipRow) q, g.set (r.withTexts q) = (g.set r).withTexts q) :
    (respelling τ).Commutes g := by
  intro r
  have hid : (g.set r).id = r.id := g.key_set r
  rw [respelling_set, respelling_set, h, hid, (hterms r).1, (hterms r).2]

end Respell

/-! ### Statements -/

namespace SocialTips

variable {τ : Uuid → String → VoucherTexts → VoucherTexts}

/-- A statement does to the respelled table what it does to the original. -/
def Respects (τ : Uuid → String → VoucherTexts → VoucherTexts)
    (stmt : SocialTips → Option SocialTipRow × SocialTips) : Prop :=
  ∀ t : SocialTips, stmt (t.mapRows (respelling τ)) =
    ((stmt t).1.map (respelling τ).set, (stmt t).2.mapRows (respelling τ))

theorem respects_guardedUpdate (now : Timestamp) (id : Uuid) {guard : SocialTipRow → Bool}
    {g : Patch SocialTipRow} (hguard : ∀ (r : SocialTipRow) q, guard (r.withTexts q) = guard r)
    (hterms : ∀ r, (g.set r).asset = r.asset ∧ (g.set r).texts = r.texts)
    (hg : ∀ (r : SocialTipRow) q, g.set (r.withTexts q) = (g.set r).withTexts q) :
    Respects τ fun t => guardedUpdate now t id guard g := by
  intro t
  refine t.updateOne_mapRows id (hides_of_withTexts τ hguard) (Patch.Commutes.andThen ?_ ?_)
  · exact commutes_of_withTexts τ hterms hg
  · exact commutes_of_withTexts τ (fun _ => ⟨rfl, rfl⟩) fun _ _ => rfl

theorem respects_touchTipLastCheck (now : Timestamp) (id : Uuid) :
    Respects τ fun t => t.touchTipLastCheck now id := by
  unfold touchTipLastCheck
  exact respects_guardedUpdate now id (fun _ _ => rfl) (fun _ => ⟨rfl, rfl⟩) fun _ _ => rfl

theorem respects_settle (attribution : Option Uuid → Option Uuid) (now : Timestamp) (id : Uuid)
    (winnerTxid : String) (blockHeight : Int32) (blockHash : Option String) :
    Respects τ fun t => settle attribution now t id winnerTxid blockHeight blockHash := by
  unfold settle
  exact respects_guardedUpdate now id (fun _ _ => rfl) (fun _ => ⟨rfl, rfl⟩) fun _ _ => rfl

theorem respects_revertSweepOnReorg (now : Timestamp) (id : Uuid) :
    Respects τ fun t => t.revertSweepOnReorg now id := by
  unfold revertSweepOnReorg
  exact respects_guardedUpdate now id (fun _ _ => rfl) (fun _ => ⟨rfl, rfl⟩) fun _ _ => rfl

theorem respects_stampSweepConfirmedDmSent (now : Timestamp) (id : Uuid) :
    Respects τ fun t => t.stampSweepConfirmedDmSent now id := by
  unfold stampSweepConfirmedDmSent
  exact respects_guardedUpdate now id (fun _ _ => rfl) (fun _ => ⟨rfl, rfl⟩) fun _ _ => rfl

theorem respects_stampReorgNotified (now : Timestamp) (id : Uuid) :
    Respects τ fun t => t.stampReorgNotified now id := by
  unfold stampReorgNotified
  exact respects_guardedUpdate now id (fun _ _ => rfl) (fun _ => ⟨rfl, rfl⟩) fun _ _ => rfl

theorem cancelStale_respell (t : SocialTips) (status : TipStatus) (now : Timestamp) :
    cancelStale status now (t.mapRows (respelling τ)) =
      (cancelStale status now t).mapRows (respelling τ) := by
  refine t.updateWhere_mapRows (hides_of_withTexts τ fun _ _ => rfl) (Patch.Commutes.andThen ?_ ?_)
  · exact commutes_of_withTexts τ (fun _ => ⟨rfl, rfl⟩) fun _ _ => rfl
  · exact commutes_of_withTexts τ (fun _ => ⟨rfl, rfl⟩) fun _ _ => rfl

theorem insertSocialTip_respell (t : SocialTips) {id : Uuid}
    (hid : ∀ asset p, τ id asset p = p) (now : Timestamp) (new : NewSocialTip)
    (status : TipStatus) :
    insertSocialTip now (t.mapRows (respelling τ)) id new status =
      (insertSocialTip now t id new status).map fun t' => t'.mapRows (respelling τ) := by
  have hsame : (respelling τ).set (.ofNew id now new status) = .ofNew id now new status := by
    rw [respelling_set]
    exact congrArg _ (hid _ _)
  have hinsert := t.insert?_mapRows (respelling τ) (.ofNew id now new status)
  rw [hsame] at hinsert
  simp only [insertSocialTip, hinsert]
  split <;> rfl

end SocialTips

open SocialTips in
/-- Operations, whatever they are asked. -/
theorem TipOp.apply_respell {τ : Uuid → String → VoucherTexts → VoucherTexts} {op : TipOp}
    (hnew : ∀ id ∈ op.creates, ∀ asset p, τ id asset p = p) (t : SocialTips) :
    op.apply (t.mapRows (respelling τ)) = (op.apply t).mapRows (respelling τ) := by
  have hinsert : ∀ (o : Option SocialTips), (o.map fun t' => t'.mapRows (respelling τ)).getD
      (t.mapRows (respelling τ)) = (o.getD t).mapRows (respelling τ) := by
    intro o
    cases o <;> rfl
  have hupdate : ∀ (now : Timestamp) (id : Uuid) (guard : SocialTipRow → Bool)
      (g : Patch SocialTipRow), (∀ (r : SocialTipRow) q, guard (r.withTexts q) = guard r) →
      (∀ r, (g.set r).asset = r.asset ∧ (g.set r).texts = r.texts) →
      (∀ (r : SocialTipRow) q, g.set (r.withTexts q) = (g.set r).withTexts q) →
      (guardedUpdate now (t.mapRows (respelling τ)) id guard g).2 =
        (guardedUpdate now t id guard g).2.mapRows (respelling τ) :=
    fun now id _ _ hguard hterms hg =>
      congrArg Prod.snd (respects_guardedUpdate now id hguard hterms hg t)
  cases op with
  | createDraft now id new =>
    exact (congrArg (Option.getD · _)
      (t.insertSocialTip_respell (hnew id rfl) now new .draft)).trans (hinsert _)
  | create now id new =>
    exact (congrArg (Option.getD · _)
      (t.insertSocialTip_respell (hnew id rfl) now new .pendingConfirmation)).trans (hinsert _)
  | attachFunding now id sender txid =>
    simp only [apply, attachFundingToTip_snd]
    exact hupdate _ _ _ _ (fun _ _ => rfl) (fun _ => ⟨rfl, rfl⟩) fun _ _ => rfl
  | confirmSweep now id claimer txid =>
    simp only [apply, confirmTipSweep_snd]
    exact hupdate _ _ _ _ (fun _ _ => rfl) (fun _ => ⟨rfl, rfl⟩) fun _ _ => rfl
  | cancelOldDrafts now => exact t.cancelStale_respell _ now
  | cancelStuck now => exact t.cancelStale_respell _ now
  | cancelDraft | updateConfirmations | touch | verified | mismatch | claim | clawback
    | confirmOnchain | clearClaimedBy | revert | stampDmSent | stampReorg =>
    exact hupdate _ _ _ _ (fun _ _ => rfl) (fun _ => ⟨rfl, rfl⟩) fun _ _ => rfl

/-! ### Turns -/

open SocialTips (Respects respects_touchTipLastCheck respects_settle respects_revertSweepOnReorg
  respects_stampSweepConfirmedDmSent respects_stampReorgNotified)

/-- The nodes say the same of two rows. -/
structure SameReading (chains : ChainClients) (r r' : SocialTipRow) : Prop where
  /-- Whether the tip is funded. -/
  verdict : verifyFundingAmount chains r' = verifyFundingAmount chains r
  /-- Whether its address was spent from. -/
  spends : probeConfirmedSpends chains r' = probeConfirmedSpends chains r
  /-- How deep its funding is. -/
  count : ∀ pass : TipPass, pass.count chains r' = pass.count chains r

section Turns

variable {τ : Uuid → String → VoucherTexts → VoucherTexts} (faults : SweepFaults)
  (now : Timestamp)

theorem run_respell {stmt : SocialTips → Option SocialTipRow × SocialTips}
    (hstmt : Respects τ stmt) (s : SweepStmt) (db : SocialTips) :
    faults.run s (db.mapRows (respelling τ)) (stmt (db.mapRows (respelling τ))) =
      ((faults.run s db (stmt db)).1.map (Option.map (respelling τ).set),
        (faults.run s db (stmt db)).2.mapRows (respelling τ)) := by
  unfold SweepFaults.run
  rw [hstmt db]
  split <;> rfl

theorem touchAfter_respell (tip : SocialTipRow) (db : SocialTips) :
    touchAfter faults now ((respelling τ).set tip) (db.mapRows (respelling τ)) =
      (touchAfter faults now tip db).mapRows (respelling τ) :=
  congrArg Prod.snd (run_respell faults (respects_touchTipLastCheck now tip.id) _ db)

theorem settleWinner_respell (tip : SocialTipRow) (winner : ConfirmedSpend) (db : SocialTips) :
    settleWinner faults now ((respelling τ).set tip) winner (db.mapRows (respelling τ)) =
      ((settleWinner faults now tip winner db).1.map (Option.map (respelling τ).set),
        (settleWinner faults now tip winner db).2.mapRows (respelling τ)) := by
  have hsweep : ((respelling τ).set tip).sweepTxid = tip.sweepTxid := rfl
  unfold settleWinner
  rw [hsweep, respelling_id]
  split
  · exact run_respell faults (respects_settle _ now tip.id winner.txid _ _) _ db
  · exact run_respell faults (respects_settle _ now tip.id winner.txid _ _) _ db

theorem sendSweepConfirmedDmIfNeeded_respell (tip : SocialTipRow) (db : SocialTips) :
    sendSweepConfirmedDmIfNeeded faults now ((respelling τ).set tip) (db.mapRows (respelling τ)) =
      (sendSweepConfirmedDmIfNeeded faults now tip db).mapRows (respelling τ) := by
  have hstamp : ((respelling τ).set tip).sweepConfirmedDmSentAt = tip.sweepConfirmedDmSentAt := rfl
  unfold sendSweepConfirmedDmIfNeeded
  rw [hstamp, respelling_id]
  split
  · rfl
  · exact congrArg Prod.snd
      (run_respell faults (respects_stampSweepConfirmedDmSent now tip.id) _ db)

theorem sendReorgDmIfNeeded_respell (tip : SocialTipRow) (db : SocialTips) :
    sendReorgDmIfNeeded faults now ((respelling τ).set tip) (db.mapRows (respelling τ)) =
      (sendReorgDmIfNeeded faults now tip db).mapRows (respelling τ) := by
  have hstamp : ((respelling τ).set tip).reorgNotifiedAt = tip.reorgNotifiedAt := rfl
  unfold sendReorgDmIfNeeded
  rw [hstamp, respelling_id]
  split
  · rfl
  · exact congrArg Prod.snd (run_respell faults (respects_stampReorgNotified now tip.id) _ db)

theorem revertTip_respell (tip : SocialTipRow) (db : SocialTips) :
    (revertTip faults now ((respelling τ).set tip) (db.mapRows (respelling τ))).2 =
      (revertTip faults now tip db).2.mapRows (respelling τ) := by
  unfold revertTip
  rw [respelling_id, run_respell faults (respects_revertSweepOnReorg now tip.id)]
  cases faults.run .revertSweepOnReorg db (db.revertSweepOnReorg now tip.id) with
  | mk result db' =>
    rcases result with e | (_ | reverted)
    · rfl
    · rfl
    · exact sendReorgDmIfNeeded_respell faults now reverted db'

variable {chains : ChainClients} {tip : SocialTipRow}
  (hsame : SameReading chains tip ((respelling τ).set tip)) (db : SocialTips)

include hsame

theorem processAwaitingTip_respell :
    (processAwaitingTip faults now chains ((respelling τ).set tip) (db.mapRows (respelling τ))).2 =
      (processAwaitingTip faults now chains tip db).2.mapRows (respelling τ) := by
  have htouch := touchAfter_respell (τ := τ) faults now tip db
  have hasset : ((respelling τ).set tip).asset = tip.asset := rfl
  simp only [processAwaitingTip, hsame.spends, hasset]
  cases probeConfirmedSpends chains tip with
  | error e => exact htouch
  | ok spends =>
    simp only
    cases pickWinner spends.1 with
    | none => exact htouch
    | some winner =>
      simp only
      split
      · exact htouch
      · rw [settleWinner_respell]
        cases settleWinner faults now tip winner db with
        | mk result db' =>
          rcases result with e | (_ | settled)
          · rfl
          · rfl
          · exact sendSweepConfirmedDmIfNeeded_respell faults now settled db'

theorem processSettledTip_respell :
    (processSettledTip faults now chains ((respelling τ).set tip) (db.mapRows (respelling τ))).2 =
      (processSettledTip faults now chains tip db).2.mapRows (respelling τ) := by
  have htouch := touchAfter_respell (τ := τ) faults now tip db
  have hsweep : ((respelling τ).set tip).sweepTxid = tip.sweepTxid := rfl
  simp only [processSettledTip, hsame.spends, hsweep]
  cases tip.sweepTxid with
  | none => exact htouch
  | some recordedTxid =>
    simp only
    cases probeConfirmedSpends chains tip with
    | error e => exact htouch
    | ok spends =>
      simp only
      split
      · exact htouch
      · exact revertTip_respell faults now tip db

theorem processPendingVerification_respell :
    processPendingVerification chains now ((respelling τ).set tip) (db.mapRows (respelling τ)) =
      (processPendingVerification chains now tip db).mapRows (respelling τ) := by
  have hop : ∀ op : TipOp, op.creates = none →
      op.apply (db.mapRows (respelling τ)) = (op.apply db).mapRows (respelling τ) :=
    fun op hop => op.apply_respell (by simp [hop]) db
  unfold processPendingVerification
  rw [hsame.verdict, respelling_id]
  split
  · exact hop (.verified now tip.id _) rfl
  · exact hop (.mismatch now tip.id _) rfl
  · exact hop (.touch now tip.id) rfl
  · exact hop (.touch now tip.id) rfl
  · exact hop (.touch now tip.id) rfl
  · rfl

/-- A turn on the respelled row, when the nodes make nothing of the difference. -/
theorem TipPass.turn_respell (pass : TipPass) :
    pass.turn faults chains now ((respelling τ).set tip) (db.mapRows (respelling τ)) =
      (pass.turn faults chains now tip db).mapRows (respelling τ) := by
  have hcount : pass.counts →
      pass.turn faults chains now ((respelling τ).set tip) (db.mapRows (respelling τ)) =
        (pass.turn faults chains now tip db).mapRows (respelling τ) := by
    intro hpass
    rw [turn_of_counts hpass, turn_of_counts hpass, hsame.count, respelling_id]
    cases pass.count chains tip with
    | none => rfl
    | some n =>
      exact (TipOp.updateConfirmations now tip.id n).apply_respell (by simp [TipOp.creates]) db
  cases pass with
  | countXmr | countWow | countGrin => exact hcount rfl
  | verify => exact processPendingVerification_respell now hsame db
  | confirm => exact processAwaitingTip_respell faults now hsame db
  | reorg => exact processSettledTip_respell faults now hsame db

end Turns

/-! ### Worlds -/

/-- Two events are the same but for the texts of the row they name. -/
inductive SameEvent : TipEvent → TipEvent → Prop
  | call (op : TipOp) : SameEvent (.call op) (.call op)
  | poll (pass : TipPass) (now : Timestamp) : SameEvent (.poll pass now) (.poll pass now)
  | turn (pass : TipPass) (faults : SweepFaults) (chains : ChainClients) (now : Timestamp)
      {tip tip' : SocialTipRow} (h : tip.unspelled = tip'.unspelled) :
      SameEvent (.turn pass faults chains now tip) (.turn pass faults chains now tip')
  | drop (pass : TipPass) {tip tip' : SocialTipRow} (h : tip.unspelled = tip'.unspelled) :
      SameEvent (.drop pass tip) (.drop pass tip')
  | deleteUser (now : Timestamp) (u : Uuid) : SameEvent (.deleteUser now u) (.deleteUser now u)

section Worlds

variable (τ : Uuid → String → VoucherTexts → VoucherTexts)

/-- The event, about the respelled row. -/
def TipEvent.respell : TipEvent → TipEvent
  | .turn pass faults chains now tip => .turn pass faults chains now ((respelling τ).set tip)
  | .drop pass tip => .drop pass ((respelling τ).set tip)
  | .call op => .call op
  | .poll pass now => .poll pass now
  | .deleteUser now u => .deleteUser now u

theorem TipEvent.sameEvent_respell (e : TipEvent) : SameEvent e (e.respell τ) := by
  cases e with
  | call op => exact .call op
  | poll pass now => exact .poll pass now
  | turn pass faults chains now tip => exact .turn pass faults chains now rfl
  | drop pass tip => exact .drop pass rfl
  | deleteUser now u => exact .deleteUser now u

/-- The world with every row respelled, and every copy. -/
def TipWorld.respell (w : TipWorld) : TipWorld where
  db := w.db.mapRows (respelling τ)
  polled := w.polled.map (Prod.map id (respelling τ).set)
  issued := w.issued

theorem TipPass.poll_respell (pass : TipPass) (now : Timestamp) (t : SocialTips) :
    pass.poll now (t.mapRows (respelling τ)) = (pass.poll now t).map (respelling τ).set := by
  have hselect : ∀ (p : SocialTipRow → Bool) (before : SocialTipRow → SocialTipRow → Bool) limit,
      (∀ (r : SocialTipRow) q, p (r.withTexts q) = p r) →
      (∀ (r r' : SocialTipRow) q q', before (r.withTexts q) (r'.withTexts q') = before r r') →
      ((t.mapRows (respelling τ)).select p before).take limit =
        ((t.select p before).take limit).map (respelling τ).set := by
    intro p before limit hp hbefore
    rw [t.select_mapRows (hides_of_withTexts τ hp) fun _ _ => hbefore _ _ _ _, List.map_take]
  cases pass with
  | countXmr | countWow | countGrin | verify | confirm | reorg =>
    exact hselect _ _ _ (fun _ _ => rfl) fun _ _ _ _ => rfl

theorem fireAll_respell (now : Timestamp) (u : Uuid) (t : SocialTips) :
    Lib.fireAll SocialTipRow.checks u (SocialTipRow.fks now) (t.mapRows (respelling τ)) =
      (Lib.fireAll SocialTipRow.checks u (SocialTipRow.fks now) t).map fun t' =>
        t'.mapRows (respelling τ) := by
  refine Lib.fireAll_mapRows (hides_of_withTexts τ fun _ _ => rfl) u ?_ t
  intro fk hfk
  have hclear : ∀ g : Patch SocialTipRow,
      (∀ r, (g.set r).asset = r.asset ∧ (g.set r).texts = r.texts) →
      (∀ (r : SocialTipRow) q, g.set (r.withTexts q) = (g.set r).withTexts q) →
      ∀ clear, Lib.OnDelete.setNull g = .setNull clear → (respelling τ).Commutes clear := by
    rintro g hterms hg clear ⟨⟩
    exact commutes_of_withTexts τ hterms hg
  simp only [SocialTipRow.fks, List.mem_cons, List.not_mem_nil, or_false] at hfk
  rcases hfk with rfl | rfl | rfl
  · exact ⟨fun _ => rfl, fun clear h => by cases h⟩
  · exact ⟨fun _ => rfl, hclear _ (fun _ => ⟨rfl, rfl⟩) fun _ _ => rfl⟩
  · exact ⟨fun _ => rfl, hclear _ (fun _ => ⟨rfl, rfl⟩) fun _ _ => rfl⟩

/-- The nodes of an event make nothing of the difference. -/
def TipEvent.Reads : TipEvent → Prop
  | .turn _ _ chains _ tip => SameReading chains tip ((respelling τ).set tip)
  | _ => True

namespace TipWorld

variable {τ} (hτ : ∀ id asset, Function.Injective (τ id asset))

include hτ

/-- One event, in the world and in the respelled world. -/
theorem step_respell {w w' : TipWorld} {e : TipEvent} (h : w.step e = some w')
    (hfresh : ∀ id, id ∉ w.issued → ∀ asset p, τ id asset p = p) (hreads : e.Reads τ) :
    (w.respell τ).step (e.respell τ) = some (w'.respell τ) := by
  have hinj : Function.Injective (Prod.map id (respelling τ).set :
      TipPass × SocialTipRow → TipPass × SocialTipRow) :=
    Function.Injective.prodMap Function.injective_id (respelling_injective τ hτ)
  have herase : ∀ pass tip, (w.polled.erase (pass, tip)).map (Prod.map id (respelling τ).set) =
      (w.polled.map (Prod.map id (respelling τ).set)).erase (pass, (respelling τ).set tip) :=
    fun pass tip => List.map_erase hinj w.polled
  cases e with
  | call op =>
    simp only [step, Option.ite_none_right_eq_some, Option.some.injEq] at h
    obtain ⟨hop, rfl⟩ := h
    have hnew : ∀ id ∈ op.creates, ∀ asset p, τ id asset p = p := by
      intro id hid
      rw [Option.mem_def.mp hid] at hop
      exact hfresh id (by simpa using (Bool.and_eq_true_iff.mp hop).2)
    rw [TipEvent.respell, step, respell, if_pos hop, op.apply_respell hnew]
    rfl
  | poll pass now =>
    obtain rfl := Option.some.inj h
    rw [TipEvent.respell, step, respell, pass.poll_respell]
    simp [respell, Function.comp_def]
  | turn pass faults chains now tip =>
    simp only [step, Option.ite_none_right_eq_some, Option.some.injEq] at h
    obtain ⟨hmem, rfl⟩ := h
    have hmem' : (pass, (respelling τ).set tip) ∈ (w.respell τ).polled :=
      List.mem_map_of_mem (f := Prod.map id (respelling τ).set) hmem
    rw [TipEvent.respell, step, if_pos hmem']
    simp only [respell, herase, pass.turn_respell faults now hreads]
  | drop pass tip =>
    obtain rfl := Option.some.inj h
    rw [TipEvent.respell, step]
    simp only [respell, herase]
  | deleteUser now u =>
    simp only [step, Option.map_eq_some_iff] at h
    obtain ⟨t, ht, rfl⟩ := h
    simp only [TipEvent.respell, step, respell, fireAll_respell, ht, Option.map_some]

/-- **A run, and the run of the respelled world.** -/
theorem run_respell {w w' : TipWorld} {es : List TipEvent} (h : system.Run w es w')
    (hfresh : ∀ id, id ∉ w.issued → ∀ asset p, τ id asset p = p)
    (hreads : ∀ e ∈ es, e.Reads τ) :
    system.Run (w.respell τ) (es.map (TipEvent.respell τ)) (w'.respell τ) := by
  induction h with
  | nil w => exact .nil _
  | cons hstep hrun ih =>
    obtain ⟨hread, hrest⟩ := List.forall_mem_cons.mp hreads
    refine .cons (step_respell hτ hstep hfresh hread) (ih (fun id hid => ?_) hrest)
    exact hfresh id fun hmem => hid (mem_issued_step hstep hmem)

end TipWorld

end Worlds

end SmirkBackend
