import SmirkBackend.Tips.World

/-!
# The confirmation counter under several funding workers

A tip that can be claimed, or was, should have the confirmations it requires.  The verifier polls
only rows whose counter is high enough, and nothing but a count moves the counter.  But a count is
written whatever the status of the row, and a verdict whatever its counter: a worker whose node
lags can lower the counter of a tip that another worker has meanwhile verified, or just before the
verdict.  The reconciler takes an advisory lock against this; the funding worker takes none.

A turn of a worker whose node has fallen behind the row is one that `Lags`.
`confirmed_under_replicas` : runs without such turns keep every row deep, and no others do.  A turn
on a row that did not move since it was polled does not lag (`not_lags_of_fresh`).
-/

namespace SmirkBackend

open Lib (Table Patch)
open SocialTips (Rows)

namespace SocialTipRow

/-- The tip can be claimed, or was. -/
def live (r : SocialTipRow) : Bool :=
  r.status = .pending || r.status = .claiming || r.status = .claimed

/-- A live row has the confirmations it requires. -/
def Deep (r : SocialTipRow) : Prop := r.live → r.confirmationsRequired ≤ r.fundingConfirmations

/-- The row awaits the verdict of the amount verifier below its required count. -/
def shallow (r : SocialTipRow) : Bool :=
  SocialTips.awaitingVerdict r && r.fundingConfirmations < r.confirmationsRequired

theorem deep_ofNew {id : Uuid} {now : Timestamp} {new : NewSocialTip} {status : TipStatus}
    (h : status = .draft ∨ status = .pendingConfirmation) : (ofNew id now new status).Deep := by
  intro hlive
  rcases h with rfl | rfl <;> cases hlive

end SocialTipRow

/-- At this step a count below what a live row requires is written, or a verified verdict reaches a
row whose counter has fallen below it. -/
def Lags (w : TipWorld) (e : TipEvent) : Prop :=
  ∃ pass faults chains now tip r, e = .turn pass faults chains now tip ∧
    (pass, tip) ∈ w.polled ∧ w.db.get? tip.id = some r ∧
    ((∃ n, pass.count chains tip = some n ∧ r.live ∧ n < r.confirmationsRequired) ∨
      (pass = .verify ∧ (∃ o, verifyFundingAmount chains tip = some (.verified o)) ∧ r.shallow))

theorem not_lags_of_not_turn {w : TipWorld} {e : TipEvent}
    (h : ∀ pass faults chains now tip, e ≠ .turn pass faults chains now tip) : ¬ Lags w e := by
  rintro ⟨pass, faults, chains, now, tip, _, heq, -⟩
  exact h pass faults chains now tip heq

/-! ### Steps -/

/-- The statements that write the counter or flip an unverified row to `pending`. -/
def TipOp.confirms : TipOp → Bool
  | updateConfirmations .. | verified .. => true
  | _ => false

theorem TipOp.Edits.deep {op : TipOp} {r r' : SocialTipRow} (h : Edits op r r')
    (hop : op.confirms = false) (hr : r.Deep) : r'.Deep := by
  cases h with
  | updateConfirmations | verified => cases hop
  | claim now u r hstatus hdepth => exact fun _ => hdepth
  | confirmOnchain _ _ _ _ _ _ hstatus => exact fun _ => hr (by simp [SocialTipRow.live, hstatus])
  | clearClaimedBy _ _ _ _ _ hstatus => exact fun _ => hr (by simp [SocialTipRow.live, hstatus])
  | revert _ _ hstatus => exact fun _ => hr (by simp [SocialTipRow.live, hstatus])
  | skip | reattach | touch | report | stampDmSent | stampReorg => exact hr
  | cancelDraft | attach | mismatch | clawback | expire =>
    intro hlive
    simp [SocialTipRow.live] at hlive

/-- An unguarded or guarded update keeps all rows deep exactly when it keeps the row it hits. -/
theorem SocialTips.rows_guardedUpdate_iff {now : Timestamp} {t : SocialTips} {id : Uuid}
    {guard : SocialTipRow → Bool} {f : Patch SocialTipRow} (ht : Rows SocialTipRow.Deep t) :
    Rows SocialTipRow.Deep (guardedUpdate now t id guard f).2 ↔
      ∀ r, t.get? id = some r → guard r →
        SocialTipRow.Deep { f.set r with updatedAt := now } := by
  constructor
  · intro h r hr hg
    exact h id _ (guardedUpdate_of_guard now f hr hg).2
  · intro h k r' hr'
    rw [get?_guardedUpdate] at hr'
    cases hr : t.get? k with
    | none => simp [hr] at hr'
    | some r =>
      rw [hr, Option.map_some, Option.some.injEq] at hr'
      by_cases hhit : k = id ∧ guard r
      · rw [if_pos hhit] at hr'
        rw [← hr']
        exact h r (hhit.1 ▸ hr) hhit.2
      · rw [if_neg hhit] at hr'
        rw [← hr']
        exact ht k r hr

theorem SocialTips.rows_count_iff {now : Timestamp} {t : SocialTips} {id : Uuid} {n : Int32}
    (ht : Rows SocialTipRow.Deep t) :
    Rows SocialTipRow.Deep (t.updateTipConfirmations now id n).2 ↔
      ¬ ∃ r, t.get? id = some r ∧ r.live ∧ n < r.confirmationsRequired := by
  rw [updateTipConfirmations, rows_guardedUpdate_iff ht]
  constructor
  · rintro h ⟨r, hr, hlive, hlow⟩
    have hdeep : r.confirmationsRequired ≤ n := h r hr rfl hlive
    exact absurd hdeep (Int32.not_le.mpr hlow)
  · intro h r hr _ hlive
    by_contra hlow
    exact h ⟨r, hr, hlive, Int32.not_le.mp hlow⟩

theorem SocialTips.rows_verified_iff {now : Timestamp} {t : SocialTips} {id : Uuid} {o : Int64}
    (ht : Rows SocialTipRow.Deep t) :
    Rows SocialTipRow.Deep (t.markTipFundingVerified now id o).2 ↔
      ¬ ∃ r, t.get? id = some r ∧ r.shallow := by
  rw [markTipFundingVerified, markTipFunding, rows_guardedUpdate_iff ht]
  constructor
  · rintro h ⟨r, hr, hshallow⟩
    simp only [SocialTipRow.shallow, Bool.and_eq_true, decide_eq_true_eq] at hshallow
    have hdeep : r.confirmationsRequired ≤ r.fundingConfirmations := h r hr hshallow.1 rfl
    exact absurd hdeep (Int32.not_le.mpr hshallow.2)
  · intro h r hr hg _
    by_contra hlow
    exact h ⟨r, hr, by simpa [SocialTipRow.shallow, hg] using Int32.not_le.mp hlow⟩

namespace TipWorld

variable {w w' : TipWorld}

theorem rows_deep_of_quiet {e : TipEvent} (hinv : w.Inv) (hdeep : Rows SocialTipRow.Deep w.db)
    (h : w.step e = some w') (hquiet : ∀ op, e.Issues op → op.confirms = false) :
    Rows SocialTipRow.Deep w'.db := by
  intro k r' hr'
  rcases step_row hinv.rows h hr' with ⟨-, -, now, new, status, hstatus, hfresh⟩ | ⟨r, hr, hchange⟩
  · rw [hfresh]
    exact SocialTipRow.deep_ofNew hstatus
  · refine hchange.keeps (fun r r' => r.Deep → r'.Deep) (fun _ h => h)
      (fun _ _ _ h h' hr => h' (h hr)) ?_ (fun _ _ h => h) (hdeep k r hr)
    intro op r r' hop hedit hr
    exact hedit.deep (hquiet op hop) hr

theorem not_lags_of_turn {pass : TipPass} {faults : SweepFaults} {chains : ChainClients}
    {now : Timestamp} {tip : SocialTipRow} (hcount : pass.count chains tip = none)
    (hverify : pass ≠ .verify) : ¬ Lags w (.turn pass faults chains now tip) := by
  rintro ⟨_, _, _, _, _, _, heq, -, -, ⟨n, hn, -⟩ | ⟨hpass, -⟩⟩
  · obtain ⟨rfl, -, rfl, -, rfl⟩ := TipEvent.turn.inj heq
    rw [hcount] at hn
    cases hn
  · obtain ⟨rfl, -⟩ := TipEvent.turn.inj heq
    exact hverify hpass

/-- A count turn keeps all rows deep exactly when it does not lag. -/
theorem rows_deep_count_iff {pass : TipPass} {faults : SweepFaults} {chains : ChainClients}
    {now : Timestamp} {tip : SocialTipRow} (hpass : pass.counts) (hpolled : (pass, tip) ∈ w.polled)
    (hdeep : Rows SocialTipRow.Deep w.db) :
    Rows SocialTipRow.Deep (pass.turn faults chains now tip w.db) ↔
      ¬ Lags w (.turn pass faults chains now tip) := by
  have hlags : Lags w (.turn pass faults chains now tip) ↔ ∃ n, pass.count chains tip = some n ∧
      ∃ r, w.db.get? tip.id = some r ∧ r.live ∧ n < r.confirmationsRequired := by
    constructor
    · rintro ⟨_, _, _, _, _, r, heq, -, hr, ⟨n, hn, hlow⟩ | ⟨rfl, -⟩⟩
      · obtain ⟨rfl, -, rfl, -, rfl⟩ := TipEvent.turn.inj heq
        exact ⟨n, hn, r, hr, hlow⟩
      · obtain ⟨rfl, -⟩ := TipEvent.turn.inj heq
        cases hpass
    · rintro ⟨n, hn, r, hr, hlow⟩
      exact ⟨pass, faults, chains, now, tip, r, rfl, hpolled, hr, .inl ⟨n, hn, hlow⟩⟩
  rw [TipPass.turn_of_counts hpass, hlags]
  cases hn : pass.count chains tip with
  | none => simp [hdeep]
  | some n => simpa using SocialTips.rows_count_iff hdeep

/-- A verify turn keeps all rows deep exactly when it does not lag. -/
theorem rows_deep_verify_iff {faults : SweepFaults} {chains : ChainClients} {now : Timestamp}
    {tip : SocialTipRow} (hpolled : (.verify, tip) ∈ w.polled)
    (hdeep : Rows SocialTipRow.Deep w.db) :
    Rows SocialTipRow.Deep (TipPass.verify.turn faults chains now tip w.db) ↔
      ¬ Lags w (.turn .verify faults chains now tip) := by
  have hlags : Lags w (.turn .verify faults chains now tip) ↔
      (∃ o, verifyFundingAmount chains tip = some (.verified o)) ∧
        ∃ r, w.db.get? tip.id = some r ∧ r.shallow := by
    constructor
    · rintro ⟨_, _, _, _, _, r, heq, -, hr, ⟨n, hn, -⟩ | ⟨-, hverdict, hshallow⟩⟩
      · obtain ⟨rfl, -⟩ := TipEvent.turn.inj heq
        cases hn
      · obtain ⟨-, -, rfl, -, rfl⟩ := TipEvent.turn.inj heq
        exact ⟨hverdict, r, hr, hshallow⟩
    · rintro ⟨hverdict, r, hr, hshallow⟩
      exact ⟨.verify, faults, chains, now, tip, r, rfl, hpolled, hr, .inr ⟨rfl, hverdict, hshallow⟩⟩
  have hkept : SocialTips.Kept (fun op => op.confirms = false) SocialTipRow.Deep :=
    ⟨fun _ _ _ _ => SocialTipRow.deep_ofNew, fun _ _ _ hop hedit => hedit.deep hop⟩
  rw [hlags]
  simp only [TipPass.turn, FundingPass.run, processPendingVerification]
  cases hverdict : verifyFundingAmount chains tip with
  | none => simp [hdeep]
  | some verdict =>
    cases verdict with
    | verified o => simpa using SocialTips.rows_verified_iff hdeep
    | short o =>
      have h : Rows SocialTipRow.Deep (w.db.markTipFundingMismatch now tip.id (observedI64 o)).2 :=
        hkept.apply (rfl : TipOp.confirms (.mismatch now tip.id (observedI64 o)) = false) hdeep
      simpa using h
    | unfunded | drained _ _ | lwsError =>
      have h : Rows SocialTipRow.Deep (w.db.touchTipLastCheck now tip.id).2 :=
        hkept.apply (rfl : TipOp.confirms (.touch now tip.id) = false) hdeep
      simpa using h

/-- **One step.**  From a world whose rows are all deep, an event leads to one exactly when it does
not lag. -/
theorem rows_deep_step_iff {e : TipEvent} (hinv : w.Inv) (hdeep : Rows SocialTipRow.Deep w.db)
    (h : w.step e = some w') : Rows SocialTipRow.Deep w'.db ↔ ¬ Lags w e := by
  have hquiet : (∀ op, e.Issues op → op.confirms = false) → ¬ Lags w e →
      (Rows SocialTipRow.Deep w'.db ↔ ¬ Lags w e) := by
    intro hissues hnot
    exact iff_of_true (rows_deep_of_quiet hinv hdeep h hissues) hnot
  cases e with
  | call op =>
    refine hquiet ?_ (not_lags_of_not_turn (by simp))
    rintro op' rfl
    simp only [step, Option.ite_none_right_eq_some, Bool.and_eq_true] at h
    obtain ⟨⟨hasked, -⟩, -⟩ := h
    cases op' <;> first | rfl | cases hasked
  | poll pass now => exact hquiet (fun _ hop => hop.elim) (not_lags_of_not_turn (by simp))
  | drop pass tip => exact hquiet (fun _ hop => hop.elim) (not_lags_of_not_turn (by simp))
  | deleteUser now u => exact hquiet (fun _ hop => hop.elim) (not_lags_of_not_turn (by simp))
  | turn pass faults chains now tip =>
    have hstep := h
    simp only [step, Option.ite_none_right_eq_some, Option.some.injEq] at hstep
    obtain ⟨hpolled, rfl⟩ := hstep
    cases pass with
    | countXmr | countWow | countGrin => exact rows_deep_count_iff rfl hpolled hdeep
    | verify => exact rows_deep_verify_iff hpolled hdeep
    | confirm | reorg =>
      refine hquiet ?_ (not_lags_of_turn rfl (by simp))
      intro op hop
      cases op <;> first | rfl | cases hop

end TipWorld

/-- **The counter under replicas.**  In a run no step of which lags, every row that is `pending`,
`claiming` or `claimed` has the confirmations it requires, and any further event keeps it so
exactly when it does not lag either. -/
theorem confirmed_under_replicas {w : TipWorld} {events : List TipEvent}
    (hrun : (TipWorld.system.only fun w e _ => ¬ Lags w e).Run .empty events w) :
    Rows SocialTipRow.Deep w.db ∧
      ∀ e w', w.step e = some w' → (Rows SocialTipRow.Deep w'.db ↔ ¬ Lags w e) := by
  have hboth : w.Inv ∧ Rows SocialTipRow.Deep w.db := by
    refine hrun.invariant (I := fun w => w.Inv ∧ Rows SocialTipRow.Deep w.db) ?_
      ⟨TipWorld.inv_empty, SocialTips.rows_empty _⟩
    rintro w e w' ⟨hstep, hnot⟩ ⟨hinv, hdeep⟩
    exact ⟨TipWorld.inv_step hstep hinv, (TipWorld.rows_deep_step_iff hinv hdeep hstep).mpr hnot⟩
  refine ⟨hboth.2, ?_⟩
  intro e w' hstep
  exact TipWorld.rows_deep_step_iff hboth.1 hboth.2 hstep

/-! ### A single worker -/

/-- A turn on a row whose status and counter did not move since it was polled does not lag, however
far behind its node is. -/
theorem not_lags_of_fresh {w : TipWorld} {pass : TipPass} {faults : SweepFaults}
    {chains : ChainClients} {now : Timestamp} {tip : SocialTipRow} (hinv : w.Inv)
    (hdeep : Rows SocialTipRow.Deep w.db)
    (hfresh : ∀ r, w.db.get? tip.id = some r →
      r.status = tip.status ∧ r.fundingConfirmations = tip.fundingConfirmations) :
    ¬ Lags w (.turn pass faults chains now tip) := by
  rintro ⟨pass', _, chains', _, tip', r, heq, hpolled, hr, hlags⟩
  obtain ⟨rfl, -, rfl, -, rfl⟩ := TipEvent.turn.inj heq
  obtain ⟨hstatus, hcounter⟩ := hfresh r hr
  have hrequired : r.confirmationsRequired = tip.confirmationsRequired :=
    congrArg TipTerms.confirmationsRequired (hinv.terms _ hpolled r hr)
  obtain ⟨now', t, hpoll⟩ := hinv.polled _ hpolled
  have hguard := fun (p : SocialTipRow → Bool) (before : SocialTipRow → SocialTipRow → Bool) n
    (h : tip ∈ (t.select p before).take n) => (Table.mem_select.mp (List.mem_of_mem_take h)).2
  -- what the count passes poll
  have hcount : pass.counts → tip.status ≠ .claiming ∧ tip.status ≠ .claimed ∧
      tip.fundingConfirmations < tip.confirmationsRequired := by
    intro hpass
    cases pass with
    | countXmr | countWow | countGrin =>
      have h := hguard _ _ _ hpoll
      simp only [Bool.and_eq_true, Bool.or_eq_true, decide_eq_true_eq] at h
      obtain ⟨⟨⟨⟨⟨hpending, -⟩, -⟩, hlow⟩, -⟩, -⟩ := h
      refine ⟨?_, ?_, hlow⟩ <;>
        · intro h
          simp [h] at hpending
    | verify | confirm | reorg => cases hpass
  rcases hlags with ⟨n, hn, hlive, -⟩ | ⟨rfl, -, hshallow⟩
  · have hpass : pass.counts := by
      cases pass <;> first | rfl | cases hn
    obtain ⟨hclaiming, hclaimed, hlow⟩ := hcount hpass
    have hhigh := hdeep _ r hr hlive
    rw [hrequired, hcounter] at hhigh
    exact absurd hhigh (Int32.not_le.mpr hlow)
  · have h := hguard _ _ _ hpoll
    simp only [Bool.and_eq_true, decide_eq_true_eq] at h
    simp only [SocialTipRow.shallow, Bool.and_eq_true, decide_eq_true_eq] at hshallow
    rw [hrequired, hcounter] at hshallow
    exact absurd h.1.2 (Int32.not_le.mpr hshallow.2)

/-! ### Two workers -/

/-- A Monero tip of 5 units. -/
def NewSocialTip.moneroSample : NewSocialTip :=
  { grinSample with
    asset := "xmr"
    tipAddress := some "4tip"
    tipViewKey := some "77"
    grinCommitment := none }

/-- A node at height `height` that knows the funding of the sample at height 100. -/
def LwsClient.moneroAt (height : UInt64) : LwsClient where
  network := "Monero"
  daemonConfigured := true
  addressTxs _ _ := .ok ⟨[⟨"f0", 100, 5, 0, false⟩], height⟩
  getInfo := .ok ⟨some height, "OK", false⟩
  transactions _ := .ok ⟨some [⟨some 100, some false⟩], "OK"⟩

/-- Only Monero is enabled. -/
def ChainClients.moneroOnly (lws : LwsClient) : ChainClients := ⟨none, none, some lws, none, none⟩

/-- The sample tip as it is created. -/
def SocialTipRow.moneroFresh : SocialTipRow := .ofNew 1 0 .moneroSample .pendingConfirmation

/-- The sample tip after a count. -/
def SocialTipRow.moneroCounted : SocialTipRow :=
  { moneroFresh with
    fundingConfirmations := 12
    fundingConfirmedAt := some (seconds 2)
    lastConfirmationCheck := some (seconds 2)
    updatedAt := seconds 2 }

/-- Two workers poll the sample tip; one counts 12 confirmations. -/
def TipEvent.counted : List TipEvent :=
  [.call (.create 0 1 .moneroSample), .poll .countXmr (seconds 1), .poll .countXmr (seconds 1),
    .turn .countXmr .none (.moneroOnly (.moneroAt 111)) (seconds 2) .moneroFresh]

/-- The tip is then verified and claimed. -/
def TipEvent.claimed : List TipEvent :=
  [.poll .verify (seconds 100),
    .turn .verify .none (.moneroOnly (.moneroAt 111)) (seconds 101) .moneroCounted,
    .call (.claim (seconds 102) 1 8)]

/-- The turn of the second worker, whose node is nine blocks behind. -/
def TipEvent.laggingTurn : TipEvent :=
  .turn .countXmr .none (.moneroOnly (.moneroAt 102)) (seconds 103) .moneroFresh

/-- The second worker's count leaves the claimed tip with 3 of 10 confirmations. -/
theorem lagging_worker_lowers_counter :
    ∃ events w r, TipWorld.system.Run .empty events w ∧ w.db.get? 1 = some r ∧
      r.status = .claiming ∧ r.fundingConfirmations < r.confirmationsRequired := by
  have hlife : (TipEvent.counted ++ TipEvent.claimed ++ [TipEvent.laggingTurn]).foldlM
      TipWorld.step .empty = some _ := rfl
  exact ⟨_, _, _, Lib.System.Run.ofOption_iff.mpr hlife, rfl, rfl, by decide⟩

/-- The sample tip after its claim. -/
def SocialTipRow.moneroClaimed : SocialTipRow :=
  { moneroCounted with
    status := .claiming
    fundingAmountVerified := true
    fundingAmountObserved := some 5
    fundingAmountVerifiedAt := some (seconds 101)
    claimedAt := some (seconds 102)
    claimedByUserId := some 8
    updatedAt := seconds 102 }

/-- The world after the claim; the second worker still holds its copy. -/
def TipWorld.moneroClaimed : TipWorld :=
  ⟨.singleton .moneroClaimed, [(.countXmr, .moneroFresh)], [1]⟩

theorem not_lags_of_row {w : TipWorld} {pass : TipPass} {faults : SweepFaults}
    {chains : ChainClients} {now : Timestamp} {tip r : SocialTipRow}
    (hr : w.db.get? tip.id = some r) (hlive : r.live = false)
    (hshallow : pass = .verify → r.shallow = false) :
    ¬ Lags w (.turn pass faults chains now tip) := by
  rintro ⟨_, _, _, _, _, r', heq, -, hr', hlags⟩
  obtain ⟨rfl, -, -, -, rfl⟩ := TipEvent.turn.inj heq
  obtain rfl := Option.some.inj (hr.symm.trans hr')
  rcases hlags with ⟨-, -, h, -⟩ | ⟨rfl, -, h⟩
  · simp [hlive] at h
  · simp [hshallow rfl] at h

theorem run_moneroClaimed : (TipWorld.system.only fun w e _ => ¬ Lags w e).Run .empty
    (TipEvent.counted ++ TipEvent.claimed) .moneroClaimed := by
  have hquiet : ∀ {w : TipWorld} op, ¬ Lags w (.call op) := fun op =>
    not_lags_of_not_turn (by simp)
  have hpoll : ∀ {w : TipWorld} pass now, ¬ Lags w (.poll pass now) := fun pass now =>
    not_lags_of_not_turn (by simp)
  refine .cons ⟨rfl, hquiet _⟩ (.cons ⟨rfl, hpoll _ _⟩ (.cons ⟨rfl, hpoll _ _⟩
    (.cons ⟨rfl, ?_⟩ (.cons ⟨rfl, hpoll _ _⟩ (.cons ⟨rfl, ?_⟩ (.cons ⟨rfl, hquiet _⟩ ?_))))))
  · exact not_lags_of_row (rfl : _ = some SocialTipRow.moneroFresh) rfl (by simp)
  · exact not_lags_of_row (rfl : _ = some SocialTipRow.moneroCounted) rfl fun _ => rfl
  · exact .nil _

/-- The claimed sample has its confirmations, and the second worker's turn would end that. -/
theorem moneroClaimed_deep :
    Rows SocialTipRow.Deep TipWorld.moneroClaimed.db ∧ Lags .moneroClaimed .laggingTurn := by
  have hstep : TipWorld.moneroClaimed.step .laggingTurn = some _ := rfl
  obtain ⟨hdeep, hnext⟩ := confirmed_under_replicas run_moneroClaimed
  refine ⟨hdeep, ?_⟩
  by_contra hnot
  have hrow := (hnext _ _ hstep).mpr hnot 1 _ rfl rfl
  exact absurd hrow (by decide)

end SmirkBackend
