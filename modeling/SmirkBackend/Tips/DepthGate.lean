import SmirkBackend.Tips.SweepReconciler

/-!
# The depth gate of a settlement

A `claiming` tip may settle only when its winning spend is in a block of the reported chain and
deep enough.  The gate counts confirmations with saturating signed arithmetic and then compares
them as an unsigned number, so a winner that lies more than one block above the reported height
passes: its negative count reads as a huge one.

`gate_passes_iff` gives exactly the heights that pass the gate, and
`processAwaitingTip_depthGated_iff` says exactly when a call keeps to the required depth.
-/

namespace SmirkBackend

open Lib (Table Patch)

/-! ### The gate -/

theorem sweepConfirmThreshold_pos (asset : String) : 0 < (sweepConfirmThreshold asset).toNat := by
  unfold sweepConfirmThreshold
  split <;> decide

theorem sweepConfirmThreshold_le (asset : String) : (sweepConfirmThreshold asset).toNat ≤ 10 := by
  unfold sweepConfirmThreshold
  split <;> decide

/-- The winner is in the reported chain, at least `needed` blocks deep. -/
def DeepEnough (tipHeight : Int64) (winner : ConfirmedSpend) (needed : UInt64) : Prop :=
  winner.blockHeight.toInt ≤ tipHeight.toInt ∧
    (needed.toNat : ℤ) ≤ tipHeight.toInt - winner.blockHeight.toInt + 1

/-- The winner lies more than one block above the reported height. -/
def AboveTip (tipHeight : Int64) (winner : ConfirmedSpend) : Prop :=
  tipHeight.toInt + 1 < winner.blockHeight.toInt

theorem toInt_confirmationsOf (tipHeight : Int64) (winner : ConfirmedSpend) :
    (confirmationsOf tipHeight winner).toInt =
      max (-2 ^ 63 + 1) (min (2 ^ 63 - 1) (tipHeight.toInt - winner.blockHeight.toInt + 1)) := by
  have h1 : (1 : Int64).toInt = 1 := rfl
  simp only [confirmationsOf, Lib.toInt_saturatingAdd, Lib.toInt_saturatingSub, h1]
  omega

/-- The gate lets through the deep winners and the ones above the tip. -/
theorem gate_passes_iff {tipHeight : Int64} {winner : ConfirmedSpend} {needed : UInt64}
    (hpos : 0 < needed.toNat) (hle : needed.toNat ≤ 10) :
    ¬ (confirmationsOf tipHeight winner).toUInt64 < needed ↔
      DeepEnough tipHeight winner needed ∨ AboveTip tipHeight winner := by
  have hcast := Lib.toNat_toUInt64 (confirmationsOf tipHeight winner)
  rw [toInt_confirmationsOf] at hcast
  rw [UInt64.lt_iff_toNat_lt]
  unfold DeepEnough AboveTip
  split_ifs at hcast <;> omega

/-! ### What the statements do to the settlement columns -/

/-- The columns a settlement writes. -/
def SocialTipRow.settlement (r : SocialTipRow) :
    TipStatus × Option String × Option Int32 × Option Timestamp :=
  (r.status, r.sweepTxid, r.sweepBlockHeight, r.sweepConfirmedAt)

/-- No row's settlement columns differ. -/
def SameSettlement (db db' : SocialTips) : Prop :=
  ∀ id, (db'.get? id).map SocialTipRow.settlement = (db.get? id).map SocialTipRow.settlement

theorem SameSettlement.refl (db : SocialTips) : SameSettlement db db := fun _ => rfl

theorem SameSettlement.trans {db₁ db₂ db₃ : SocialTips} (h : SameSettlement db₁ db₂)
    (h' : SameSettlement db₂ db₃) : SameSettlement db₁ db₃ :=
  fun id => (h' id).trans (h id)

namespace SocialTips

theorem sameSettlement_guardedUpdate {now : Timestamp} {t : SocialTips} {id : Uuid}
    {guard : SocialTipRow → Bool} {f : Patch SocialTipRow}
    (h : ∀ r, guard r → (f.set r).settlement = r.settlement) :
    SameSettlement t (guardedUpdate now t id guard f).2 := by
  intro k
  rw [get?_guardedUpdate, Option.map_map]
  congr 1
  funext r
  simp only [Function.comp_apply]
  split_ifs with hk
  · exact h r hk.2
  · rfl

theorem sameSettlement_touchTipLastCheck (now : Timestamp) (t : SocialTips) (id : Uuid) :
    SameSettlement t (touchTipLastCheck now t id).2 :=
  sameSettlement_guardedUpdate fun _ _ => rfl

theorem sameSettlement_stampSweepConfirmedDmSent (now : Timestamp) (t : SocialTips) (id : Uuid) :
    SameSettlement t (stampSweepConfirmedDmSent now t id).2 :=
  sameSettlement_guardedUpdate fun _ _ => rfl

end SocialTips

section Passes

variable (faults : SweepFaults) (now : Timestamp)

theorem sameSettlement_touchAfter (tip : SocialTipRow) (db : SocialTips) :
    SameSettlement db (touchAfter faults now tip db) := by
  unfold touchAfter SweepFaults.run
  split
  · exact .refl db
  · exact SocialTips.sameSettlement_touchTipLastCheck now db tip.id

theorem sameSettlement_sendSweepConfirmedDmIfNeeded (tip : SocialTipRow) (db : SocialTips) :
    SameSettlement db (sendSweepConfirmedDmIfNeeded faults now tip db) := by
  unfold sendSweepConfirmedDmIfNeeded SweepFaults.run
  split_ifs
  · exact .refl db
  · split
    · exact .refl db
    · exact SocialTips.sameSettlement_stampSweepConfirmedDmSent now db tip.id

/-- The statement that settles a winner. -/
def settleStmt (tip : SocialTipRow) (winner : ConfirmedSpend) : SweepStmt :=
  if tip.sweepTxid = some winner.txid then .confirmSweepOnchain else .clearClaimedByOnSettle

theorem settleWinner_eq (tip : SocialTipRow) (winner : ConfirmedSpend) (db : SocialTips) :
    ∃ attribution, settleWinner faults now tip winner db =
      faults.run (settleStmt tip winner) db
        (db.settle attribution now tip.id winner.txid winner.blockHeight.toInt32
          winner.blockHash) := by
  unfold settleWinner settleStmt
  split_ifs
  · exact ⟨_, rfl⟩
  · exact ⟨_, rfl⟩

/-- The stored row can be settled: it still awaits it and the statement runs. -/
def CanSettle (faults : SweepFaults) (tip : SocialTipRow) (winner : ConfirmedSpend)
    (db : SocialTips) : Prop :=
  (∃ r, db.get? tip.id = some r ∧ SocialTips.awaitingSettlement r) ∧
    faults (settleStmt tip winner) = none

variable {faults}

/-- A settlement that cannot happen changes no row. -/
theorem get?_settleWinner_of_not_canSettle {tip : SocialTipRow} {winner : ConfirmedSpend}
    {db : SocialTips} (h : ¬ CanSettle faults tip winner db) :
    ((settleWinner faults now tip winner db).1 = .ok none ∨
      ∃ e, (settleWinner faults now tip winner db).1 = .error e) ∧
      ∀ id, (settleWinner faults now tip winner db).2.get? id = db.get? id := by
  obtain ⟨attribution, heq⟩ := settleWinner_eq faults now tip winner db
  rw [heq]
  unfold SweepFaults.run
  cases hf : faults (settleStmt tip winner) with
  | some e => exact ⟨.inr ⟨e, rfl⟩, fun _ => rfl⟩
  | none =>
    have hguard : ∀ r, db.get? tip.id = some r → ¬ SocialTips.awaitingSettlement r := by
      intro r hr hg
      exact h ⟨⟨r, hr, hg⟩, hf⟩
    obtain ⟨hnone, hsame⟩ := SocialTips.guardedUpdate_of_not_guard now _ hguard
    exact ⟨.inl (congrArg Except.ok hnone), hsame⟩

theorem sameSettlement_of_not_canSettle {tip : SocialTipRow} {winner : ConfirmedSpend}
    {db : SocialTips} (h : ¬ CanSettle faults tip winner db) :
    SameSettlement db (settleWinner faults now tip winner db).2 :=
  fun id => congrArg _ ((get?_settleWinner_of_not_canSettle now h).2 id)

theorem settleWinner_of_canSettle {tip : SocialTipRow} {winner : ConfirmedSpend}
    {db : SocialTips} (h : CanSettle faults tip winner db) :
    ∃ r', r'.status = .claimed ∧ (settleWinner faults now tip winner db).1 = .ok (some r') ∧
      (settleWinner faults now tip winner db).2.get? tip.id = some r' := by
  obtain ⟨⟨r, hr, hg⟩, hf⟩ := h
  obtain ⟨attribution, heq⟩ := settleWinner_eq faults now tip winner db
  rw [heq]
  unfold SweepFaults.run
  rw [hf]
  obtain ⟨hret, hget⟩ := SocialTips.guardedUpdate_of_guard now _ hr hg
  exact ⟨_, rfl, congrArg Except.ok hret, hget⟩

variable (faults)

/-- The call keeps to the required depth: unless its probe found a winner that is deep enough,
it leaves the settlement columns of every row alone. -/
def DepthGated (chains : ChainClients) (tip : SocialTipRow) (db : SocialTips) : Prop :=
  SameSettlement db (processAwaitingTip faults now chains tip db).2 ∨
    ∃ spends tipHeight winner, probeConfirmedSpends chains tip = .ok (spends, tipHeight) ∧
      pickWinner spends = some winner ∧
      DeepEnough tipHeight winner (sweepConfirmThreshold (toLowercase tip.asset))

/-- The probe reports a winner more than one block above the height it reports, and the stored
row can be settled. -/
def WinnerAboveTip (chains : ChainClients) (tip : SocialTipRow) (db : SocialTips) : Prop :=
  ∃ spends tipHeight winner, probeConfirmedSpends chains tip = .ok (spends, tipHeight) ∧
    pickWinner spends = some winner ∧ AboveTip tipHeight winner ∧ CanSettle faults tip winner db

theorem processAwaitingTip_of_passes {chains : ChainClients} {tip : SocialTipRow}
    (db : SocialTips) {spends : List ConfirmedSpend} {tipHeight : Int64}
    {winner : ConfirmedSpend} (hprobe : probeConfirmedSpends chains tip = .ok (spends, tipHeight))
    (hwinner : pickWinner spends = some winner)
    (hpass : ¬ (confirmationsOf tipHeight winner).toUInt64 <
      sweepConfirmThreshold (toLowercase tip.asset)) :
    SameSettlement (settleWinner faults now tip winner db).2
      (processAwaitingTip faults now chains tip db).2 := by
  simp only [processAwaitingTip, hprobe, hwinner, hpass, ↓reduceIte]
  split <;> rename_i heq <;> rw [heq]
  · exact .refl _
  · exact .refl _
  · exact sameSettlement_sendSweepConfirmedDmIfNeeded faults now _ _

/-- **The depth gate.**  A call keeps to the required depth exactly when its probe does not
report a winner more than one block above the reported height while the row can be settled. -/
theorem processAwaitingTip_depthGated_iff (chains : ChainClients) (tip : SocialTipRow)
    (db : SocialTips) :
    DepthGated faults now chains tip db ↔ ¬ WinnerAboveTip faults chains tip db := by
  have hpos := sweepConfirmThreshold_pos (toLowercase tip.asset)
  have hle := sweepConfirmThreshold_le (toLowercase tip.asset)
  constructor
  · rintro hgated ⟨spends, tipHeight, winner, hprobe, hwinner, habove, hcan⟩
    have hpass := (gate_passes_iff hpos hle).mpr (.inr habove)
    rcases hgated with hsame | ⟨spends', tipHeight', winner', hprobe', hwinner', hdeep⟩
    · -- the row was awaiting settlement and is now claimed
      obtain ⟨r', hclaimed, -, hget⟩ := settleWinner_of_canSettle now hcan
      obtain ⟨⟨r, hr, hg⟩, -⟩ := hcan
      have hend := processAwaitingTip_of_passes faults now db hprobe hwinner hpass tip.id
      rw [hsame tip.id, hr, hget] at hend
      have hstatus : r.status = r'.status := congrArg Prod.fst (Option.some.inj hend)
      simp [SocialTips.awaitingSettlement, hstatus, hclaimed] at hg
    · -- a winner cannot be both deep and above the tip
      rw [hprobe] at hprobe'
      obtain ⟨rfl, rfl⟩ := Prod.mk.inj (Except.ok.inj hprobe')
      obtain rfl := Option.some.inj (hwinner.symm.trans hwinner')
      have h1 := hdeep.1
      unfold AboveTip at habove
      omega
  · intro hnot
    cases hprobe : probeConfirmedSpends chains tip with
    | error e =>
      left
      simp only [processAwaitingTip, hprobe]
      exact sameSettlement_touchAfter faults now tip db
    | ok result =>
      obtain ⟨spends, tipHeight⟩ := result
      cases hwinner : pickWinner spends with
      | none =>
        left
        simp only [processAwaitingTip, hprobe, hwinner]
        exact sameSettlement_touchAfter faults now tip db
      | some winner =>
        by_cases hpass : (confirmationsOf tipHeight winner).toUInt64 <
            sweepConfirmThreshold (toLowercase tip.asset)
        · left
          simp only [processAwaitingTip, hprobe, hwinner, hpass, ↓reduceIte]
          exact sameSettlement_touchAfter faults now tip db
        · rcases (gate_passes_iff hpos hle).mp hpass with hdeep | habove
          · exact .inr ⟨spends, tipHeight, winner, hprobe, hwinner, hdeep⟩
          · left
            have hcannot : ¬ CanSettle faults tip winner db := fun hcan =>
              hnot ⟨spends, tipHeight, winner, hprobe, hwinner, habove, hcan⟩
            exact (sameSettlement_of_not_canSettle now hcannot).trans
              (processAwaitingTip_of_passes faults now db hprobe hwinner hpass)

end Passes

/-! ### A Grin node that reports its kernels ahead of its height -/

/-- A node at height 99 whose output set no longer holds the voucher and which knows the sweep
kernel at height 101: two blocks arrived between the reads. -/
def GrinClient.ahead : GrinClient where
  status := .ok ⟨some (.ok 99), none⟩
  outputs _ := .ok ⟨some (.ok []), none⟩
  kernel _ := .ok ⟨some (.ok (some ⟨101⟩)), none⟩

/-- Only Grin is enabled. -/
def ChainClients.grinOnly (grin : GrinClient) : ChainClients := ⟨none, none, none, none, some grin⟩

/-- A Grin tip in `claiming` with its sweep recorded. -/
def SocialTipRow.sampleClaiming : SocialTipRow :=
  { ofNew 1 0 .grinSample .claiming with
    fundingAmountVerified := true
    claimedByUserId := some 8
    sweepTxid := some "5e" }

/-- The table that holds just `r`. -/
def SocialTips.singleton (r : SocialTipRow) : SocialTips := ⟨[r], by simp⟩

/-- The sample tip settles although its sweep is above the reported height. -/
theorem sampleClaiming_not_depthGated :
    ¬ DepthGated (fun _ => none) 5 (.grinOnly .ahead) .sampleClaiming
      (.singleton .sampleClaiming) := by
  rintro (hsame | ⟨spends, tipHeight, winner, hprobe, hwinner, hdeep⟩)
  · exact absurd (hsame 1) (by decide)
  · have hreal : probeConfirmedSpends (.grinOnly .ahead) .sampleClaiming =
        .ok ([⟨"5e", 101, none⟩], 99) := rfl
    rw [hreal] at hprobe
    obtain ⟨rfl, rfl⟩ := Prod.mk.inj (Except.ok.inj hprobe)
    obtain rfl := Option.some.inj hwinner
    exact absurd hdeep.1 (by decide)

end SmirkBackend
