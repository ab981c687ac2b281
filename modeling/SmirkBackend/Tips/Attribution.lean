import SmirkBackend.Tips.DepthGate
import SmirkBackend.Tips.Edits

/-!
# Attribution of a targeted tip

A targeted tip names its recipient.  The recipient claims it, reports the sweep, and once the
chain has confirmed that sweep a reconcile cycle should leave the row `claimed` by the recipient.
The claim accepts a recipient, but `confirm_tip_sweep` records the sweep of public tips only, and
a settlement keeps the claimer only if its winner is the recorded sweep.  So the attribution
survives exactly when the row carried the sweep beforehand, which only a settlement that a reorg
undid can have left there.

* `processAwaitingTip_cases` : what one call of the confirm pass can do.
* `targeted_settles_iff` : exactly when a targeted tip settles with its attribution.
* `sweepTxid_of_never_settled` : a targeted tip that no settlement touched carries no sweep.
-/

namespace SmirkBackend

open Lib (Table Patch)
open Lib.Table (OnlyAt)

/-! ### What one call can do -/

namespace SocialTips

theorem guardedUpdate_fst_eq_some {now : Timestamp} {t : SocialTips} {id : Uuid}
    {guard : SocialTipRow → Bool} {f : Patch SocialTipRow} {r' : SocialTipRow}
    (h : (guardedUpdate now t id guard f).1 = some r') :
    ∃ r, t.get? id = some r ∧ guard r ∧ r' = { f.set r with updatedAt := now } := by
  cases hr : t.get? id with
  | none => simp [guardedUpdate, Table.updateOne, hr] at h
  | some r =>
    by_cases hg : guard r
    · refine ⟨r, rfl, hg, ?_⟩
      rw [(guardedUpdate_of_guard now f hr hg).1] at h
      exact (Option.some.inj h).symm
    · simp [guardedUpdate, Table.updateOne, hr, Option.filter, hg] at h

theorem onlyAt_guardedUpdate (now : Timestamp) (t : SocialTips) (id : Uuid)
    (guard : SocialTipRow → Bool) (f : Patch SocialTipRow) :
    OnlyAt id t (guardedUpdate now t id guard f).2 := Table.onlyAt_updateOne t id guard _

end SocialTips

section Cycle

variable (faults : SweepFaults) (now : Timestamp)

theorem onlyAt_run (s : SweepStmt) (db : SocialTips) (id : Uuid) (guard : SocialTipRow → Bool)
    (f : Patch SocialTipRow) :
    OnlyAt id db (faults.run s db (SocialTips.guardedUpdate now db id guard f)).2 := by
  unfold SweepFaults.run
  split
  · exact .refl id db
  · exact SocialTips.onlyAt_guardedUpdate now db id guard f

theorem onlyAt_touchAfter (tip : SocialTipRow) (db : SocialTips) :
    OnlyAt tip.id db (touchAfter faults now tip db) := onlyAt_run faults now _ db _ _ _

theorem onlyAt_settleWinner (tip : SocialTipRow) (winner : ConfirmedSpend) (db : SocialTips) :
    OnlyAt tip.id db (settleWinner faults now tip winner db).2 := by
  obtain ⟨attribution, heq⟩ := settleWinner_eq faults now tip winner db
  rw [heq]
  exact onlyAt_run faults now _ db _ _ _

theorem onlyAt_sendSweepConfirmedDmIfNeeded (tip : SocialTipRow) (db : SocialTips) :
    OnlyAt tip.id db (sendSweepConfirmedDmIfNeeded faults now tip db) := by
  unfold sendSweepConfirmedDmIfNeeded
  split
  · exact .refl tip.id db
  · exact onlyAt_run faults now _ db _ _ _

/-- A call stamps the row, or settles the winner its probe found and notes the notification. -/
theorem processAwaitingTip_cases (chains : ChainClients) (tip : SocialTipRow) (db : SocialTips) :
    (processAwaitingTip faults now chains tip db).2 = touchAfter faults now tip db ∨
    ∃ spends tipHeight winner, probeConfirmedSpends chains tip = .ok (spends, tipHeight) ∧
      pickWinner spends = some winner ∧
      ¬ (confirmationsOf tipHeight winner).toUInt64 <
        sweepConfirmThreshold (toLowercase tip.asset) ∧
      ((processAwaitingTip faults now chains tip db).2 =
          (settleWinner faults now tip winner db).2 ∨
        ∃ settled, (settleWinner faults now tip winner db).1 = .ok (some settled) ∧
          (processAwaitingTip faults now chains tip db).2 =
            sendSweepConfirmedDmIfNeeded faults now settled
              (settleWinner faults now tip winner db).2) := by
  cases hprobe : probeConfirmedSpends chains tip with
  | error e => exact .inl (by simp [processAwaitingTip, hprobe])
  | ok result =>
    obtain ⟨spends, tipHeight⟩ := result
    cases hwinner : pickWinner spends with
    | none => exact .inl (by simp [processAwaitingTip, hprobe, hwinner])
    | some winner =>
      by_cases hpass : (confirmationsOf tipHeight winner).toUInt64 <
          sweepConfirmThreshold (toLowercase tip.asset)
      · exact .inl (by simp [processAwaitingTip, hprobe, hwinner, hpass])
      · refine .inr ⟨spends, tipHeight, winner, rfl, hwinner, hpass, ?_⟩
        simp only [processAwaitingTip, hprobe, hwinner, hpass, ↓reduceIte]
        split <;> rename_i heq <;> rw [heq]
        · exact .inl rfl
        · exact .inl rfl
        · exact .inr ⟨_, rfl, rfl⟩

theorem id_of_settleWinner {tip settled : SocialTipRow} {winner : ConfirmedSpend}
    {db : SocialTips} (h : (settleWinner faults now tip winner db).1 = .ok (some settled)) :
    settled.id = tip.id := by
  obtain ⟨attribution, heq⟩ := settleWinner_eq faults now tip winner db
  rw [heq] at h
  unfold SweepFaults.run at h
  split at h
  · cases h
  · obtain ⟨r, hr, -, rfl⟩ := SocialTips.guardedUpdate_fst_eq_some (Except.ok.inj h)
    exact Table.key_of_get? hr

theorem onlyAt_processAwaitingTip (chains : ChainClients) (tip : SocialTipRow) (db : SocialTips) :
    OnlyAt tip.id db (processAwaitingTip faults now chains tip db).2 := by
  rcases processAwaitingTip_cases faults now chains tip db with
    h | ⟨-, -, winner, -, -, -, h | ⟨settled, hsettled, h⟩⟩
  · rw [h]
    exact onlyAt_touchAfter faults now tip db
  · rw [h]
    exact onlyAt_settleWinner faults now tip winner db
  · rw [h]
    have hdm := onlyAt_sendSweepConfirmedDmIfNeeded faults now settled
      (settleWinner faults now tip winner db).2
    rw [id_of_settleWinner faults now hsettled] at hdm
    exact (onlyAt_settleWinner faults now tip winner db).trans hdm

theorem get?_confirmCycleInner (chains : SocialTipRow → ChainClients) {db : SocialTips}
    {tip : SocialTipRow} (htip : tip ∈ db.getTipsAwaitingSweepConfirmation now batchSize) :
    db.get? tip.id = some tip ∧ SocialTips.awaitingSettlement tip ∧
    ∃ db₁, db₁.get? tip.id = some tip ∧
      (confirmCycleInner faults now chains db).get? tip.id =
        (processAwaitingTip faults now (chains tip) tip db₁).2.get? tip.id := by
  obtain ⟨hrow, hguard⟩ := Table.mem_select.mp (List.mem_of_mem_take htip)
  have hget : db.get? tip.id = some tip := Table.get?_of_mem hrow
  have hnodup : ((db.getTipsAwaitingSweepConfirmation now batchSize).map
      SocialTipRow.id).Nodup :=
    ((List.take_sublist ..).map _).nodup (db.nodup_select _ _)
  obtain ⟨db₁, hsame, hcycle⟩ := Table.get?_foldl
    (fun tip db => onlyAt_processAwaitingTip faults now (chains tip) tip db) hnodup htip db
  simp only [Bool.and_eq_true, decide_eq_true_eq] at hguard
  refine ⟨hget, ?_, db₁, hsame.trans hget, hcycle⟩
  simpa [SocialTips.awaitingSettlement] using hguard.1.1

/-! ### What a settlement writes -/

/-- The claim of a row: its place, its sweep and its claimer. -/
def SocialTipRow.claim (r : SocialTipRow) : TipStatus × Option String × Option Uuid :=
  (r.status, r.sweepTxid, r.claimedByUserId)

/-- The claim a settlement by `winner` leaves: the claimer stays if the winner is the recorded
sweep. -/
def settledClaim (tip : SocialTipRow) (winner : ConfirmedSpend) :
    TipStatus × Option String × Option Uuid :=
  (.claimed, some winner.txid,
    if tip.sweepTxid = some winner.txid then tip.claimedByUserId else none)

theorem claim_run_of_same {s : SweepStmt} {db : SocialTips} {id k : Uuid} {r r' : SocialTipRow}
    {guard : SocialTipRow → Bool} {f : Patch SocialTipRow} (hf : ∀ r, (f.set r).claim = r.claim)
    (hr : db.get? k = some r)
    (hr' : (faults.run s db (SocialTips.guardedUpdate now db id guard f)).2.get? k = some r') :
    r'.claim = r.claim := by
  unfold SweepFaults.run at hr'
  split at hr'
  · exact congrArg _ (Option.some.inj (hr'.symm.trans hr))
  · simp only [SocialTips.get?_guardedUpdate, hr, Option.map_some, Option.some.injEq] at hr'
    subst hr'
    split
    · exact hf r
    · rfl

/-- What a call leaves of a fresh row that awaits its settlement: its claim, or the settlement of
the winner the probe found. -/
theorem claim_processAwaitingTip {chains : ChainClients} {tip r' : SocialTipRow} {db : SocialTips}
    (hfresh : db.get? tip.id = some tip) (hawaits : SocialTips.awaitingSettlement tip)
    (hr' : (processAwaitingTip faults now chains tip db).2.get? tip.id = some r') :
    r'.claim = tip.claim ∨
    ∃ spends tipHeight winner, probeConfirmedSpends chains tip = .ok (spends, tipHeight) ∧
      pickWinner spends = some winner ∧ r'.claim = settledClaim tip winner := by
  -- what the settlement statement stores
  have hsettle : ∀ winner r', (settleWinner faults now tip winner db).2.get? tip.id = some r' →
      r'.claim = tip.claim ∨ r'.claim = settledClaim tip winner := by
    intro winner r' hr'
    unfold settleWinner SweepFaults.run at hr'
    split at hr' <;> rename_i hmatch <;> split at hr'
    · exact .inl (congrArg _ (Option.some.inj (hr'.symm.trans hfresh)))
    · rw [SocialTips.confirmSweepOnchain, SocialTips.settle,
        (SocialTips.guardedUpdate_of_guard now _ hfresh hawaits).2, Option.some.injEq] at hr'
      subst hr'
      simp [SocialTipRow.claim, settledClaim, hmatch]
    · exact .inl (congrArg _ (Option.some.inj (hr'.symm.trans hfresh)))
    · rw [SocialTips.clearClaimedByOnSettle, SocialTips.settle,
        (SocialTips.guardedUpdate_of_guard now _ hfresh hawaits).2, Option.some.injEq] at hr'
      subst hr'
      simp [SocialTipRow.claim, settledClaim, hmatch]
  rcases processAwaitingTip_cases faults now chains tip db with
    h | ⟨spends, tipHeight, winner, hprobe, hwinner, -, hpost⟩
  · rw [h] at hr'
    exact .inl (claim_run_of_same faults now (fun _ => rfl) hfresh hr')
  · rcases hpost with h | ⟨settled, hsettled, h⟩
    · rw [h] at hr'
      rcases hsettle winner r' hr' with hsame | hclaim
      · exact .inl hsame
      · exact .inr ⟨spends, tipHeight, winner, hprobe, hwinner, hclaim⟩
    · -- the notification stamp writes no column of the claim
      rw [h] at hr'
      have hmid : ∃ r, (settleWinner faults now tip winner db).2.get? tip.id = some r ∧
          r'.claim = r.claim := by
        unfold sendSweepConfirmedDmIfNeeded at hr'
        split at hr'
        · exact ⟨r', hr', rfl⟩
        · cases hmid : (settleWinner faults now tip winner db).2.get? tip.id with
          | none =>
            unfold SweepFaults.run at hr'
            split at hr'
            · simp [hmid] at hr'
            · simp [SocialTips.stampSweepConfirmedDmSent, SocialTips.get?_guardedUpdate, hmid]
                at hr'
          | some r => exact ⟨r, rfl, claim_run_of_same faults now (fun _ => rfl) hmid hr'⟩
      obtain ⟨r, hr, hsame⟩ := hmid
      rcases hsettle winner r hr with hkept | hclaim
      · exact .inl (hsame.trans hkept)
      · exact .inr ⟨spends, tipHeight, winner, hprobe, hwinner, hsame.trans hclaim⟩

/-- A fresh row whose winner is deep enough is settled by it. -/
theorem claim_of_deepEnough {chains : ChainClients} {tip : SocialTipRow} {db : SocialTips}
    {spends : List ConfirmedSpend} {tipHeight : Int64} {winner : ConfirmedSpend}
    (hfresh : db.get? tip.id = some tip) (hawaits : SocialTips.awaitingSettlement tip)
    (hruns : ∀ s, faults s = none)
    (hprobe : probeConfirmedSpends chains tip = .ok (spends, tipHeight))
    (hwinner : pickWinner spends = some winner)
    (hdeep : DeepEnough tipHeight winner (sweepConfirmThreshold (toLowercase tip.asset))) :
    ∃ r', (processAwaitingTip faults now chains tip db).2.get? tip.id = some r' ∧
      r'.claim = settledClaim tip winner := by
  have hpass := (gate_passes_iff (sweepConfirmThreshold_pos _) (sweepConfirmThreshold_le _)).mpr
    (.inl hdeep)
  have hcan : CanSettle faults tip winner db := ⟨⟨tip, hfresh, hawaits⟩, hruns _⟩
  obtain ⟨r₁, hclaimed, -, hr₁⟩ := settleWinner_of_canSettle now hcan
  have hsame := processAwaitingTip_of_passes faults now db hprobe hwinner hpass tip.id
  rw [hr₁] at hsame
  cases hr' : (processAwaitingTip faults now chains tip db).2.get? tip.id with
  | none => simp [hr'] at hsame
  | some r' =>
    refine ⟨r', rfl, ?_⟩
    rw [hr', Option.map_some, Option.map_some, Option.some.injEq] at hsame
    have hstatus : r'.status = .claimed := (congrArg Prod.fst hsame).trans hclaimed
    rcases claim_processAwaitingTip faults now hfresh hawaits hr' with
      hkept | ⟨spends', tipHeight', winner', hprobe', hwinner', hclaim⟩
    · -- a settled row is not where it was
      have h : r'.status = tip.status := congrArg Prod.fst hkept
      simp [SocialTips.awaitingSettlement, ← h, hstatus] at hawaits
    · rw [hprobe] at hprobe'
      obtain ⟨rfl, -⟩ := Prod.mk.inj (Except.ok.inj hprobe')
      obtain rfl := Option.some.inj (hwinner.symm.trans hwinner')
      exact hclaim

end Cycle

/-! ### What the chain confirms -/

/-- Whether a history entry is a spend of the address. -/
def entryIsSpend (c : ElectrumClient) (address : String) (e : ElectrumHistoryEntry) :
    Except AppError Bool := do
  isVerboseTxSpendOf (← c.getTransactionVerbose e.txHash) address

/-- The confirmed history of the address can be read, and its spends are the transaction `txid`,
deep enough. -/
def ElectrumConfirms (c : ElectrumClient) (address txid : String) (needed : UInt64) : Prop :=
  ∃ history tipHeight, c.getHistory address = .ok history ∧ c.getTipHeight = .ok tipHeight ∧
    (∀ e ∈ history, 0 < e.height → entryIsSpend c address e = .ok false ∨
      (entryIsSpend c address e = .ok true ∧ e.txHash = txid ∧
        DeepEnough tipHeight ⟨e.txHash, e.height, none⟩ needed)) ∧
    ∃ e ∈ history, 0 < e.height ∧ entryIsSpend c address e = .ok true

/-- Whether a light-wallet transaction is a confirmed spend of the address. -/
def addressTxIsSpend (t : AddressTx) : Bool :=
  !t.mempool && 0 < t.height && 0 < t.totalSent && t.totalReceived = 0

/-- The confirmed spends of the address are the transaction `txid`, deep enough. -/
def LwsConfirms (c : LwsClient) (address viewKey txid : String) (needed : UInt64) : Prop :=
  ∃ txs tipHeight, c.getAddressTxs address viewKey = .ok txs ∧
    (if 0 < txs.blockchainHeight then tipHeight = txs.blockchainHeight
      else c.getBlockchainHeight = .ok tipHeight) ∧
    (∀ t ∈ txs.transactions, addressTxIsSpend t → t.hash = txid ∧
      DeepEnough tipHeight.toInt64 ⟨t.hash, t.height.toInt64, none⟩ needed) ∧
    ∃ t ∈ txs.transactions, addressTxIsSpend t

/-- The voucher is spent and the kernel `txid` is deep enough. -/
def GrinConfirms (c : GrinClient) (commit txid : String) (needed : UInt64) : Prop :=
  ∃ tipHeight outputs height, c.getHeight = .ok tipHeight ∧
    c.getOutputs [commit] = .ok outputs ∧ (∀ o ∈ outputs, o.commit ≠ commit) ∧
    c.getKernel txid = .ok (some height) ∧
    DeepEnough tipHeight.toInt64 ⟨txid, height.toInt64, none⟩ needed

/-- The chain of the tip's asset confirms exactly the sweep `txid`, to the required depth. -/
inductive SweepConfirmed (chains : ChainClients) (tip : SocialTipRow) (txid : String) : Prop
  | electrum {c : ElectrumClient} {address : String}
      (hasset : toLowercase tip.asset = "btc" ∨ toLowercase tip.asset = "ltc")
      (hclient : chains.electrum (toLowercase tip.asset) = some c)
      (haddress : tip.tipAddress = some address)
      (hconfirms : ElectrumConfirms c address txid (sweepConfirmThreshold (toLowercase tip.asset)))
  | lws {c : LwsClient} {address viewKey : String}
      (hasset : toLowercase tip.asset = "xmr" ∨ toLowercase tip.asset = "wow")
      (hclient : chains.lws (toLowercase tip.asset) = some c)
      (haddress : tip.tipAddress = some address) (hkey : tip.tipViewKey = some viewKey)
      (hconfirms : LwsConfirms c address viewKey txid
        (sweepConfirmThreshold (toLowercase tip.asset)))
  | grin {c : GrinClient} {commit : String} (hasset : toLowercase tip.asset = "grin")
      (hclient : chains.grin = some c) (hcommit : grinCommitment tip = some commit)
      (hconfirms : GrinConfirms c commit txid (sweepConfirmThreshold (toLowercase tip.asset)))

theorem pickWinner_mem {spends : List ConfirmedSpend} {winner : ConfirmedSpend}
    (h : pickWinner spends = some winner) : winner ∈ spends := by
  cases spends with
  | nil => cases h
  | cons s rest =>
    -- the fold keeps what it has or takes an element of the rest
    have hfold : ∀ (l : List ConfirmedSpend) (s : ConfirmedSpend),
        l.foldl (fun best x => if x.precedes best then x else best) s ∈ s :: l := by
      intro l
      induction l with
      | nil => simp
      | cons x l ih =>
        intro s
        rw [List.foldl_cons]
        by_cases hx : x.precedes s
        · rw [if_pos hx]
          exact List.mem_cons_of_mem s (ih x)
        · rw [if_neg hx]
          rcases List.mem_cons.mp (ih s) with h | h
          · rw [h]
            exact List.mem_cons_self ..
          · exact List.mem_cons_of_mem s (List.mem_cons_of_mem x h)
    obtain rfl := Option.some.inj h
    exact hfold rest s

theorem exists_pickWinner {spends : List ConfirmedSpend} (h : spends ≠ []) :
    ∃ winner, pickWinner spends = some winner := by
  cases spends with
  | nil => exact absurd rfl h
  | cons s rest => exact ⟨_, rfl⟩

/-- The probe of a readable history finds its spends. -/
theorem spendsAmong_ok {c : ElectrumClient} {address : String} {es : List ElectrumHistoryEntry}
    (h : ∀ e ∈ es, ∃ b, entryIsSpend c address e = .ok b) :
    ∃ spends, spendsAmong c address es = .ok spends ∧
      ∀ s, s ∈ spends ↔ ∃ e ∈ es, entryIsSpend c address e = .ok true ∧
        s = ⟨e.txHash, e.height, none⟩ := by
  induction es with
  | nil => exact ⟨[], rfl, by simp⟩
  | cons e es ih =>
    obtain ⟨⟨b, hb⟩, hrest⟩ := List.forall_mem_cons.mp h
    obtain ⟨spends, hspends, hmem⟩ := ih hrest
    refine ⟨if b then ⟨e.txHash, e.height, none⟩ :: spends else spends, ?_, ?_⟩
    · unfold entryIsSpend at hb
      cases htx : c.getTransactionVerbose e.txHash with
      | error err => simp [htx, bind, Except.bind] at hb
      | ok tx =>
        simp only [htx, bind, Except.bind] at hb
        simp [spendsAmong, htx, hb, hspends, bind, Except.bind, pure, Except.pure]
    · intro s
      cases b with
      | true => simp [hb, hmem]
      | false => simp [hb, hmem]

/-- What a confirmed sweep makes the probe of an address find. -/
def Finds (chains : ChainClients) (tip : SocialTipRow) (txid : String) : Prop :=
  ∃ spends tipHeight winner, probeConfirmedSpends chains tip = .ok (spends, tipHeight) ∧
    pickWinner spends = some winner ∧ winner.txid = txid ∧
    DeepEnough tipHeight winner (sweepConfirmThreshold (toLowercase tip.asset))

theorem finds_of_spends {chains : ChainClients} {tip : SocialTipRow} {txid : String}
    {spends : List ConfirmedSpend} {tipHeight : Int64}
    (hprobe : probeConfirmedSpends chains tip = .ok (spends, tipHeight)) (hne : spends ≠ [])
    (hall : ∀ s ∈ spends, s.txid = txid ∧
      DeepEnough tipHeight s (sweepConfirmThreshold (toLowercase tip.asset))) :
    Finds chains tip txid := by
  obtain ⟨winner, hwinner⟩ := exists_pickWinner hne
  obtain ⟨htxid, hdeep⟩ := hall winner (pickWinner_mem hwinner)
  exact ⟨spends, tipHeight, winner, hprobe, hwinner, htxid, hdeep⟩

theorem finds_of_electrumConfirms {chains : ChainClients} {tip : SocialTipRow} {txid : String}
    {c : ElectrumClient} {address : String}
    (hasset : toLowercase tip.asset = "btc" ∨ toLowercase tip.asset = "ltc")
    (hclient : chains.electrum (toLowercase tip.asset) = some c)
    (haddress : tip.tipAddress = some address)
    (h : ElectrumConfirms c address txid (sweepConfirmThreshold (toLowercase tip.asset))) :
    Finds chains tip txid := by
  obtain ⟨history, tipHeight, hhistory, hheight, hall, e₀, he₀, hpos, hspend⟩ := h
  have hread : ∀ e ∈ history.filter fun e => 0 < e.height,
      ∃ b, entryIsSpend c address e = .ok b := by
    intro e he
    obtain ⟨hmem, hh⟩ := List.mem_filter.mp he
    rcases hall e hmem (by simpa using hh) with h | h
    · exact ⟨false, h⟩
    · exact ⟨true, h.1⟩
  obtain ⟨spends, hspends, hmem⟩ := spendsAmong_ok hread
  have hprobe : probeConfirmedSpends chains tip = .ok (spends, tipHeight) := by
    rcases hasset with ha | ha <;>
      · rw [ha] at hclient
        simp [probeConfirmedSpends, probeElectrumSpends, ha, hclient, haddress, enabledOr,
          hhistory, hheight, hspends, bind, Except.bind, pure, Except.pure]
  refine finds_of_spends hprobe ?_ ?_
  · have hin := (hmem _).mpr
      ⟨e₀, List.mem_filter.mpr ⟨he₀, by simpa using hpos⟩, hspend, rfl⟩
    exact List.ne_nil_of_mem hin
  · intro s hs
    obtain ⟨e, he, htrue, rfl⟩ := (hmem s).mp hs
    obtain ⟨hin, hh⟩ := List.mem_filter.mp he
    rcases hall e hin (by simpa using hh) with h | ⟨-, htxid, hdeep⟩
    · rw [h] at htrue
      cases htrue
    · exact ⟨htxid, hdeep⟩

theorem finds_of_lwsConfirms {chains : ChainClients} {tip : SocialTipRow} {txid : String}
    {c : LwsClient} {address viewKey : String}
    (hasset : toLowercase tip.asset = "xmr" ∨ toLowercase tip.asset = "wow")
    (hclient : chains.lws (toLowercase tip.asset) = some c)
    (haddress : tip.tipAddress = some address) (hkey : tip.tipViewKey = some viewKey)
    (h : LwsConfirms c address viewKey txid (sweepConfirmThreshold (toLowercase tip.asset))) :
    Finds chains tip txid := by
  obtain ⟨txs, tipHeight, htxs, hheight, hall, t₀, ht₀, hspend⟩ := h
  have hprobe : probeConfirmedSpends chains tip =
      .ok ((txs.transactions.filter addressTxIsSpend).map
        fun t => ⟨t.hash, t.height.toInt64, none⟩, tipHeight.toInt64) := by
    rcases hasset with ha | ha <;>
      · rw [ha] at hclient
        by_cases hpos : 0 < txs.blockchainHeight
        · rw [if_pos hpos] at hheight
          subst hheight
          simp only [probeConfirmedSpends, probeLwsSpends, ha, hclient, haddress, hkey, enabledOr,
            htxs, hpos, bind, Except.bind, pure, Except.pure, if_true]
          rfl
        · rw [if_neg hpos] at hheight
          simp only [probeConfirmedSpends, probeLwsSpends, ha, hclient, haddress, hkey, enabledOr,
            htxs, hpos, hheight, bind, Except.bind, pure, Except.pure, if_false,
            Functor.map, Except.map]
          rfl
  refine finds_of_spends hprobe ?_ ?_
  · have hin : t₀ ∈ txs.transactions.filter addressTxIsSpend := List.mem_filter.mpr ⟨ht₀, hspend⟩
    intro hnil
    rw [List.map_eq_nil_iff] at hnil
    rw [hnil] at hin
    cases hin
  · intro s hs
    obtain ⟨t, ht, rfl⟩ := List.mem_map.mp hs
    obtain ⟨hin, hspend'⟩ := List.mem_filter.mp ht
    exact hall t hin hspend'

/-- The Grin probe dates a spend by the recorded kernel only. -/
theorem finds_of_grinConfirms {chains : ChainClients} {tip : SocialTipRow} {txid : String}
    {c : GrinClient} {commit : String} (hasset : toLowercase tip.asset = "grin")
    (hclient : chains.grin = some c) (hcommit : grinCommitment tip = some commit)
    (hrecorded : tip.sweepTxid = some txid) (hne : txid ≠ "")
    (h : GrinConfirms c commit txid (sweepConfirmThreshold (toLowercase tip.asset))) :
    Finds chains tip txid := by
  obtain ⟨tipHeight, outputs, height, hheight, houtputs, habsent, hkernel, hdeep⟩ := h
  have hgone : (outputs.any fun o => decide (o.commit = commit)) = false := by
    rw [List.any_eq_false]
    intro o ho
    simpa using habsent o ho
  have hexcess : sweepExcess tip = some txid := by
    simp [sweepExcess, hrecorded, Option.filter, hne]
  have hprobe : probeConfirmedSpends chains tip =
      .ok ([⟨txid, height.toInt64, none⟩], tipHeight.toInt64) := by
    simp [probeConfirmedSpends, probeGrinSpends, hasset, hclient, hcommit, enabledOr, hheight,
      houtputs, hgone, hexcess, hkernel, bind, Except.bind, pure, Except.pure]
  refine finds_of_spends hprobe (by simp) ?_
  intro s hs
  obtain rfl := List.mem_singleton.mp hs
  exact ⟨rfl, hdeep⟩

theorem finds_of_sweepConfirmed {chains : ChainClients} {tip : SocialTipRow} {txid : String}
    (h : SweepConfirmed chains tip txid) (hrecorded : tip.sweepTxid = some txid)
    (hne : txid ≠ "") : Finds chains tip txid := by
  cases h with
  | electrum hasset hclient haddress hconfirms =>
    exact finds_of_electrumConfirms hasset hclient haddress hconfirms
  | lws hasset hclient haddress hkey hconfirms =>
    exact finds_of_lwsConfirms hasset hclient haddress hkey hconfirms
  | grin hasset hclient hcommit hconfirms =>
    exact finds_of_grinConfirms hasset hclient hcommit hrecorded hne hconfirms

/-! ### The claim between the recipient's calls and the cycle -/

/-- The recipient holds the claim of a targeted tip. -/
structure HeldBy (u : Uuid) (sweep : Option String) (r : SocialTipRow) : Prop where
  /-- The claim is open. -/
  status : r.status = .claiming
  /-- The tip is targeted. -/
  targeted : r.isPublic = false
  /-- It names the recipient. -/
  recipient : r.recipientUserId = some u
  /-- The recipient claimed it. -/
  claimedBy : r.claimedByUserId = some u
  /-- The recorded sweep. -/
  sweepTxid : r.sweepTxid = sweep

/-- The settlements of the tip `id`. -/
def Settles (id : Uuid) : TipOp → Prop
  | .confirmOnchain _ id' _ _ _ _ => id' = id
  | .clearClaimedBy _ id' _ _ _ => id' = id
  | _ => False

/-- The operations that end the claim of the tip `id`: its clawback and its settlement. -/
def Interferes (id : Uuid) : TipOp → Prop
  | .clawback _ id' _ => id' = id
  | op => Settles id op

namespace HeldBy

variable {u : Uuid} {sweep : Option String}

/-- The row `id` of the table is held. -/
def At (id u : Uuid) (sweep : Option String) (t : SocialTips) : Prop :=
  ∃ r, t.get? id = some r ∧ HeldBy u sweep r

/-- Whatever else happens to the table, the recipient keeps the claim until it is clawed back or
settled: nobody else can claim a targeted tip, and no report is recorded on it. -/
theorem at_apply {id : Uuid} {t : SocialTips} {op : TipOp} (hop : ¬ Interferes id op)
    (h : At id u sweep t) : At id u sweep (op.apply t) := by
  obtain ⟨r, hr, hstatus, htargeted, hrecipient, hclaimed, hsweep⟩ := h
  have hid : r.id = id := Table.key_of_get? hr
  obtain ⟨r', hr', hedit⟩ := op.apply_edits hr
  refine ⟨r', hr', ?_⟩
  cases hedit with
  | skip => exact ⟨hstatus, htargeted, hrecipient, hclaimed, hsweep⟩
  | reattach => exact ⟨hstatus, htargeted, hrecipient, hclaimed, hsweep⟩
  | updateConfirmations => exact ⟨hstatus, htargeted, hrecipient, hclaimed, hsweep⟩
  | touch => exact ⟨hstatus, htargeted, hrecipient, hclaimed, hsweep⟩
  | stampDmSent => exact ⟨hstatus, htargeted, hrecipient, hclaimed, hsweep⟩
  | stampReorg => exact ⟨hstatus, htargeted, hrecipient, hclaimed, hsweep⟩
  | claim now u' r _ _ _ _ hmay =>
    -- only the recipient passes the guard
    have hu : some u = some u' := by simpa [htargeted, hrecipient] using hmay
    exact ⟨rfl, htargeted, hrecipient, hu.symm, hsweep⟩
  | report _ _ _ _ _ _ hpublic => simp [htargeted] at hpublic
  | clawback | confirmOnchain | clearClaimedBy => exact absurd hid hop
  | cancelDraft _ _ h => simp [hstatus] at h
  | attach _ _ _ h => simp [hstatus] at h
  | verified _ _ _ h => simp [hstatus] at h
  | mismatch _ _ _ h => simp [hstatus] at h
  | revert _ _ h => simp [hstatus] at h
  | expire _ _ _ h => simp [hstatus] at h

theorem at_run {id : Uuid} {t t' : SocialTips} {ops : List TipOp}
    (hrun : SocialTips.system.Run t ops t') (hops : ∀ op ∈ ops, ¬ Interferes id op)
    (h : At id u sweep t) : At id u sweep t' := by
  induction hrun with
  | nil t => exact h
  | cons hstep _ ih =>
    subst hstep
    obtain ⟨hop, hrest⟩ := List.forall_mem_cons.mp hops
    exact ih hrest (at_apply hop h)

theorem at_markTipClaiming {now : Timestamp} {t : SocialTips} {id : Uuid} {r : SocialTipRow}
    (hr : t.get? id = some r) (htargeted : r.isPublic = false)
    (hrecipient : r.recipientUserId = some u) (hclaim : (t.markTipClaiming now id u).1.isSome) :
    At id u r.sweepTxid (t.markTipClaiming now id u).2 := by
  obtain ⟨r', hr'⟩ := Option.isSome_iff_exists.mp hclaim
  obtain ⟨r₀, hr₀, hg, rfl⟩ := SocialTips.guardedUpdate_fst_eq_some hr'
  obtain rfl := Option.some.inj (hr.symm.trans hr₀)
  exact ⟨_, (SocialTips.guardedUpdate_of_guard now _ hr hg).2,
    ⟨rfl, htargeted, hrecipient, rfl, rfl⟩⟩

end HeldBy

/-- A targeted tip that was never settled carries no sweep: no report is recorded on it. -/
theorem sweepTxid_of_never_settled {t : SocialTips} {ops : List TipOp} {id : Uuid}
    {r : SocialTipRow} (hrun : SocialTips.system.Run Table.empty ops t)
    (hnever : ∀ op ∈ ops, ¬ Settles id op) (hr : t.get? id = some r)
    (htargeted : r.isPublic = false) : r.sweepTxid = none := by
  have hkept : SocialTips.Kept (fun op => ¬ Settles id op)
      fun r => r.id = id → r.isPublic = false → r.sweepTxid = none := by
    constructor
    · exact fun _ _ _ _ _ _ _ => rfl
    · intro op r r' hop hedit h hid htargeted
      cases hedit with
      | report _ _ _ _ _ _ hpublic => simp [hpublic] at htargeted
      | confirmOnchain | clearClaimedBy => exact absurd hid hop
      | skip | cancelDraft | attach | reattach | updateConfirmations | touch | verified |
        mismatch | claim | clawback | revert | stampDmSent | stampReorg | expire =>
        exact h hid htargeted
  exact hkept.run hrun hnever (SocialTips.rows_empty _) id r hr (Table.key_of_get? hr) htargeted

/-- No statement of the reconciler is refused. -/
def SweepFaults.none : SweepFaults := fun _ => .none

/-- **Attribution of a targeted tip.**  The recipient claims the tip, reports the sweep and the
chain confirms exactly that sweep to the required depth, whatever else happens meanwhile.  The
next cycle that polls the row leaves it `claimed` by the recipient with that sweep exactly when
the row carried the sweep before the claim. -/
theorem targeted_settles_iff {db db₁ db₂ : SocialTips} {ops₁ ops₂ : List TipOp} {id u : Uuid}
    {r tip : SocialTipRow} {txid : String} {now₁ now₂ now₃ : Timestamp}
    {chains : SocialTipRow → ChainClients} (hr : db.get? id = some r)
    (htargeted : r.isPublic = false) (hrecipient : r.recipientUserId = some u)
    (hclaim : (db.markTipClaiming now₁ id u).1.isSome)
    (hrun₁ : SocialTips.system.Run (db.markTipClaiming now₁ id u).2 ops₁ db₁)
    (hquiet₁ : ∀ op ∈ ops₁, ¬ Interferes id op) (hne : txid ≠ "")
    (hrun₂ : SocialTips.system.Run (db₁.confirmTipSweep now₂ id u txid).2 ops₂ db₂)
    (hquiet₂ : ∀ op ∈ ops₂, ¬ Interferes id op)
    (hpolled : tip ∈ db₂.getTipsAwaitingSweepConfirmation now₃ batchSize) (hid : tip.id = id)
    (hconfirmed : SweepConfirmed (chains tip) tip txid) :
    (∃ r', (confirmCycleInner .none now₃ chains db₂).get? id = some r' ∧ r'.status = .claimed ∧
        r'.sweepTxid = some txid ∧ r'.claimedByUserId = some u) ↔
      r.sweepTxid = some txid := by
  -- the recipient holds the claim until the cycle
  have hheld₁ := HeldBy.at_run hrun₁ hquiet₁
    (HeldBy.at_markTipClaiming hr htargeted hrecipient hclaim)
  have hreport : ¬ Interferes id (.confirmSweep now₂ id u txid) := fun h => h
  obtain ⟨r₂, hr₂, hheld⟩ := HeldBy.at_run hrun₂ hquiet₂ (HeldBy.at_apply hreport hheld₁)
  obtain ⟨hget, hawaits, db₃, hfresh, hcycle⟩ :=
    get?_confirmCycleInner .none now₃ chains hpolled
  subst hid
  obtain rfl := Option.some.inj (hget.symm.trans hr₂)
  rw [hcycle]
  constructor
  · rintro ⟨r', hr', hstatus, hsweep, hclaimer⟩
    rcases claim_processAwaitingTip .none now₃ hfresh hawaits hr' with
      hkept | ⟨-, -, winner, -, -, hclaim'⟩
    · have h : r'.status = tip.status := congrArg Prod.fst hkept
      rw [hstatus, hheld.status] at h
      cases h
    · -- the claimer survives only as the one of the recorded sweep
      simp only [SocialTipRow.claim, settledClaim, Prod.mk.injEq] at hclaim'
      obtain ⟨-, hwinner, hattribution⟩ := hclaim'
      rw [hclaimer] at hattribution
      by_cases hmatch : tip.sweepTxid = some winner.txid
      · rw [← hheld.sweepTxid, hmatch, ← hwinner, hsweep]
      · rw [if_neg hmatch] at hattribution
        cases hattribution
  · intro hrecorded
    have hrec : tip.sweepTxid = some txid := hheld.sweepTxid.trans hrecorded
    obtain ⟨spends, tipHeight, winner, hprobe, hwinner, htxid, hdeep⟩ :=
      finds_of_sweepConfirmed hconfirmed hrec hne
    obtain ⟨r', hr', hclaim'⟩ := claim_of_deepEnough .none now₃ hfresh hawaits (fun _ => rfl)
      hprobe hwinner hdeep
    simp only [SocialTipRow.claim, settledClaim, hrec, htxid, if_true, hheld.claimedBy,
      Prod.mk.injEq] at hclaim'
    exact ⟨r', hr', hclaim'⟩

/-! ### A first claim -/

/-- A funded tip for the user 8. -/
def SocialTipRow.targetedSample (asset : String) (sweepTxid : Option String) : SocialTipRow :=
  { ofNew 1 0 { NewSocialTip.grinSample with
      asset := asset
      encryptedKey := some [1]
      tipViewKey := some "77"
      recipientUserId := some 8 } .pending with
    fundingConfirmations := 10
    fundingAmountVerified := true
    sweepTxid := sweepTxid }

/-- Monero shows the sweep "5e" of the tip address at height 100, Grin its kernel, both chains at
height 120. -/
def ChainClients.swept : ChainClients where
  btc := none
  ltc := none
  xmr := some
    { network := "Monero"
      daemonConfigured := true
      addressTxs _ _ := .ok ⟨[⟨"5e", 100, 0, 5, false⟩], 120⟩
      getInfo := .ok ⟨some 120, "OK", false⟩
      transactions _ := .error (.nodeError "unreachable") }
  wow := none
  grin := some
    { status := .ok ⟨some (.ok 120), none⟩
      outputs _ := .ok ⟨some (.ok []), none⟩
      kernel _ := .ok ⟨some (.ok (some ⟨100⟩)), none⟩ }

/-- The table after the recipient claimed the tip and reported the sweep. -/
def SocialTips.reported (r : SocialTipRow) : SocialTips :=
  (((SocialTips.singleton r).markTipClaiming 1 1 8).2.confirmTipSweep 2 1 8 "5e").2

/-- What the next cycle leaves. -/
def SocialTips.cycled (r : SocialTipRow) : SocialTips :=
  confirmCycleInner .none 3 (fun _ => .swept) (.reported r)

theorem sweepConfirmed_xmr {tip : SocialTipRow} (hasset : toLowercase tip.asset = "xmr")
    (haddress : tip.tipAddress.isSome) (hkey : tip.tipViewKey.isSome) :
    SweepConfirmed .swept tip "5e" := by
  obtain ⟨address, haddress⟩ := Option.isSome_iff_exists.mp haddress
  obtain ⟨viewKey, hkey⟩ := Option.isSome_iff_exists.mp hkey
  refine .lws (.inl hasset) (by rw [hasset]; rfl) haddress hkey ?_
  rw [hasset]
  refine ⟨_, 120, rfl, rfl, ?_, ⟨"5e", 100, 0, 5, false⟩, List.mem_singleton.mpr rfl, rfl⟩
  intro t ht _
  obtain rfl := List.mem_singleton.mp ht
  exact ⟨rfl, by decide, by decide⟩

theorem sweepConfirmed_grin {tip : SocialTipRow} {commit : String}
    (hasset : toLowercase tip.asset = "grin") (hcommit : grinCommitment tip = some commit) :
    SweepConfirmed .swept tip "5e" := by
  refine .grin hasset rfl hcommit ?_
  rw [hasset]
  refine ⟨120, [], 100, rfl, ?_, by simp, rfl, by decide, by decide⟩
  simp [GrinClient.getOutputs, GrinClient.nodeRpc, RpcEnvelope.intoResult, bind, Except.bind]

/-- The reported row of a sample. -/
def SocialTipRow.reportedSample (asset : String) (sweepTxid : Option String) : SocialTipRow :=
  { targetedSample asset sweepTxid with
    status := .claiming
    claimedAt := some 1
    claimedByUserId := some 8
    updatedAt := 1 }

/-- On a first claim the sweep of a Monero tip settles without its claimer, and the sweep of a
Grin tip does not settle at all. -/
theorem first_claim_loses_attribution :
    (((SocialTips.singleton (.targetedSample "xmr" none)).markTipClaiming 1 1 8).1.isSome ∧
      .reportedSample "xmr" none ∈
        (SocialTips.reported (.targetedSample "xmr" none)).getTipsAwaitingSweepConfirmation 3
          batchSize ∧
      SweepConfirmed .swept (.reportedSample "xmr" none) "5e" ∧
      ((SocialTips.cycled (.targetedSample "xmr" none)).get? 1).map SocialTipRow.claim =
        some (.claimed, some "5e", none)) ∧
    ((SocialTips.singleton (.targetedSample "grin" none)).markTipClaiming 1 1 8).1.isSome ∧
      .reportedSample "grin" none ∈
        (SocialTips.reported (.targetedSample "grin" none)).getTipsAwaitingSweepConfirmation 3
          batchSize ∧
      SweepConfirmed .swept (.reportedSample "grin" none) "5e" ∧
      ((SocialTips.cycled (.targetedSample "grin" none)).get? 1).map SocialTipRow.claim =
        some (.claiming, none, some 8) :=
  ⟨⟨rfl, List.mem_singleton.mpr rfl, sweepConfirmed_xmr rfl rfl rfl, rfl⟩,
    rfl, List.mem_singleton.mpr rfl, sweepConfirmed_grin rfl (rfl : _ = some "08aa"), rfl⟩

/-- A tip that carries the sweep from a settlement that a reorg undid settles with it. -/
theorem reclaimed_tip_keeps_attribution :
    ∃ r', (confirmCycleInner .none 3 (fun _ => .swept)
        (SocialTips.reported (.targetedSample "xmr" (some "5e")))).get? 1 = some r' ∧
      r'.status = .claimed ∧ r'.sweepTxid = some "5e" ∧ r'.claimedByUserId = some 8 := by
  have hrun₁ : SocialTips.system.Run ((SocialTips.singleton (.targetedSample "xmr"
      (some "5e"))).markTipClaiming 1 1 8).2 [] _ := .nil _
  have hrun₂ : SocialTips.system.Run (((SocialTips.singleton (.targetedSample "xmr"
      (some "5e"))).markTipClaiming 1 1 8).2.confirmTipSweep 2 1 8 "5e").2 [] _ := .nil _
  have hpolled : .reportedSample "xmr" (some "5e") ∈
      (SocialTips.reported (.targetedSample "xmr" (some "5e"))).getTipsAwaitingSweepConfirmation 3
        batchSize := List.mem_singleton.mpr rfl
  exact (targeted_settles_iff rfl rfl rfl rfl hrun₁ (by simp) (by decide) hrun₂ (by simp) hpolled
    rfl (sweepConfirmed_xmr rfl rfl rfl)).mpr rfl

end SmirkBackend
