import SmirkBackend.Tips.World

/-!
# Soundness of a Grin settlement

A Grin tip is a voucher: an output whose commitment leaves the output set when it is swept.  The
reconciler settles the tip once the commitment is absent and the recorded kernel excess is deep
enough.  Nothing ties the two together: the excess is whatever the claimer reported, and a kernel
that has been on the chain for long dates the spend of a voucher that left it a block ago.

A block of the chain is the sum of its transactions.  The model keeps the transactions apart, as
the network knew them; the node answers about commitments and kernels only.

The steps at which an unrelated or an overtaken kernel dates the spend are `Misdated`; runs without
them settle only what is ten blocks deep (`grin_settlement_sound`).
-/

namespace SmirkBackend

open Lib (Table Patch)

/-! ### The chain and its node -/

/-- A transaction of the Grin chain, with the kernels as the chain holds them. -/
structure GrinTx (κ : Type) where
  /-- The commitments it spends. -/
  inputs : List String
  /-- The commitments it creates. -/
  outputs : List String
  /-- Its kernels. -/
  kernels : List κ

/-- A chain of blocks, the genesis block first; heights fit in a signed word. -/
structure GrinChain (κ : Type) where
  /-- The transactions of each block. -/
  blocks : List (List (GrinTx κ))
  /-- There is a genesis block. -/
  nonempty : blocks ≠ []
  /-- Heights are 64-bit. -/
  bounded : blocks.length ≤ 2 ^ 63

namespace GrinChain

variable {κ : Type}

/-- The height of the last block. -/
def height (c : GrinChain κ) : ℕ := c.blocks.length - 1

/-- The block at height `h` holds the transaction. -/
def At (c : GrinChain κ) (h : ℕ) (tx : GrinTx κ) : Prop :=
  ∃ block, c.blocks[h]? = some block ∧ tx ∈ block

/-- The output set after the transactions `txs`. -/
def utxo (txs : List (GrinTx κ)) : List String :=
  txs.foldl (fun set tx => set.filter (· ∉ tx.inputs) ++ tx.outputs) []

/-- The output set holds the commitment. -/
def Unspent (c : GrinChain κ) (commit : String) : Prop := commit ∈ utxo c.blocks.flatten

/-- The transaction with kernel `k` in the block at height `h` spends the commitment. -/
def SpentBy (c : GrinChain κ) (h : ℕ) (k : κ) (commit : String) : Prop :=
  ∃ tx, c.At h tx ∧ k ∈ tx.kernels ∧ commit ∈ tx.inputs

theorem lt_of_at {c : GrinChain κ} {h : ℕ} {tx : GrinTx κ} (hat : c.At h tx) : h < 2 ^ 63 := by
  obtain ⟨block, hblock, -⟩ := hat
  have hlt := (List.getElem?_eq_some_iff.mp hblock).1
  have := c.bounded
  omega

theorem height_lt (c : GrinChain κ) : c.height < 2 ^ 63 := by
  have hpos := List.length_pos_of_ne_nil c.nonempty
  have := c.bounded
  unfold height
  omega

end GrinChain

/-- The chain as the node held it at the three reads of a probe. -/
structure GrinReads (κ : Type) where
  /-- When the height was read. -/
  atHeight : GrinChain κ
  /-- When the output set was read. -/
  atOutputs : GrinChain κ
  /-- When the kernel was read. -/
  atKernel : GrinChain κ

/-- The chain did not move during the probe. -/
def GrinReads.still {κ : Type} (c : GrinChain κ) : GrinReads κ := ⟨c, c, c⟩

section Honest

variable {κ : Type} (read : String → Option κ)

/-- What an honest node affirms is true; `read` is how it reads a kernel excess. -/
structure HonestGrin (reads : GrinReads κ) (c : GrinClient) : Prop where
  /-- The height is that of the chain. -/
  height : ∀ t, c.getHeight = .ok t → t.toNat = reads.atHeight.height
  /-- An output is returned if it is unspent. -/
  outputs : ∀ commit outs, c.getOutputs [commit] = .ok outs →
    ((∃ o ∈ outs, o.commit = commit) ↔ reads.atOutputs.Unspent commit)
  /-- A kernel is located where a block holds it. -/
  kernel : ∀ excess h, c.getKernel excess = .ok (some h) →
    ∃ k tx, read excess = some k ∧ reads.atKernel.At h.toNat tx ∧ k ∈ tx.kernels

/-- The transaction that spent the voucher of the row has been in the chain for ten blocks, and
the sweep on record is one of its kernels. -/
def SpentDeep (reads : GrinReads κ) (r : SocialTipRow) : Prop :=
  ∃ commit excess k h, grinCommitment r = some commit ∧ r.sweepTxid = some excess ∧
    read excess = some k ∧ reads.atKernel.SpentBy h k commit ∧ h + 9 ≤ reads.atHeight.height

/-- The answers by which a probe dates the sweep of a Grin tip. -/
structure GrinDates (c : GrinClient) (tip : SocialTipRow) (commit excess : String) (t h : UInt64) :
    Prop where
  /-- The voucher of the tip. -/
  voucher : grinCommitment tip = some commit
  /-- The reported height. -/
  height : c.getHeight = .ok t
  /-- The voucher is gone. -/
  gone : ∃ outs, c.getOutputs [commit] = .ok outs ∧ ∀ o ∈ outs, o.commit ≠ commit
  /-- The recorded excess. -/
  recorded : sweepExcess tip = some excess
  /-- The height of its kernel. -/
  kernel : c.getKernel excess = .ok (some h)

/-- The spend a Grin probe reports. -/
def grinSpend (excess : String) (h : UInt64) : ConfirmedSpend := ⟨excess, h.toInt64, none⟩

/-- At this step the spend of a voucher is dated by a deep kernel of a transaction that does not
spend it, or by a kernel more than one block above the reported height, and the row can be
settled. -/
def Misdated (reads : GrinReads κ) (w : TipWorld) (e : TipEvent) : Prop :=
  ∃ faults chains now tip c commit excess t h, e = .turn .confirm faults chains now tip ∧
    toLowercase tip.asset = "grin" ∧ chains.grin = some c ∧ GrinDates c tip commit excess t h ∧
    CanSettle faults tip (grinSpend excess h) w.db ∧
    (h.toNat + 9 ≤ t.toNat ∧
        (∀ k, read excess = some k → ¬ reads.atKernel.SpentBy h.toNat k commit) ∨
      t.toNat + 1 < h.toNat)

/-- The node a confirm turn asks is honest. -/
def AsksHonest (reads : GrinReads κ) (e : TipEvent) : Prop :=
  ∀ faults chains now tip c, e = .turn .confirm faults chains now tip → chains.grin = some c →
    HonestGrin read reads c

/-- The system under honest Grin nodes; a label says what chain its reads were from. -/
def grinSystem : Lib.System TipWorld (TipEvent × GrinReads κ) where
  step w l w' := TipWorld.system.step w l.1 w' ∧ AsksHonest read l.2 l.1

end Honest

/-- A turn of the confirm pass. -/
def TipEvent.confirms : TipEvent → Bool
  | .turn .confirm .. => true
  | _ => false

/-! ### Who claims a row -/

namespace TipWorld

theorem confirm_of_claimed {w w' : TipWorld} {e : TipEvent} (hinv : w.db.Inv)
    (h : w.step e = some w') {id : Uuid} {r' : SocialTipRow} (hr' : w'.db.get? id = some r')
    (hclaimed : r'.status = .claimed)
    (hbefore : ∀ r, w.db.get? id = some r → r.status ≠ .claimed) :
    ∃ faults chains now tip, e = .turn .confirm faults chains now tip := by
  obtain ⟨op, r₁, r₂, hop, hedit, hne, hs⟩ :=
    entered_status hinv h hr' ⟨by simp, by simp⟩ hclaimed hbefore
  have hsettles : op.asked = false ∧ ∀ pass : TipPass, pass.Issues op → pass = .confirm := by
    cases hedit with
    | confirmOnchain | clearClaimedBy =>
      refine ⟨rfl, fun pass hpass => ?_⟩
      cases pass <;> first | rfl | cases hpass
    | skip | reattach | updateConfirmations | touch | report | stampDmSent | stampReorg =>
      exact absurd hs hne
    | cancelDraft | attach | verified | mismatch | claim | clawback | revert | expire => cases hs
  obtain ⟨pass, faults, chains, now, tip, rfl, hissues⟩ := turn_of_issues h hop hsettles.1
  obtain rfl := hsettles.2 pass hissues
  exact ⟨faults, chains, now, tip, rfl⟩

end TipWorld

section Turn

variable (faults : SweepFaults) (now : Timestamp)

/-- A confirm turn changes no settlement, or passes the gate with a winner and settles it. -/
theorem settlement_processAwaitingTip (chains : ChainClients) (tip : SocialTipRow)
    (db : SocialTips) :
    SameSettlement db (processAwaitingTip faults now chains tip db).2 ∨
    ∃ spends tipHeight winner, probeConfirmedSpends chains tip = .ok (spends, tipHeight) ∧
      pickWinner spends = some winner ∧
      (DeepEnough tipHeight winner (sweepConfirmThreshold (toLowercase tip.asset)) ∨
        AboveTip tipHeight winner) ∧
      CanSettle faults tip winner db ∧
      SameSettlement (settleWinner faults now tip winner db).2
        (processAwaitingTip faults now chains tip db).2 := by
  rcases processAwaitingTip_cases faults now chains tip db with
    h | ⟨spends, tipHeight, winner, hprobe, hwinner, hpass, -⟩
  · rw [h]
    exact .inl (sameSettlement_touchAfter faults now tip db)
  · have hsame := processAwaitingTip_of_passes faults now db hprobe hwinner hpass
    by_cases hcan : CanSettle faults tip winner db
    · have hgate := (gate_passes_iff (sweepConfirmThreshold_pos _)
        (sweepConfirmThreshold_le _)).mp hpass
      exact .inr ⟨spends, tipHeight, winner, hprobe, hwinner, hgate, hcan, hsame⟩
    · exact .inl ((sameSettlement_of_not_canSettle now hcan).trans hsame)

/-- The row that a confirm turn makes `claimed` is its own, settled by its winner. -/
theorem claimed_processAwaitingTip {chains : ChainClients} {tip : SocialTipRow} {db : SocialTips}
    {id : Uuid} {r' : SocialTipRow}
    (hr' : (processAwaitingTip faults now chains tip db).2.get? id = some r')
    (hclaimed : r'.status = .claimed) (hbefore : ∀ r, db.get? id = some r → r.status ≠ .claimed) :
    id = tip.id ∧
    ∃ spends tipHeight winner, probeConfirmedSpends chains tip = .ok (spends, tipHeight) ∧
      pickWinner spends = some winner ∧
      (DeepEnough tipHeight winner (sweepConfirmThreshold (toLowercase tip.asset)) ∨
        AboveTip tipHeight winner) ∧
      CanSettle faults tip winner db ∧ r'.sweepTxid = some winner.txid := by
  -- a row whose settlement columns did not move is not newly `claimed`
  have hmoved : ∀ r, db.get? id = some r → r.settlement ≠ r'.settlement := by
    intro r hr heq
    exact hbefore r hr ((congrArg Prod.fst heq).trans hclaimed)
  have hstored : ∃ r, db.get? id = some r := by
    obtain ⟨r, hr, -⟩ := (updated_processAwaitingTip faults now chains tip db).row hr'
    exact ⟨r, hr⟩
  obtain ⟨r, hr⟩ := hstored
  rcases settlement_processAwaitingTip faults now chains tip db with
    hsame | ⟨spends, tipHeight, winner, hprobe, hwinner, hgate, hcan, hsame⟩
  · have h := hsame id
    rw [hr', hr] at h
    exact absurd (Option.some.inj h).symm (hmoved r hr)
  · by_cases hid : id = tip.id
    · refine ⟨hid, spends, tipHeight, winner, hprobe, hwinner, hgate, hcan, ?_⟩
      obtain ⟨⟨r₀, hr₀, hawaits⟩, hruns⟩ := hcan
      obtain ⟨attribution, heq⟩ := settleWinner_eq faults now tip winner db
      have hstate := (SocialTips.guardedUpdate_of_guard now { set := fun r => { r with
          status := .claimed
          sweepConfirmedAt := some now
          sweepTxid := some winner.txid
          sweepBlockHeight := some winner.blockHeight.toInt32
          sweepBlockHash := winner.blockHash
          claimedByUserId := attribution r.claimedByUserId
          updatedAt := now } } hr₀ hawaits).2
      have h := hsame id
      rw [hr', hid, heq, SweepFaults.run, hruns, SocialTips.settle, hstate] at h
      exact congrArg (fun c => c.2.1) (Option.some.inj h)
    · have h := onlyAt_processAwaitingTip faults now chains tip db id hid
      rw [hr', hr] at h
      exact absurd (congrArg SocialTipRow.settlement (Option.some.inj h)).symm (hmoved r hr)

end Turn

/-- The winner of a Grin probe is the recorded excess, as the node dates it. -/
theorem dates_of_winner {chains : ChainClients} {tip : SocialTipRow} {spends : List ConfirmedSpend}
    {tipHeight : Int64} {winner : ConfirmedSpend} (hgrin : toLowercase tip.asset = "grin")
    (hprobe : probeConfirmedSpends chains tip = .ok (spends, tipHeight))
    (hwinner : pickWinner spends = some winner) :
    ∃ c commit excess t h, chains.grin = some c ∧ GrinDates c tip commit excess t h ∧
      winner = grinSpend excess h ∧ tipHeight = t.toInt64 := by
  have hempty : pickWinner [] ≠ some winner := by simp [pickWinner]
  simp only [probeConfirmedSpends, hgrin, probeGrinSpends] at hprobe
  cases hclient : chains.grin with
  | none => simp [hclient, enabledOr, bind, Except.bind] at hprobe
  | some c =>
    cases hcommit : grinCommitment tip with
    | none => simp [hclient, hcommit, enabledOr, bind, Except.bind] at hprobe
    | some commit =>
      cases hheight : c.getHeight with
      | error e => simp [hclient, hcommit, hheight, enabledOr, bind, Except.bind] at hprobe
      | ok t =>
        cases houts : c.getOutputs [commit] with
        | error e =>
          simp [hclient, hcommit, hheight, houts, enabledOr, bind, Except.bind] at hprobe
        | ok outs =>
          simp only [hclient, hcommit, hheight, houts, enabledOr, bind, Except.bind, pure,
            Except.pure] at hprobe
          by_cases hgone : (outs.any fun o => decide (o.commit = commit)) = true
          · rw [if_pos hgone] at hprobe
            cases hprobe
            exact absurd hwinner hempty
          · rw [if_neg hgone] at hprobe
            cases hexcess : sweepExcess tip with
            | none =>
              simp only [hexcess] at hprobe
              cases hprobe
              exact absurd hwinner hempty
            | some excess =>
              rcases hkernel : c.getKernel excess with e | (_ | h)
              · simp [hexcess, hkernel] at hprobe
              · simp only [hexcess, hkernel] at hprobe
                cases hprobe
                exact absurd hwinner hempty
              · simp only [hexcess, hkernel] at hprobe
                cases hprobe
                obtain rfl := Option.some.inj hwinner
                refine ⟨c, commit, excess, t, h, rfl, ⟨hcommit, hheight, ⟨outs, houts, ?_⟩,
                  hexcess, hkernel⟩, rfl, rfl⟩
                intro o ho heq
                exact hgone (List.any_eq_true.mpr ⟨o, ho, by simpa using heq⟩)

/-! ### Soundness -/

theorem toInt_toInt64_of_lt {h : UInt64} (hlt : h.toNat < 2 ^ 63) : h.toInt64.toInt = h.toNat := by
  have hcast := Lib.toNat_toUInt64 h.toInt64
  rw [UInt64.toUInt64_toInt64] at hcast
  have hlow := Int64.le_toInt h.toInt64
  split at hcast <;> omega

theorem grinCommitment_of_terms {r r' : SocialTipRow} (h : r'.terms = r.terms) :
    grinCommitment r' = grinCommitment r := by
  have hcommit : r'.grinCommitment = r.grinCommitment := congrArg TipTerms.grinCommitment h
  have haddress : r'.tipAddress = r.tipAddress := congrArg TipTerms.tipAddress h
  unfold SmirkBackend.grinCommitment
  rw [hcommit, haddress]

section Soundness

variable {κ : Type} {read : String → Option κ}

/-- The sweep an honest node dates is ten blocks deep, if its kernel is one of the spend and is
not ahead of the height. -/
theorem spentDeep_of_dates {reads : GrinReads κ} {c : GrinClient} {tip r' : SocialTipRow}
    {commit excess : String} {t h : UInt64} (honest : HonestGrin read reads c)
    (hdates : GrinDates c tip commit excess t h) (hterms : r'.terms = tip.terms)
    (hsweep : r'.sweepTxid = some excess)
    (hgate : DeepEnough t.toInt64 (grinSpend excess h) (sweepConfirmThreshold "grin") ∨
      AboveTip t.toInt64 (grinSpend excess h))
    (hspends : h.toNat + 9 ≤ t.toNat →
      ∃ k, read excess = some k ∧ reads.atKernel.SpentBy h.toNat k commit)
    (hahead : h.toNat ≤ t.toNat + 1) : SpentDeep read reads r' := by
  -- both heights fit in a signed word
  have ht := honest.height t hdates.height
  obtain ⟨-, tx, -, hat, -⟩ := honest.kernel excess h hdates.kernel
  have htlt : t.toNat < 2 ^ 63 := ht ▸ reads.atHeight.height_lt
  have htint := toInt_toInt64_of_lt htlt
  have hhint := toInt_toInt64_of_lt (GrinChain.lt_of_at hat)
  have hten : (sweepConfirmThreshold "grin").toNat = 10 := by decide
  have hdeep : h.toNat + 9 ≤ t.toNat := by
    rcases hgate with hdeep | habove
    · have h2 := hdeep.2
      rw [hten, htint] at h2
      simp only [grinSpend, hhint] at h2
      omega
    · unfold AboveTip grinSpend at habove
      rw [htint, hhint] at habove
      omega
  obtain ⟨k, hread, hspent⟩ := hspends hdeep
  exact ⟨commit, excess, k, h.toNat, (grinCommitment_of_terms hterms).trans hdates.voucher, hsweep,
    hread, hspent, ht ▸ hdeep⟩

/-- **Soundness of a Grin settlement.**  In a run at no step of which the spend of a voucher is
dated by the kernel of another transaction or by one ahead of the reported height, a Grin tip
becomes `claimed` only when the transaction that spent its voucher is ten blocks deep. -/
theorem grin_settlement_sound {w w' : TipWorld} {past : List (TipEvent × GrinReads κ)}
    {e : TipEvent} {reads : GrinReads κ} {id : Uuid} {r' : SocialTipRow}
    (hrun : ((grinSystem read).only fun w l _ => ¬ Misdated read l.2 w l.1).Run .empty past w)
    (hstep : ((grinSystem read).only fun w l _ => ¬ Misdated read l.2 w l.1).step w (e, reads) w')
    (hr' : w'.db.get? id = some r') (hgrin : toLowercase r'.asset = "grin")
    (hclaimed : r'.status = .claimed)
    (hbefore : ∀ r, w.db.get? id = some r → r.status ≠ .claimed) : SpentDeep read reads r' := by
  have hinv : w.Inv := by
    refine hrun.invariant ?_ TipWorld.inv_empty
    intro s l s' hs
    exact TipWorld.inv_step hs.1.1
  obtain ⟨⟨hmove, hhonest⟩, hdated⟩ := hstep
  have hmove' : w.step e = some w' := hmove
  obtain ⟨faults, chains, now, tip, rfl⟩ :=
    TipWorld.confirm_of_claimed hinv.rows hmove' hr' hclaimed hbefore
  -- the turn settles its own row
  rcases TipWorld.step_row hinv.rows hmove' hr' with
    ⟨hnew, hissued, now', new, status, hstatus, hfresh⟩ | ⟨r, hr, hchange⟩
  · rw [hfresh] at hclaimed
    rcases hstatus with rfl | rfl <;> cases hclaimed
  simp only [TipWorld.step, Option.ite_none_right_eq_some] at hmove'
  obtain ⟨hpolled, hw'⟩ := hmove'
  obtain rfl := Option.some.inj hw'
  obtain ⟨rfl, spends, tipHeight, winner, hprobe, hwinner, hgate, hcan, hsweep⟩ :=
    claimed_processAwaitingTip faults now hr' hclaimed hbefore
  have hterms : r'.terms = tip.terms := hchange.terms.trans (hinv.terms _ hpolled r hr)
  have hasset : toLowercase tip.asset = "grin" := by
    have hsame : r'.asset = tip.asset := congrArg TipTerms.asset hterms
    exact hsame ▸ hgrin
  obtain ⟨c, commit, excess, t, h, hclient, hdates, rfl, rfl⟩ :=
    dates_of_winner hasset hprobe hwinner
  rw [hasset] at hgate
  refine spentDeep_of_dates (hhonest faults chains now tip c rfl hclient) hdates hterms hsweep hgate
    ?_ ?_
  · intro hdeep
    by_contra hnone
    refine hdated ⟨faults, chains, now, tip, c, commit, excess, t, h, rfl, hasset, hclient, hdates,
      hcan, .inl ⟨hdeep, ?_⟩⟩
    intro k hread hspent
    exact hnone ⟨k, hread, hspent⟩
  · by_contra hahead
    exact hdated ⟨faults, chains, now, tip, c, commit, excess, t, h, rfl, hasset, hclient, hdates,
      hcan, .inr (by omega)⟩

theorem run_of_quiet {w w' : TipWorld} {events : List TipEvent} (reads : GrinReads κ)
    (hrun : TipWorld.system.Run w events w') (hquiet : events.all fun e => !e.confirms) :
    ((grinSystem read).only fun w l _ => ¬ Misdated read l.2 w l.1).Run w
      (events.map fun e => (e, reads)) w' := by
  induction hrun with
  | nil w => exact .nil w
  | @cons w w₁ w' e events hstep _ ih =>
    rw [List.all_cons, Bool.and_eq_true, Bool.not_eq_true'] at hquiet
    obtain ⟨he, hrest⟩ := hquiet
    refine .cons ⟨⟨hstep, ?_⟩, ?_⟩ (ih hrest)
    · rintro faults chains now tip c rfl
      cases he
    · rintro ⟨faults, chains, now, tip, c, commit, excess, t, h, rfl, -⟩
      cases he

end Soundness

/-! ### A voucher that left the output set one block ago -/

namespace GrinChain

/-- The node that holds the chain. -/
def client (c : GrinChain String) : GrinClient where
  status := .ok ⟨some (.ok (UInt64.ofNat c.height)), none⟩
  outputs commits := .ok ⟨some (.ok ((commits.filter (· ∈ utxo c.blocks.flatten)).map fun commit =>
    ⟨commit, (c.blocks.findIdx? fun b => b.any (commit ∈ ·.outputs)).map UInt64.ofNat, 0⟩)), none⟩
  kernel excess := .ok ⟨some (.ok ((c.blocks.findIdx? fun b => b.any (excess ∈ ·.kernels)).map
    fun h => ⟨UInt64.ofNat h⟩)), none⟩

/-- It is honest. -/
theorem honest_client (c : GrinChain String) : HonestGrin some (.still c) c.client where
  height t ht := by
    obtain rfl := Except.ok.inj ht
    have := c.height_lt
    rw [UInt64.toNat_ofNat', Nat.mod_eq_of_lt (by omega)]
    rfl
  outputs commit outs houts := by
    obtain rfl := Except.ok.inj houts
    simp [Unspent, GrinReads.still]
  kernel excess h hkernel := by
    simp only [client, GrinClient.getKernel, GrinClient.nodeRpcOptional, RpcEnvelope.intoOptional,
      bind, Except.bind, pure, Except.pure, Except.ok.injEq, Option.join_some, Option.map_map,
      Option.map_eq_some_iff] at hkernel
    obtain ⟨i, hi, hh⟩ := hkernel
    obtain ⟨hlt, hany, -⟩ := List.findIdx?_eq_some_iff_getElem.mp hi
    obtain ⟨tx, htx, hmem⟩ := List.any_eq_true.mp hany
    have hbound := c.bounded
    have hnat : h.toNat = i := by
      rw [← hh, Function.comp_apply, UInt64.toNat_ofNat', Nat.mod_eq_of_lt (by omega)]
    refine ⟨excess, tx, rfl, ?_, by simpa using hmem⟩
    rw [hnat]
    exact ⟨_, List.getElem?_eq_getElem hlt, htx⟩

/-- An old kernel "0d" at height 5 and the voucher at height 8, then `n` empty blocks, the spend of
the voucher and `m` empty blocks. -/
def sample (n m : ℕ) (h : n + m < 1000) : GrinChain String where
  blocks := List.replicate 5 [] ++ [[⟨[], [], ["0d"]⟩]] ++ List.replicate 2 [] ++
    [[⟨[], ["08aa"], ["f0"]⟩]] ++ List.replicate n [] ++ [[⟨["08aa"], ["09bb"], ["5e"]⟩]] ++
    List.replicate m []
  nonempty := by simp
  bounded := by
    simp only [List.length_append, List.length_replicate, List.length_singleton]
    omega

/-- The chain before the spend. -/
def sampleFunded : GrinChain String where
  blocks := List.replicate 8 [] ++ [[⟨[], ["08aa"], ["f0"]⟩]] ++ List.replicate 12 []
  nonempty := by simp
  bounded := by simp

end GrinChain

/-- The sample voucher after its funding was counted. -/
def SocialTipRow.voucherCounted : SocialTipRow :=
  { ofNew 1 0 .grinSample .pendingConfirmation with
    fundingConfirmations := 13
    fundingConfirmedAt := some (seconds 1)
    lastConfirmationCheck := some (seconds 1)
    updatedAt := seconds 1 }

/-- The sample voucher after the user 8 claimed it and reported a sweep. -/
def SocialTipRow.voucherReported (excess : String) : SocialTipRow :=
  { voucherCounted with
    status := .claiming
    fundingAmountVerified := true
    fundingAmountObserved := some 5
    fundingAmountVerifiedAt := some (seconds 101)
    claimedAt := some (seconds 102)
    claimedByUserId := some 8
    sweepTxid := some excess
    updatedAt := seconds 103 }

/-- The life of the sample voucher up to the turn that settles it; the claimer reports `excess`. -/
def TipEvent.voucherLife (excess : String) : List TipEvent :=
  [.call (.create 0 1 .grinSample), .poll .countGrin (seconds 1),
    .turn .countGrin .none (.grinOnly GrinChain.sampleFunded.client) (seconds 1)
      (.ofNew 1 0 .grinSample .pendingConfirmation),
    .poll .verify (seconds 100),
    .turn .verify .none (.grinOnly GrinChain.sampleFunded.client) (seconds 101) .voucherCounted,
    .call (.claim (seconds 102) 1 8), .call (.confirmSweep (seconds 103) 1 8 excess),
    .poll .confirm (seconds 200)]

/-- The turn that settles the sample voucher. -/
def TipEvent.voucherSettle (excess : String) (c : GrinChain String) : TipEvent :=
  .turn .confirm .none (.grinOnly c.client) (seconds 201) (.voucherReported excess)

/-- The world the sample life leads to. -/
def TipWorld.voucherPolled (excess : String) : TipWorld :=
  ⟨.singleton (.voucherReported excess), [(.confirm, .voucherReported excess)], [1]⟩

/-- The sample voucher after its settlement, dated at `h`. -/
def SocialTipRow.voucherSettled (excess : String) (h : Int32) : SocialTipRow :=
  { voucherReported excess with
    status := .claimed
    sweepConfirmedAt := some (seconds 201)
    sweepBlockHeight := some h
    sweepConfirmedDmSentAt := some (seconds 201)
    updatedAt := seconds 201 }

/-- The world after the settlement. -/
def TipWorld.voucherDone (excess : String) (h : Int32) : TipWorld :=
  ⟨.singleton (.voucherSettled excess h), [], [1]⟩

/-- The sample life is a run of the system, whatever chain stands behind it. -/
theorem run_voucherLife (excess : String) (reads : GrinReads String) :
    ((grinSystem some).only fun w l _ => ¬ Misdated some l.2 w l.1).Run .empty
      ((TipEvent.voucherLife excess).map fun e => (e, reads)) (.voucherPolled excess) := by
  have hlife : (TipEvent.voucherLife excess).foldlM TipWorld.step .empty =
      some (.voucherPolled excess) := rfl
  exact run_of_quiet reads (Lib.System.Run.ofOption_iff.mpr hlife) rfl

theorem asksHonest_voucherSettle (excess : String) (c : GrinChain String) :
    AsksHonest some (.still c) (.voucherSettle excess c) := by
  intro faults chains now tip client heq hclient
  obtain ⟨-, -, rfl, -, -⟩ := TipEvent.turn.inj heq
  obtain rfl := Option.some.inj hclient
  exact c.honest_client

/-- The claimer reports the old kernel and sweeps the voucher: it settles when the spend is in the
last block. -/
theorem old_kernel_settles :
    ∃ past w w' e reads r', (grinSystem some).Run .empty past w ∧
      (grinSystem some).step w (e, reads) w' ∧ w'.db.get? 1 = some r' ∧
      toLowercase r'.asset = "grin" ∧ r'.status = .claimed ∧
      (∀ r, w.db.get? 1 = some r → r.status ≠ .claimed) ∧ grinCommitment r' = some "08aa" ∧
      ∀ h tx, reads.atKernel.At h tx → "08aa" ∈ tx.inputs →
        h ≤ reads.atHeight.height ∧ reads.atHeight.height - h + 1 = 1 := by
  have hstep : (TipWorld.voucherPolled "0d").step (.voucherSettle "0d" (.sample 21 0 (by decide))) =
      some (.voucherDone "0d" 5) := rfl
  refine ⟨_, _, _, .voucherSettle "0d" (.sample 21 0 (by decide)),
    .still (.sample 21 0 (by decide)), _,
    (run_voucherLife "0d" (.still (.sample 21 0 (by decide)))).of_only,
    ⟨hstep, asksHonest_voucherSettle _ _⟩, rfl, rfl, rfl, ?_, rfl, ?_⟩
  · rintro r hr
    obtain rfl := Option.some.inj hr
    decide
  · -- the last block alone spends the voucher
    have hblocks : ∀ h < 31, h = 30 ∨ ∀ block ∈ (GrinChain.sample 21 0 (by decide)).blocks[h]?,
        ∀ tx ∈ block, "08aa" ∉ tx.inputs := by decide
    rintro h tx ⟨block, hblock, htx⟩ hspends
    have hlt : h < 31 := (List.getElem?_eq_some_iff.mp hblock).1
    rcases hblocks h hlt with rfl | hnone
    · decide
    · exact absurd hspends (hnone block hblock tx htx)

/-- With the kernel of the sweep on record the voucher settles when the spend is ten blocks deep. -/
theorem swept_voucher_settles :
    (TipWorld.voucherPolled "5e").step (.voucherSettle "5e" (.sample 12 9 (by decide))) =
      some (.voucherDone "5e" 21) ∧
    SpentDeep some (.still (.sample 12 9 (by decide))) (.voucherSettled "5e" 21) := by
  have hstep : (TipWorld.voucherPolled "5e").step
      (.voucherSettle "5e" (.sample 12 9 (by decide))) = some (.voucherDone "5e" 21) := rfl
  refine ⟨hstep, grin_settlement_sound
    (run_voucherLife "5e" (.still (.sample 12 9 (by decide))))
    ⟨⟨hstep, asksHonest_voucherSettle "5e" (.sample 12 9 (by decide))⟩, ?_⟩
    (rfl : (TipWorld.voucherDone "5e" 21).db.get? 1 = _) rfl rfl ?_⟩
  · rintro ⟨faults, chains, now, tip, c, commit, excess, t, h, heq, -, hclient, hdates, -, hbad⟩
    obtain ⟨-, -, rfl, -, rfl⟩ := TipEvent.turn.inj heq
    obtain rfl := Option.some.inj hclient
    -- the voucher, the excess and the two heights
    obtain rfl := Option.some.inj (hdates.voucher.symm.trans rfl : some commit = some "08aa")
    obtain rfl := Option.some.inj (hdates.recorded.symm.trans rfl : some excess = some "5e")
    obtain rfl := Except.ok.inj (hdates.height.symm.trans rfl : Except.ok t = .ok 30)
    obtain rfl := Option.some.inj (Except.ok.inj
      (hdates.kernel.symm.trans rfl : Except.ok (some h) = .ok (some 21)))
    rcases hbad with ⟨-, hnone⟩ | habove
    · exact hnone "5e" rfl ⟨⟨["08aa"], ["09bb"], ["5e"]⟩, ⟨_, rfl, List.mem_singleton.mpr rfl⟩,
        List.mem_singleton.mpr rfl, List.mem_singleton.mpr rfl⟩
    · exact absurd habove (by decide)
  · rintro r hr
    obtain rfl := Option.some.inj hr
    decide

end SmirkBackend
