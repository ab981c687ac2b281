import SmirkBackend.Tips.FundingSoundness
import SmirkBackend.Tips.GrinSettlement

/-!
# What a claimable tip owes to the chain

A tip becomes `pending` on two observations that are made apart.  First its confirmations are
counted: of the voucher for Grin, of the funding transaction the sender attached for XMR and WOW.
Then its amount is verified: a Grin voucher hides its amount, so its presence is taken for the
declared one; for XMR and WOW everything that ever reached the address counts, however fresh.

Against honest nodes (`HonestDaemon`, `HonestLws`, `HonestOutputs`) both observations are facts about
the chain.  They stay on record: a counter that is not zero was written by a turn of the past
(`CountedBy`), which carries over every step.  So a tip that becomes `pending` was counted before, by
a turn of its own that found the confirmations it requires (`pending_is_funded`).
-/

namespace SmirkBackend

open Lib (Table Patch)

/-! ### CryptoNote chains -/

/-- A confirmed transaction, with what it pays to an address and spends from it. -/
structure CnTx where
  /-- Transaction hash. -/
  hash : String
  /-- Height of its block. -/
  height : ℕ
  /-- Paid to the address. -/
  received : String → ℕ
  /-- Spent from the address. -/
  spent : String → ℕ

/-- The confirmed transactions of a chain, with the height its node gives it. -/
structure CnChain where
  /-- Reported height. -/
  height : ℕ
  /-- Confirmed transactions. -/
  txs : List CnTx

namespace CnChain

/-- The transactions that pay to the address or spend from it. -/
def touching (c : CnChain) (address : String) : List CnTx :=
  c.txs.filter fun tx => 0 < tx.received address || 0 < tx.spent address

/-- What the transactions of the chain pay to the address. -/
def received (c : CnChain) (address : String) : ℕ :=
  ((c.touching address).map fun tx => tx.received address).sum

/-- What they spend from it. -/
def spent (c : CnChain) (address : String) : ℕ :=
  ((c.touching address).map fun tx => tx.spent address).sum

end CnChain

/-- What an honest daemon affirms is true: of one chain when it gives its height, of another
when it locates a transaction. -/
structure HonestDaemon (atHeight atTx : CnChain) (c : LwsClient) : Prop where
  /-- The height is that of the chain. -/
  height : ∀ h, c.getBlockchainHeight = .ok h → h.toNat = atHeight.height
  /-- A transaction outside the pool is in the block it names. -/
  located : ∀ txid resp tx h, c.transactions txid = .ok resp → resp.status = "OK" →
    resp.txs.bind List.head? = some tx → tx.inPool ≠ some true → tx.blockHeight = some h →
    ∃ x ∈ atTx.txs, x.hash = txid ∧ x.height = h.toNat

/-- A transaction as the light-wallet server reports it for an address.  Without the spend key the
server knows what may have been spent, never less than what was. -/
structure ReportsTx (address : String) (x : CnTx) (t : AddressTx) : Prop where
  /-- Its hash. -/
  hash : t.hash = x.hash
  /-- Its height. -/
  height : t.height.toNat = x.height
  /-- What it pays to the address. -/
  received : t.totalReceived.toNat = x.received address
  /-- What it spends from the address. -/
  spent : x.spent address ≤ t.totalSent.toNat

/-- A reported transaction is confirmed. -/
def AddressTx.confirmed (t : AddressTx) : Bool := !t.mempool && 0 < t.height

/-- The confirmed transactions an honest light-wallet server reports for an address are the ones of
the chain that touch it. -/
def HonestLws (chain : CnChain) (c : LwsClient) : Prop :=
  ∀ address viewKey resp, c.getAddressTxs address viewKey = .ok resp →
    ∃ xs, xs.Perm (chain.touching address) ∧
      List.Forall₂ (ReportsTx address) xs (resp.transactions.filter AddressTx.confirmed)

/-! ### Honest nodes along a run -/

/-- The chains behind the answers of one turn. -/
structure CnReads where
  /-- When the height was read. -/
  atHeight : CnChain
  /-- When the funding transaction was read. -/
  atTx : CnChain
  /-- When the address was read. -/
  atAddress : CnChain

/-- The chains behind the answers of one turn, by asset. -/
structure FundingReads (κ : Type) where
  /-- XMR and WOW. -/
  lws : String → CnReads
  /-- Grin. -/
  grin : GrinReads κ

/-- What an honest Grin node affirms of its output set is true. -/
structure HonestOutputs {κ : Type} (reads : GrinReads κ) (c : GrinClient) : Prop where
  /-- The height is that of the chain. -/
  height : ∀ t, c.getHeight = .ok t → t.toNat = reads.atHeight.height
  /-- A returned output is unspent. -/
  unspent : ∀ commits outs o, c.getOutputs commits = .ok outs → o ∈ outs →
    reads.atOutputs.Unspent o.commit
  /-- It was created in the block it names. -/
  created : ∀ commits outs o h, c.getOutputs commits = .ok outs → o ∈ outs →
    o.blockHeight = some h → ∃ tx, reads.atOutputs.At h.toNat tx ∧ o.commit ∈ tx.outputs

section Runs

variable {κ : Type}

/-- The nodes a turn of the funding worker asks are honest. -/
def AsksHonestNodes (reads : FundingReads κ) (e : TipEvent) : Prop :=
  ∀ pass faults chains now tip, e = .turn pass faults chains now tip →
    (∀ asset c, asset = "xmr" ∨ asset = "wow" → chains.lws asset = some c →
      HonestDaemon (reads.lws asset).atHeight (reads.lws asset).atTx c ∧
        HonestLws (reads.lws asset).atAddress c) ∧
    ∀ c, chains.grin = some c → HonestOutputs reads.grin c

/-- The system under honest nodes; a label says what chains its reads were from. -/
def fundingSystem : Lib.System TipWorld (TipEvent × FundingReads κ) where
  step w l w' := TipWorld.system.step w l.1 w' ∧ AsksHonestNodes l.2 l.1

/-- A count of the past wrote the counter of the row. -/
def CountedBy (past : List (TipEvent × FundingReads κ)) (r : SocialTipRow) : Prop :=
  ∃ pass faults chains now tip reads now₀ t, (.turn pass faults chains now tip, reads) ∈ past ∧
    AsksHonestNodes reads (.turn pass faults chains now tip) ∧ tip ∈ TipPass.poll pass now₀ t ∧
    tip.id = r.id ∧ tip.terms = r.terms ∧
    (tip.fundingTxid.isSome → r.fundingTxid = tip.fundingTxid) ∧
    pass.count chains tip = some r.fundingConfirmations

/-- A turn that counted a copy of the row and found the confirmations the row requires. -/
def CountedDeep (l : TipEvent × FundingReads κ) (r : SocialTipRow) : Prop :=
  ∃ pass faults chains now tip n, l.1 = .turn pass faults chains now tip ∧ tip.id = r.id ∧
    tip.terms = r.terms ∧ (tip.fundingTxid.isSome → r.fundingTxid = tip.fundingTxid) ∧
    pass.count chains tip = some n ∧ r.confirmationsRequired ≤ n

/-- Every counter that is not zero was written by a count of the past. -/
def CountsRecorded (past : List (TipEvent × FundingReads κ)) (w : TipWorld) : Prop :=
  (∀ k r, w.db.get? k = some r → r.fundingConfirmations = 0 ∨ CountedBy past r) ∧
  ∀ p ∈ w.polled, p.2.fundingConfirmations = 0 ∨ CountedBy past p.2

/-! ### Counters stay on record -/

theorem CountedBy.mono {past past' : List (TipEvent × FundingReads κ)} {r : SocialTipRow}
    (h : CountedBy past r) (hsub : ∀ l ∈ past, l ∈ past') : CountedBy past' r := by
  obtain ⟨pass, faults, chains, now, tip, reads, now₀, t, hmem, hrest⟩ := h
  exact ⟨pass, faults, chains, now, tip, reads, now₀, t, hsub _ hmem, hrest⟩

theorem CountedBy.keep {past : List (TipEvent × FundingReads κ)} {r r' : SocialTipRow}
    (h : CountedBy past r) (hid : r'.id = r.id) (hterms : r'.terms = r.terms)
    (hfunding : r.fundingTxid.isSome → r'.fundingTxid = r.fundingTxid)
    (hcount : r'.fundingConfirmations = r.fundingConfirmations) : CountedBy past r' := by
  obtain ⟨pass, faults, chains, now, tip, reads, now₀, t, hmem, hasks, hpoll, hid', hterms', htxid,
    hn⟩ := h
  refine ⟨pass, faults, chains, now, tip, reads, now₀, t, hmem, hasks, hpoll, hid'.trans hid.symm,
    hterms'.trans hterms.symm, ?_, by rw [hn, hcount]⟩
  intro hs
  have heq := htxid hs
  exact (hfunding (by rw [heq]; exact hs)).trans heq

theorem CountedDeep.keep {l : TipEvent × FundingReads κ} {r r' : SocialTipRow}
    (h : CountedDeep l r) (hid : r'.id = r.id) (hterms : r'.terms = r.terms)
    (hfunding : r.fundingTxid.isSome → r'.fundingTxid = r.fundingTxid) : CountedDeep l r' := by
  obtain ⟨pass, faults, chains, now, tip, n, hl, hid', hterms', htxid, hn, hdeep⟩ := h
  have hrequired : r'.confirmationsRequired = r.confirmationsRequired :=
    congrArg TipTerms.confirmationsRequired hterms
  refine ⟨pass, faults, chains, now, tip, n, hl, hid'.trans hid.symm, hterms'.trans hterms.symm, ?_,
    hn, hrequired ▸ hdeep⟩
  intro hs
  have heq := htxid hs
  exact (hfunding (by rw [heq]; exact hs)).trans heq

theorem TipOp.Edits.fundingConfirmations {op : TipOp} {r r' : SocialTipRow} (h : Edits op r r') :
    r'.fundingConfirmations = r.fundingConfirmations ∨
      ∃ now, op = .updateConfirmations now r.id r'.fundingConfirmations := by
  cases h with
  | updateConfirmations now n => exact .inr ⟨now, rfl⟩
  | _ => exact .inl rfl

/-- The counter of a row after an event is the old one, or the count of its own turn. -/
theorem counter_step {w w' : TipWorld} {e : TipEvent} (h : w.step e = some w')
    {k : Uuid} {r r' : SocialTipRow} (hr : w.db.get? k = some r) (hr' : w'.db.get? k = some r')
    (hchange : e.Changes r r') :
    r'.fundingConfirmations = r.fundingConfirmations ∨
      ∃ pass faults chains now tip, e = .turn pass faults chains now tip ∧
        (pass, tip) ∈ w.polled ∧ tip.id = k ∧
        pass.count chains tip = some r'.fundingConfirmations := by
  have hquiet : (∀ op, e.Issues op → ∀ now id n, op ≠ .updateConfirmations now id n) →
      r'.fundingConfirmations = r.fundingConfirmations := by
    intro hissues
    refine hchange.keeps (fun r r' => r'.fundingConfirmations = r.fundingConfirmations)
      (fun _ => rfl) (fun _ _ _ h h' => h'.trans h) ?_ (fun _ _ => rfl)
    intro op r₁ r₂ hop hedit
    rcases hedit.fundingConfirmations with hsame | ⟨now, hcount⟩
    · exact hsame
    · exact absurd hcount (hissues op hop _ _ _)
  cases e with
  | call op =>
    refine .inl (hquiet ?_)
    rintro _ rfl now id n rfl
    simp [TipWorld.step, TipOp.asked] at h
  | poll | drop | deleteUser => exact .inl (hquiet fun _ hop => hop.elim)
  | turn pass faults chains now tip =>
    by_cases hpass : pass.counts
    · simp only [TipWorld.step, Option.ite_none_right_eq_some, Option.some.injEq] at h
      obtain ⟨hpolled, rfl⟩ := h
      rw [TipPass.turn_of_counts hpass] at hr'
      cases hn : pass.count chains tip with
      | none =>
        simp only [hn, Option.map_none, Option.getD_none] at hr'
        obtain rfl := Option.some.inj (hr.symm.trans hr')
        exact .inl rfl
      | some n =>
        simp only [hn, Option.map_some, Option.getD_some, SocialTips.updateTipConfirmations,
          SocialTips.get?_guardedUpdate, hr, Option.some.injEq, and_true] at hr'
        by_cases hk : k = tip.id
        · rw [if_pos hk] at hr'
          exact .inr ⟨pass, faults, chains, now, tip, rfl, hpolled, hk.symm, by rw [← hr', hn]⟩
        · rw [if_neg hk] at hr'
          exact .inl (by rw [hr'])
    · refine .inl (hquiet ?_)
      rintro op hop now id n rfl
      cases pass <;> first | exact hpass rfl | exact hop

theorem countsRecorded_step {past : List (TipEvent × FundingReads κ)} {w w' : TipWorld}
    {l : TipEvent × FundingReads κ} (hinv : w.Inv) (h : fundingSystem.step w l w')
    (hrec : CountsRecorded past w) : CountsRecorded (past ++ [l]) w' := by
  obtain ⟨e, reads⟩ := l
  obtain ⟨hstep, hasks⟩ := h
  have hmove : w.step e = some w' := hstep
  have hlonger : ∀ l ∈ past, l ∈ past ++ [(e, reads)] := fun l hl => List.mem_append_left _ hl
  constructor
  · intro k r' hr'
    rcases TipWorld.step_row hinv.rows hmove hr' with ⟨-, -, now, new, status, -, rfl⟩ |
      ⟨r, hr, hchange⟩
    · exact .inl rfl
    · rcases counter_step hmove hr hr' hchange with
        hsame | ⟨pass, faults, chains, now, tip, rfl, hpolled, hid, hcount⟩
      · rcases hrec.1 k r hr with hzero | hcounted
        · exact .inl (hsame.trans hzero)
        · have hid : r'.id = r.id := (Table.key_of_get? hr').trans (Table.key_of_get? hr).symm
          exact .inr ((hcounted.mono hlonger).keep hid hchange.terms hchange.fundingTxid hsame)
      · -- the count of this very event
        subst hid
        obtain ⟨now₀, t, hpoll⟩ := hinv.polled _ hpolled
        have hterms := hinv.terms _ hpolled r hr
        have hfunding := hinv.fundingTxid _ hpolled r hr
        refine .inr ⟨pass, faults, chains, now, tip, reads, now₀, t, by simp, hasks, hpoll,
          (Table.key_of_get? hr').symm, (hchange.terms.trans hterms).symm, ?_, hcount⟩
        intro hs
        exact (hchange.fundingTxid (by rw [hfunding hs]; exact hs)).trans (hfunding hs)
  · intro p hp
    rcases TipWorld.mem_polled_step hmove hp with hold | ⟨now, -, hpoll, -⟩
    · exact (hrec.2 p hold).imp_right fun h => h.mono hlonger
    · exact (hrec.1 _ _ (TipPass.get?_of_mem_poll hpoll)).imp_right fun h => h.mono hlonger

theorem countsRecorded_run {past : List (TipEvent × FundingReads κ)} {w : TipWorld}
    (hrun : (fundingSystem (κ := κ)).Run .empty past w) : w.Inv ∧ CountsRecorded past w := by
  refine hrun.history (I := fun past w => w.Inv ∧ CountsRecorded past w)
    ⟨TipWorld.inv_empty, by simp [TipWorld.empty], by simp [TipWorld.empty]⟩ ?_
  rintro past w₁ l w₂ hstep ⟨hinv, hrec⟩
  exact ⟨TipWorld.inv_step hstep.1 hinv, countsRecorded_step hinv hstep hrec⟩

end Runs

/-! ### What a count says of the chain -/

theorem toInt_confsI32_le (confs : UInt64) : (confsI32 confs).toInt ≤ confs.toNat := by
  have hmin : (min confs 2147483647).toNat ≤ 2147483647 ∧
      (min confs 2147483647).toNat ≤ confs.toNat := by
    rw [UInt64.min_def]
    split
    · exact ⟨UInt64.le_iff_toNat_le.mp ‹_›, le_rfl⟩
    · have hlt := UInt64.le_iff_toNat_le.not.mp ‹_›
      exact ⟨le_rfl, by omega⟩
  have hcast : (confsI32 confs).toInt =
      (((min confs 2147483647).toUInt32.toNat : ℕ) : ℤ).bmod (2 ^ 32) :=
    BitVec.toInt_eq_toNat_bmod _
  rw [hcast, UInt64.toNat_toUInt32, Nat.mod_eq_of_lt (by omega), Int.bmod_def]
  split <;> omega

/-- The attached funding transaction of a row had the confirmations it requires, and so had every
transaction of `later` that is not younger. -/
def FundingBuried (reads : CnReads) (later : CnChain) (r : SocialTipRow) : Prop :=
  ∃ x ∈ reads.atTx.txs, r.fundingTxid = some x.hash ∧
    ∀ y, y = x ∨ y ∈ later.txs → y.height ≤ x.height → y.height ≤ reads.atHeight.height ∧
      r.confirmationsRequired.toInt ≤ (reads.atHeight.height - y.height + 1 : ℕ)

/-- The voucher of a row had the confirmations it requires. -/
def VoucherBuried {κ : Type} (reads : GrinReads κ) (r : SocialTipRow) : Prop :=
  ∃ commit h tx, grinCommitment r = some commit ∧ reads.atOutputs.At h tx ∧ commit ∈ tx.outputs ∧
    h ≤ reads.atHeight.height ∧
    r.confirmationsRequired.toInt ≤ (reads.atHeight.height - h + 1 : ℕ)

/-- What the address of a row received, less what was spent from it, covers the declared amount. -/
def ReceiptsCover (chain : CnChain) (r : SocialTipRow) : Prop :=
  ∃ address, r.tipAddress = some address ∧
    r.amount.toInt + chain.spent address ≤ chain.received address

section Observations

variable {κ : Type}

/-- A count of at least what an XMR or WOW tip requires saw its funding transaction that deep. -/
theorem fundingBuried_of_count {c : LwsClient} {reads : CnReads} {later : CnChain}
    {r : SocialTipRow} {txid : String} {confs : Option UInt64}
    (honest : HonestDaemon reads.atHeight reads.atTx c) (htxid : r.fundingTxid = some txid)
    (hconfs : c.getTransactionConfirmations txid = .ok confs)
    (hpos : 0 < r.confirmationsRequired.toInt)
    (hdeep : r.confirmationsRequired.toInt ≤ (confsI32 (confs.getD 0)).toInt) :
    FundingBuried reads later r := by
  have hcap := toInt_confsI32_le (confs.getD 0)
  cases hc : confs with
  | none =>
    rw [hc] at hdeep
    have hzero : (confsI32 ((none : Option UInt64).getD 0)).toInt = 0 := by decide
    omega
  | some v =>
    subst hc
    simp only [Option.getD_some] at hdeep hcap
    unfold LwsClient.getTransactionConfirmations at hconfs
    split at hconfs
    · cases hconfs
    · cases hheight : c.getBlockchainHeight with
      | error e => simp [hheight, bind, Except.bind] at hconfs
      | ok H =>
        cases hresp : c.transactions txid with
        | error e => simp [hheight, hresp, bind, Except.bind] at hconfs
        | ok resp =>
          simp only [hheight, hresp, bind, Except.bind, pure, Except.pure] at hconfs
          split at hconfs
          · cases hconfs
          · rename_i hstatus
            cases htx : resp.txs.bind List.head? with
            | none => simp [htx] at hconfs
            | some tx =>
              simp only [htx, Except.ok.injEq] at hconfs
              obtain ⟨b, hb, hpool, hle, hv⟩ := LwsClient.confirmationsFrom_pos hconfs (by omega)
              obtain ⟨x, hx, hhash, hxheight⟩ :=
                honest.located txid resp tx b hresp (by simpa using hstatus) htx hpool hb
              have hH := honest.height H hheight
              refine ⟨x, hx, by rw [htxid, hhash], ?_⟩
              intro y _ hy
              omega

/-- A count of at least what a Grin tip requires saw its voucher that deep. -/
theorem voucherBuried_of_count {c : GrinClient} {reads : GrinReads κ} {r : SocialTipRow}
    {commit : String} {t : UInt64} {outs : List GrinOutputInfo} (honest : HonestOutputs reads c)
    (hcommit : grinCommitment r = some commit) (hheight : c.getHeight = .ok t)
    (houts : c.getOutputs [commit] = .ok outs) (hpos : 0 < r.confirmationsRequired.toInt)
    (hdeep : r.confirmationsRequired.toInt ≤ (confsI32 (((outs.find? fun o =>
      o.commit = commit).map (·.confirmations t)).getD 0)).toInt) :
    VoucherBuried reads r := by
  have hcap := toInt_confsI32_le (((outs.find? fun o =>
    o.commit = commit).map (·.confirmations t)).getD 0)
  have hzero : (0 : UInt64).toNat = 0 := rfl
  cases hfind : outs.find? fun o => o.commit = commit with
  | none =>
    rw [hfind, Option.map_none, Option.getD_none] at hcap hdeep
    omega
  | some o =>
    rw [hfind, Option.map_some, Option.getD_some] at hcap hdeep
    have ho : o ∈ outs := List.mem_of_find?_eq_some hfind
    have hoc : o.commit = commit := by simpa using List.find?_some hfind
    unfold GrinOutputInfo.confirmations at hcap hdeep
    cases hb : o.blockHeight with
    | none =>
      simp only [hb] at hcap hdeep
      omega
    | some b =>
      simp only [hb] at hcap hdeep
      split at hcap
      · rename_i hcase
        simp only [Bool.and_eq_true, decide_eq_true_eq] at hcase
        rw [if_pos (by simpa using hcase)] at hdeep
        rw [Lib.toNat_saturatingAddU, Lib.toNat_saturatingSubU] at hcap
        obtain ⟨tx, hat, hmem⟩ := honest.created _ outs o b houts ho hb
        have ht := honest.height t hheight
        have hle := UInt64.le_iff_toNat_le.mp hcase.2
        have hone : (1 : UInt64).toNat = 1 := rfl
        refine ⟨commit, b.toNat, tx, hcommit, hat, hoc ▸ hmem, by omega, ?_⟩
        omega
      · rename_i hcase
        rw [if_neg hcase] at hdeep
        omega

theorem sum_reported {address : String} {xs : List CnTx} {ts : List AddressTx}
    (h : List.Forall₂ (ReportsTx address) xs ts) :
    (ts.map fun t => t.totalReceived.toNat).sum = (xs.map fun x => x.received address).sum ∧
      (xs.map fun x => x.spent address).sum ≤ (ts.map fun t => t.totalSent.toNat).sum := by
  induction h with
  | nil => exact ⟨rfl, le_rfl⟩
  | cons hx _ ih =>
    simp only [List.map_cons, List.sum_cons]
    have := hx.received
    have := hx.spent
    omega

theorem toNat_of_sumU {xs : List UInt64} {total : UInt64} (h : Lib.sumU xs = some total) :
    total.toNat = (xs.map UInt64.toNat).sum := by
  simp only [Lib.sumU] at h
  split at h
  · rename_i hlt
    rw [← Option.some.inj h, UInt64.toNat_ofNat', Nat.mod_eq_of_lt hlt]
  · cases h

/-- A verified XMR or WOW tip is covered by the receipts of its address. -/
theorem receiptsCover_of_verified {chains : ChainClients} {tip : SocialTipRow} {o : UInt64}
    {chain : CnChain} (hasset : toLowercase tip.asset = "xmr" ∨ toLowercase tip.asset = "wow")
    (honest : ∀ c, chains.lws (toLowercase tip.asset) = some c → HonestLws chain c)
    (hverified : verifyFundingAmount chains tip = some (.verified o)) : ReceiptsCover chain tip := by
  rw [verifyFundingAmount_of_cn hasset] at hverified
  split at hverified
  · rename_i c address viewKey hclient haddress hkey
    split at hverified
    · rename_i resp hresp
      obtain ⟨xs, hperm, hreports⟩ := honest c hclient address viewKey resp hresp
      obtain ⟨hreceived, hspent⟩ := sum_reported hreports
      simp only [classifyFundingAmount, Option.bind_eq_bind, Option.bind_eq_some_iff,
        Option.pure_def, Option.some.injEq] at hverified
      obtain ⟨R, hR, S, hS, hclass⟩ := hverified
      have hnet := (classifyTotals_verified_iff R S tip.amount).mp ⟨o, hclass⟩
      have hRsum := toNat_of_sumU hR
      have hSsum := toNat_of_sumU hS
      rw [List.map_map] at hRsum hSsum
      have hpermR := (hperm.map fun x => x.received address).sum_eq
      have hpermS := (hperm.map fun x => x.spent address).sum_eq
      have hconfirmed : resp.transactions.filter AddressTx.confirmed =
          resp.transactions.filter fun tx => !tx.mempool && decide (0 < tx.height) := rfl
      rw [hconfirmed] at hreceived hspent
      refine ⟨address, haddress, ?_⟩
      unfold CnChain.received CnChain.spent
      simp only [Function.comp_def] at hRsum hSsum
      omega
    · cases hverified
  · cases hverified

/-- A verified Grin tip has its voucher in the output set. -/
theorem unspent_of_verified {chains : ChainClients} {tip : SocialTipRow} {o : UInt64}
    {reads : GrinReads κ} (hasset : toLowercase tip.asset = "grin")
    (honest : ∀ c, chains.grin = some c → HonestOutputs reads c)
    (hverified : verifyFundingAmount chains tip = some (.verified o)) :
    ∃ commit, grinCommitment tip = some commit ∧ reads.atOutputs.Unspent commit := by
  unfold verifyFundingAmount at hverified
  simp only [hasset] at hverified
  split at hverified
  · rename_i c commit hclient hcommit
    split at hverified
    · rename_i outs houts
      refine ⟨commit, hcommit, ?_⟩
      by_cases hany : (outs.any fun o => decide (o.commit = commit)) = true
      · obtain ⟨out, hout, heq⟩ := List.any_eq_true.mp hany
        have hcommit' : out.commit = commit := by simpa using heq
        exact hcommit' ▸ (honest c hclient).unspent _ outs out houts hout
      · simp [grinAmountFromPresence, hany] at hverified
    · cases hverified
  · cases hverified

end Observations

/-! ### The step that makes a tip claimable -/

/-- Only a verified verdict makes a row `pending`. -/
theorem TipOp.Edits.pending {op : TipOp} {r r' : SocialTipRow} (h : Edits op r r')
    (hpending : r'.status = .pending) :
    r.status = .pending ∨ ∃ now observed, op = .verified now r.id observed := by
  cases h with
  | verified now observed => exact .inr ⟨now, observed, rfl⟩
  | skip | reattach | updateConfirmations | touch | report | stampDmSent | stampReorg =>
    exact .inl hpending
  | cancelDraft | attach | mismatch | claim | clawback | revert | expire | confirmOnchain
  | clearClaimedBy => cases hpending

/-- Only a verified verdict of the verify pass on its own row makes it `pending`. -/
theorem TipWorld.verified_of_pending {w w' : TipWorld} {e : TipEvent} (hinv : w.db.Inv)
    (h : w.step e = some w') {id : Uuid} {r' : SocialTipRow} (hr' : w'.db.get? id = some r')
    (hpending : r'.status = .pending)
    (hbefore : ∀ r, w.db.get? id = some r → r.status ≠ .pending) :
    ∃ faults chains now tip o, e = .turn .verify faults chains now tip ∧
      (.verify, tip) ∈ w.polled ∧ id = tip.id ∧
      verifyFundingAmount chains tip = some (.verified o) := by
  obtain ⟨op, r₁, r₂, hop, hedit, hne, hs⟩ :=
    entered_status hinv h hr' ⟨by simp, by simp⟩ hpending hbefore
  obtain ⟨now₁, observed, rfl⟩ := (hedit.pending hs).resolve_left hne
  obtain ⟨pass, faults, chains, now, tip, rfl, hissues⟩ := turn_of_issues h hop rfl
  obtain rfl : pass = .verify := by
    cases pass <;> first | rfl | cases hissues
  simp only [step, Option.ite_none_right_eq_some, Option.some.injEq] at h
  obtain ⟨hpolled, rfl⟩ := h
  -- another verdict makes no row `pending`
  have hother : ∀ op : TipOp, op.creates = none → (∀ now id o, op ≠ .verified now id o) →
      TipPass.verify.turn faults chains now tip w.db ≠ op.apply w.db := by
    intro op hnew hnot heq
    rw [heq] at hr'
    cases hr : w.db.get? id with
    | none =>
      have hcreates := (op.apply_new hr hr').1
      rw [hnew] at hcreates
      cases hcreates
    | some r =>
      obtain ⟨r'', hr'', hedit'⟩ := op.apply_edits hr
      obtain rfl := Option.some.inj (hr'.symm.trans hr'')
      rcases hedit'.pending hpending with hp | ⟨now, o, hop⟩
      · exact hbefore r hr hp
      · exact hnot _ _ _ hop
  cases hverdict : verifyFundingAmount chains tip with
  | none =>
    have hsame : TipPass.verify.turn faults chains now tip w.db = w.db := by
      simp [TipPass.turn, FundingPass.run, processPendingVerification, hverdict]
    rw [hsame] at hr'
    exact absurd hpending (hbefore r' hr')
  | some verdict =>
    have htouch : TipPass.verify.turn faults chains now tip w.db ≠
        (TipOp.touch now tip.id).apply w.db := hother _ rfl (by simp)
    cases verdict with
    | verified o =>
      refine ⟨faults, chains, now, tip, o, rfl, hpolled, ?_, hverdict⟩
      by_contra hid
      have hsame : w.db.get? id = some r' := by
        rw [← hr']
        simp only [TipPass.turn, FundingPass.run, processPendingVerification, hverdict]
        exact (SocialTips.onlyAt_guardedUpdate now w.db tip.id _ _ id hid).symm
      exact hbefore r' hsame hpending
    | short o =>
      refine absurd ?_ (hother (.mismatch now tip.id (observedI64 o)) rfl (by simp))
      simp [TipPass.turn, FundingPass.run, processPendingVerification, hverdict, TipOp.apply]
    | unfunded | drained _ _ | lwsError =>
      exact absurd (by simp [TipPass.turn, FundingPass.run, processPendingVerification, hverdict,
        TipOp.apply]) htouch

section Main

variable {κ : Type}

theorem asset_of_counts {pass : TipPass} (hpass : pass.counts) {now : Timestamp} {t : SocialTips}
    {tip : SocialTipRow} (hpoll : tip ∈ pass.poll now t) :
    (pass = .countXmr ∧ tip.asset = "xmr") ∨ (pass = .countWow ∧ tip.asset = "wow") ∨
      (pass = .countGrin ∧ tip.asset = "grin") := by
  have hasset : ∀ asset, tip ∈ t.getTipsPendingConfirmation now asset → tip.asset = asset := by
    intro asset h
    have hguard := (Table.mem_select.mp (List.mem_of_mem_take h)).2
    simp only [Bool.and_eq_true, decide_eq_true_eq] at hguard
    exact hguard.1.1.1.1.2
  cases pass with
  | countXmr => exact .inl ⟨rfl, hasset _ hpoll⟩
  | countWow => exact .inr (.inl ⟨rfl, hasset _ hpoll⟩)
  | countGrin => exact .inr (.inr ⟨rfl, hasset _ hpoll⟩)
  | verify | confirm | reorg => cases hpass

/-- The count on record of an XMR or WOW tip saw its funding transaction. -/
theorem fundingBuried_of_countedBy {past : List (TipEvent × FundingReads κ)} {r : SocialTipRow}
    (later : CnChain) (h : CountedBy past r)
    (hasset : toLowercase r.asset = "xmr" ∨ toLowercase r.asset = "wow")
    (hpos : 0 < r.confirmationsRequired.toInt)
    (hdeep : r.confirmationsRequired.toInt ≤ r.fundingConfirmations.toInt) :
    ∃ l ∈ past, CountedDeep l r ∧ FundingBuried (l.2.lws r.asset) later r := by
  obtain ⟨pass, faults, chains, now, tip, reads, now₀, t, hmem, hasks, hpoll, hid, hterms, hfunding,
    hcount⟩ := h
  have hsame : tip.asset = r.asset := congrArg TipTerms.asset hterms
  have hpass : pass.counts := by
    cases pass <;> first | rfl | cases hcount
  refine ⟨_, hmem, ⟨pass, faults, chains, now, tip, _, rfl, hid, hterms, hfunding, hcount,
    Int32.le_iff_toInt_le.mpr hdeep⟩, ?_⟩
  obtain ⟨hlws, -⟩ := hasks pass faults chains now tip rfl
  -- the two CryptoNote passes read the same way
  have hcrypto : (r.asset = "xmr" ∨ r.asset = "wow") → TipPass.countXmr.count chains tip =
      some r.fundingConfirmations → FundingBuried (reads.lws r.asset) later r := by
    intro hexact hcount
    simp only [TipPass.count, Option.bind_eq_bind, Option.bind_eq_some_iff, Option.pure_def,
      Option.some.injEq] at hcount
    obtain ⟨c, hclient, txid, htxid, confs, hconfs, hn⟩ := hcount
    rw [hsame] at hclient
    rw [← hn] at hdeep
    rw [Option.filter_eq_some_iff] at htxid
    have hfunding' := hfunding (by rw [htxid.1]; rfl)
    refine fundingBuried_of_count (hlws r.asset c hexact hclient).1 (hfunding'.trans htxid.1) ?_ hpos
      hdeep
    cases hres : c.getTransactionConfirmations txid with
    | error e => simp [hres, Except.toOption] at hconfs
    | ok confs' =>
      rw [hres, Except.toOption, Option.some.injEq] at hconfs
      rw [hconfs]
  rcases asset_of_counts hpass hpoll with ⟨rfl, ha⟩ | ⟨rfl, ha⟩ | ⟨rfl, ha⟩
  · exact hcrypto (.inl (hsame.symm.trans ha)) hcount
  · exact hcrypto (.inr (hsame.symm.trans ha)) hcount
  · rw [← hsame, ha] at hasset
    exact absurd hasset (by decide)

/-- The count on record of a Grin tip saw its voucher. -/
theorem voucherBuried_of_countedBy {past : List (TipEvent × FundingReads κ)} {r : SocialTipRow}
    (h : CountedBy past r) (hasset : toLowercase r.asset = "grin")
    (hpos : 0 < r.confirmationsRequired.toInt)
    (hdeep : r.confirmationsRequired.toInt ≤ r.fundingConfirmations.toInt) :
    ∃ l ∈ past, CountedDeep l r ∧ VoucherBuried l.2.grin r := by
  obtain ⟨pass, faults, chains, now, tip, reads, now₀, t, hmem, hasks, hpoll, hid, hterms, hfunding,
    hcount⟩ := h
  have hsame : tip.asset = r.asset := congrArg TipTerms.asset hterms
  have hpass : pass.counts := by
    cases pass <;> first | rfl | cases hcount
  refine ⟨_, hmem, ⟨pass, faults, chains, now, tip, _, rfl, hid, hterms, hfunding, hcount,
    Int32.le_iff_toInt_le.mpr hdeep⟩, ?_⟩
  obtain ⟨-, hgrin⟩ := hasks pass faults chains now tip rfl
  rcases asset_of_counts hpass hpoll with ⟨rfl, ha⟩ | ⟨rfl, ha⟩ | ⟨rfl, ha⟩
  · rw [← hsame, ha] at hasset
    exact absurd hasset (by decide)
  · rw [← hsame, ha] at hasset
    exact absurd hasset (by decide)
  · simp only [TipPass.count, Option.bind_eq_bind, Option.bind_eq_some_iff, Option.pure_def,
      Option.some.injEq] at hcount
    obtain ⟨c, hclient, height, hheight, commit, hcommit, outs, houts, hn⟩ := hcount
    rw [← hn] at hdeep
    have hok : ∀ {α : Type} {x : Except AppError α} {a : α}, x.toOption = some a → x = .ok a := by
      intro α x a h
      cases x with
      | error e => cases h
      | ok b => exact congrArg Except.ok (Option.some.inj h)
    exact voucherBuried_of_count (hgrin c hclient)
      ((grinCommitment_of_terms hterms).symm.trans hcommit) (hok hheight) (hok houts) hpos hdeep

/-- **What a claimable tip owes to the chain.**  A tip becomes `pending` only after a turn that
counted that tip and found the confirmations it requires: of the funding transaction its sender
attached for XMR and WOW, of its voucher for Grin.  At the verdict the transactions that touch an
XMR or WOW address pay it at least the declared amount, less what they spend; a Grin voucher is
unspent. -/
theorem pending_is_funded {w w' : TipWorld} {past : List (TipEvent × FundingReads κ)}
    {e : TipEvent} {reads : FundingReads κ} {id : Uuid} {r' : SocialTipRow}
    (hrun : fundingSystem.Run .empty past w) (hstep : fundingSystem.step w (e, reads) w')
    (hr' : w'.db.get? id = some r') (hpending : r'.status = .pending)
    (hbefore : ∀ r, w.db.get? id = some r → r.status ≠ .pending) :
    (toLowercase r'.asset = "xmr" ∨ toLowercase r'.asset = "wow" →
      ReceiptsCover (reads.lws (toLowercase r'.asset)).atAddress r' ∧
      (0 < r'.confirmationsRequired → ∃ l ∈ past, CountedDeep l r' ∧
        FundingBuried (l.2.lws r'.asset) (reads.lws (toLowercase r'.asset)).atAddress r')) ∧
    (toLowercase r'.asset = "grin" →
      (∃ commit, grinCommitment r' = some commit ∧ reads.grin.atOutputs.Unspent commit) ∧
      (0 < r'.confirmationsRequired →
        ∃ l ∈ past, CountedDeep l r' ∧ VoucherBuried l.2.grin r')) := by
  obtain ⟨hinv, hrec⟩ := countsRecorded_run hrun
  obtain ⟨hmove, hasks⟩ := hstep
  obtain ⟨faults, chains, now, tip, o, rfl, hpolled, rfl, hverified⟩ :=
    TipWorld.verified_of_pending hinv.rows hmove hr' hpending hbefore
  rcases TipWorld.step_row hinv.rows hmove hr' with
    ⟨hnew, hissued, now', new, status, hstatus, hfresh⟩ | ⟨r, hr, hchange⟩
  · rw [hfresh] at hpending
    rcases hstatus with rfl | rfl <;> cases hpending
  -- the row agrees with the copy the verifier polled
  have hterms : r'.terms = tip.terms := hchange.terms.trans (hinv.terms _ hpolled r hr)
  have hfunding : tip.fundingTxid.isSome → r'.fundingTxid = tip.fundingTxid := by
    intro hs
    have h := hinv.fundingTxid _ hpolled r hr hs
    exact (hchange.fundingTxid (by rw [h]; exact hs)).trans h
  have hid : r'.id = tip.id := Table.key_of_get? hr'
  obtain ⟨now₀, t, hpoll⟩ := hinv.polled _ hpolled
  have hguard := (Table.mem_select.mp (List.mem_of_mem_take hpoll)).2
  simp only [Bool.and_eq_true, decide_eq_true_eq] at hguard
  have hdeep := Int32.le_iff_toInt_le.mp hguard.1.2
  have hasset : r'.asset = tip.asset := congrArg TipTerms.asset hterms
  have hrequired : r'.confirmationsRequired = tip.confirmationsRequired :=
    congrArg TipTerms.confirmationsRequired hterms
  have hamount : r'.amount = tip.amount := congrArg TipTerms.amount hterms
  have haddress : r'.tipAddress = tip.tipAddress := congrArg TipTerms.tipAddress hterms
  have hcommit := grinCommitment_of_terms hterms
  have hcounted : 0 < r'.confirmationsRequired →
      0 < tip.confirmationsRequired.toInt ∧ CountedBy past tip := by
    intro hpos
    have hpos' : 0 < tip.confirmationsRequired.toInt := by
      rw [← hrequired]
      exact Int32.lt_iff_toInt_lt.mp hpos
    refine ⟨hpos', (hrec.2 _ hpolled).resolve_left ?_⟩
    intro hzero
    rw [hzero] at hdeep
    have : (0 : Int32).toInt = 0 := rfl
    omega
  obtain ⟨hlws, hgrin⟩ := hasks .verify faults chains now tip rfl
  constructor
  · intro hcrypto
    rw [hasset] at hcrypto ⊢
    obtain ⟨address, ha, hcover⟩ := receiptsCover_of_verified hcrypto
      (fun c hc => (hlws _ c hcrypto hc).2) hverified
    refine ⟨⟨address, haddress.trans ha, by rw [hamount]; exact hcover⟩, ?_⟩
    intro hpos
    obtain ⟨hpos', hrecorded⟩ := hcounted hpos
    obtain ⟨l, hl, hdeeply, x, hx, hxid, hall⟩ := fundingBuried_of_countedBy
      (reads.lws (toLowercase tip.asset)).atAddress hrecorded hcrypto hpos' hdeep
    refine ⟨l, hl, hdeeply.keep hid hterms hfunding, x, hx,
      (hfunding (by rw [hxid]; rfl)).trans hxid, ?_⟩
    rw [hrequired]
    exact hall
  · intro hvoucher
    rw [hasset] at hvoucher
    obtain ⟨commit, hc, hunspent⟩ := unspent_of_verified hvoucher hgrin hverified
    refine ⟨⟨commit, hcommit.trans hc, hunspent⟩, ?_⟩
    intro hpos
    obtain ⟨hpos', hrecorded⟩ := hcounted hpos
    obtain ⟨l, hl, hdeeply, commit', h, tx, hc', hat, hmem, hle, hburied⟩ :=
      voucherBuried_of_countedBy hrecorded hvoucher hpos' hdeep
    refine ⟨l, hl, hdeeply.keep hid hterms hfunding, commit', h, tx, hcommit.trans hc', hat, hmem,
      hle, ?_⟩
    rw [hrequired]
    exact hburied

end Main

/-! ### Honest nodes of given chains -/

/-- Everything about the chain fits in a word. -/
structure CnChain.Bounded (c : CnChain) : Prop where
  /-- The height. -/
  height : c.height < 2 ^ 64
  /-- The transactions. -/
  txs : ∀ x ∈ c.txs, (0 < x.height ∧ x.height < 2 ^ 64) ∧
    ∀ address, x.received address < 2 ^ 64 ∧ x.spent address < 2 ^ 64

/-- The daemon and the light-wallet server that hold the chain. -/
def CnChain.client (c : CnChain) : LwsClient where
  network := "Monero"
  daemonConfigured := true
  addressTxs address _ := .ok
    ⟨(c.touching address).map fun x => ⟨x.hash, .ofNat x.height, .ofNat (x.received address),
      .ofNat (x.spent address), false⟩, .ofNat c.height⟩
  getInfo := .ok ⟨some (.ofNat c.height), "OK", false⟩
  transactions txid := .ok ⟨some (((c.txs.find? fun x => x.hash = txid).map fun x =>
    ⟨some (.ofNat x.height), some false⟩).toList), "OK"⟩

theorem CnChain.honest_client {c : CnChain} (hc : c.Bounded) :
    HonestDaemon c c c.client ∧ HonestLws c c.client := by
  refine ⟨⟨?_, ?_⟩, ?_⟩
  · intro h hh
    obtain rfl := Except.ok.inj hh
    rw [UInt64.toNat_ofNat', Nat.mod_eq_of_lt hc.height]
  · intro txid resp tx h hresp _ htx _ hblock
    obtain rfl := Except.ok.inj hresp
    cases hfind : c.txs.find? fun x => x.hash = txid with
    | none => simp [hfind] at htx
    | some x =>
      simp only [hfind, Option.map_some, Option.toList_some, Option.bind_some, List.head?_cons,
        Option.some.injEq] at htx
      rw [← htx] at hblock
      obtain rfl := Option.some.inj hblock
      have hx := List.mem_of_find?_eq_some hfind
      refine ⟨x, hx, by simpa using List.find?_some hfind, ?_⟩
      rw [UInt64.toNat_ofNat', Nat.mod_eq_of_lt (hc.txs x hx).1.2]
  · intro address viewKey resp hresp
    refine ⟨c.touching address, .refl _, ?_⟩
    have hresp' : resp.transactions = (c.touching address).map fun x =>
        ⟨x.hash, .ofNat x.height, .ofNat (x.received address), .ofNat (x.spent address), false⟩ := by
      simp only [LwsClient.getAddressTxs, client, bind, Except.bind, pure, Except.pure] at hresp
      split at hresp
      · cases hresp
      · exact (congrArg AddressTxsResponse.transactions (Except.ok.inj hresp)).symm
    have hreports : ∀ x ∈ c.txs, ReportsTx address x ⟨x.hash, .ofNat x.height,
        .ofNat (x.received address), .ofNat (x.spent address), false⟩ := by
      intro x hx
      obtain ⟨⟨-, hheight⟩, hamounts⟩ := hc.txs x hx
      obtain ⟨hreceived, hspent⟩ := hamounts address
      refine ⟨rfl, ?_, ?_, ?_⟩
      · exact (UInt64.toNat_ofNat' ..).trans (Nat.mod_eq_of_lt hheight)
      · exact (UInt64.toNat_ofNat' ..).trans (Nat.mod_eq_of_lt hreceived)
      · exact ((UInt64.toNat_ofNat' ..).trans (Nat.mod_eq_of_lt hspent)).ge
    have hall : ∀ t ∈ resp.transactions, AddressTx.confirmed t := by
      rw [hresp']
      intro t ht
      obtain ⟨x, hx, rfl⟩ := List.mem_map.mp ht
      obtain ⟨⟨hpos, hheight⟩, -⟩ := hc.txs x (List.mem_of_mem_filter hx)
      simp only [AddressTx.confirmed, Bool.not_false, Bool.true_and, decide_eq_true_eq]
      rw [UInt64.lt_iff_toNat_lt, UInt64.toNat_ofNat', Nat.mod_eq_of_lt hheight]
      exact hpos
    rw [List.filter_eq_self.mpr hall, hresp']
    refine List.forall₂_map_right_iff.mpr (List.forall₂_same.mpr ?_)
    intro x hx
    exact hreports x (List.mem_of_mem_filter hx)

theorem GrinChain.honest_outputs (c : GrinChain String) : HonestOutputs (.still c) c.client := by
  -- a returned output is one of the output set, dated by the block that created it
  have hof : ∀ commits outs o, c.client.getOutputs commits = .ok outs → o ∈ outs →
      c.Unspent o.commit ∧ o.blockHeight =
        (c.blocks.findIdx? fun b => b.any (o.commit ∈ ·.outputs)).map UInt64.ofNat := by
    intro commits outs o houts ho
    unfold GrinClient.getOutputs at houts
    split at houts
    · obtain rfl := Except.ok.inj houts
      cases ho
    · obtain rfl := Except.ok.inj houts
      obtain ⟨commit, hcommit, rfl⟩ := List.mem_map.mp ho
      exact ⟨by simpa [Unspent] using List.of_mem_filter hcommit, rfl⟩
  refine ⟨c.honest_client.height, fun commits outs o houts ho => (hof commits outs o houts ho).1, ?_⟩
  intro commits outs o h houts ho hblock
  rw [(hof commits outs o houts ho).2, Option.map_eq_some_iff] at hblock
  obtain ⟨i, hi, rfl⟩ := hblock
  obtain ⟨hlt, hany, -⟩ := List.findIdx?_eq_some_iff_getElem.mp hi
  obtain ⟨tx, htx, hmem⟩ := List.any_eq_true.mp hany
  have hbound := c.bounded
  refine ⟨tx, ⟨c.blocks[i], ?_, htx⟩, by simpa using hmem⟩
  rw [UInt64.toNat_ofNat', Nat.mod_eq_of_lt (by omega)]
  exact List.getElem?_eq_getElem hlt

theorem run_of_asks {κ : Type} {w w' : TipWorld} {events : List TipEvent} (reads : FundingReads κ)
    (hrun : TipWorld.system.Run w events w') (hasks : ∀ e ∈ events, AsksHonestNodes reads e) :
    fundingSystem.Run w (events.map fun e => (e, reads)) w' := by
  induction hrun with
  | nil w => exact .nil w
  | cons hstep _ ih =>
    obtain ⟨he, hrest⟩ := List.forall_mem_cons.mp hasks
    exact .cons ⟨hstep, he⟩ (ih hrest)

/-! ### A fresh receipt under an old transaction -/

/-- The chains of a sample. -/
def FundingReads.sample (c : CnChain) (g : GrinChain String) : FundingReads String :=
  ⟨fun _ => ⟨c, c, c⟩, .still g⟩

/-- The clients of a sample. -/
def ChainClients.sample (c : CnChain) (g : GrinChain String) : ChainClients :=
  ⟨none, none, some c.client, none, some g.client⟩

theorem asks_sample {c : CnChain} (hc : c.Bounded) (g : GrinChain String) {pass : TipPass}
    {faults : SweepFaults} {now : Timestamp} {tip : SocialTipRow} :
    AsksHonestNodes (.sample c g) (.turn pass faults (.sample c g) now tip) := by
  rintro _ _ chains _ _ heq
  obtain ⟨-, -, rfl, -, -⟩ := TipEvent.turn.inj heq
  refine ⟨?_, ?_⟩
  · rintro asset client (rfl | rfl) hclient
    · obtain rfl := Option.some.inj hclient
      exact CnChain.honest_client hc
    · cases hclient
  · rintro client hclient
    obtain rfl := Option.some.inj hclient
    exact g.honest_outputs

theorem asks_of_not_turn {κ : Type} (reads : FundingReads κ) {e : TipEvent}
    (h : ∀ pass faults chains now tip, e ≠ .turn pass faults chains now tip) :
    AsksHonestNodes reads e :=
  fun pass faults chains now tip heq => absurd heq (h pass faults chains now tip)

/-- A tip of 5 units whose sender attached the transaction `txid`. -/
def NewSocialTip.attached (asset txid : String) : NewSocialTip :=
  { grinSample with
    asset := asset
    fundingTxid := some txid
    tipViewKey := some "77" }

/-- The tip after a count of `n`. -/
def SocialTipRow.attachedCounted (asset txid : String) (n : Int32) : SocialTipRow :=
  { ofNew 1 0 (.attached asset txid) .pendingConfirmation with
    fundingConfirmations := n
    fundingConfirmedAt := some (seconds 2)
    lastConfirmationCheck := some (seconds 2)
    updatedAt := seconds 2 }

/-- The tip is created and counted by `pass`, and the verifier polls it. -/
def TipEvent.attachedLife (pass : TipPass) (asset txid : String) (chains : ChainClients) :
    List TipEvent :=
  [.call (.create 0 1 (.attached asset txid)), .poll pass (seconds 1),
    .turn pass .none chains (seconds 2) (.ofNew 1 0 (.attached asset txid) .pendingConfirmation),
    .poll .verify (seconds 100)]

theorem run_attachedLife {c : CnChain} (hc : c.Bounded) (g : GrinChain String) (pass : TipPass)
    (asset txid : String) {w : TipWorld}
    (h : (TipEvent.attachedLife pass asset txid (.sample c g)).foldlM TipWorld.step .empty =
      some w) :
    fundingSystem.Run .empty ((TipEvent.attachedLife pass asset txid (.sample c g)).map
      fun e => (e, FundingReads.sample c g)) w := by
  refine run_of_asks _ (Lib.System.Run.ofOption_iff.mpr h) ?_
  intro e he
  simp only [TipEvent.attachedLife, List.mem_cons, List.not_mem_nil, or_false] at he
  rcases he with rfl | rfl | rfl | rfl
  · exact asks_of_not_turn _ (by simp)
  · exact asks_of_not_turn _ (by simp)
  · exact asks_sample hc g
  · exact asks_of_not_turn _ (by simp)

/-- A transaction that pays 5 units to the address of the sample. -/
def CnTx.paying (hash : String) (height : ℕ) : CnTx where
  hash := hash
  height := height
  received address := if address = "08aa" then 5 else 0
  spent _ := 0

/-- A transaction of others. -/
def CnTx.unrelated (hash : String) (height : ℕ) : CnTx := ⟨hash, height, fun _ => 0, fun _ => 0⟩

/-- The tip was funded in the last block; "0d" is old and unrelated. -/
def CnChain.freshlyFunded : CnChain := ⟨111, [.unrelated "0d" 10, .paying "f1" 111]⟩

/-- The tip was funded twelve blocks ago. -/
def CnChain.longFunded : CnChain := ⟨111, [.paying "f0" 100]⟩

theorem CnTx.paying_lt (hash : String) (height : ℕ) (address : String) :
    (paying hash height).received address < 2 ^ 64 ∧ (paying hash height).spent address < 2 ^ 64 := by
  refine ⟨?_, Nat.two_pow_pos 64⟩
  simp only [paying]
  split <;> decide

theorem CnChain.freshlyFunded_bounded : freshlyFunded.Bounded := by
  refine ⟨by decide, ?_⟩
  simp only [freshlyFunded, List.mem_cons, List.not_mem_nil, or_false]
  rintro x (rfl | rfl)
  · exact ⟨by decide, fun _ => ⟨Nat.two_pow_pos 64, Nat.two_pow_pos 64⟩⟩
  · exact ⟨by decide, CnTx.paying_lt _ _⟩

theorem CnChain.longFunded_bounded : longFunded.Bounded := by
  refine ⟨by decide, ?_⟩
  simp only [longFunded, List.mem_singleton]
  rintro x rfl
  exact ⟨by decide, CnTx.paying_lt _ _⟩

/-- The turn that verifies the tip. -/
def TipEvent.attachedVerify (asset txid : String) (n : Int32) (c : CnChain)
    (g : GrinChain String) : TipEvent :=
  .turn .verify .none (.sample c g) (seconds 101) (.attachedCounted asset txid n)

/-- The tip after its verification. -/
def SocialTipRow.attachedVerified (asset txid : String) (n : Int32) : SocialTipRow :=
  { attachedCounted asset txid n with
    status := .pending
    fundingAmountVerified := true
    fundingAmountObserved := some 5
    fundingAmountVerifiedAt := some (seconds 101)
    updatedAt := seconds 101 }

/-- The world before the verification. -/
def TipWorld.attachedPolled (asset txid : String) (n : Int32) : TipWorld :=
  ⟨.singleton (.attachedCounted asset txid n), [(.verify, .attachedCounted asset txid n)], [1]⟩

/-- The world after it. -/
def TipWorld.attachedDone (asset txid : String) (n : Int32) : TipWorld :=
  ⟨.singleton (.attachedVerified asset txid n), [], [1]⟩

/-- What the transactions with at least `n` confirmations pay to the address. -/
def CnChain.receivedAt (c : CnChain) (address : String) (n : ℤ) : ℕ :=
  (((c.touching address).filter fun x =>
    x.height ≤ c.height ∧ n ≤ (c.height - x.height + 1 : ℕ)).map fun x => x.received address).sum

theorem run_attachedPolled {c : CnChain} (hc : c.Bounded) (g : GrinChain String) (pass : TipPass)
    (asset txid : String) (n : Int32)
    (hlife : (TipEvent.attachedLife pass asset txid (.sample c g)).foldlM TipWorld.step .empty =
      some (.attachedPolled asset txid n))
    (hverify : (TipWorld.attachedPolled asset txid n).step (.attachedVerify asset txid n c g) =
      some (.attachedDone asset txid n)) :
    ∃ past, fundingSystem.Run .empty past (.attachedPolled asset txid n) ∧
      (∀ l ∈ past, l.2 = FundingReads.sample c g) ∧
      fundingSystem.step (.attachedPolled asset txid n)
        (.attachedVerify asset txid n c g, .sample c g) (.attachedDone asset txid n) := by
  refine ⟨_, run_attachedLife hc g pass asset txid hlife, ?_, hverify, asks_sample hc g⟩
  intro l hl
  obtain ⟨_, -, rfl⟩ := List.mem_map.mp hl
  rfl

theorem attachedPolled_not_pending (asset txid : String) (n : Int32) :
    ∀ r, (TipWorld.attachedPolled asset txid n).db.get? 1 = some r → r.status ≠ .pending := by
  rintro r hr
  obtain rfl := Option.some.inj hr
  exact TipStatus.noConfusion

/-- A Monero tip becomes pending although nothing that pays its address is ten blocks deep: the
sender attached an old transaction of others.  A Grin tip becomes pending although its voucher is
worth less than it declares. -/
theorem fresh_receipt_pending :
    (∃ c g past w w' e r', fundingSystem.Run .empty past w ∧
      (∀ l ∈ past, l.2 = FundingReads.sample c g) ∧ fundingSystem.step w (e, .sample c g) w' ∧
      w'.db.get? 1 = some r' ∧ r'.asset = "xmr" ∧ r'.status = .pending ∧
      (∀ r, w.db.get? 1 = some r → r.status ≠ .pending) ∧ r'.tipAddress = some "08aa" ∧
      c.receivedAt "08aa" r'.confirmationsRequired.toInt < r'.amount.toInt) ∧
    ∃ worth : String → ℤ, ∃ c g past w w' e r', fundingSystem.Run .empty past w ∧
      (∀ l ∈ past, l.2 = FundingReads.sample c g) ∧ fundingSystem.step w (e, .sample c g) w' ∧
      w'.db.get? 1 = some r' ∧ r'.asset = "grin" ∧ r'.status = .pending ∧
      (∀ r, w.db.get? 1 = some r → r.status ≠ .pending) ∧ grinCommitment r' = some "08aa" ∧
      worth "08aa" < r'.amount.toInt := by
  constructor
  · obtain ⟨past, hrun, hreads, hstep⟩ := run_attachedPolled CnChain.freshlyFunded_bounded
      .sampleFunded .countXmr "xmr" "0d" 102 rfl rfl
    exact ⟨_, _, past, _, _, _, _, hrun, hreads, hstep, rfl, rfl, rfl,
      attachedPolled_not_pending _ _ _, rfl, by decide⟩
  · obtain ⟨past, hrun, hreads, hstep⟩ := run_attachedPolled CnChain.longFunded_bounded
      .sampleFunded .countGrin "grin" "f0" 13 rfl rfl
    exact ⟨fun _ => 1, _, _, past, _, _, _, _, hrun, hreads, hstep, rfl, rfl, rfl,
      attachedPolled_not_pending _ _ _, rfl, by decide⟩

/-- A tip funded twelve blocks ago. -/
theorem long_funded_pending :
    ∃ (past : List (TipEvent × FundingReads String)) (w w' : TipWorld), fundingSystem.Run .empty past w ∧
      fundingSystem.step w (.attachedVerify "xmr" "f0" 12 .longFunded .sampleFunded,
        .sample .longFunded .sampleFunded) w' ∧
      w'.db.get? 1 = some (.attachedVerified "xmr" "f0" 12) ∧
      ReceiptsCover .longFunded (.attachedVerified "xmr" "f0" 12) ∧
      ∃ l ∈ past, CountedDeep l (.attachedVerified "xmr" "f0" 12) ∧
        FundingBuried (l.2.lws "xmr") .longFunded (.attachedVerified "xmr" "f0" 12) := by
  obtain ⟨past, hrun, -, hstep⟩ := run_attachedPolled CnChain.longFunded_bounded
    .sampleFunded .countXmr "xmr" "f0" 12 rfl rfl
  have hr' : (TipWorld.attachedDone "xmr" "f0" 12).db.get? 1 =
      some (.attachedVerified "xmr" "f0" 12) := rfl
  obtain ⟨hcrypto, -⟩ := pending_is_funded hrun hstep hr' rfl (attachedPolled_not_pending _ _ _)
  obtain ⟨hcover, hburied⟩ := hcrypto (.inl rfl)
  exact ⟨past, _, _, hrun, hstep, rfl, hcover, hburied (by decide)⟩

end SmirkBackend
