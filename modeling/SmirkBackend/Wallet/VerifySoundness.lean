import SmirkBackend.Tips.FundingSoundness
import SmirkBackend.Wallet.VerifyOutage

/-!
# Soundness of delegated verification

The three families decide one question from different data: the outputs of a transaction, what the
light-wallet server lists for an address and how deep the daemon has it, the outputs that a view
credential recognizes.  Against servers that report a chain truthfully, what is verified was paid,
is deep enough and has the amount that is given, with two exceptions.  Only the UTXO family refuses
a payment of nothing: elsewhere a request for nothing is verified by a transaction that merely
spends from the destination.  And the confirmations of a CryptoNote payment are counted from the
height of the last block, while a daemon may give the number of blocks.

`verifyUtxo_paid`, `verifyCryptonote_verified_iff` and `verifyGrin_verified_iff` are about the
families, and `verified_paid_iff` says when a verified payment was made.
-/

namespace SmirkBackend

open Lib (Coin Remote amountOf)

/-! ### Chains and their servers -/

/-- A confirmed transaction or output. -/
structure Payment where
  /-- Height of its block. -/
  height : ℕ
  /-- What it pays to a destination. -/
  pays : String → ℕ

/-- The confirmed payments of a chain. -/
structure PaymentChain where
  /-- Height of the last block. -/
  tip : ℕ
  /-- The payment with a reference. -/
  find : String → Option Payment
  /-- Its block is one of the chain. -/
  le_tip : ∀ {ref p}, find ref = some p → p.height ≤ tip

namespace PaymentChain

/-- The blocks from that of a payment to the last one. -/
def confirmations (c : PaymentChain) (p : Payment) : ℕ := c.tip - p.height + 1

/-- The chain has grown. -/
structure Extends (c c' : PaymentChain) : Prop where
  /-- By no block or more. -/
  tip_le : c.tip ≤ c'.tip
  /-- What was confirmed still is. -/
  find : ∀ {ref p}, c.find ref = some p → c'.find ref = some p

end PaymentChain

section Honest

variable (answers : (q : UpstreamRead) → Except AppError q.Reply) (coin : String)

/-- What the servers of a coin affirm is true of one chain, at the first, the second and the third
read of a request.  The height of a daemon is that of the last block, or the number of blocks. -/
structure HonestView (lead : ℕ) (first second third : PaymentChain) : Prop where
  /-- The chain grows. -/
  second_extends : first.Extends second
  /-- It grows again. -/
  third_extends : second.Extends third
  /-- A transaction with a height is in a block. -/
  history : ∀ {decode address h e}, (Verify.getHistory coin decode address).answered answers = .ok h →
    e ∈ h → 0 < e.height → ∃ p, first.find e.txHash = some p
  /-- The outputs of a transaction are given as they are. -/
  transaction : ∀ {txid v p}, (Verify.getTransactionVerbose coin txid).answered answers = .ok v →
    third.find txid = some p → ∃ coins : List (Coin String String),
      List.Forall₂ (fun c (w : VerboseVout) => RendersCoin c w.scriptPubKey w.value) coins v.vout ∧
        ∀ address, p.pays address = amountOf address coins
  /-- A confirmed transaction pays to the address what the light-wallet server says. -/
  addressTxs : ∀ {lws address viewKey resp t},
    (Verify.getAddressTxs coin lws address viewKey).answered answers = .ok resp →
      t ∈ resp.transactions → t.mempool = false → t.height ≠ 0 →
        ∃ p, first.find t.hash = some p ∧ p.pays address = t.totalReceived.toNat
  /-- The daemon's height is `lead` above that of the last block. -/
  daemonHeight : ∀ {lws h}, (Verify.getBlockchainHeight coin lws).answered answers = .ok h →
    h.toNat = second.tip + lead
  /-- Either convention. -/
  lead_le : lead ≤ 1
  /-- A transaction is in the block the daemon names. -/
  located : ∀ {txid resp tx h}, answers (.daemonTransactions coin txid) = .ok resp →
    resp.status = "OK" → resp.txs.bind List.head? = some tx → tx.inPool ≠ some true →
      tx.blockHeight = some h → ∃ p, third.find txid = some p ∧ p.height = h.toNat
  /-- A recognized output with a height is in that block and has that value. -/
  outputs : ∀ {rewindHash outs o}, (Verify.scanRewindHash rewindHash).answered answers = .ok outs →
    o ∈ outs → o.height ≠ 0 → ∃ p, first.find (toLowercase o.commit) = some p ∧
      p.height = o.height.toNat ∧ p.pays rewindHash = o.value.toNat
  /-- The node's height is that of the last block. -/
  nodeHeight : ∀ {t}, Verify.getHeight.answered answers = .ok t → t.toNat = third.tip

end Honest

/-! ### What was paid -/

namespace VerifyRequest

variable (req : VerifyRequest) (family : String)

/-- The destination of the payment: an address, or the owner of the credential. -/
def target : Option String := if family = "grin" then req.viewKey else req.destAddress

/-- The reference of the payment; the letter case of a commitment does not matter. -/
def reference : String := if family = "grin" then toLowercase req.txRef else req.txRef

variable {family}

theorem target_of_ne (h : family ≠ "grin") : req.target family = req.destAddress := if_neg h

theorem reference_of_ne (h : family ≠ "grin") : req.reference family = req.txRef := if_neg h

end VerifyRequest

/-- A payment is what a request expects, and the response gives its amount. -/
structure Paid (chain : PaymentChain) (coin : String) (expected : UInt64) (target : String)
    (p : Payment) (resp : VerifyResponse) : Prop where
  /-- Something was paid. -/
  pos : 0 < p.pays target
  /-- Enough was paid. -/
  enough : expected.toNat ≤ p.pays target
  /-- The payment is deep enough. -/
  deep : (neededConfirmations coin).toNat ≤ chain.confirmations p
  /-- The amount is the one that was paid. -/
  amount : resp.amount = some (toString (p.pays target))

/-- The payment that a request names was made. -/
def PaidAsAsked (chain : PaymentChain) (coin family : String) (req : VerifyRequest)
    (resp : VerifyResponse) : Prop :=
  ∃ expected target p, parseU64 req.amount = some expected ∧ req.target family = some target ∧
    chain.find (req.reference family) = some p ∧ Paid chain coin expected target p resp

/-! ### What is verified -/

section Accepted

variable (inst : VerifyInstance) (answers : (q : UpstreamRead) → Except AppError q.Reply)
  (coin : String) (req : VerifyRequest)

/-- The light-wallet server lists the transaction, in a block, and the daemon counts enough
confirmations. -/
structure CnAccepted (lws : LwsClient) (viewKey address : String) (t : AddressTx) : Prop where
  /-- The coin is enabled. -/
  client : inst.lwsFor coin = .ok lws
  /-- Credential. -/
  credential : req.viewKey = some viewKey
  /-- Destination. -/
  destination : req.destAddress = some address
  /-- The texts have the forms that are asked for. -/
  wellFormed : validateHex req.txRef "tx_ref" 64 = .ok () ∧ validateViewKey viewKey = .ok () ∧
    validateCnAddress address = .ok ()
  /-- The transaction is listed. -/
  listed : ∃ txs, (Verify.getAddressTxs coin lws address viewKey).answered answers = .ok txs ∧
    (txs.transactions.find? fun t => t.hash = req.txRef) = some t
  /-- It is in a block. -/
  confirmed : t.mempool = false ∧ t.height ≠ 0
  /-- The daemon's count. -/
  counted : ∃ n, (Verify.getTransactionConfirmations coin lws req.txRef).answered answers =
    .ok (some n) ∧ neededConfirmations coin ≤ n

/-- The credential recognizes the output, and it is deep enough. -/
structure GrinAccepted (rewindHash : String) (o : ViewWalletOutput) : Prop where
  /-- Grin is enabled. -/
  client : inst.grinFor coin = .ok ()
  /-- Credential. -/
  credential : req.viewKey = some rewindHash
  /-- The texts have the forms that are asked for. -/
  wellFormed : validateHex req.txRef "tx_ref" 66 = .ok () ∧
    validateHex64 rewindHash "view_key" = .ok ()
  /-- The output is recognized. -/
  recognized : ∃ outs, (Verify.scanRewindHash rewindHash).answered answers = .ok outs ∧
    (outs.find? fun o => toLowercase o.commit = toLowercase req.txRef) = some o
  /-- Its confirmations. -/
  counted : ∃ tip, Verify.getHeight.answered answers = .ok tip ∧
    neededConfirmations coin ≤ o.confirmations tip

end Accepted

section Families

variable {inst : VerifyInstance} {answers : (q : UpstreamRead) → Except AppError q.Reply}
  {coin : String} {req : VerifyRequest} {expected : UInt64} {resp : VerifyResponse}

@[simp] theorem VerifyResponse.verified_failed (reason : String) :
    (VerifyResponse.failed reason).verified = false := rfl

@[simp] theorem VerifyResponse.verified_ofAmount (amount : UInt64) :
    (VerifyResponse.ofAmount amount).verified = true := rfl

theorem not_verified_of_failed {reason : String}
    (h : (Remote.ret (.failed reason) : VerifyProgram VerifyResponse).answered answers = .ok resp)
    (hverified : resp.verified = true) : False := by
  obtain rfl := Except.ok.inj h
  cases hverified

/-- What `verify_cryptonote` verifies. -/
theorem verifyCryptonote_verified_iff :
    ((verifyCryptonote inst coin req expected).answered answers = .ok resp ∧
        resp.verified = true) ↔
      ∃ lws viewKey address t, CnAccepted inst answers coin req lws viewKey address t ∧
        expected ≤ t.totalReceived ∧ resp = .ofAmount t.totalReceived := by
  constructor
  · rintro ⟨h, hverified⟩
    obtain ⟨lws, hclient, h⟩ := Remote.answered_bind_eq_ok.mp h
    rw [Remote.answered_ofExcept] at hclient
    cases hviewKey : req.viewKey with
    | none =>
      rw [hviewKey] at h
      exact (not_verified_of_failed h hverified).elim
    | some viewKey =>
      cases haddress : req.destAddress with
      | none =>
        rw [hviewKey, haddress] at h
        exact (not_verified_of_failed h hverified).elim
      | some address =>
        rw [hviewKey, haddress] at h
        obtain ⟨⟨⟩, htxRef, h⟩ := Remote.answered_bind_eq_ok.mp h
        obtain ⟨⟨⟩, hkey, h⟩ := Remote.answered_bind_eq_ok.mp h
        obtain ⟨⟨⟩, hdest, h⟩ := Remote.answered_bind_eq_ok.mp h
        obtain ⟨txs, htxs, h⟩ := Remote.answered_bind_eq_ok.mp h
        rw [Remote.answered_ofExcept] at htxRef hkey hdest
        cases hfind : txs.transactions.find? fun t => t.hash = req.txRef with
        | none =>
          rw [hfind] at h
          exact (not_verified_of_failed h hverified).elim
        | some t =>
          simp only [hfind] at h
          split_ifs at h with hpending
          · exact (not_verified_of_failed h hverified).elim
          · rw [Bool.or_eq_true, not_or, Bool.not_eq_true, decide_eq_true_eq] at hpending
            obtain ⟨confirmations, hcount, h⟩ := Remote.answered_bind_eq_ok.mp h
            split_ifs at h with hdeep hlow
            · exact (not_verified_of_failed h hverified).elim
            · obtain ⟨n, rfl, hn⟩ := (Option.any_eq_true _ _).mp hdeep
              exact ⟨lws, viewKey, address, t, ⟨hclient, hviewKey, haddress,
                ⟨htxRef, hkey, hdest⟩, ⟨txs, htxs, hfind⟩, hpending, ⟨n, hcount, by simpa using hn⟩⟩,
                UInt64.not_lt.mp hlow, (Except.ok.inj h).symm⟩
            · exact (not_verified_of_failed h hverified).elim
  · rintro ⟨lws, viewKey, address, t, hacc, henough, rfl⟩
    obtain ⟨htxRef, hkey, hdest⟩ := hacc.wellFormed
    obtain ⟨txs, htxs, hfind⟩ := hacc.listed
    obtain ⟨n, hcount, hn⟩ := hacc.counted
    refine ⟨Remote.answered_bind_eq_ok.mpr ⟨lws, by rw [Remote.answered_ofExcept, hacc.client], ?_⟩,
      rfl⟩
    rw [hacc.credential, hacc.destination]
    refine Remote.answered_bind_eq_ok.mpr ⟨(), by rw [Remote.answered_ofExcept, htxRef], ?_⟩
    refine Remote.answered_bind_eq_ok.mpr ⟨(), by rw [Remote.answered_ofExcept, hkey], ?_⟩
    refine Remote.answered_bind_eq_ok.mpr ⟨(), by rw [Remote.answered_ofExcept, hdest], ?_⟩
    refine Remote.answered_bind_eq_ok.mpr ⟨txs, htxs, ?_⟩
    simp only [hfind]
    rw [if_neg (by simpa using hacc.confirmed)]
    refine Remote.answered_bind_eq_ok.mpr ⟨some n, hcount, ?_⟩
    rw [if_pos (by simpa using hn), if_neg (UInt64.not_lt.mpr henough)]
    rfl

/-- What `verify_grin` verifies. -/
theorem verifyGrin_verified_iff :
    ((verifyGrin inst coin req expected).answered answers = .ok resp ∧ resp.verified = true) ↔
      ∃ rewindHash o, GrinAccepted inst answers coin req rewindHash o ∧
        expected ≤ o.value ∧ resp = .ofAmount o.value := by
  constructor
  · rintro ⟨h, hverified⟩
    obtain ⟨⟨⟩, hclient, h⟩ := Remote.answered_bind_eq_ok.mp h
    rw [Remote.answered_ofExcept] at hclient
    cases hviewKey : req.viewKey with
    | none =>
      rw [hviewKey] at h
      exact (not_verified_of_failed h hverified).elim
    | some rewindHash =>
      rw [hviewKey] at h
      obtain ⟨⟨⟩, htxRef, h⟩ := Remote.answered_bind_eq_ok.mp h
      obtain ⟨⟨⟩, hkey, h⟩ := Remote.answered_bind_eq_ok.mp h
      obtain ⟨outs, houts, h⟩ := Remote.answered_bind_eq_ok.mp h
      rw [Remote.answered_ofExcept] at htxRef hkey
      cases hfind : outs.find? fun o => toLowercase o.commit = toLowercase req.txRef with
      | none =>
        rw [hfind] at h
        exact (not_verified_of_failed h hverified).elim
      | some o =>
        simp only [hfind] at h
        obtain ⟨tip, htip, h⟩ := Remote.answered_bind_eq_ok.mp h
        unfold grinAmountOutcome at h
        split_ifs at h with hshallow hlow
        · exact (not_verified_of_failed h hverified).elim
        · exact (not_verified_of_failed h hverified).elim
        · exact ⟨rewindHash, o, ⟨hclient, hviewKey, ⟨htxRef, hkey⟩, ⟨outs, houts, hfind⟩,
            ⟨tip, htip, UInt64.not_lt.mp hshallow⟩⟩, UInt64.not_lt.mp hlow, (Except.ok.inj h).symm⟩
  · rintro ⟨rewindHash, o, hacc, henough, rfl⟩
    obtain ⟨htxRef, hkey⟩ := hacc.wellFormed
    obtain ⟨outs, houts, hfind⟩ := hacc.recognized
    obtain ⟨tip, htip, hdeep⟩ := hacc.counted
    refine ⟨Remote.answered_bind_eq_ok.mpr ⟨(), by rw [Remote.answered_ofExcept, hacc.client], ?_⟩,
      rfl⟩
    rw [hacc.credential]
    refine Remote.answered_bind_eq_ok.mpr ⟨(), by rw [Remote.answered_ofExcept, htxRef], ?_⟩
    refine Remote.answered_bind_eq_ok.mpr ⟨(), by rw [Remote.answered_ofExcept, hkey], ?_⟩
    refine Remote.answered_bind_eq_ok.mpr ⟨outs, houts, ?_⟩
    simp only [hfind]
    refine Remote.answered_bind_eq_ok.mpr ⟨tip, htip, ?_⟩
    rw [grinAmountOutcome, if_neg (UInt64.not_lt.mpr hdeep), if_neg (UInt64.not_lt.mpr henough)]
    rfl

/-- What `verify_utxo` has seen when it verifies. -/
theorem utxo_of_verified (h : (verifyUtxo inst coin req expected).answered answers = .ok resp)
    (hverified : resp.verified = true) :
    ∃ decode address history e v paid, inst.electrumFor coin = .ok decode ∧
      req.destAddress = some address ∧
      (Verify.getHistory coin decode address).answered answers = .ok history ∧
      e ∈ history ∧ e.txHash = req.txRef ∧ 0 < e.height ∧
      (Verify.getTransactionVerbose coin req.txRef).answered answers = .ok v ∧
      v.totalReceivedAt address = .ok paid ∧ paid ≠ 0 ∧ expected ≤ paid ∧
      resp = .ofAmount paid := by
  obtain ⟨decode, hclient, h⟩ := Remote.answered_bind_eq_ok.mp h
  rw [Remote.answered_ofExcept] at hclient
  cases haddress : req.destAddress with
  | none =>
    rw [haddress] at h
    exact (not_verified_of_failed h hverified).elim
  | some address =>
    rw [haddress] at h
    obtain ⟨⟨⟩, -, h⟩ := Remote.answered_bind_eq_ok.mp h
    obtain ⟨history, hhistory, h⟩ := Remote.answered_bind_eq_ok.mp h
    cases hfind : history.find? fun e => e.txHash = req.txRef with
    | none =>
      rw [hfind] at h
      exact (not_verified_of_failed h hverified).elim
    | some e =>
      simp only [hfind] at h
      split_ifs at h with hpending
      · exact (not_verified_of_failed h hverified).elim
      · obtain ⟨v, hv, h⟩ := Remote.answered_bind_eq_ok.mp h
        obtain ⟨paid, hpaid, h⟩ := Remote.answered_bind_eq_ok.mp h
        rw [Remote.answered_ofExcept] at hpaid
        unfold utxoAmountOutcome at h
        split_ifs at h with hzero hlow
        · exact (not_verified_of_failed h hverified).elim
        · exact (not_verified_of_failed h hverified).elim
        · exact ⟨decode, address, history, e, v, paid, hclient, rfl, hhistory,
            List.mem_of_find?_eq_some hfind, by simpa using List.find?_some hfind,
            Int64.not_le.mp hpending, hv, hpaid, hzero, UInt64.not_lt.mp hlow,
            (Except.ok.inj h).symm⟩

end Families

/-! ### What the servers report -/

/-- A sum over rendered coins, where it does not overflow. -/
theorem toNat_of_sumAt {overflow address : String} {cs : List (Coin String String)}
    {pairs : List (ScriptPubKeyInfo × Float)}
    (h : List.Forall₂ (fun c p => RendersCoin c p.1 p.2) cs pairs) {acc w : UInt64}
    (hsum : sumAt overflow address acc pairs = .ok w) :
    w.toNat = acc.toNat + amountOf address cs := by
  induction h generalizing acc with
  | nil =>
    obtain rfl := Except.ok.inj hsum
    simp
  | @cons c p cs pairs hp _ ih =>
    obtain ⟨howner, sats, hsats, hval⟩ := hp
    rw [Lib.amountOf_cons]
    by_cases hmine : c.owner = some address
    · have hscript : p.1.getAddress = some address := howner.trans hmine
      simp only [sumAt, hscript, if_true, hsats] at hsum
      change (checkedAdd overflow acc sats >>= fun total => sumAt overflow address total pairs) =
        .ok w at hsum
      unfold checkedAdd at hsum
      split_ifs at hsum with hfits
      · rw [ih hsum, UInt64.toNat_add, Nat.mod_eq_of_lt hfits, if_pos hmine, hval, Nat.add_assoc]
      · cases hsum
    · have hscript : ¬ p.1.getAddress = some address := fun heq => hmine (howner.symm.trans heq)
      simp only [sumAt, hscript, if_false] at hsum
      rw [ih hsum, if_neg hmine, Nat.zero_add]

theorem neededConfirmations_of_electrumFor {inst : VerifyInstance} {coin : String}
    {decode : String → Except AppError String} (h : inst.electrumFor coin = .ok decode) :
    neededConfirmations coin = 0 := by
  unfold VerifyInstance.electrumFor at h
  split at h
  · rfl
  · rfl
  · cases h

theorem neededConfirmations_of_lwsFor {inst : VerifyInstance} {coin : String} {lws : LwsClient}
    (h : inst.lwsFor coin = .ok lws) : 0 < (neededConfirmations coin).toNat := by
  unfold VerifyInstance.lwsFor at h
  split at h
  · decide
  · decide
  · cases h

theorem neededConfirmations_of_grinFor {inst : VerifyInstance} {coin : String}
    (h : inst.grinFor coin = .ok ()) : 0 < (neededConfirmations coin).toNat := by
  unfold VerifyInstance.grinFor at h
  split_ifs at h with hcoin
  rw [Decidable.not_not.mp hcoin]
  decide

section Sound

variable {inst : VerifyInstance} {answers : (q : UpstreamRead) → Except AppError q.Reply}
  {coin : String} {req : VerifyRequest} {expected : UInt64} {resp : VerifyResponse} {lead : ℕ}
  {first second third : PaymentChain}

/-- **UTXO**: what is verified was paid. -/
theorem verifyUtxo_paid (honest : HonestView answers coin lead first second third)
    (h : (verifyUtxo inst coin req expected).answered answers = .ok resp)
    (hverified : resp.verified = true) :
    ∃ address p, req.destAddress = some address ∧ third.find req.txRef = some p ∧
      Paid third coin expected address p resp := by
  obtain ⟨decode, address, history, e, v, paid, hclient, haddress, hhistory, he, hid, hheight, hv,
    hpaid, hpos, henough, rfl⟩ := utxo_of_verified h hverified
  obtain ⟨p, hp⟩ := honest.history hhistory he hheight
  rw [hid] at hp
  have hfind := honest.third_extends.find (honest.second_extends.find hp)
  obtain ⟨coins, hcoins, hamount⟩ := honest.transaction hv hfind
  have hpairs : List.Forall₂ (fun c p => RendersCoin c p.1 p.2) coins
      (v.vout.map fun w => (w.scriptPubKey, w.value)) := List.forall₂_map_right_iff.mpr hcoins
  have hsum := toNat_of_sumAt hpairs hpaid
  rw [UInt64.toNat_zero, Nat.zero_add, ← hamount] at hsum
  refine ⟨address, p, haddress, hfind, ⟨?_, ?_, ?_, ?_⟩⟩
  · rw [← hsum]
    exact Nat.pos_of_ne_zero fun hzero => hpos (UInt64.toNat_inj.mp hzero)
  · rw [← hsum]
    exact UInt64.le_iff_toNat_le.mp henough
  · rw [neededConfirmations_of_electrumFor hclient]
    exact Nat.zero_le _
  · rw [← hsum]
    rfl

/-- An accepted CryptoNote transaction pays what is listed, and its confirmations are those that
are needed but for the lead of the daemon. -/
theorem payment_of_cnAccepted (honest : HonestView answers coin lead first second third)
    {lws : LwsClient} {viewKey address : String} {t : AddressTx}
    (h : CnAccepted inst answers coin req lws viewKey address t) :
    ∃ p, third.find req.txRef = some p ∧ p.pays address = t.totalReceived.toNat ∧
      (neededConfirmations coin).toNat ≤ third.confirmations p + lead := by
  obtain ⟨txs, htxs, hlisted⟩ := h.listed
  obtain ⟨p, hp, hpays⟩ := honest.addressTxs htxs (List.mem_of_find?_eq_some hlisted)
    h.confirmed.1 h.confirmed.2
  have hhash : t.hash = req.txRef := by simpa using List.find?_some hlisted
  rw [hhash] at hp
  have hfind := honest.third_extends.find (honest.second_extends.find hp)
  refine ⟨p, hfind, hpays, ?_⟩
  obtain ⟨n, hcount, hneeded⟩ := h.counted
  have hneeded := UInt64.le_iff_toNat_le.mp hneeded
  have hpos := neededConfirmations_of_lwsFor h.client
  unfold Verify.getTransactionConfirmations at hcount
  split_ifs at hcount
  · cases hcount
  · obtain ⟨height, hheight, hcount⟩ := Remote.answered_bind_eq_ok.mp hcount
    obtain ⟨located, hlocated, hcount⟩ := Remote.answered_bind_eq_ok.mp hcount
    rw [ask, Remote.answered_question] at hlocated
    have hconfs := Except.ok.inj hcount
    unfold Verify.confirmationsOf at hconfs
    split_ifs at hconfs with hstatus
    obtain ⟨tx, htx, hconfs⟩ := Option.bind_eq_some_iff.mp hconfs
    obtain ⟨b, hb, hpool, hle, hn⟩ := LwsClient.confirmationsFrom_pos hconfs (by omega)
    obtain ⟨p', hp', hblock⟩ :=
      honest.located hlocated (Decidable.not_not.mp hstatus) htx hpool hb
    obtain rfl := Option.some.inj (hfind.symm.trans hp')
    have htip := honest.daemonHeight hheight
    have hgrown := honest.third_extends.tip_le
    have hblock_le := third.le_tip hfind
    unfold PaymentChain.confirmations
    omega

/-- An accepted output has the value that is recognized, and the confirmations that are needed. -/
theorem payment_of_grinAccepted (honest : HonestView answers coin lead first second third)
    {rewindHash : String} {o : ViewWalletOutput}
    (h : GrinAccepted inst answers coin req rewindHash o) :
    ∃ p, third.find (toLowercase req.txRef) = some p ∧ p.pays rewindHash = o.value.toNat ∧
      (neededConfirmations coin).toNat ≤ third.confirmations p := by
  obtain ⟨outs, houts, hrecognized⟩ := h.recognized
  obtain ⟨tip, htip, hneeded⟩ := h.counted
  have hneeded := UInt64.le_iff_toNat_le.mp hneeded
  have hpos := neededConfirmations_of_grinFor h.client
  have hcommit : toLowercase o.commit = toLowercase req.txRef := by
    simpa using List.find?_some hrecognized
  unfold ViewWalletOutput.confirmations at hneeded
  split_ifs at hneeded with hpending
  · rw [UInt64.toNat_zero] at hneeded
    omega
  · rw [Bool.or_eq_true, not_or, decide_eq_true_eq, decide_eq_true_eq] at hpending
    obtain ⟨p, hp, hheight, hpays⟩ :=
      honest.outputs houts (List.mem_of_find?_eq_some hrecognized) hpending.1
    rw [hcommit] at hp
    refine ⟨p, honest.third_extends.find (honest.second_extends.find hp), hpays, ?_⟩
    have htip := honest.nodeHeight htip
    rw [Lib.toNat_saturatingAddU, Lib.toNat_saturatingSubU] at hneeded
    have hone : (1 : UInt64).toNat = 1 := rfl
    unfold PaymentChain.confirmations
    omega

/-! ### The two exceptions -/

variable (inst answers req)

/-- Nothing is expected, and nothing was paid. -/
def PaysNothing : Prop :=
  parseU64 req.amount = some 0 ∧
    ((inst.lowercase req.family = "cryptonote" ∧ ∃ lws viewKey address t,
        CnAccepted inst answers (inst.lowercase req.coin) req lws viewKey address t ∧
          t.totalReceived = 0) ∨
      (inst.lowercase req.family = "grin" ∧ ∃ rewindHash o,
        GrinAccepted inst answers (inst.lowercase req.coin) req rewindHash o ∧ o.value = 0))

/-- The daemon gives the number of blocks, and that makes up for a missing confirmation. -/
def Overcounted (lead : ℕ) (third : PaymentChain) : Prop :=
  0 < lead ∧ inst.lowercase req.family = "cryptonote" ∧ ∃ expected lws viewKey address t p,
    parseU64 req.amount = some expected ∧
      CnAccepted inst answers (inst.lowercase req.coin) req lws viewKey address t ∧
        expected ≤ t.totalReceived ∧ third.find req.txRef = some p ∧
          third.confirmations p + 1 = (neededConfirmations (inst.lowercase req.coin)).toNat

variable {inst answers req}

theorem verifyHandler_verified_iff :
    ((verifyHandler inst req).answered answers = .ok resp ∧ resp.verified = true) ↔
      ∃ expected, parseU64 req.amount = some expected ∧
        ((inst.lowercase req.family = "utxo" ∧
            (verifyUtxo inst (inst.lowercase req.coin) req expected).answered answers = .ok resp) ∨
          (inst.lowercase req.family = "cryptonote" ∧
            (verifyCryptonote inst (inst.lowercase req.coin) req expected).answered answers =
              .ok resp) ∨
          (inst.lowercase req.family = "grin" ∧
            (verifyGrin inst (inst.lowercase req.coin) req expected).answered answers =
              .ok resp)) ∧ resp.verified = true := by
  unfold verifyHandler
  cases parseU64 req.amount with
  | none => simp [Remote.answered]
  | some expected =>
    simp only [Option.some.injEq, exists_eq_left']
    split <;> simp_all [Remote.answered]

/-- Every payment that is verified was made. -/
def VerifiesPaid (inst : VerifyInstance) (answers : (q : UpstreamRead) → Except AppError q.Reply)
    (req : VerifyRequest) (chain : PaymentChain) : Prop :=
  ∀ resp, (verifyHandler inst req).answered answers = .ok resp → resp.verified = true →
    PaidAsAsked chain (inst.lowercase req.coin) (inst.lowercase req.family) req resp

/-- A CryptoNote transaction that is accepted is verified, if it pays enough. -/
theorem paid_of_cnAccepted
    (honest : HonestView answers (inst.lowercase req.coin) lead first second third)
    (h : VerifiesPaid inst answers req third) {lws : LwsClient} {viewKey address : String}
    {t : AddressTx} (hfamily : inst.lowercase req.family = "cryptonote")
    (hexpected : parseU64 req.amount = some expected)
    (hacc : CnAccepted inst answers (inst.lowercase req.coin) req lws viewKey address t)
    (henough : expected ≤ t.totalReceived) :
    0 < t.totalReceived.toNat ∧ ∀ p, third.find req.txRef = some p →
      (neededConfirmations (inst.lowercase req.coin)).toNat ≤ third.confirmations p := by
  obtain ⟨hrun, hverified⟩ :=
    verifyCryptonote_verified_iff.mpr ⟨lws, viewKey, address, t, hacc, henough, rfl⟩
  obtain ⟨hanswer, -⟩ := verifyHandler_verified_iff.mpr
    ⟨expected, hexpected, .inr (.inl ⟨hfamily, hrun⟩), hverified⟩
  obtain ⟨_, target, p, -, htarget, hp, hpaid⟩ := h _ hanswer hverified
  have hne : inst.lowercase req.family ≠ "grin" := by rw [hfamily]; decide
  rw [req.target_of_ne hne, hacc.destination] at htarget
  obtain rfl := Option.some.inj htarget
  rw [req.reference_of_ne hne] at hp
  obtain ⟨p', hp', hpays, -⟩ := payment_of_cnAccepted honest hacc
  obtain rfl := Option.some.inj (hp.symm.trans hp')
  refine ⟨hpays ▸ hpaid.pos, fun q hq => ?_⟩
  obtain rfl := Option.some.inj (hp.symm.trans hq)
  exact hpaid.deep

theorem paid_of_grinAccepted
    (honest : HonestView answers (inst.lowercase req.coin) lead first second third)
    (h : VerifiesPaid inst answers req third) {rewindHash : String} {o : ViewWalletOutput}
    (hfamily : inst.lowercase req.family = "grin")
    (hexpected : parseU64 req.amount = some expected)
    (hacc : GrinAccepted inst answers (inst.lowercase req.coin) req rewindHash o)
    (henough : expected ≤ o.value) : 0 < o.value.toNat := by
  obtain ⟨hrun, hverified⟩ := verifyGrin_verified_iff.mpr ⟨rewindHash, o, hacc, henough, rfl⟩
  obtain ⟨hanswer, -⟩ := verifyHandler_verified_iff.mpr
    ⟨expected, hexpected, .inr (.inr ⟨hfamily, hrun⟩), hverified⟩
  obtain ⟨_, target, p, -, htarget, hp, hpaid⟩ := h _ hanswer hverified
  rw [VerifyRequest.target, if_pos hfamily, hacc.credential] at htarget
  obtain rfl := Option.some.inj htarget
  rw [VerifyRequest.reference, if_pos hfamily] at hp
  obtain ⟨p', hp', hpays, -⟩ := payment_of_grinAccepted honest hacc
  obtain rfl := Option.some.inj (hp.symm.trans hp')
  exact hpays ▸ hpaid.pos

theorem eq_zero_of_le {a b : UInt64} (h : a ≤ b) (hb : b.toNat = 0) : a = 0 ∧ b = 0 := by
  have hle := UInt64.le_iff_toNat_le.mp h
  exact ⟨UInt64.toNat_inj.mp (by rw [UInt64.toNat_zero]; omega), UInt64.toNat_inj.mp hb⟩

/-- **Delegated verification**: against honest servers, what is verified was paid exactly when
neither exception applies. -/
theorem verified_paid_iff
    (honest : HonestView answers (inst.lowercase req.coin) lead first second third) :
    VerifiesPaid inst answers req third ↔
      ¬ PaysNothing inst answers req ∧ ¬ Overcounted inst answers req lead third := by
  constructor
  · intro h
    constructor
    · rintro ⟨hexpected, ⟨hfamily, lws, viewKey, address, t, hacc, hzero⟩ |
        ⟨hfamily, rewindHash, o, hacc, hzero⟩⟩
      · have hpos := (paid_of_cnAccepted honest h hfamily hexpected hacc UInt64.zero_le).1
        rw [hzero] at hpos
        exact absurd hpos (by decide)
      · have hpos := paid_of_grinAccepted honest h hfamily hexpected hacc UInt64.zero_le
        rw [hzero] at hpos
        exact absurd hpos (by decide)
    · rintro ⟨-, hfamily, expected, lws, viewKey, address, t, p, hexpected, hacc, henough, hp,
        hshort⟩
      have hdeep := (paid_of_cnAccepted honest h hfamily hexpected hacc henough).2 p hp
      omega
  · rintro ⟨hnothing, hovercounted⟩ resp hanswer hverified
    obtain ⟨expected, hexpected, hfamily, -⟩ :=
      verifyHandler_verified_iff.mp ⟨hanswer, hverified⟩
    rcases hfamily with ⟨hfamily, hrun⟩ | ⟨hfamily, hrun⟩ | ⟨hfamily, hrun⟩
    · have hne : inst.lowercase req.family ≠ "grin" := by rw [hfamily]; decide
      obtain ⟨address, p, haddress, hp, hpaid⟩ := verifyUtxo_paid honest hrun hverified
      exact ⟨expected, address, p, hexpected, (req.target_of_ne hne).trans haddress,
        (req.reference_of_ne hne).symm ▸ hp, hpaid⟩
    · have hne : inst.lowercase req.family ≠ "grin" := by rw [hfamily]; decide
      obtain ⟨lws, viewKey, address, t, hacc, henough, rfl⟩ :=
        verifyCryptonote_verified_iff.mp ⟨hrun, hverified⟩
      obtain ⟨p, hp, hpays, hdeep⟩ := payment_of_cnAccepted honest hacc
      refine ⟨expected, address, p, hexpected, (req.target_of_ne hne).trans hacc.destination,
        (req.reference_of_ne hne).symm ▸ hp, ⟨?_, ?_, ?_, ?_⟩⟩
      · by_contra hpos
        obtain ⟨rfl, hzero⟩ := eq_zero_of_le henough (by omega)
        exact hnothing ⟨hexpected, .inl ⟨hfamily, lws, viewKey, address, t, hacc, hzero⟩⟩
      · rw [hpays]
        exact UInt64.le_iff_toNat_le.mp henough
      · by_contra hshallow
        have hlead := honest.lead_le
        exact hovercounted ⟨by omega, hfamily, expected, lws, viewKey, address, t, p, hexpected,
          hacc, henough, hp, by omega⟩
      · rw [hpays]
        rfl
    · obtain ⟨rewindHash, o, hacc, henough, rfl⟩ :=
        verifyGrin_verified_iff.mp ⟨hrun, hverified⟩
      obtain ⟨p, hp, hpays, hdeep⟩ := payment_of_grinAccepted honest hacc
      refine ⟨expected, rewindHash, p, hexpected, ?_, ?_, ⟨?_, ?_, hdeep, ?_⟩⟩
      · rw [VerifyRequest.target, if_pos hfamily, hacc.credential]
      · rw [VerifyRequest.reference, if_pos hfamily, hp]
      · by_contra hpos
        obtain ⟨rfl, hzero⟩ := eq_zero_of_le henough (by omega)
        exact hnothing ⟨hexpected, .inr ⟨hfamily, rewindHash, o, hacc, hzero⟩⟩
      · rw [hpays]
        exact UInt64.le_iff_toNat_le.mp henough
      · rw [hpays]
        rfl

end Sound

/-! ### A transaction that only spends -/

/-- A transaction in block 100 of 200 that spends 7 from the destination and pays it this. -/
def spendAnswers (received : UInt64) : (q : UpstreamRead) → Except AppError q.Reply
  | .addressTxs _ _ _ => .ok ⟨[⟨"ab", 100, received, 7, false⟩], 200⟩
  | .daemonInfo _ => .ok ⟨some 200, "OK", false⟩
  | .daemonTransactions _ txid =>
    if txid = "ab" then .ok ⟨some [⟨some 100, some false⟩], "OK"⟩ else .error .rateLimited
  | _ => .error .rateLimited

/-- The chain with that transaction. -/
def spendChain (received : UInt64) : PaymentChain where
  tip := 200
  find ref := if ref = "ab" then some ⟨100, fun _ => received.toNat⟩ else none
  le_tip h := by
    split_ifs at h
    obtain rfl := Option.some.inj h
    exact (by decide : 100 ≤ 200)

theorem spendChain_extends (received : UInt64) :
    (spendChain received).Extends (spendChain received) := ⟨Nat.le_refl _, id⟩

theorem honest_spendAnswers (received : UInt64) (coin : String) :
    HonestView (spendAnswers received) coin 0 (spendChain received) (spendChain received)
      (spendChain received) where
  second_extends := spendChain_extends received
  third_extends := spendChain_extends received
  history h := by
    obtain ⟨_, -, h⟩ := Remote.answered_bind_eq_ok.mp h
    obtain ⟨_, h, -⟩ := Remote.answered_bind_eq_ok.mp h
    cases h
  transaction h := by
    obtain ⟨_, h, -⟩ := Remote.answered_bind_eq_ok.mp h
    cases h
  addressTxs h ht := by
    obtain ⟨resp, hresp, h⟩ := Remote.answered_bind_eq_ok.mp h
    obtain rfl := Except.ok.inj hresp
    obtain rfl := Except.ok.inj h
    obtain rfl := List.mem_singleton.mp ht
    exact fun _ _ => ⟨⟨100, fun _ => received.toNat⟩, rfl, rfl⟩
  daemonHeight h := by
    unfold Verify.getBlockchainHeight at h
    split_ifs at h
    · cases h
    · obtain ⟨resp, hresp, h⟩ := Remote.answered_bind_eq_ok.mp h
      obtain rfl := Except.ok.inj hresp
      obtain rfl := Except.ok.inj h
      rfl
  lead_le := Nat.zero_le 1
  located h _ htx _ hb := by
    simp only [spendAnswers] at h
    split_ifs at h with htxid
    obtain rfl := Except.ok.inj h
    obtain rfl := Option.some.inj htx
    obtain rfl := Option.some.inj hb
    exact ⟨_, if_pos htxid, rfl⟩
  outputs h := by
    obtain ⟨_, h, -⟩ := Remote.answered_bind_eq_ok.mp h
    cases h
  nodeHeight h := by
    obtain ⟨_, h, -⟩ := Remote.answered_bind_eq_ok.mp h
    cases h

theorem sevenPaid_paid :
    PaidAsAsked (spendChain 7) (toLowercase "xmr") (toLowercase "cryptonote") sevenPaid
      (.ofAmount 7) := by
  have honest : HonestView (spendAnswers 7) (xmrInstance.lowercase sevenPaid.coin) 0 (spendChain 7)
      (spendChain 7) (spendChain 7) := honest_spendAnswers 7 _
  have hpaid := (verified_paid_iff honest).mpr ⟨fun hnothing => absurd hnothing.1 (by decide),
    fun hovercounted => absurd hovercounted.1 (Nat.lt_irrefl 0)⟩
  exact hpaid _ (by decide +kernel) rfl

/-- Was nothing paid by this transaction? -/
def nothingPaid : VerifyRequest := { sevenPaid with amount := "0" }

theorem nothing_verified :
    ¬ ∀ (inst : VerifyInstance) (answers : (q : UpstreamRead) → Except AppError q.Reply)
      (req : VerifyRequest) (lead : ℕ) (first second third : PaymentChain),
      HonestView answers (inst.lowercase req.coin) lead first second third →
        VerifiesPaid inst answers req third := by
  intro hclaim
  obtain ⟨_, target, p, -, htarget, hp, hpaid⟩ :=
    hclaim xmrInstance (spendAnswers 0) nothingPaid 0 _ _ _ (honest_spendAnswers 0 _)
      (.ofAmount 0) (by decide +kernel) rfl
  obtain rfl : (⟨100, fun _ => 0⟩ : Payment) = p := Option.some.inj hp
  exact absurd hpaid.pos (Nat.lt_irrefl 0)

end SmirkBackend
