import SmirkBackend.Tips.FundingSoundness

/-!
# Exact classification of amounts

A light-wallet server may answer with any amounts.  Their sums are formed with additions that trap
on overflow, while the loop over an Electrum history caps them at the largest word.  The verdicts
are those of exact arithmetic as long as both sums are words; beyond that the classification traps,
and the cycle of the funding pass ends with the tip.

The decision from totals that are words is exact (`classifyTotals_isVerdict`), and
`classified_exactly_iff` says which responses are classified as by exact arithmetic and end no
cycle.
-/

namespace SmirkBackend

/-- The verdict of exact arithmetic on the totals. -/
def IsVerdict (received sent : ℕ) (expected : ℤ) : FundingVerification → Prop
  | .verified observed =>
    observed.toNat = received - sent ∧ 0 < received - sent ∧ expected ≤ (received - sent : ℕ)
  | .short observed =>
    observed.toNat = received - sent ∧ 0 < received - sent ∧ (received - sent : ℕ) < expected ∧
      sent = 0
  | .unfunded => received - sent = 0 ∧ ((received - sent : ℕ) < expected → sent = 0)
  | .drained net totalSent =>
    net.toNat = received - sent ∧ totalSent.toNat = sent ∧ (received - sent : ℕ) < expected ∧
      0 < sent
  | .lwsError => False

theorem IsVerdict.unique {received sent : ℕ} {expected : ℤ} {v v' : FundingVerification}
    (h : IsVerdict received sent expected v) (h' : IsVerdict received sent expected v') : v = v' := by
  cases v <;> cases v' <;> simp only [IsVerdict, ← UInt64.toNat_inj,
    FundingVerification.verified.injEq, FundingVerification.short.injEq,
    FundingVerification.drained.injEq] at h h' ⊢ <;> omega

/-- The decision from two totals is exact. -/
theorem classifyTotals_isVerdict (r s : UInt64) (expected : Int64) :
    IsVerdict r.toNat s.toNat expected.toInt (classifyTotals r s expected) := by
  have hnet := Lib.toNat_saturatingSubU r s
  have hexpected := toNat_expectedU64 expected
  have hlt : Lib.saturatingSubU r s < expectedU64 expected ↔
      r.toNat - s.toNat < (expectedU64 expected).toNat := by rw [UInt64.lt_iff_toNat_lt, hnet]
  have hle : expectedU64 expected ≤ Lib.saturatingSubU r s ↔
      (expectedU64 expected).toNat ≤ r.toNat - s.toNat := by rw [UInt64.le_iff_toNat_le, hnet]
  have hzero : Lib.saturatingSubU r s = 0 ↔ r.toNat - s.toNat = 0 := by
    rw [← UInt64.toNat_inj, hnet]
    rfl
  have hsent : 0 < s ↔ 0 < s.toNat := UInt64.lt_iff_toNat_lt
  unfold classifyTotals
  simp only [Bool.and_eq_true, decide_eq_true_eq, hlt, hle, hzero, hsent]
  split_ifs with h₁ h₂ h₃
  · simp only [IsVerdict, hnet, true_and]
    omega
  · simp only [IsVerdict]
    omega
  · simp only [IsVerdict, hnet, true_and]
    omega
  · simp only [IsVerdict, hnet, true_and]
    omega

/-! ### The totals of a response -/

namespace AddressTxsResponse

variable (txs : AddressTxsResponse)

/-- The confirmed transactions. -/
def confirmed : List AddressTx := txs.transactions.filter fun tx => !tx.mempool && 0 < tx.height

/-- The exact total received. -/
def received : ℕ := ((txs.confirmed.map (·.totalReceived)).map UInt64.toNat).sum

/-- The exact total sent. -/
def sent : ℕ := ((txs.confirmed.map (·.totalSent)).map UInt64.toNat).sum

end AddressTxsResponse

theorem sumU_eq_some_iff {xs : List UInt64} {total : UInt64} :
    Lib.sumU xs = some total ↔ (xs.map UInt64.toNat).sum = total.toNat := by
  simp only [Lib.sumU]
  split_ifs with h
  · rw [Option.some.injEq, ← UInt64.toNat_inj, UInt64.toNat_ofNat_of_lt' h]
  · simp only [false_iff]
    have hlt := total.toNat_lt
    omega

/-- The classification is the decision from the totals, if both are words, and traps otherwise. -/
theorem classifyFundingAmount_cases (txs : AddressTxsResponse) (expected : Int64) :
    (∃ r s : UInt64, r.toNat = txs.received ∧ s.toNat = txs.sent ∧
      classifyFundingAmount txs expected = some (classifyTotals r s expected)) ∨
    ((2 ^ 64 ≤ txs.received ∨ 2 ^ 64 ≤ txs.sent) ∧ classifyFundingAmount txs expected = none) := by
  have hdef : classifyFundingAmount txs expected =
      (Lib.sumU (txs.confirmed.map (·.totalReceived))).bind fun r =>
        (Lib.sumU (txs.confirmed.map (·.totalSent))).bind fun s =>
          some (classifyTotals r s expected) := rfl
  have hnone {xs : List UInt64} (h : Lib.sumU xs = none) : 2 ^ 64 ≤ (xs.map UInt64.toNat).sum := by
    simp only [Lib.sumU] at h
    split_ifs at h with hlt
    omega
  rw [hdef]
  cases hr : Lib.sumU (txs.confirmed.map (·.totalReceived)) with
  | none => exact .inr ⟨.inl (hnone hr), rfl⟩
  | some r =>
    cases hs : Lib.sumU (txs.confirmed.map (·.totalSent)) with
    | none => exact .inr ⟨.inr (hnone hs), rfl⟩
    | some s => exact .inl ⟨r, s, (sumU_eq_some_iff.mp hr).symm, (sumU_eq_some_iff.mp hs).symm, rfl⟩

/-! ### The totals of a history -/

/-- What a transaction spends, as far as the loop over a history counts it. -/
def spentBy (tx : VerboseTransaction) (address : String) (recv : UInt64) : Option (Option UInt64) :=
  if recv = 0 then (tx.totalSentFrom address).toOption else some none

/-- The exact totals that the loop over a history sums up. -/
def electrumTotals (c : ElectrumClient) (address : String) :
    List ElectrumHistoryEntry → Option (ℕ × ℕ)
  | [] => some (0, 0)
  | entry :: rest => do
    let tx ← (c.getTransactionVerbose entry.txHash).toOption
    let recv ← (tx.totalReceivedAt address).toOption
    let sent ← spentBy tx address recv
    let (received, spent) ← electrumTotals c address rest
    return (recv.toNat + received, (sent.getD 0).toNat + spent)

/-- The loop computes the exact totals, capped at the largest word. -/
theorem sumConfirmed_of_totals {c : ElectrumClient} {address : String} {r s : UInt64}
    {R S R₀ S₀ : ℕ} {es : List ElectrumHistoryEntry}
    (h : electrumTotals c address es = some (R, S)) (hr : r.toNat = min R₀ (2 ^ 64 - 1))
    (hs : s.toNat = min S₀ (2 ^ 64 - 1)) :
    ∃ r' s', sumConfirmed c address r s es = some (r', s') ∧
      r'.toNat = min (R₀ + R) (2 ^ 64 - 1) ∧ s'.toNat = min (S₀ + S) (2 ^ 64 - 1) := by
  induction es generalizing r s R S R₀ S₀ with
  | nil =>
    obtain ⟨rfl, rfl⟩ : (0 : ℕ) = R ∧ (0 : ℕ) = S := by simpa [electrumTotals] using h
    exact ⟨r, s, rfl, hr, hs⟩
  | cons entry rest ih =>
    simp only [electrumTotals, Option.bind_eq_bind, Option.bind_eq_some_iff] at h
    obtain ⟨tx, htx, recv, hrecv, sent, hsent, ⟨received, spent⟩, hrest, hsum⟩ := h
    obtain ⟨rfl, rfl⟩ : recv.toNat + received = R ∧ (sent.getD 0).toNat + spent = S := by
      simpa using hsum
    have hok {α : Type} {x : Except AppError α} {a : α} (h : x.toOption = some a) : x = .ok a := by
      cases x with
      | error e => cases h
      | ok b => exact congrArg Except.ok (Option.some.inj h)
    have hr' := toNat_saturatingAddU_of_capped hr (rfl : recv.toNat = recv.toNat)
    rw [← Nat.add_assoc, ← Nat.add_assoc]
    simp only [sumConfirmed, hok htx, hok hrecv]
    unfold spentBy at hsent
    by_cases hzero : recv = 0
    · rw [if_pos hzero] at hsent ⊢
      rw [hok hsent]
      cases sent with
      | none => simpa using ih hrest hr' hs
      | some sent => exact ih hrest hr' (toNat_saturatingAddU_of_capped hs rfl)
    · rw [if_neg hzero] at hsent ⊢
      obtain rfl := Option.some.inj hsent
      simpa using ih hrest hr' hs

theorem verifyElectrumAmount_of_totals {c : ElectrumClient} {address : String} {R S : ℕ}
    {hist : List ElectrumHistoryEntry} {expected : Int64} (hhist : c.getHistory address = .ok hist)
    (htotals : electrumTotals c address (hist.filter fun e => 0 < e.height) = some (R, S))
    (hR : R < 2 ^ 64) (hS : S < 2 ^ 64) :
    IsVerdict R S expected.toInt (verifyElectrumAmount c address expected) := by
  have hstart : (0 : UInt64).toNat = min 0 (2 ^ 64 - 1) := rfl
  obtain ⟨r, s, hsum, hr, hs⟩ := sumConfirmed_of_totals htotals hstart hstart
  obtain rfl : r.toNat = R := by omega
  obtain rfl : s.toNat = S := by omega
  simp only [verifyElectrumAmount, hhist, hsum]
  split_ifs with hempty
  · -- without confirmed transactions both totals are 0
    rw [List.isEmpty_iff.mp hempty] at htotals
    obtain ⟨hR₀, hS₀⟩ : 0 = r.toNat ∧ 0 = s.toNat := by simpa [electrumTotals] using htotals
    simp [IsVerdict, ← hR₀, ← hS₀]
  · exact classifyTotals_isVerdict r s expected

/-! ### The cycle -/

/-- The light-wallet server of the tip answers with a response. -/
def ServesTxs (chains : ChainClients) (tip : SocialTipRow) (txs : AddressTxsResponse) : Prop :=
  (toLowercase tip.asset = "xmr" ∨ toLowercase tip.asset = "wow") ∧
    ∃ lws address viewKey, chains.lws (toLowercase tip.asset) = some lws ∧
      tip.tipAddress = some address ∧ tip.tipViewKey = some viewKey ∧
      lws.getAddressTxs address viewKey = .ok txs

theorem verifyFundingAmount_of_serves {chains : ChainClients} {tip : SocialTipRow}
    {txs : AddressTxsResponse} (h : ServesTxs chains tip txs) :
    verifyFundingAmount chains tip = classifyFundingAmount txs tip.amount := by
  obtain ⟨hasset, lws, address, viewKey, hlws, haddress, hviewKey, htxs⟩ := h
  rw [verifyFundingAmount_of_cn hasset]
  simp only [hlws, haddress, hviewKey, htxs]

/-- A total that is no word ends the cycle before the tip behind it. -/
theorem verifyEach_of_wide {chains : SocialTipRow → ChainClients} {now : Timestamp}
    {tip : SocialTipRow} {rest : List SocialTipRow} {db : SocialTips} {txs : AddressTxsResponse}
    (hwide : 2 ^ 64 ≤ txs.received ∨ 2 ^ 64 ≤ txs.sent) (hanswers : ServesTxs (chains tip) tip txs) :
    verifyEach chains now (tip :: rest) db = db := by
  have htrap : verifyFundingAmount (chains tip) tip = none := by
    rw [verifyFundingAmount_of_serves hanswers]
    rcases classifyFundingAmount_cases txs tip.amount with ⟨r, s, hr, hs, -⟩ | ⟨-, htrap⟩
    · have hr' := r.toNat_lt
      have hs' := s.toNat_lt
      omega
    · exact htrap
  simp [verifyEach, htrap]

/-- A response is classified as by exact arithmetic, the Electrum arm decides alike for the same
totals, and the funding pass goes on with the other tips. -/
structure ClassifiedExactly (txs : AddressTxsResponse) (expected : Int64) : Prop where
  /-- The verdict is that of exact arithmetic. -/
  exact : ∃ v, classifyFundingAmount txs expected = some v ∧
    IsVerdict txs.received txs.sent expected.toInt v
  /-- The Electrum arm gives the same one. -/
  agrees : ∀ (c : ElectrumClient) (address : String) (hist : List ElectrumHistoryEntry),
    c.getHistory address = .ok hist →
    electrumTotals c address (hist.filter fun e => 0 < e.height) = some (txs.received, txs.sent) →
    classifyFundingAmount txs expected = some (verifyElectrumAmount c address expected)
  /-- The next tips get their turn. -/
  continues : ∀ (chains : SocialTipRow → ChainClients) (now : Timestamp) (tip : SocialTipRow)
    (rest : List SocialTipRow) (db : SocialTips), tip.amount = expected →
    ServesTxs (chains tip) tip txs →
    verifyEach chains now (tip :: rest) db =
      verifyEach chains now rest (processPendingVerification (chains tip) now tip db)

/-- **Amounts are classified exactly** when both totals are words, and only then. -/
theorem classified_exactly_iff (txs : AddressTxsResponse) (expected : Int64) :
    ClassifiedExactly txs expected ↔ txs.received < 2 ^ 64 ∧ txs.sent < 2 ^ 64 := by
  rcases classifyFundingAmount_cases txs expected with ⟨r, s, hr, hs, hclass⟩ | ⟨hwide, htrap⟩
  · have hwords : txs.received < 2 ^ 64 ∧ txs.sent < 2 ^ 64 :=
      ⟨hr ▸ r.toNat_lt, hs ▸ s.toNat_lt⟩
    have hverdict := classifyTotals_isVerdict r s expected
    rw [hr, hs] at hverdict
    refine iff_of_true ⟨⟨_, hclass, hverdict⟩, fun c address hist hhist htotals => ?_,
      fun chains now tip rest db hamount hanswers => ?_⟩ hwords
    · rw [hclass, hverdict.unique
        (verifyElectrumAmount_of_totals hhist htotals hwords.1 hwords.2)]
    · have hsome : verifyFundingAmount (chains tip) tip = some (classifyTotals r s expected) := by
        rw [verifyFundingAmount_of_serves hanswers, hamount, hclass]
      simp [verifyEach, hsome]
  · refine iff_of_false (fun h => ?_) (by omega)
    obtain ⟨v, hv, -⟩ := h.exact
    cases htrap.symm.trans hv

/-- Two confirmed transactions of half the range each. -/
def hostileTxs : AddressTxsResponse where
  transactions := [⟨"a", 1, 0x8000000000000000, 0, false⟩, ⟨"b", 1, 0x8000000000000000, 0, false⟩]
  blockchainHeight := 100

/-- Their classification traps. -/
theorem hostileTxs_trap : classifyFundingAmount hostileTxs 5 = none ∧
    ¬ ClassifiedExactly hostileTxs 5 := by
  have htrap : classifyFundingAmount hostileTxs 5 = none := by decide +kernel
  refine ⟨htrap, fun h => ?_⟩
  obtain ⟨v, hv, -⟩ := h.exact
  cases htrap.symm.trans hv

end SmirkBackend
