import Mathlib.Data.List.Forall2
import SmirkBackend.Chain.Amounts
import SmirkBackend.Lib.Utxo
import SmirkBackend.Tips.Confirmation

/-!
# Soundness of the BTC and LTC funding check

The check rebuilds the balance of the tip address from its history.  Against a server that reports a
ledger faithfully (`HonestElectrum`: it resolves inputs or leaves them out, and its decimals denote
the amounts, as the nearest doubles do by `denotes_of_nearest`), the receipts it sums are exact.  Of
the spends it counts those of transactions that pay nothing back to the address and whose inputs are
all resolved, `countedSpends`; the others, `hiddenSpends`, are hidden from it.  It accepts a tip that
the address no longer covers exactly when the hidden spends make up the difference:
`verifyFundingAmount_sound_iff`.
-/

namespace SmirkBackend

open Lib (Coin amountOf total)

/-- No total exceeds 84 million coins. -/
def maxMoney : ℕ := 8400000000000000

/-- A ledger of coins, with transactions and addresses as text. -/
abbrev CoinLedger := Lib.Ledger String String maxMoney

/-- A confirmed transaction. -/
abbrev CoinEntry := Lib.Entry String String

/-! ### Honest servers -/

/-- A decimal amount denotes a number of satoshis. -/
def Denotes (value : Float) (sats : ℕ) : Prop :=
  ∃ w, checkedBtcToSat value = .ok w ∧ w.toNat = sats

/-- The double nearest to an amount denotes it, up to some thirty million coins. -/
theorem denotes_of_nearest {value : Float} {sats : ℕ} (hsats : sats < 2 ^ 25 * 10 ^ 8)
    (h : Lib.Nearest value (sats / 10 ^ 8)) : Denotes value sats :=
  checkedBtcToSat_nearest hsats h

/-- A script and a decimal render a coin. -/
def RendersCoin (c : Coin String String) (script : ScriptPubKeyInfo) (value : Float) : Prop :=
  script.getAddress = c.owner ∧ Denotes value c.amount

/-- A verbose transaction renders a confirmed one; each input is resolved or left out, and the
input of a coinbase cannot be resolved. -/
structure Renders (e : CoinEntry) (v : VerboseTransaction) : Prop where
  /-- Every output is there. -/
  outputs : List.Forall₂ (fun c (w : VerboseVout) => RendersCoin c w.scriptPubKey w.value)
    e.tx.coins v.vout
  /-- Every input is there; what is resolved is right. -/
  inputs : (e.spent = [] ∧ ∀ w ∈ v.vin, w.prevout = none) ∨
    List.Forall₂ (fun c (w : VerboseVin) => ∀ p ∈ w.prevout, RendersCoin c p.scriptPubKey p.value)
      e.spent v.vin

/-- The transaction pays to the address or spends from it. -/
def touches (address : String) (e : CoinEntry) : Bool :=
  (e.tx.coins ++ e.spent).any fun c => c.owner = some address

/-- The server reports the ledger: the confirmed history of the address lists the transactions
that touch it, in any order, and each of them is rendered. -/
structure HonestElectrum (L : CoinLedger) (address : String) (c : ElectrumClient) : Prop where
  /-- The history. -/
  history : ∃ h, c.getHistory address = .ok h ∧
    ((h.filter fun e => 0 < e.height).map (·.txHash)).Perm
      ((L.entries.filter (touches address)).map (·.tx.id))
  /-- The transactions. -/
  transactions : ∀ e ∈ L.entries, touches address e →
    ∃ v, c.getTransactionVerbose e.tx.id = .ok v ∧ Renders e v

/-- The server resolves every input of the transaction. -/
def resolved (c : ElectrumClient) (e : CoinEntry) : Bool :=
  match c.getTransactionVerbose e.tx.id with
  | .ok v => v.vin.all fun w => w.prevout.isSome
  | .error _ => false

/-- The transaction pays something back to the address, or an input is not resolved. -/
def hidden (c : ElectrumClient) (address : String) (e : CoinEntry) : Bool :=
  0 < amountOf address e.tx.coins || !resolved c e

/-- What hidden transactions spend from the address. -/
def hiddenSpends (L : CoinLedger) (c : ElectrumClient) (address : String) : ℕ :=
  ((L.entries.filter (hidden c address)).map fun e => amountOf address e.spent).sum

/-- What the other transactions spend from it. -/
def countedSpends (L : CoinLedger) (c : ElectrumClient) (address : String) : ℕ :=
  ((L.entries.filter fun e => !hidden c address e).map fun e => amountOf address e.spent).sum

theorem hidden_add_counted (L : CoinLedger) (c : ElectrumClient) (address : String) :
    hiddenSpends L c address + countedSpends L c address = L.spent address := by
  unfold hiddenSpends countedSpends Lib.Ledger.spent
  induction L.entries with
  | nil => rfl
  | cons e es ih => cases h : hidden c address e <;> simp [h] <;> omega

/-! ### Reading one transaction -/

theorem amountOf_eq_zero {address : String} {cs : List (Coin String String)}
    (h : ∀ c ∈ cs, c.owner ≠ some address) : amountOf address cs = 0 := by
  have hnil : cs.filter (fun c => c.owner = some address) = [] := by
    rw [List.filter_eq_nil_iff]
    simpa using h
  simp [amountOf, hnil, total]

/-- The sum over rendered coins is the amount of those of the address. -/
theorem sumAt_of_renders (overflow address : String) {cs : List (Coin String String)}
    {pairs : List (ScriptPubKeyInfo × Float)} (h : List.Forall₂ (fun c p => RendersCoin c p.1 p.2) cs pairs)
    (acc : UInt64) (hfits : acc.toNat + amountOf address cs < 2 ^ 64) :
    ∃ w, sumAt overflow address acc pairs = .ok w ∧ w.toNat = acc.toNat + amountOf address cs := by
  induction h generalizing acc with
  | nil => exact ⟨acc, rfl, by simp⟩
  | @cons c p cs pairs hp _ ih =>
    obtain ⟨howner, sats, hsats, hval⟩ := hp
    rw [Lib.amountOf_cons] at hfits ⊢
    by_cases hmine : c.owner = some address
    · have hadd : acc.toNat + sats.toNat < 2 ^ 64 := by simp only [hmine, if_true] at hfits; omega
      have hsum : (acc + sats).toNat = acc.toNat + sats.toNat := by
        rw [UInt64.toNat_add, Nat.mod_eq_of_lt hadd]
      obtain ⟨w, hw, hwval⟩ := ih (acc + sats) (by simp only [hmine, if_true] at hfits; omega)
      refine ⟨w, ?_, ?_⟩
      · have hscript : p.1.getAddress = some address := howner.trans hmine
        have hchecked : checkedAdd overflow acc sats = .ok (acc + sats) := if_pos hadd
        simp only [sumAt, hscript, if_true, hsats]
        change (checkedAdd overflow acc sats >>= fun total => sumAt overflow address total pairs) = _
        rw [hchecked]
        exact hw
      · simp only [hmine, if_true]
        omega
    · have hscript : ¬ p.1.getAddress = some address := fun heq => hmine (howner.symm.trans heq)
      obtain ⟨w, hw, hwval⟩ := ih acc (by simp only [hmine, if_false] at hfits; omega)
      refine ⟨w, ?_, ?_⟩
      · simp only [sumAt, hscript, if_false]
        exact hw
      · simp only [hmine, if_false]
        omega

theorem totalReceivedAt_of_renders {e : CoinEntry} {v : VerboseTransaction} (h : Renders e v)
    (address : String) (hfits : total e.tx.coins ≤ maxMoney) :
    ∃ w, v.totalReceivedAt address = .ok w ∧ w.toNat = amountOf address e.tx.coins := by
  have hpairs : List.Forall₂ (fun c p => RendersCoin c p.1 p.2) e.tx.coins
      (v.vout.map fun w => (w.scriptPubKey, w.value)) := List.forall₂_map_right_iff.mpr h.outputs
  have hle := Lib.amountOf_le_total address e.tx.coins
  obtain ⟨w, hw, hval⟩ := sumAt_of_renders "output amount sum overflow" address hpairs 0
    (by simp only [maxMoney, UInt64.toNat_zero] at hfits ⊢; omega)
  exact ⟨w, hw, by simpa using hval⟩

theorem totalSentFrom_unresolved {v : VerboseTransaction} (address : String)
    (h : v.vin.all (fun w => w.prevout.isSome) = false) : v.totalSentFrom address = .ok none := by
  have hany : v.vin.any (fun w => w.prevout.isNone) = true := by
    rw [List.all_eq_false] at h
    obtain ⟨w, hw, hnone⟩ := h
    rw [List.any_eq_true]
    exact ⟨w, hw, by simpa using hnone⟩
  simp [VerboseTransaction.totalSentFrom, hany]

theorem forall₂_prevouts {cs : List (Coin String String)} {vin : List VerboseVin}
    (h : List.Forall₂
      (fun c (w : VerboseVin) => ∀ p ∈ w.prevout, RendersCoin c p.scriptPubKey p.value) cs vin)
    (hall : vin.all (fun w => w.prevout.isSome) = true) :
    List.Forall₂ (fun c p => RendersCoin c p.1 p.2) cs
      ((vin.filterMap (·.prevout)).map fun p => (p.scriptPubKey, p.value)) := by
  induction h with
  | nil => exact .nil
  | @cons c w cs vin hw _ ih =>
    simp only [List.all_cons, Bool.and_eq_true] at hall
    obtain ⟨p, hp⟩ := Option.isSome_iff_exists.mp hall.1
    rw [List.filterMap_cons_some hp, List.map_cons]
    exact .cons (hw p hp) (ih hall.2)

theorem totalSentFrom_resolved {e : CoinEntry} {v : VerboseTransaction} (h : Renders e v)
    (address : String) (hfits : total e.spent ≤ maxMoney)
    (hall : v.vin.all (fun w => w.prevout.isSome) = true) :
    ∃ w, v.totalSentFrom address = .ok (some w) ∧ w.toNat = amountOf address e.spent := by
  have hnone : v.vin.any (fun w => w.prevout.isNone) = false := by
    rw [List.any_eq_false]
    rw [List.all_eq_true] at hall
    intro w hw
    have := hall w hw
    rw [Option.isNone_iff_eq_none]
    rintro heq
    simp [heq] at this
  have hin : List.Forall₂
      (fun c (w : VerboseVin) => ∀ p ∈ w.prevout, RendersCoin c p.scriptPubKey p.value)
      e.spent v.vin := by
    rcases h.inputs with ⟨hspent, hvin⟩ | hin
    · -- a resolved coinbase has no input at all
      have hnil : v.vin = [] := by
        rw [List.eq_nil_iff_forall_not_mem]
        intro w hw
        have := List.all_eq_true.mp hall w hw
        simp [hvin w hw] at this
      rw [hspent, hnil]
      exact .nil
    · exact hin
  have hle := Lib.amountOf_le_total address e.spent
  obtain ⟨w, hw, hval⟩ := sumAt_of_renders "input amount sum overflow" address
    (forall₂_prevouts hin hall) 0
    (by simp only [maxMoney, UInt64.toNat_zero] at hfits ⊢; omega)
  refine ⟨w, ?_, by simpa using hval⟩
  simp only [VerboseTransaction.totalSentFrom, hnone, Bool.false_eq_true, if_false, hw]
  rfl

/-! ### Reading the history -/

/-- What a transaction adds to the counted spends. -/
def countedSpend (c : ElectrumClient) (address : String) (e : CoinEntry) : ℕ :=
  if hidden c address e then 0 else amountOf address e.spent

/-- The server answers for the transaction with a rendering of it. -/
def Reported (c : ElectrumClient) (e : CoinEntry) : Prop :=
  total e.spent ≤ maxMoney ∧ total e.tx.coins ≤ maxMoney ∧
    ∃ v, c.getTransactionVerbose e.tx.id = .ok v ∧ Renders e v

theorem toNat_saturatingAddU_of_capped {a b : UInt64} {n m : ℕ} (ha : a.toNat = min n (2 ^ 64 - 1))
    (hb : b.toNat = m) : (Lib.saturatingAddU a b).toNat = min (n + m) (2 ^ 64 - 1) := by
  rw [Lib.toNat_saturatingAddU, ha, hb]
  omega

/-- The loop computes both totals, capped at the largest word. -/
theorem sumConfirmed_of_reported {c : ElectrumClient} (address : String)
    {hs : List ElectrumHistoryEntry} {es : List CoinEntry}
    (hmatch : List.Forall₂ (fun h e => h.txHash = e.tx.id) hs es)
    (hread : ∀ e ∈ es, Reported c e) {r s : UInt64} {R S : ℕ}
    (hr : r.toNat = min R (2 ^ 64 - 1)) (hs₀ : s.toNat = min S (2 ^ 64 - 1)) :
    ∃ r' s', sumConfirmed c address r s hs = some (r', s') ∧
      r'.toNat = min (R + (es.map fun e => amountOf address e.tx.coins).sum) (2 ^ 64 - 1) ∧
      s'.toNat = min (S + (es.map (countedSpend c address)).sum) (2 ^ 64 - 1) := by
  induction hmatch generalizing r s R S with
  | nil => exact ⟨r, s, rfl, by simpa using hr, by simpa using hs₀⟩
  | @cons h e hs es hid _ ih =>
    obtain ⟨⟨hspent, hcoins, v, hv, hrender⟩, hrest⟩ := List.forall_mem_cons.mp hread
    obtain ⟨recv, hrecv, hrecvval⟩ := totalReceivedAt_of_renders hrender address hcoins
    have hr' := toNat_saturatingAddU_of_capped hr hrecvval
    have hresolved : resolved c e = v.vin.all fun w => w.prevout.isSome := by simp [resolved, hv]
    simp only [sumConfirmed, hid, hv, hrecv, List.map_cons, List.sum_cons, ← Nat.add_assoc]
    by_cases hzero : recv = 0
    · -- nothing is paid back: the spend counts when it is resolved
      have hback : amountOf address e.tx.coins = 0 := by rw [← hrecvval, hzero]; rfl
      cases hall : v.vin.all fun w => w.prevout.isSome with
      | true =>
        obtain ⟨sent, hsent, hsentval⟩ := totalSentFrom_resolved hrender address hspent hall
        have hcounted : countedSpend c address e = amountOf address e.spent := by
          simp [countedSpend, hidden, hback, hresolved, hall]
        have hs' := toNat_saturatingAddU_of_capped hs₀ hsentval
        simp only [hzero, if_true, hsent, hcounted]
        rw [hzero] at hr'
        exact ih hrest hr' hs'
      | false =>
        have hcounted : countedSpend c address e = 0 := by
          simp [countedSpend, hidden, hresolved, hall]
        simp only [hzero, if_true, totalSentFrom_unresolved address hall, hcounted, Nat.add_zero]
        rw [hzero] at hr'
        exact ih hrest hr' hs₀
    · have hback : 0 < amountOf address e.tx.coins := by
        rw [← hrecvval]
        exact Nat.pos_of_ne_zero fun h0 => hzero (UInt64.toNat_inj.mp h0)
      have hcounted : countedSpend c address e = 0 := by simp [countedSpend, hidden, hback]
      simp only [hzero, if_false, hcounted, Nat.add_zero]
      exact ih hrest hr' hs₀

theorem sum_filter_touches {address : String} {f : CoinEntry → ℕ} (es : List CoinEntry)
    (hf : ∀ e ∈ es, touches address e = false → f e = 0) :
    ((es.filter (touches address)).map f).sum = (es.map f).sum := by
  induction es with
  | nil => rfl
  | cons e es ih =>
    obtain ⟨he, hes⟩ := List.forall_mem_cons.mp hf
    cases ht : touches address e with
    | true => simp [ht, ih hes]
    | false => simp [ht, he ht, ih hes]

theorem amountOf_of_not_touches {address : String} {e : CoinEntry}
    (h : touches address e = false) :
    amountOf address e.tx.coins = 0 ∧ amountOf address e.spent = 0 := by
  simp only [touches, List.any_eq_false, decide_eq_true_eq, List.mem_append] at h
  exact ⟨amountOf_eq_zero fun c hc => h c (.inl hc), amountOf_eq_zero fun c hc => h c (.inr hc)⟩

theorem sum_countedSpend (L : CoinLedger) (c : ElectrumClient) (address : String) :
    (L.entries.map (countedSpend c address)).sum = countedSpends L c address := by
  unfold countedSpends
  induction L.entries with
  | nil => rfl
  | cons e es ih => cases h : hidden c address e <;> simp [countedSpend, h, ih]

/-- **The two totals** of an honest server's history. -/
theorem sumConfirmed_of_honest {L : CoinLedger} {address : String} {c : ElectrumClient}
    (h : HonestElectrum L address c) :
    ∃ hist r s, c.getHistory address = .ok hist ∧
      sumConfirmed c address 0 0 (hist.filter fun e => 0 < e.height) = some (r, s) ∧
      r.toNat = min (L.received address) (2 ^ 64 - 1) ∧
      s.toNat = min (countedSpends L c address) (2 ^ 64 - 1) ∧
      ((hist.filter fun e => 0 < e.height) = [] → L.received address = 0) := by
  obtain ⟨hist, hhist, hperm⟩ := h.history
  -- the history in its own order, with the entry each line stands for
  have hself : List.Forall₂ (fun id (e : CoinEntry) => id = e.tx.id)
      ((L.entries.filter (touches address)).map (·.tx.id)) (L.entries.filter (touches address)) :=
    List.forall₂_map_left_iff.mpr (List.forall₂_same.mpr fun _ _ => rfl)
  obtain ⟨es, hmatch, hes⟩ := List.perm_comp_forall₂ hperm hself
  have hmatch' : List.Forall₂ (fun h e => h.txHash = e.tx.id)
      (hist.filter fun e => 0 < e.height) es := List.forall₂_map_left_iff.mp hmatch
  have hread : ∀ e ∈ es, Reported c e := by
    intro e he
    have hmem := List.mem_filter.mp (hes.mem_iff.mp he)
    obtain ⟨hspent, hcoins⟩ := Lib.confirm_bounded L.valid e hmem.1
    exact ⟨hspent, hcoins, h.transactions e hmem.1 hmem.2⟩
  obtain ⟨r, s, hsum, hr, hs⟩ := sumConfirmed_of_reported address hmatch' hread (R := 0) (S := 0)
    (by rfl : (0 : UInt64).toNat = _) (by rfl : (0 : UInt64).toNat = _)
  have hreceived : (es.map fun e => amountOf address e.tx.coins).sum = L.received address := by
    rw [(hes.map _).sum_eq, sum_filter_touches]
    · rfl
    · exact fun e _ ht => (amountOf_of_not_touches ht).1
  have hcounted : (es.map (countedSpend c address)).sum = countedSpends L c address := by
    rw [(hes.map _).sum_eq, sum_filter_touches, sum_countedSpend]
    intro e _ ht
    simp [countedSpend, (amountOf_of_not_touches ht).2]
  rw [hreceived, Nat.zero_add] at hr
  rw [hcounted, Nat.zero_add] at hs
  refine ⟨hist, r, s, hhist, hsum, hr, hs, ?_⟩
  intro hnil
  rw [hnil] at hmatch'
  cases hmatch'
  simpa using hreceived.symm

/-! ### The verdict -/

theorem toNat_expectedU64 (amount : Int64) : ((expectedU64 amount).toNat : ℤ) = max amount.toInt 0 := by
  unfold expectedU64
  have hneg : amount < 0 ↔ amount.toInt < 0 := Int64.lt_iff_toInt_lt
  have hval := Lib.toNat_toUInt64 amount
  split_ifs with h
  · have := hneg.mp h
    simp only [UInt64.toNat_zero]
    omega
  · have : ¬ amount.toInt < 0 := fun h' => h (hneg.mpr h')
    rw [if_pos (by omega)] at hval
    omega

/-- The totals give a verified receipt exactly when the net is positive and covers the amount. -/
theorem classifyTotals_verified_iff (r s : UInt64) (amount : Int64) :
    (∃ o, classifyTotals r s amount = .verified o) ↔
      0 < r.toNat - s.toNat ∧ amount.toInt ≤ (r.toNat - s.toNat : ℕ) := by
  have hnet := Lib.toNat_saturatingSubU r s
  have hexp := toNat_expectedU64 amount
  have hlt : Lib.saturatingSubU r s < expectedU64 amount ↔
      r.toNat - s.toNat < (expectedU64 amount).toNat := by rw [UInt64.lt_iff_toNat_lt, hnet]
  have hle : expectedU64 amount ≤ Lib.saturatingSubU r s ↔
      (expectedU64 amount).toNat ≤ r.toNat - s.toNat := by rw [UInt64.le_iff_toNat_le, hnet]
  have hzero : Lib.saturatingSubU r s = 0 ↔ r.toNat - s.toNat = 0 := by
    rw [← UInt64.toNat_inj, hnet]
    rfl
  unfold classifyTotals
  simp only [Bool.and_eq_true, decide_eq_true_eq, hlt, hle, hzero]
  split_ifs with h₁ h₂ h₃
  · simp only [exists_false, false_iff, not_and]
    omega
  · simp only [exists_false, false_iff, not_and]
    omega
  · simp only [FundingVerification.verified.injEq, exists_eq', true_iff]
    omega
  · simp only [exists_false, false_iff, not_and]
    omega

/-- The spends that are hidden from the check make up what the address lacks; the amount and the
counted spends together fit in a word. -/
def HiddenShortfall (L : CoinLedger) (c : ElectrumClient) (address : String) (amount : ℤ) : Prop :=
  L.balance address < amount ∧ amount ≤ L.balance address + hiddenSpends L c address ∧
    amount + countedSpends L c address < 2 ^ 64

/-- **Funding soundness**: against a server that reports a ledger, a verified tip is covered by
the balance of its address exactly when hidden spends do not make up a shortfall. -/
theorem verifyFundingAmount_sound_iff {L : CoinLedger} {chains : ChainClients} {tip : SocialTipRow}
    {address : String} {c : ElectrumClient}
    (hasset : toLowercase tip.asset = "btc" ∨ toLowercase tip.asset = "ltc")
    (hclient : chains.electrum (toLowercase tip.asset) = some c)
    (haddress : tip.tipAddress = some address) (honest : HonestElectrum L address c) :
    (∀ o, verifyFundingAmount chains tip = some (.verified o) →
        tip.amount.toInt ≤ L.balance address) ↔
      ¬ HiddenShortfall L c address tip.amount.toInt := by
  have hverify : verifyFundingAmount chains tip =
      some (verifyElectrumAmount c address tip.amount) := by
    unfold verifyFundingAmount
    rcases hasset with h | h <;> rw [h] at hclient ⊢ <;> simp [hclient, haddress]
  obtain ⟨hist, r, s, hhist, hsum, hr, hs, hempty⟩ := sumConfirmed_of_honest honest
  have hverdict : (∃ o, verifyElectrumAmount c address tip.amount = .verified o) ↔
      0 < r.toNat - s.toNat ∧ tip.amount.toInt ≤ (r.toNat - s.toNat : ℕ) := by
    simp only [verifyElectrumAmount, hhist, hsum]
    split_ifs with hnil
    · -- without a confirmed entry nothing was received
      have := hempty (List.isEmpty_iff.mp hnil)
      simp only [exists_false, false_iff, not_and]
      omega
    · exact classifyTotals_verified_iff r s tip.amount
  have hconserve := L.balance_add_spent address
  have hsplit := hidden_add_counted L c address
  have hproperty : (∀ o, verifyFundingAmount chains tip = some (.verified o) →
      tip.amount.toInt ≤ L.balance address) ↔
      ((0 < r.toNat - s.toNat ∧ tip.amount.toInt ≤ (r.toNat - s.toNat : ℕ)) →
        tip.amount.toInt ≤ L.balance address) := by
    rw [hverify, ← hverdict]
    simp
  rw [hproperty]
  unfold HiddenShortfall
  constructor
  · rintro h ⟨hlack, hcover, hfits⟩
    have := h ⟨by omega, by omega⟩
    omega
  · rintro h ⟨hpos, hle⟩
    by_contra hlack
    exact h ⟨by omega, by omega, by omega⟩

/-! ### A swept address -/

/-- One output, as the server sends it. -/
def sampleVout (value : Float) (n : UInt32) (address : String) : VerboseVout :=
  ⟨value, n, ⟨some address, none⟩⟩

/-- A tip address that received 1000 satoshis in `f0`; `s0` sweeps them. -/
def sweptLedger : CoinLedger where
  txs := [⟨"f0", [], [(1000, some "tip")]⟩, ⟨"s0", [⟨"f0", 0⟩], [(900, some "out")]⟩]
  entries := [⟨⟨"f0", [], [(1000, some "tip")]⟩, []⟩,
    ⟨⟨"s0", [⟨"f0", 0⟩], [(900, some "out")]⟩, [⟨⟨"f0", 0⟩, 1000, some "tip"⟩]⟩]
  unspent := ⟨[⟨⟨"s0", 0⟩, 900, some "out"⟩], by decide⟩
  valid := by rfl

/-- A server that resolves no input; `sweep` is the input of the sweep as it reports it. -/
def sampleElectrum (sweep : VerboseVin) : ElectrumClient where
  addressToScripthash := .ok
  historyOf _ := ⟨0, [.ok ⟨some [⟨"f0", 100⟩, ⟨"s0", 101⟩], none, 0⟩]⟩
  headers := ⟨0, [.ok ⟨some 110, none, 0⟩]⟩
  transactionOf txid :=
    if txid = "f0" then
      ⟨0, [.ok ⟨some ⟨"f0", [⟨none, none, none⟩], [sampleVout 0.00001 0 "tip"]⟩, none, 0⟩]⟩
    else ⟨0, [.ok ⟨some ⟨"s0", [sweep], [sampleVout 0.000009 0 "out"]⟩, none, 0⟩]⟩

/-- The declared amount is 1000 satoshis. -/
def sweptTip : SocialTipRow :=
  .ofNew 1 0 { NewSocialTip.grinSample with
    asset := "btc", amount := 1000, tipAddress := some "tip", grinCommitment := none }
    .pendingConfirmation

theorem denotes_thousand : Denotes 0.00001 1000 := ⟨1000, by decide +kernel, rfl⟩

theorem denotes_nineHundred : Denotes 0.000009 900 := ⟨900, by decide +kernel, rfl⟩

theorem honest_sampleElectrum {sweep : VerboseVin}
    (h : ∀ p ∈ sweep.prevout, RendersCoin ⟨⟨"f0", 0⟩, 1000, some "tip"⟩ p.scriptPubKey p.value) :
    HonestElectrum sweptLedger "tip" (sampleElectrum sweep) where
  history := ⟨[⟨"f0", 100⟩, ⟨"s0", 101⟩], rfl, by decide⟩
  transactions := by
    intro e he _
    rcases List.mem_cons.mp he with rfl | he'
    · exact ⟨_, rfl, ⟨.cons ⟨rfl, denotes_thousand⟩ .nil, .inl ⟨rfl, by simp⟩⟩⟩
    · obtain rfl := List.mem_singleton.mp he'
      exact ⟨_, rfl, ⟨.cons ⟨rfl, denotes_nineHundred⟩ .nil, .inr (.cons h .nil)⟩⟩

/-- A swept tip is verified when the server leaves out the input of the sweep. -/
theorem sweptTip_verified :
    HonestElectrum sweptLedger "tip" (sampleElectrum ⟨some "f0", some 0, none⟩) ∧
      verifyFundingAmount ⟨some (sampleElectrum ⟨some "f0", some 0, none⟩), none, none, none, none⟩
        sweptTip = some (.verified 1000) ∧
      (sweptLedger.balance "tip" : ℤ) < sweptTip.amount.toInt :=
  ⟨honest_sampleElectrum (by simp), by decide +kernel, by decide⟩

/-- It is not verified when the server resolves it. -/
theorem sweptTip_resolved_sound :
    (sweptLedger.balance "tip" : ℤ) < sweptTip.amount.toInt ∧ ∀ o, verifyFundingAmount ⟨some (sampleElectrum
        ⟨some "f0", some 0, some ⟨0.00001, some "tip", none⟩⟩), none, none, none, none⟩ sweptTip =
        some (.verified o) → sweptTip.amount.toInt ≤ sweptLedger.balance "tip" :=
  ⟨by decide, (verifyFundingAmount_sound_iff (.inl rfl) rfl rfl
    (honest_sampleElectrum (by
      rintro p hp
      obtain rfl := Option.some.inj hp
      exact ⟨rfl, denotes_thousand⟩))).mpr (by
        rintro ⟨-, hcover, -⟩
        revert hcover
        decide +kernel)⟩

end SmirkBackend
