import Mathlib.Algebra.Order.BigOperators.Group.List
import Mathlib.Data.List.Dedup
import SmirkBackend.Tips.AddressAttribution
import SmirkBackend.Tips.FundingSoundness
import SmirkBackend.Wallet.UtxoBatch

/-!
# Batch queries count each address they are given

A batch of addresses is answered address by address, and nothing tells that two of them stand for
one script.  The outputs of a script are then listed and summed once for each of its addresses,
while the amounts of a transaction are summed for the addresses in the servers' spelling alone.

`countsOnce_iff` gives the lists that are counted once, whatever the chain: those that name each
script once and in the servers' spelling.  `letter_case_counted_twice` has one script under two
spellings.
-/

namespace SmirkBackend

open List (Forall₂)

/-! ### Amounts -/

/-- An amount in satoshis; what is not an amount counts for nothing. -/
def sats (value : Float) : ℕ :=
  match checkedBtcToSat value with
  | .ok w => w.toNat
  | .error _ => 0

/-- The sum of some amounts. -/
def satsOf (values : List Float) : ℕ := (values.map sats).sum

theorem sumAmounts_eq_ok {overflow : String} {start w : UInt64} {values : List Float}
    (h : sumAmounts overflow start values = .ok w) : w.toNat = start.toNat + satsOf values := by
  induction values generalizing start with
  | nil =>
    obtain rfl := Except.ok.inj h
    simp [satsOf]
  | cons value values ih =>
    simp only [sumAmounts, bind_eq_ok_iff] at h
    obtain ⟨s, hs, t, ht, hrest⟩ := h
    have hval : sats value = s.toNat := by simp [sats, hs]
    have hsum : t.toNat = start.toNat + s.toNat := by
      unfold checkedAdd at ht
      split_ifs at ht with hfits
      rw [← Except.ok.inj ht, UInt64.toNat_add, Nat.mod_eq_of_lt hfits]
    have htail := ih hrest
    simp only [satsOf, List.map_cons, List.sum_cons, hval] at htail ⊢
    omega

namespace VerboseTransaction

variable (tx : VerboseTransaction)

/-- What the outputs that a text selects are worth. -/
def receivedAt (text : Option String) : ℕ :=
  satsOf ((tx.vout.filter fun v => v.scriptPubKey.getAddress = text).map (·.value))

/-- What the previous outputs that a text selects are worth. -/
def sentFrom (text : Option String) : ℕ :=
  satsOf ((tx.prevouts.filter fun p => p.scriptPubKey.getAddress = text).map (·.value))

variable {tx}

theorem receivedAt_of_ok {address : String} {w : UInt64} (h : tx.totalReceivedAt address = .ok w) :
    w.toNat = tx.receivedAt (some address) := by
  rw [tx.totalReceivedAt_eq] at h
  simpa [receivedAt, outputsAt] using sumAmounts_eq_ok h

theorem sentFrom_of_ok {address : String} {w : UInt64}
    (h : tx.totalSentFrom address = .ok (some w)) : w.toNat = tx.sentFrom (some address) := by
  rw [tx.totalSentFrom_eq] at h
  split_ifs at h with hunresolved
  · cases h
  cases hsum : sumAmounts "input amount sum overflow" 0 ((tx.prevoutsAt address).map (·.value)) with
  | error e =>
    rw [hsum] at h
    cases h
  | ok v =>
    rw [hsum] at h
    obtain rfl : v = w := Option.some.inj (Except.ok.inj h)
    simpa [sentFrom, prevoutsAt] using sumAmounts_eq_ok hsum

end VerboseTransaction

/-- One address of the loop: a total that is known afterwards was known before, and grew by what the
address received or sent, unless it is capped. -/
theorem add_known (tx : VerboseTransaction) (t : AmountTotals) (address : String) :
    ((t.add tx address).receivedOk = true → t.receivedOk = true ∧
      (t.add tx address).received.toNat = min (t.received.toNat + tx.receivedAt (some address)) (2 ^ 64 - 1)) ∧
    ((t.add tx address).sentOk = true → t.sentOk = true ∧ (t.add tx address).sent.toNat =
      min (t.sent.toNat + tx.sentFrom (some address)) (2 ^ 64 - 1)) := by
  unfold AmountTotals.add
  constructor
  · cases hreceived : tx.totalReceivedAt address with
    | error e => cases tx.totalSentFrom address with
      | error e => simp
      | ok sent => cases sent <;> simp
    | ok v =>
      have hv := VerboseTransaction.receivedAt_of_ok hreceived
      cases tx.totalSentFrom address with
      | error e => simp [Lib.toNat_saturatingAddU, hv]
      | ok sent => cases sent <;> simp [Lib.toNat_saturatingAddU, hv]
  · cases hsent : tx.totalSentFrom address with
    | error e => simp
    | ok sent => cases sent with
      | none => simp
      | some v =>
        have hv := VerboseTransaction.sentFrom_of_ok hsent
        cases tx.totalReceivedAt address <;> simp [Lib.toNat_saturatingAddU, hv]

theorem min_add_min (a b c m : ℕ) : min (min (a + b) m + c) m = min (a + (b + c)) m := by omega

/-- The loop over the addresses: a total that is known is the sum over the addresses, unless it is
capped. -/
theorem foldl_add_known (tx : VerboseTransaction) (addresses : List String) (t : AmountTotals) :
    ((addresses.foldl (AmountTotals.add tx) t).receivedOk = true → t.receivedOk = true ∧
      (addresses.foldl (AmountTotals.add tx) t).received.toNat =
        min (t.received.toNat + (addresses.map fun a => tx.receivedAt (some a)).sum) (2 ^ 64 - 1)) ∧
    ((addresses.foldl (AmountTotals.add tx) t).sentOk = true → t.sentOk = true ∧
      (addresses.foldl (AmountTotals.add tx) t).sent.toNat =
        min (t.sent.toNat + (addresses.map fun a => tx.sentFrom (some a)).sum) (2 ^ 64 - 1)) := by
  induction addresses generalizing t with
  | nil =>
    have hreceived := t.received.toNat_lt
    have hsent := t.sent.toNat_lt
    simp only [List.foldl_nil, List.map_nil, List.sum_nil]
    exact ⟨fun h => ⟨h, by omega⟩, fun h => ⟨h, by omega⟩⟩
  | cons a rest ih =>
    obtain ⟨hreceived, hsent⟩ := ih (t.add tx a)
    obtain ⟨hreceived₁, hsent₁⟩ := add_known tx t a
    simp only [List.foldl_cons, List.map_cons, List.sum_cons]
    constructor
    · intro h
      obtain ⟨hok, hval⟩ := hreceived h
      obtain ⟨hok₁, hval₁⟩ := hreceived₁ hok
      exact ⟨hok₁, by rw [hval, hval₁, min_add_min]⟩
    · intro h
      obtain ⟨hok, hval⟩ := hsent h
      obtain ⟨hok₁, hval₁⟩ := hsent₁ hok
      exact ⟨hok₁, by rw [hval, hval₁, min_add_min]⟩

/-- Distinct texts select no item twice. -/
theorem sum_selected_le {α : Type} (text : α → Option String) (value : α → ℕ)
    {addresses : List String} (hnodup : addresses.Nodup) (items : List α) :
    (addresses.map fun a => ((items.filter fun x => text x = some a).map value).sum).sum ≤
      (items.map value).sum := by
  have hone (x : α) : (addresses.map fun a => if text x = some a then value x else 0).sum ≤
      value x := by
    induction hnodup with
    | nil => simp
    | @cons a rest hnew _ ih =>
      rw [List.map_cons, List.sum_cons]
      by_cases ha : text x = some a
      · -- no later text selects it
        have hzero : (rest.map fun a => if text x = some a then value x else 0).sum = 0 := by
          refine List.sum_eq_zero fun n hn => ?_
          obtain ⟨b, hb, rfl⟩ := List.mem_map.mp hn
          rw [if_neg fun hxb => hnew b hb (Option.some.inj (ha.symm.trans hxb))]
        rw [if_pos ha, hzero]
        omega
      · rw [if_neg ha]
        omega
  induction items with
  | nil => simp
  | cons x items ih =>
    have hsplit : (addresses.map fun a =>
        (((x :: items).filter fun x => text x = some a).map value).sum).sum =
        (addresses.map fun a => if text x = some a then value x else 0).sum +
          (addresses.map fun a => ((items.filter fun x => text x = some a).map value).sum).sum := by
      rw [← List.sum_map_add]
      congr 1
      refine List.map_congr_left fun a _ => ?_
      by_cases ha : text x = some a <;> simp [ha]
    have hx := hone x
    rw [hsplit, List.map_cons, List.sum_cons]
    omega

/-! ### Chains and scripts -/

section

variable (net : UtxoNetwork) (codec : AddressCodec)

/-- The script of an accepted address. -/
def scriptAt (address : String) : List UInt8 :=
  match net.addressToScript codec address with
  | .ok script => script
  | .error _ => []

/-- How the servers name the script of an accepted address. -/
def hashAt (address : String) : String := UtxoNetwork.scripthash codec (scriptAt net codec address)

/-- The scripts of a list of addresses, each once. -/
def distinctScripts (addresses : List String) : List (List UInt8) :=
  (addresses.map (scriptAt net codec)).dedup

/-- The batch endpoints accept the list. -/
structure AcceptedBatch (addresses : List String) : Prop where
  /-- Its length. -/
  valid : validateAddressBatch addresses = .ok ()
  /-- Every address. -/
  decodes : ∀ a ∈ addresses, net.addressToScript codec a = .ok (scriptAt net codec a)

variable (render : List UInt8 → Option String)

/-- Servers that report a chain, and the scripts behind its transactions. -/
structure ServedChain where
  /-- The client of the servers. -/
  client : BatchClient
  /-- Its network. -/
  onNet : client.net = net
  /-- Its codec. -/
  withCodec : client.codec = codec
  /-- The scripts behind the resolved inputs of a transaction. -/
  spentBy : String → List (List UInt8)
  /-- The scripts behind its outputs. -/
  paidBy : String → List (List UInt8)
  /-- The outputs of a script are listed once. -/
  once : ∀ sh us, (client.unspentOf sh).run = .ok us → (us.map ElectrumUtxo.outpoint).Nodup
  /-- An output is of one script. -/
  apart : ∀ sh sh' us us', sh ≠ sh' → (client.unspentOf sh).run = .ok us →
    (client.unspentOf sh').run = .ok us' → ∀ u ∈ us, ∀ u' ∈ us', u.outpoint ≠ u'.outpoint
  /-- Transactions are rendered. -/
  served : ∀ txid tx, client.getTransactionVerbose txid = .ok tx →
    ServedTx render (spentBy txid) (paidBy txid) tx
  /-- No transaction moves more than there is. -/
  bounded : ∀ txid tx, client.getTransactionVerbose txid = .ok tx →
    satsOf (tx.vout.map (·.value)) ≤ maxMoney ∧ satsOf (tx.prevouts.map (·.value)) ≤ maxMoney

variable {net codec render}

/-- The balance that the servers give for a script. -/
def ServedChain.balanceAt (chain : ServedChain net codec render) (script : List UInt8) :
    ElectrumBalance :=
  match (chain.client.balanceOf (UtxoNetwork.scripthash codec script)).run with
  | .ok b => b
  | .error _ => ⟨0, 0⟩

/-- What a transaction pays to a script. -/
def ServedChain.paidTo (chain : ServedChain net codec render) (txid : String)
    (tx : VerboseTransaction) (script : List UInt8) : ℕ :=
  satsOf ((itemsOf script (chain.paidBy txid) tx.vout).map (·.value))

/-- What it spends from a script, as far as its inputs are resolved. -/
def ServedChain.spentFrom (chain : ServedChain net codec render) (txid : String)
    (tx : VerboseTransaction) (script : List UInt8) : ℕ :=
  satsOf ((itemsOf script (chain.spentBy txid) tx.prevouts).map (·.value))

/-- **Each output is counted once**, whenever the batch queries answer. -/
structure CountsOnce (chain : ServedChain net codec render) (addresses : List String) : Prop where
  /-- No outpoint is listed twice. -/
  utxos : ∀ late out, chain.client.getUtxosTagged late addresses = .ok out →
    (out.map fun p => p.2.outpoint).Nodup
  /-- The balance is that of the distinct scripts. -/
  balance : ∀ late b, chain.client.getBalanceSum late addresses = .ok b →
    b.confirmed.toNat = ((distinctScripts net codec addresses).map fun s =>
      (chain.balanceAt s).confirmed.toNat).sum ∧
    b.unconfirmed.toInt = ((distinctScripts net codec addresses).map fun s =>
      (chain.balanceAt s).unconfirmed.toInt).sum
  /-- The amounts of a transaction are those of the distinct scripts. -/
  amounts : ∀ clients auth late req asset resp, req.addresses = addresses →
    batchClient clients auth req = .ok (asset, chain.client) →
    historyMulti clients auth late req = .ok resp → ∀ row ∈ resp.transactions,
      (∀ v, row.totalReceived = some v →
        ∃ tx, chain.client.getTransactionVerbose row.txid = .ok tx ∧
          v.toNat = ((distinctScripts net codec addresses).map
            (chain.paidTo row.txid tx)).sum) ∧
      ∀ v, row.totalSent = some v →
        ∃ tx, chain.client.getTransactionVerbose row.txid = .ok tx ∧
          v.toNat = ((distinctScripts net codec addresses).map
            (chain.spentFrom row.txid tx)).sum

variable (net codec render)

/-- The list names each script once, and in the spelling that the servers render it in. -/
structure EachScriptOnce (addresses : List String) : Prop where
  /-- Once. -/
  nodup : (addresses.map (hashAt net codec)).Nodup
  /-- In the servers' spelling. -/
  spelled : ∀ a ∈ addresses, ∃ t ∈ addresses, render (scriptAt net codec a) = some t

variable {net codec render}

theorem EachScriptOnce.scripts_nodup {addresses : List String}
    (h : EachScriptOnce net codec render addresses) :
    (addresses.map (scriptAt net codec)).Nodup := by
  have hmap : addresses.map (hashAt net codec) =
      (addresses.map (scriptAt net codec)).map (UtxoNetwork.scripthash codec) := by
    simp [hashAt, Function.comp_def]
  exact List.Nodup.of_map _ (hmap ▸ h.nodup)

/-- The texts of the list are the renderings of its scripts. -/
theorem EachScriptOnce.perm {addresses : List String}
    (hinj : ∀ {t t' a}, render t = some a → render t' = some a → t = t')
    (h : EachScriptOnce net codec render addresses) :
    ((addresses.map (scriptAt net codec)).map render).Perm (addresses.map some) := by
  have hscripts := h.scripts_nodup
  have hrenders : ((addresses.map (scriptAt net codec)).map render).Nodup := by
    refine List.Nodup.map_on (fun s hs s' hs' heq => ?_) hscripts
    obtain ⟨a, ha, rfl⟩ := List.mem_map.mp hs
    obtain ⟨t, -, ht⟩ := h.spelled a ha
    exact hinj ht (heq ▸ ht)
  refine (List.subperm_of_subset hrenders fun o ho => ?_).perm_of_length_le (by simp)
  obtain ⟨s, hs, rfl⟩ := List.mem_map.mp ho
  obtain ⟨a, ha, rfl⟩ := List.mem_map.mp hs
  obtain ⟨t, ht, hrender⟩ := h.spelled a ha
  rw [hrender]
  exact List.mem_map_of_mem ht

theorem EachScriptOnce.sum_eq {addresses : List String}
    (hinj : ∀ {t t' a}, render t = some a → render t' = some a → t = t')
    (h : EachScriptOnce net codec render addresses) (f : Option String → ℕ) :
    (addresses.map fun a => f (some a)).sum =
      ((distinctScripts net codec addresses).map fun s => f (render s)).sum := by
  have hperm := ((h.perm hinj).map f).sum_eq
  rw [distinctScripts, List.dedup_eq_self.mpr h.scripts_nodup]
  simpa [Function.comp_def] using hperm.symm

theorem ServedChain.paidTo_eq (chain : ServedChain net codec render)
    (hinj : ∀ {t t' a}, render t = some a → render t' = some a → t = t') {txid : String}
    {tx : VerboseTransaction} (htx : chain.client.getTransactionVerbose txid = .ok tx)
    {script : List UInt8} {text : String} (htext : render script = some text) :
    chain.paidTo txid tx script = tx.receivedAt (render script) ∧
      chain.spentFrom txid tx script = tx.sentFrom (render script) := by
  have hone : ∀ t, render t = some text ↔ t = script := by
    intro t
    constructor
    · intro ht
      exact hinj ht htext
    · rintro rfl
      exact htext
  have hserved := chain.served txid tx htx
  rw [ServedChain.paidTo, ServedChain.spentFrom, VerboseTransaction.receivedAt,
    VerboseTransaction.sentFrom, htext, ← filter_eq_itemsOf hserved.outs hone,
    ← filter_eq_itemsOf hserved.ins hone]
  exact ⟨rfl, rfl⟩

/-! ### Lists that are counted once -/

theorem ServedChain.query_eq (chain : ServedChain net codec render) {α : Type}
    (answers : String → ElectrumCall α) {a : String}
    (ha : net.addressToScript codec a = .ok (scriptAt net codec a)) :
    chain.client.query answers a = (answers (hashAt net codec a)).run := by
  rw [BatchClient.query, BatchClient.addressToScripthash, chain.onNet, chain.withCodec,
    UtxoNetwork.addressToScripthash, ha]
  rfl

theorem ServedChain.forall₂_answers (chain : ServedChain net codec render) {α : Type}
    {answers : String → ElectrumCall α} {addresses : List String} {results : List α}
    (haccepted : AcceptedBatch net codec addresses)
    (h : Forall₂ (fun a r => chain.client.query answers a = .ok r) addresses results) :
    Forall₂ (fun a r => (answers (hashAt net codec a)).run = .ok r) addresses results := by
  refine List.forall₂_iff_zip.mpr ⟨h.length_eq, @fun a r hp => ?_⟩
  rw [← chain.query_eq answers (haccepted.decodes a (List.of_mem_zip hp).1)]
  exact (List.forall₂_iff_zip.mp h).2 hp

/-- The outputs of distinct scripts are listed once. -/
theorem ServedChain.tagged_nodup (chain : ServedChain net codec render) {addresses : List String}
    {results : List (List ElectrumUtxo)} (hnodup : (addresses.map (hashAt net codec)).Nodup)
    (h : Forall₂ (fun a us => (chain.client.unspentOf (hashAt net codec a)).run = .ok us)
      addresses results) :
    ((tagged addresses results).map fun p => p.2.outpoint).Nodup := by
  induction h with
  | nil => simp [tagged]
  | @cons a us addresses results hus hrest ih =>
    rw [List.map_cons, List.nodup_cons] at hnodup
    have hcons : (tagged (a :: addresses) (us :: results)).map (fun p => p.2.outpoint) =
        us.map ElectrumUtxo.outpoint ++
          (tagged addresses results).map fun p => p.2.outpoint := by
      simp [tagged]
    rw [hcons, List.nodup_append]
    refine ⟨chain.once _ _ hus, ih hnodup.2, ?_⟩
    intro o ho o' ho'
    obtain ⟨u, hu, rfl⟩ := List.mem_map.mp ho
    obtain ⟨⟨b, u'⟩, hu', rfl⟩ := List.mem_map.mp ho'
    -- the other output is of a later address
    obtain ⟨⟨b', us'⟩, hzip, hin⟩ := List.mem_flatMap.mp hu'
    obtain ⟨u'', hu'', heq⟩ := List.mem_map.mp hin
    obtain ⟨rfl, rfl⟩ := Prod.mk.inj heq
    have hus' := (List.forall₂_iff_zip.mp hrest).2 hzip
    have hb : b' ∈ addresses := (List.of_mem_zip hzip).1
    refine chain.apart _ _ _ _ (fun hsame => hnodup.1 ?_) hus hus' u hu u'' hu''
    rw [hsame]
    exact List.mem_map_of_mem hb

theorem ServedChain.balances_eq (chain : ServedChain net codec render) {addresses : List String}
    {bs : List ElectrumBalance}
    (h : Forall₂ (fun a b => (chain.client.balanceOf (hashAt net codec a)).run = .ok b)
      addresses bs) : bs = addresses.map fun a => chain.balanceAt (scriptAt net codec a) := by
  induction h with
  | nil => rfl
  | cons hb _ ih =>
    rw [hashAt] at hb
    rw [List.map_cons, ← ih, ServedChain.balanceAt, hb]

/-- A row of a history has the amounts of its transaction, when it has any. -/
theorem amounts_of_row {c : BatchClient} {entries : List (String × FeeHistoryEntry)}
    {addresses : List String} {row : TaggedHistoryEntry}
    (hrow : row ∈ historyRows c entries addresses) :
    (row.totalReceived = none ∧ row.totalSent = none) ∨
      ∃ tx, c.getTransactionVerbose row.txid = .ok tx ∧
        (row.totalReceived, row.totalSent) = amountsOf tx addresses := by
  obtain ⟨p, -, rfl⟩ := List.mem_map.mp hrow
  simp only
  cases hlookup : (resolveAmounts c (distinctTxids (newestFirst entries)) addresses).lookup
      p.2.txHash with
  | none => exact .inl ⟨rfl, rfl⟩
  | some amounts =>
    obtain ⟨before, after, hsplit, -⟩ := List.lookup_eq_some_iff.mp hlookup
    have hmem : (p.2.txHash, amounts) ∈
        resolveAmounts c (distinctTxids (newestFirst entries)) addresses := by simp [hsplit]
    obtain ⟨txid, -, heq⟩ := List.mem_map.mp hmem
    obtain ⟨rfl, rfl⟩ := Prod.mk.inj heq
    cases htx : c.getTransactionVerbose p.2.txHash with
    | error e => exact .inl ⟨rfl, rfl⟩
    | ok tx => exact .inr ⟨tx, rfl, rfl⟩

/-- The amounts of a transaction, for a list that names each script once. -/
theorem ServedChain.amounts_eq (chain : ServedChain net codec render) {addresses : List String}
    (hinj : ∀ {t t' a}, render t = some a → render t' = some a → t = t')
    (h : EachScriptOnce net codec render addresses) {txid : String} {tx : VerboseTransaction}
    (htx : chain.client.getTransactionVerbose txid = .ok tx) :
    (∀ v, (amountsOf tx addresses).1 = some v → v.toNat =
      ((distinctScripts net codec addresses).map (chain.paidTo txid tx)).sum) ∧
    ∀ v, (amountsOf tx addresses).2 = some v → v.toNat =
      ((distinctScripts net codec addresses).map (chain.spentFrom txid tx)).sum := by
  obtain ⟨hreceived, hsent⟩ := foldl_add_known tx addresses ⟨0, true, 0, true⟩
  obtain ⟨hpaid, hspent⟩ := chain.bounded txid tx htx
  have hnodup : addresses.Nodup := List.Nodup.of_map _ h.nodup
  have hmoney : maxMoney < 2 ^ 64 - 1 := by decide
  have hscript : ∀ s ∈ distinctScripts net codec addresses,
      chain.paidTo txid tx s = tx.receivedAt (render s) ∧
        chain.spentFrom txid tx s = tx.sentFrom (render s) := by
    intro s hs
    obtain ⟨a, ha, rfl⟩ := List.mem_map.mp (List.mem_dedup.mp hs)
    obtain ⟨t, -, ht⟩ := h.spelled a ha
    exact chain.paidTo_eq hinj htx ht
  constructor
  · intro v hv
    have hle := sum_selected_le (fun w : VerboseVout => w.scriptPubKey.getAddress)
      (fun w => sats w.value) hnodup tx.vout
    have hsum := h.sum_eq hinj tx.receivedAt
    have hpaidTo : (distinctScripts net codec addresses).map (chain.paidTo txid tx) =
        (distinctScripts net codec addresses).map fun s => tx.receivedAt (render s) :=
      List.map_congr_left fun s hs => (hscript s hs).1
    simp only [amountsOf, Option.ite_none_right_eq_some, Option.some.injEq] at hv
    obtain ⟨hok, rfl⟩ := hv
    have hval := (hreceived hok).2
    simp only [VerboseTransaction.receivedAt, satsOf, List.map_map, Function.comp_def]
        at hval hle hsum hpaid hpaidTo
    rw [hpaidTo, ← hsum, hval]
    simp only [UInt64.toNat_zero]
    omega
  · intro v hv
    have hle := sum_selected_le (fun p : Prevout => p.scriptPubKey.getAddress)
      (fun p => sats p.value) hnodup tx.prevouts
    have hsum := h.sum_eq hinj tx.sentFrom
    have hspentFrom : (distinctScripts net codec addresses).map (chain.spentFrom txid tx) =
        (distinctScripts net codec addresses).map fun s => tx.sentFrom (render s) :=
      List.map_congr_left fun s hs => (hscript s hs).2
    simp only [amountsOf, Option.ite_none_right_eq_some, Option.some.injEq] at hv
    obtain ⟨hok, rfl⟩ := hv
    have hval := (hsent hok).2
    simp only [VerboseTransaction.sentFrom, satsOf, List.map_map, Function.comp_def]
        at hval hle hsum hspent hspentFrom
    rw [hspentFrom, ← hsum, hval]
    simp only [UInt64.toNat_zero]
    omega

/-- A list that names each script once is counted once. -/
theorem countsOnce_of_eachScriptOnce {addresses : List String}
    (hinj : ∀ {t t' a}, render t = some a → render t' = some a → t = t')
    (haccepted : AcceptedBatch net codec addresses)
    (h : EachScriptOnce net codec render addresses) (chain : ServedChain net codec render) :
    CountsOnce chain addresses where
  utxos late out hout := by
    simp only [BatchClient.getUtxosTagged, bind_eq_ok_iff] at hout
    obtain ⟨results, hresults, hpure⟩ := hout
    obtain rfl := Except.ok.inj hpure
    exact chain.tagged_nodup h.nodup
      (chain.forall₂_answers haccepted (runBatch_eq_ok_iff.mp hresults).2)
  balance late b hb := by
    simp only [BatchClient.getBalanceSum, bind_eq_ok_iff, liftBatch_eq_ok_iff] at hb
    obtain ⟨bs, hbs, hsum⟩ := hb
    obtain ⟨hconfirmed, hunconfirmed⟩ := sumBalancesFrom_eq_ok hsum
    have heq := chain.balances_eq
      (chain.forall₂_answers haccepted (runBatch_eq_ok_iff.mp hbs).2)
    rw [hconfirmed, hunconfirmed, heq, distinctScripts, List.dedup_eq_self.mpr h.scripts_nodup]
    simp [Function.comp_def]
  amounts clients auth late req asset resp hreq hclient hresp row hrow := by
    subst hreq
    simp only [historyMulti, bind_eq_ok_iff, liftBatch_eq_ok_iff, hclient] at hresp
    obtain ⟨⟨asset', client⟩, heq, entries, -, hpure⟩ := hresp
    obtain ⟨rfl, rfl⟩ := Prod.mk.inj (Except.ok.inj heq)
    obtain rfl := Except.ok.inj hpure
    rcases amounts_of_row hrow with ⟨hreceived, hsent⟩ | ⟨tx, htx, hamounts⟩
    · simp [hreceived, hsent]
    · obtain ⟨hpaid, hspent⟩ := chain.amounts_eq hinj h htx
      rw [← hamounts] at hpaid hspent
      exact ⟨fun v hv => ⟨tx, htx, hpaid v hv⟩, fun v hv => ⟨tx, htx, hspent v hv⟩⟩

/-! ### Lists that are not -/

/-- A server that answers. -/
def ElectrumCall.answer {α : Type} (a : α) : ElectrumCall α := ⟨0, [.ok ⟨some a, none, 0⟩]⟩

/-- No server. -/
def ElectrumCall.silent {α : Type} : ElectrumCall α := ⟨0, []⟩

variable (net codec render)

/-- Every script holds one output of 1000 satoshis, in a transaction of its own. -/
def oneOutputEach : ServedChain net codec render where
  client := ⟨net, codec, fun _ => .answer ⟨1000, 0⟩, fun sh => .answer [⟨sh, 0, 1000, 1⟩],
    fun _ => .silent, fun _ => .silent⟩
  onNet := rfl
  withCodec := rfl
  spentBy _ := []
  paidBy _ := []
  once sh us hus := by
    obtain rfl : [⟨sh, 0, 1000, 1⟩] = us := Except.ok.inj hus
    simp
  apart sh sh' us us' hne hus hus' u hu u' hu' := by
    obtain rfl : [⟨sh, 0, 1000, 1⟩] = us := Except.ok.inj hus
    obtain rfl : [⟨sh', 0, 1000, 1⟩] = us' := Except.ok.inj hus'
    obtain rfl := List.mem_singleton.mp hu
    obtain rfl := List.mem_singleton.mp hu'
    exact fun heq => hne (congrArg Prod.fst heq)
  served txid tx htx := nomatch htx
  bounded txid tx htx := nomatch htx

/-- A transaction that pays 1000 satoshis to a script. -/
def payment (script : List UInt8) : VerboseTransaction :=
  ⟨"t", [], [⟨0.00001, 0, ⟨render script, none⟩⟩]⟩

/-- It is in every history. -/
def paymentEntry : FeeHistoryEntry := ⟨⟨"t", 1⟩, none⟩

/-- A chain with one transaction, which pays a script. -/
def onePayment (script : List UInt8) : ServedChain net codec render where
  client := ⟨net, codec, fun _ => .silent, fun _ => .silent, fun _ => .answer [paymentEntry],
    fun _ => .answer (payment render script)⟩
  onNet := rfl
  withCodec := rfl
  spentBy _ := []
  paidBy _ := [script]
  once sh us hus := nomatch hus
  apart sh sh' us us' _ hus := nomatch hus
  served txid tx htx := by
    obtain rfl : payment render script = tx := Except.ok.inj htx
    exact ⟨.cons (by simp [ScriptPubKeyInfo.getAddress]) .nil, .nil⟩
  bounded txid tx htx := by
    obtain rfl : payment render script = tx := Except.ok.inj htx
    obtain ⟨w, hw, hval⟩ := denotes_thousand
    simp [payment, satsOf, sats, hw, hval, VerboseTransaction.prevouts, maxMoney]

variable {net codec render}

theorem tagged_singletons {α : Type} (f : String → α) (addresses : List String) :
    tagged addresses (addresses.map fun a => [f a]) = addresses.map fun a => (a, f a) := by
  induction addresses with
  | nil => rfl
  | cons a rest ih =>
    rw [List.map_cons, List.map_cons, ← ih]
    simp [tagged]

theorem runBatch_of_answers (chain : ServedChain net codec render) {α : Type}
    (answers : String → ElectrumCall α) (f : String → α) {addresses : List String}
    (haccepted : AcceptedBatch net codec addresses)
    (h : ∀ a ∈ addresses, (answers (hashAt net codec a)).run = .ok (f a)) :
    runBatch false (addresses.map (chain.client.query answers)) = .ok (addresses.map f) := by
  refine runBatch_eq_ok_iff.mpr ⟨rfl, ?_⟩
  rw [List.forall₂_map_right_iff, List.forall₂_same]
  intro a ha
  rw [chain.query_eq answers (haccepted.decodes a ha)]
  exact h a ha

theorem oneOutputEach_listed {addresses : List String}
    (haccepted : AcceptedBatch net codec addresses) :
    ∃ out, (oneOutputEach net codec render).client.getUtxosTagged false addresses = .ok out ∧
      out.map (fun p => p.2.outpoint) = addresses.map fun a => (hashAt net codec a, 0) := by
  have hresults := runBatch_of_answers (oneOutputEach net codec render)
    (oneOutputEach net codec render).client.unspentOf
    (fun a => [⟨hashAt net codec a, 0, 1000, 1⟩]) haccepted fun _ _ => rfl
  refine ⟨tagged addresses (addresses.map fun a => [⟨hashAt net codec a, 0, 1000, 1⟩]), ?_, ?_⟩
  · exact bind_eq_ok_iff.mpr ⟨_, hresults, rfl⟩
  · rw [tagged_singletons]
    simp [ElectrumUtxo.outpoint, Function.comp_def]

/-- An amount that no address receives is zero. -/
theorem amountsOf_zero {tx : VerboseTransaction} {addresses : List String}
    (h : ∀ a ∈ addresses, tx.totalReceivedAt a = .ok 0) : (amountsOf tx addresses).1 = some 0 := by
  have hfold : ∀ t : AmountTotals, (addresses.foldl (AmountTotals.add tx) t).receivedOk =
      t.receivedOk ∧ (addresses.foldl (AmountTotals.add tx) t).received.toNat =
        t.received.toNat := by
    induction addresses with
    | nil => exact fun t => ⟨rfl, rfl⟩
    | cons a rest ih =>
      intro t
      have hlt := t.received.toNat_lt
      obtain ⟨hok, hval⟩ := ih (fun b hb => h b (.tail _ hb)) (t.add tx a)
      have hadd : (t.add tx a).receivedOk = t.receivedOk ∧
          (t.add tx a).received.toNat = t.received.toNat := by
        unfold AmountTotals.add
        rw [h a (.head _)]
        cases tx.totalSentFrom a with
        | error e =>
          simp only [Lib.toNat_saturatingAddU, UInt64.toNat_zero]
          exact ⟨trivial, by omega⟩
        | ok sent =>
          cases sent <;> simp only [Lib.toNat_saturatingAddU, UInt64.toNat_zero]
          · exact ⟨trivial, by omega⟩
          · exact ⟨trivial, by omega⟩
      rw [List.foldl_cons]
      exact ⟨hok.trans hadd.1, hval.trans hadd.2⟩
  obtain ⟨hok, hval⟩ := hfold ⟨0, true, 0, true⟩
  simp only [amountsOf, hok, if_true, Option.some.injEq]
  exact UInt64.toNat_inj.mp hval

theorem distinctTxids_same {entries : List (String × FeeHistoryEntry)} {txid : String}
    (hne : entries ≠ []) (h : ∀ p ∈ entries, p.2.txHash = txid) :
    distinctTxids entries = [txid] := by
  have hstays : ∀ l : List (String × FeeHistoryEntry), (∀ p ∈ l, p.2.txHash = txid) →
      l.foldl (fun txids p => if txids.contains p.2.txHash then txids
        else txids ++ [p.2.txHash]) [txid] = [txid] := by
    intro l hl
    induction l with
    | nil => rfl
    | cons p l ih =>
      rw [List.foldl_cons, hl p (.head _), if_pos (by simp)]
      exact ih fun q hq => hl q (.tail _ hq)
  cases entries with
  | nil => exact (hne rfl).elim
  | cons p l =>
    rw [distinctTxids, List.foldl_cons, h p (.head _)]
    exact hstays l fun q hq => h q (.tail _ hq)

theorem batchClient_btc {addresses : List String} (haccepted : AcceptedBatch net codec addresses)
    (client : BatchClient) :
    batchClient ⟨some client, none⟩ (.ok ()) ⟨"btc", addresses⟩ = .ok ("btc", client) := by
  have hlower : toLowercase "btc" = "btc" := by decide
  have hvalid := haccepted.valid
  simp only [batchClient, hlower, hvalid]
  rfl

/-- The amount that is reported for the one payment, to addresses none of which is rendered as its
script. -/
theorem onePayment_unseen {addresses : List String} {script : List UInt8}
    (haccepted : AcceptedBatch net codec addresses) (hne : addresses ≠ [])
    (hnot : ∀ a ∈ addresses, render script ≠ some a) :
    ∃ resp, historyMulti ⟨some (onePayment net codec render script).client, none⟩ (.ok ()) false
        ⟨"btc", addresses⟩ = .ok resp ∧
      ∃ row ∈ resp.transactions, row.txid = "t" ∧ row.totalReceived = some 0 := by
  have hresults := runBatch_of_answers (onePayment net codec render script)
    (onePayment net codec render script).client.historyOf (fun _ => [paymentEntry]) haccepted
    fun _ _ => rfl
  have hclient := batchClient_btc haccepted (onePayment net codec render script).client
  refine ⟨⟨"btc", historyRows (onePayment net codec render script).client
    (addresses.map fun a => (a, paymentEntry)) addresses⟩, ?_, ?_⟩
  · refine bind_eq_ok_iff.mpr ⟨_, liftBatch_eq_ok_iff.mpr hclient, ?_⟩
    refine bind_eq_ok_iff.mpr ⟨_, bind_eq_ok_iff.mpr ⟨_, hresults, rfl⟩, ?_⟩
    rw [tagged_singletons]
    rfl
  · obtain ⟨a, ha⟩ := List.exists_mem_of_ne_nil _ hne
    have hperm := List.perm_insertionSort (fun p q : String × FeeHistoryEntry =>
      historyRank q.2 ≤ historyRank p.2) (addresses.map fun a => (a, paymentEntry))
    have hsame : ∀ p ∈ newestFirst (addresses.map fun a => (a, paymentEntry)),
        p.2.txHash = "t" := by
      intro p hp
      obtain ⟨b, -, rfl⟩ := List.mem_map.mp (hperm.mem_iff.mp hp)
      rfl
    have hmem : (a, paymentEntry) ∈ newestFirst (addresses.map fun a => (a, paymentEntry)) :=
      hperm.mem_iff.mpr (List.mem_map_of_mem ha)
    have hzero : ∀ b ∈ addresses, (payment render script).totalReceivedAt b = .ok 0 := by
      intro b hb
      simp [VerboseTransaction.totalReceivedAt, payment, sumAt, ScriptPubKeyInfo.getAddress,
        hnot b hb]
    refine ⟨_, List.mem_map_of_mem hmem, rfl, ?_⟩
    rw [distinctTxids_same (List.ne_nil_of_mem hmem) hsame]
    exact amountsOf_zero hzero

/-- **Lists that are counted once.** An accepted list of addresses is answered with each output
counted once, whatever the chain holds, if and only if it names each script once and in the
servers' spelling. -/
theorem countsOnce_iff {addresses : List String} (hr : RendersCanonically codec net render)
    (haccepted : AcceptedBatch net codec addresses) :
    (∀ chain : ServedChain net codec render, CountsOnce chain addresses) ↔
      EachScriptOnce net codec render addresses := by
  constructor
  · intro hcounts
    refine ⟨?_, fun a ha => ?_⟩
    · obtain ⟨out, hout, hlisted⟩ := @oneOutputEach_listed net codec render addresses haccepted
      have hnodup := (hcounts (oneOutputEach net codec render)).utxos false out hout
      rw [hlisted] at hnodup
      have hmap : (addresses.map fun a => (hashAt net codec a, (0 : UInt64))) =
          (addresses.map (hashAt net codec)).map fun sh => (sh, 0) := by
        simp [Function.comp_def]
      exact List.Nodup.of_map _ (hmap ▸ hnodup)
    · by_contra hnot
      have hunseen : ∀ b ∈ addresses, render (scriptAt net codec a) ≠ some b :=
        fun b hb heq => hnot ⟨b, hb, heq⟩
      obtain ⟨resp, hresp, row, hrow, htxid, hzero⟩ :=
        onePayment_unseen haccepted (List.ne_nil_of_mem ha) hunseen
      have hclient :=
        batchClient_btc haccepted (onePayment net codec render (scriptAt net codec a)).client
      obtain ⟨tx, htx, hsum⟩ :=
        ((hcounts (onePayment net codec render (scriptAt net codec a))).amounts
          _ _ _ _ _ _ rfl hclient hresp row hrow).1 0 hzero
      obtain rfl : payment render (scriptAt net codec a) = tx := Except.ok.inj htx
      -- the payment counts for the script of the address
      have hpaid : (onePayment net codec render (scriptAt net codec a)).paidTo row.txid
          (payment render (scriptAt net codec a)) (scriptAt net codec a) = 1000 := by
        obtain ⟨w, hw, hval⟩ := denotes_thousand
        simp [ServedChain.paidTo, onePayment, payment, itemsOf, satsOf, sats, hw, hval]
      have hmem : scriptAt net codec a ∈ distinctScripts net codec addresses :=
        List.mem_dedup.mpr (List.mem_map_of_mem ha)
      have hle := List.single_le_sum (fun _ _ => Nat.zero_le _) _ (List.mem_map_of_mem
        (f := (onePayment net codec render (scriptAt net codec a)).paidTo row.txid
          (payment render (scriptAt net codec a))) hmem)
      rw [hpaid, ← hsum] at hle
      exact absurd hle (by decide)
  · exact fun h chain => countsOnce_of_eachScriptOnce hr.injective haccepted h chain

theorem eachScriptOnce_of_spelled {addresses : List String} (hc : codec.Lawful)
    (hr : RendersCanonically codec net render) (haccepted : AcceptedBatch net codec addresses)
    (hnodup : (addresses.map (hashAt net codec)).Nodup)
    (hspelled : ∀ a ∈ addresses, SpelledCanonically codec net a) :
    EachScriptOnce net codec render addresses where
  nodup := hnodup
  spelled a ha := ⟨a, ha, (render_eq_iff hc hr (haccepted.decodes a ha)).mpr (hspelled a ha)⟩

end

/-! ### One script in two letter cases -/

section

open AddressCodec

theorem lower_accepted :
    UtxoNetwork.bitcoinMainnet.addressToScript sample lowerAddress =
      .ok (witnessScript 0 zeroHash) := by decide

theorem upper_accepted :
    UtxoNetwork.bitcoinMainnet.addressToScript sample upperAddress =
      .ok (witnessScript 0 zeroHash) := by decide

theorem lower_script : scriptAt .bitcoinMainnet sample lowerAddress = witnessScript 0 zeroHash := by
  rw [scriptAt, lower_accepted]

theorem upper_script : scriptAt .bitcoinMainnet sample upperAddress = witnessScript 0 zeroHash := by
  rw [scriptAt, upper_accepted]

theorem legacy_accepted :
    UtxoNetwork.bitcoinMainnet.addressToScript sample legacyAddress =
      .ok (p2shScript zeroHash) := by decide

theorem legacy_script : scriptAt .bitcoinMainnet sample legacyAddress = p2shScript zeroHash := by
  rw [scriptAt, legacy_accepted]

/-- The lower-case address and a script-hash address are counted once each. -/
theorem two_scripts_counted_once :
    CountsOnce (oneOutputEach .bitcoinMainnet sample (canonicalAddress sample .bitcoinMainnet))
      [lowerAddress, legacyAddress] := by
  have haccepted : AcceptedBatch .bitcoinMainnet sample [lowerAddress, legacyAddress] := by
    refine ⟨rfl, fun a ha => ?_⟩
    simp only [List.mem_cons, List.not_mem_nil, or_false] at ha
    rcases ha with rfl | rfl
    · rw [lower_script, lower_accepted]
    · rw [legacy_script, legacy_accepted]
  have hnodup : ([lowerAddress, legacyAddress].map (hashAt .bitcoinMainnet sample)).Nodup := by
    simp only [List.map_cons, List.map_nil, hashAt, lower_script, legacy_script]
    decide +kernel
  refine (countsOnce_iff (sample_canonical _) haccepted).mpr
    (eachScriptOnce_of_spelled sample_lawful (sample_canonical _) haccepted hnodup
      fun a ha => ?_) _
  simp only [List.mem_cons, List.not_mem_nil, or_false] at ha
  rcases ha with rfl | rfl
  · rw [SpelledCanonically, if_pos (by decide)]
    decide
  · rw [SpelledCanonically, if_neg (by decide)]
    rintro version rest h -
    obtain rfl : 0x05 = version := (List.cons.inj (Option.some.inj h)).1
    rfl

/-- **One script counted twice.** A Bitcoin address and its upper-case spelling are accepted in one
batch; the one output of their script is listed twice, and its balance is summed twice. -/
theorem letter_case_counted_twice :
    AcceptedBatch .bitcoinMainnet sample [lowerAddress, upperAddress] ∧
    (∃ out, (oneOutputEach .bitcoinMainnet sample
          (canonicalAddress sample .bitcoinMainnet)).client.getUtxosTagged false
        [lowerAddress, upperAddress] = .ok out ∧
      out.map (fun p => p.2.outpoint) =
        List.replicate 2 (UtxoNetwork.scripthash sample (witnessScript 0 zeroHash), 0)) ∧
    ((oneOutputEach .bitcoinMainnet sample
        (canonicalAddress sample .bitcoinMainnet)).client.getBalanceSum false
      [lowerAddress, upperAddress] = .ok ⟨2000, 0⟩ ∧
      ((distinctScripts .bitcoinMainnet sample [lowerAddress, upperAddress]).map fun s =>
        ((oneOutputEach .bitcoinMainnet sample (canonicalAddress sample .bitcoinMainnet)).balanceAt
          s).confirmed.toNat).sum = 1000) ∧
    ¬ CountsOnce (oneOutputEach .bitcoinMainnet sample (canonicalAddress sample .bitcoinMainnet))
      [lowerAddress, upperAddress] := by
  have haccepted : AcceptedBatch .bitcoinMainnet sample [lowerAddress, upperAddress] := by
    refine ⟨rfl, fun a ha => ?_⟩
    simp only [List.mem_cons, List.not_mem_nil, or_false] at ha
    rcases ha with rfl | rfl
    · rw [lower_script, lower_accepted]
    · rw [upper_script, upper_accepted]
  obtain ⟨out, hout, hlisted⟩ := @oneOutputEach_listed _ _
    (canonicalAddress sample .bitcoinMainnet) _ haccepted
  have htwice : out.map (fun p => p.2.outpoint) =
      List.replicate 2 (UtxoNetwork.scripthash sample (witnessScript 0 zeroHash), 0) := by
    rw [hlisted]
    simp [hashAt, lower_script, upper_script, List.replicate]
  have hbalances := runBatch_of_answers (oneOutputEach .bitcoinMainnet sample
    (canonicalAddress sample .bitcoinMainnet)) (oneOutputEach .bitcoinMainnet sample
      (canonicalAddress sample .bitcoinMainnet)).client.balanceOf (fun _ => ⟨1000, 0⟩) haccepted
    fun _ _ => rfl
  refine ⟨haccepted, ⟨out, hout, htwice⟩, ⟨?_, ?_⟩, fun hcounts => ?_⟩
  · exact bind_eq_ok_iff.mpr ⟨_, hbalances, rfl⟩
  · simp only [distinctScripts, List.map_cons, List.map_nil, lower_script, upper_script]
    rw [List.dedup_cons_of_mem (by simp), List.dedup_cons_of_notMem (by simp), List.dedup_nil]
    rfl
  · have hnodup := hcounts.utxos false out hout
    rw [htwice, List.nodup_replicate] at hnodup
    omega

end

end SmirkBackend
