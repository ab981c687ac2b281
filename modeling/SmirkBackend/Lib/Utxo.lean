import Mathlib.Algebra.Order.Ring.Int
import Mathlib.Algebra.BigOperators.Group.List.Basic
import SmirkBackend.Lib.Table

/-!
# UTXO ledgers

A ledger is a list of transactions, each of which spends coins that are unspent when it is
confirmed and creates new ones.  Which coins a transaction spends is part of the confirmed entry,
so the flows of an owner are sums over entries.

What an owner holds and what it spent is what it received (`Ledger.balance_add_spent`).
-/

namespace Lib

variable {T A : Type*}

/-- Reference to an output of a transaction. -/
structure OutPoint (T : Type*) where
  /-- The transaction. -/
  tx : T
  /-- The output's place. -/
  index : ℕ
  deriving DecidableEq

/-- An output of a transaction; some scripts have no owner. -/
structure Coin (T A : Type*) where
  /-- Where it was created. -/
  point : OutPoint T
  /-- Its amount. -/
  amount : ℕ
  /-- Who can spend it. -/
  owner : Option A

instance : HasKey (Coin T A) (OutPoint T) := ⟨Coin.point⟩

/-- A transaction; a coinbase has no inputs. -/
structure Tx (T A : Type*) where
  /-- Identifier. -/
  id : T
  /-- The coins it spends. -/
  inputs : List (OutPoint T)
  /-- Amounts and owners of the coins it creates. -/
  outputs : List (ℕ × Option A)

/-- The coins a transaction creates. -/
def Tx.coins (tx : Tx T A) : List (Coin T A) :=
  tx.outputs.mapIdx fun i o => ⟨⟨tx.id, i⟩, o.1, o.2⟩

/-- Total amount of some coins. -/
def total (coins : List (Coin T A)) : ℕ := (coins.map Coin.amount).sum

/-- A set of unspent coins. -/
abbrev UtxoSet (T A : Type*) := Table (Coin T A)

section

variable [DecidableEq A]

/-- Amount of the coins that belong to `a`. -/
def amountOf (a : A) (coins : List (Coin T A)) : ℕ :=
  total (coins.filter fun c => c.owner = some a)

@[simp] theorem amountOf_nil (a : A) : amountOf a ([] : List (Coin T A)) = 0 := rfl

theorem amountOf_cons (a : A) (c : Coin T A) (cs : List (Coin T A)) :
    amountOf a (c :: cs) = (if c.owner = some a then c.amount else 0) + amountOf a cs := by
  by_cases h : c.owner = some a <;> simp [amountOf, total, h]

theorem amountOf_append (a : A) (cs cs' : List (Coin T A)) :
    amountOf a (cs ++ cs') = amountOf a cs + amountOf a cs' := by
  simp [amountOf, total]

theorem amountOf_le_total (a : A) (cs : List (Coin T A)) : amountOf a cs ≤ total cs := by
  induction cs with
  | nil => simp [amountOf, total]
  | cons c cs ih =>
    rw [amountOf_cons]
    simp only [total, List.map_cons, List.sum_cons] at ih ⊢
    split_ifs <;> omega

end

variable [DecidableEq T]

/-- Spend coins one after another; refused when one of them is not there. -/
def spend : List (OutPoint T) → UtxoSet T A → Option (List (Coin T A) × UtxoSet T A)
  | [], u => some ([], u)
  | p :: ps, u => do
    let c ← u.get? p
    let (cs, u') ← spend ps (u.deleteWhere fun c => c.point = p)
    pure (c :: cs, u')

/-- Create coins one after another; refused when an output already exists. -/
def create : List (Coin T A) → UtxoSet T A → Option (UtxoSet T A)
  | [], u => some u
  | c :: cs, u => do
    let u' ← u.insert? c
    create cs u'

/-- A confirmed transaction with the coins it spent. -/
structure Entry (T A : Type*) where
  /-- The transaction. -/
  tx : Tx T A
  /-- The coins it spent. -/
  spent : List (Coin T A)

/-- Confirm one transaction: its inputs are unspent, both totals are at most `maxMoney`, and only
a coinbase creates value. -/
def Tx.confirm (maxMoney : ℕ) (tx : Tx T A) (u : UtxoSet T A) :
    Option (Entry T A × UtxoSet T A) := do
  let (spent, u₁) ← spend tx.inputs u
  if maxMoney < total spent ∨ maxMoney < total tx.coins then none
  else if tx.inputs ≠ [] ∧ total spent < total tx.coins then none
  else do
    let u₂ ← create tx.coins u₁
    pure (⟨tx, spent⟩, u₂)

/-- Confirm transactions in order. -/
def confirm (maxMoney : ℕ) :
    List (Tx T A) → UtxoSet T A → Option (List (Entry T A) × UtxoSet T A)
  | [], u => some ([], u)
  | tx :: txs, u => do
    let (e, u₁) ← tx.confirm maxMoney u
    let (es, u₂) ← confirm maxMoney txs u₁
    pure (e :: es, u₂)

/-- A ledger, with its entries and the coins that are left unspent. -/
structure Ledger (T A : Type*) [DecidableEq T] (maxMoney : ℕ) where
  /-- The transactions, in the order of their confirmation. -/
  txs : List (Tx T A)
  /-- The confirmed entries. -/
  entries : List (Entry T A)
  /-- The unspent coins. -/
  unspent : UtxoSet T A
  /-- The run. -/
  valid : confirm maxMoney txs .empty = some (entries, unspent)

/-! ### Conservation -/

theorem amountOf_deleteWhere [DecidableEq A] (a : A) {u : UtxoSet T A} {p : OutPoint T}
    {c : Coin T A} (h : u.get? p = some c) :
    amountOf a (u.deleteWhere fun c => c.point = p).rows + amountOf a [c] = amountOf a u.rows := by
  obtain ⟨hmem, hkey⟩ := Table.get?_eq_some_iff.mp h
  obtain ⟨pre, post, hrows⟩ := List.append_of_mem hmem
  have hnodup := u.nodup
  rw [hrows, List.map_append, List.map_cons, List.nodup_append, List.nodup_cons] at hnodup
  obtain ⟨-, ⟨hpost, -⟩, hpre⟩ := hnodup
  -- no other coin has the same reference
  have hkeep : (u.deleteWhere fun c => c.point = p).rows = pre ++ post := by
    have hpre' : pre.filter (fun c => !decide (c.point = p)) = pre := by
      rw [List.filter_eq_self]
      intro c' hc'
      have hne : c'.point ≠ p := hkey ▸ hpre _ (List.mem_map_of_mem hc') _ (.head _)
      simpa using hne
    have hpost' : post.filter (fun c => !decide (c.point = p)) = post := by
      rw [List.filter_eq_self]
      intro c' hc'
      have hne : c'.point ≠ p := fun heq => hpost (hkey ▸ heq ▸ List.mem_map_of_mem hc')
      simpa using hne
    have hself : c.point = p := hkey
    simp only [Table.deleteWhere, hrows, List.filter_append, List.filter_cons, hself, hpre', hpost']
    simp
  rw [hkeep, hrows, amountOf_append, amountOf_append, amountOf_cons a c post, amountOf_cons a c []]
  simp only [amountOf_nil]
  omega

theorem amountOf_spend [DecidableEq A] (a : A) {ps : List (OutPoint T)} {u u' : UtxoSet T A}
    {cs : List (Coin T A)} (h : spend ps u = some (cs, u')) :
    amountOf a u'.rows + amountOf a cs = amountOf a u.rows := by
  induction ps generalizing u cs with
  | nil =>
    obtain ⟨rfl, rfl⟩ : cs = [] ∧ u' = u := by simpa [spend, eq_comm] using h
    simp
  | cons p ps ih =>
    simp only [spend, Option.bind_eq_bind, Option.bind_eq_some_iff, Option.pure_def,
      Option.some.injEq, Prod.mk.injEq, Prod.exists] at h
    obtain ⟨c, hc, cs', u'', hrest, rfl, rfl⟩ := h
    have hone := amountOf_deleteWhere a hc
    have hmany := ih hrest
    rw [amountOf_cons] at hone ⊢
    simp only [amountOf_nil] at hone
    omega

theorem amountOf_create [DecidableEq A] (a : A) {cs : List (Coin T A)} {u u' : UtxoSet T A}
    (h : create cs u = some u') : amountOf a u'.rows = amountOf a u.rows + amountOf a cs := by
  induction cs generalizing u with
  | nil =>
    obtain rfl : u = u' := by simpa [create] using h
    simp
  | cons c cs ih =>
    simp only [create, Option.bind_eq_bind, Option.bind_eq_some_iff] at h
    obtain ⟨u₁, hins, hrest⟩ := h
    have hrows := (Table.insert?_eq_some_iff.mp hins).2
    have hadd : amountOf a u₁.rows = amountOf a u.rows + amountOf a [c] := by
      rw [hrows, amountOf_append]
    rw [ih hrest, hadd, amountOf_cons a c cs, amountOf_cons a c []]
    simp only [amountOf_nil]
    omega

theorem Tx.confirm_spec {maxMoney : ℕ} {tx : Tx T A} {u u' : UtxoSet T A} {e : Entry T A}
    (h : tx.confirm maxMoney u = some (e, u')) :
    e.tx = tx ∧ total e.spent ≤ maxMoney ∧ total e.tx.coins ≤ maxMoney ∧
      ∀ [DecidableEq A] (a : A),
        amountOf a u'.rows + amountOf a e.spent = amountOf a u.rows + amountOf a e.tx.coins := by
  simp only [Tx.confirm, Option.bind_eq_bind, Option.bind_eq_some_iff, Prod.exists] at h
  obtain ⟨cs, u₁, hspend, h⟩ := h
  split_ifs at h with hmax hmint
  simp only [Option.bind_eq_some_iff, Option.pure_def, Option.some.injEq, Prod.mk.injEq] at h
  obtain ⟨u₂, hcreate, rfl, rfl⟩ := h
  refine ⟨rfl, show total cs ≤ maxMoney by omega, show total tx.coins ≤ maxMoney by omega, ?_⟩
  intro _ a
  have := amountOf_spend a hspend
  have := amountOf_create a hcreate
  simp only
  omega

theorem confirm_bounded {maxMoney : ℕ} {txs : List (Tx T A)} {u u' : UtxoSet T A}
    {es : List (Entry T A)} (h : confirm maxMoney txs u = some (es, u')) :
    ∀ e ∈ es, total e.spent ≤ maxMoney ∧ total e.tx.coins ≤ maxMoney := by
  induction txs generalizing u es with
  | nil =>
    obtain ⟨rfl, rfl⟩ : es = [] ∧ u' = u := by simpa [confirm, eq_comm] using h
    simp
  | cons tx txs ih =>
    simp only [confirm, Option.bind_eq_bind, Option.bind_eq_some_iff, Option.pure_def,
      Option.some.injEq, Prod.mk.injEq, Prod.exists] at h
    obtain ⟨e, u₁, hone, es', u₂, hrest, rfl, rfl⟩ := h
    obtain ⟨-, hspent, hcoins, -⟩ := Tx.confirm_spec hone
    intro e' he'
    rcases List.mem_cons.mp he' with rfl | hmem
    · exact ⟨hspent, hcoins⟩
    · exact ih hrest e' hmem

namespace Ledger

variable {maxMoney : ℕ} [DecidableEq A]

/-- What `a` holds. -/
def balance (L : Ledger T A maxMoney) (a : A) : ℕ := amountOf a L.unspent.rows

/-- All that was ever paid to `a`. -/
def received (L : Ledger T A maxMoney) (a : A) : ℕ :=
  (L.entries.map fun e => amountOf a e.tx.coins).sum

/-- All that was ever spent from `a`. -/
def spent (L : Ledger T A maxMoney) (a : A) : ℕ := (L.entries.map fun e => amountOf a e.spent).sum

end Ledger

theorem confirm_conserves {maxMoney : ℕ} [DecidableEq A] (a : A) {txs : List (Tx T A)}
    {u u' : UtxoSet T A} {es : List (Entry T A)} (h : confirm maxMoney txs u = some (es, u')) :
    amountOf a u'.rows + (es.map fun e => amountOf a e.spent).sum =
      amountOf a u.rows + (es.map fun e => amountOf a e.tx.coins).sum := by
  induction txs generalizing u es with
  | nil =>
    obtain ⟨rfl, rfl⟩ : es = [] ∧ u' = u := by simpa [confirm, eq_comm] using h
    simp
  | cons tx txs ih =>
    simp only [confirm, Option.bind_eq_bind, Option.bind_eq_some_iff, Option.pure_def,
      Option.some.injEq, Prod.mk.injEq, Prod.exists] at h
    obtain ⟨e, u₁, hone, es', u₂, hrest, rfl, rfl⟩ := h
    obtain ⟨-, -, -, hflow⟩ := Tx.confirm_spec hone
    have := hflow a
    have := ih hrest
    simp only [List.map_cons, List.sum_cons]
    omega

/-- **Conservation**: what an owner holds and what it spent is what it received. -/
theorem Ledger.balance_add_spent {maxMoney : ℕ} [DecidableEq A] (L : Ledger T A maxMoney) (a : A) :
    L.balance a + L.spent a = L.received a := by
  have := confirm_conserves a L.valid
  simpa [Ledger.balance, Ledger.spent, Ledger.received] using this

end Lib
