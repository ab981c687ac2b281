import Mathlib.Data.Fintype.Basic
import Mathlib.Data.List.Nodup
import Mathlib.Logic.Function.Basic
import Mathlib.Tactic.SplitIfs
import SmirkBackend.Lib.Run

/-!
# Transactions with a journal

Transactions run concurrently on a store.  Each makes some changes, appends one row to a journal
and commits.  A change looks at what is committed and at what its own transaction has written; it
writes or gives up.  What a transaction writes is seen by the others after its commit only.

The append takes a lock that is kept to the end of the transaction, and computes the row from the
committed journal.  No other lock is assumed, so that every interleaving of the changes is covered.

`journaled` is the system of all interleavings, and `Shared.play` performs one of them.  In every
state it reaches (`JournalOk.of_run`) the journal is what the entries of the committed transactions
give in the order of the commits, and the store is what their changes give in the same order.  A
transaction that is not interrupted does what its changes do one after the other (`run_alone`).
-/

namespace Lib

variable {S J A R E ι : Type}

/-- A transaction: its changes, then its entry in the journal. -/
structure Transaction (S A E : Type) where
  /-- Each change looks at what the transaction sees, and writes or gives up. -/
  changes : List (S → Except E (S → S))
  /-- The entry. -/
  entry : A

/-- How a journal grows. -/
structure JournalOps (J A R : Type) where
  /-- The row of an entry, if there can be one. -/
  next : J → A → Option R
  /-- The journal with one row more. -/
  add : J → R → J

/-- The journal after some entries, from the first to the last. -/
def JournalOps.extend (ops : JournalOps J A R) : List A → J → Option J
  | [], j => some j
  | a :: rest, j => (ops.next j a).bind fun r => ops.extend rest (ops.add j r)

theorem JournalOps.extend_append (ops : JournalOps J A R) (as bs : List A) (j : J) :
    ops.extend (as ++ bs) j = (ops.extend as j).bind (ops.extend bs) := by
  induction as generalizing j with
  | nil => rfl
  | cons a as ih =>
    simp only [List.cons_append, extend, Option.bind_assoc]
    cases ops.next j a with
    | none => rfl
    | some r => exact ih _

/-- How far a transaction is. -/
inductive TxPhase (S R E : Type)
  /-- Changing: what it has written, and the changes to come. -/
  | changing (written : List (S → S)) (rest : List (S → Except E (S → S)))
  /-- It has its row and holds the lock of the journal. -/
  | appended (written : List (S → S)) (row : R)
  | committed
  | rolledBack

/-- What the writes give, from the first to the last. -/
def applyWrites (ws : List (S → S)) (s : S) : S := ws.foldl (fun s w => w s) s

/-- The changes of a transaction that runs alone. -/
def runChanges : List (S → Except E (S → S)) → S → Except E S
  | [], s => .ok s
  | f :: rest, s =>
    match f s with
    | .ok w => runChanges rest (w s)
    | .error e => .error e

/-- A committed transaction. -/
structure Committed (S ι : Type) where
  /-- Which one. -/
  who : ι
  /-- What it wrote. -/
  written : List (S → S)

/-- The committed store and journal, the transactions, and the commits in order. -/
structure Shared (S J R E ι : Type) where
  /-- The committed store. -/
  store : S
  /-- The committed journal. -/
  journal : J
  /-- How far each transaction is. -/
  phase : ι → TxPhase S R E
  /-- The commits, the first one first. -/
  commits : List (Committed S ι)

/-- The steps of a transaction. -/
inductive TxLabel (ι : Type)
  | change (i : ι)
  | append (i : ι)
  | commit (i : ι)
  | rollBack (i : ι)

/-- No transaction holds the lock of the journal. -/
def LockFree (s : Shared S J R E ι) : Prop := ∀ i written row, s.phase i ≠ .appended written row

variable [DecidableEq ι]

/-- The state with another phase of one transaction. -/
def Shared.setPhase (s : Shared S J R E ι) (i : ι) (p : TxPhase S R E) : Shared S J R E ι :=
  { s with phase := Function.update s.phase i p }

/-- The steps of transactions, one at a time. -/
inductive TxStep (ops : JournalOps J A R) (txs : ι → Transaction S A E) :
    Shared S J R E ι → TxLabel ι → Shared S J R E ι → Prop
  | write {s : Shared S J R E ι} {i : ι} {written : List (S → S)} {f : S → Except E (S → S)}
      {rest : List (S → Except E (S → S))} {w : S → S} :
      s.phase i = .changing written (f :: rest) → f (applyWrites written s.store) = .ok w →
      TxStep ops txs s (.change i) (s.setPhase i (.changing (written ++ [w]) rest))
  | giveUp {s : Shared S J R E ι} {i : ι} {written : List (S → S)} {f : S → Except E (S → S)}
      {rest : List (S → Except E (S → S))} {e : E} :
      s.phase i = .changing written (f :: rest) → f (applyWrites written s.store) = .error e →
      TxStep ops txs s (.change i) (s.setPhase i .rolledBack)
  | append {s : Shared S J R E ι} {i : ι} {written : List (S → S)} {row : R} :
      s.phase i = .changing written [] → LockFree s → ops.next s.journal (txs i).entry = some row →
      TxStep ops txs s (.append i) (s.setPhase i (.appended written row))
  | full {s : Shared S J R E ι} {i : ι} {written : List (S → S)} :
      s.phase i = .changing written [] → LockFree s → ops.next s.journal (txs i).entry = none →
      TxStep ops txs s (.append i) (s.setPhase i .rolledBack)
  | commit {s : Shared S J R E ι} {i : ι} {written : List (S → S)} {row : R} :
      s.phase i = .appended written row →
      TxStep ops txs s (.commit i)
        { store := applyWrites written s.store
          journal := ops.add s.journal row
          phase := Function.update s.phase i .committed
          commits := s.commits ++ [⟨i, written⟩] }
  | rollBack {s : Shared S J R E ι} {i : ι} :
      s.phase i ≠ .committed → TxStep ops txs s (.rollBack i) (s.setPhase i .rolledBack)

/-- The interleavings of transactions. -/
def journaled (ops : JournalOps J A R) (txs : ι → Transaction S A E) :
    System (Shared S J R E ι) (TxLabel ι) := ⟨TxStep ops txs⟩

/-- No transaction has begun. -/
structure Shared.Initial (txs : ι → Transaction S A E) (store : S) (journal : J)
    (s : Shared S J R E ι) : Prop where
  store : s.store = store
  journal : s.journal = journal
  phase : ∀ i, s.phase i = .changing [] (txs i).changes
  commits : s.commits = []

/-- What a transaction is, by its phase. -/
def PhaseOk (ops : JournalOps J A R) (tx : Transaction S A E) (journal : J) : TxPhase S R E → Prop
  | .changing written rest => written.length + rest.length = tx.changes.length
  | .appended written row =>
    written.length = tx.changes.length ∧ ops.next journal tx.entry = some row
  | _ => True

/-- What holds in every reachable state. -/
structure JournalOk (ops : JournalOps J A R) (txs : ι → Transaction S A E) (store : S) (journal : J)
    (s : Shared S J R E ι) : Prop where
  /-- One transaction holds the lock. -/
  lock : ∀ i j written row written' row', s.phase i = .appended written row →
    s.phase j = .appended written' row' → i = j
  /-- Rows were computed from the committed journal. -/
  phases : ∀ i, PhaseOk ops (txs i) s.journal (s.phase i)
  /-- The store is what the commits give. -/
  store : s.store = s.commits.foldl (fun st c => applyWrites c.written st) store
  /-- The journal is what the commits give. -/
  journal : ops.extend (s.commits.map fun c => (txs c.who).entry) journal = some s.journal
  /-- A transaction commits once. -/
  once : (s.commits.map Committed.who).Nodup
  /-- The commits are those of the committed transactions. -/
  committed : ∀ i, s.phase i = .committed ↔ i ∈ s.commits.map Committed.who
  /-- Committed transactions have made all their changes. -/
  complete : ∀ c ∈ s.commits, c.written.length = (txs c.who).changes.length

namespace JournalOk

variable {ops : JournalOps J A R} {txs : ι → Transaction S A E} {store : S} {journal : J}
  {s s' : Shared S J R E ι}

omit [DecidableEq ι] in
theorem initial (h : s.Initial txs store journal) : JournalOk ops txs store journal s where
  lock := by simp [h.phase]
  phases i := by simp [h.phase, PhaseOk]
  store := by simp [h.store, h.commits]
  journal := by simp [h.journal, h.commits, JournalOps.extend]
  once := by simp [h.commits]
  committed := by simp [h.phase, h.commits]
  complete := by simp [h.commits]

/-- A transaction moves on without taking the lock or committing. -/
theorem setPhase (hs : JournalOk ops txs store journal s) {i : ι} {p : TxPhase S R E}
    (hold : s.phase i ≠ .committed) (hnew : p ≠ .committed)
    (hlock : ∀ written row, p = .appended written row → LockFree s)
    (hp : PhaseOk ops (txs i) s.journal p) : JournalOk ops txs store journal (s.setPhase i p) where
  lock := by
    intro a b written row written' row' ha hb
    simp only [Shared.setPhase, Function.update_apply] at ha hb
    split_ifs at ha hb with hai hbi hbi
    · rw [hai, hbi]
    · exact absurd hb (hlock _ _ ha b written' row')
    · exact absurd ha (hlock _ _ hb a written row)
    · exact hs.lock a b _ _ _ _ ha hb
  phases := by
    intro a
    simp only [Shared.setPhase, Function.update_apply]
    split_ifs with ha
    · rw [ha]
      exact hp
    · exact hs.phases a
  store := hs.store
  journal := hs.journal
  once := hs.once
  committed := by
    intro a
    refine Iff.trans ?_ (hs.committed a)
    simp only [Shared.setPhase, Function.update_apply]
    split_ifs with ha
    · rw [ha]
      exact ⟨fun h => absurd h hnew, fun h => absurd h hold⟩
    · rfl
  complete := hs.complete

/-- The transaction that holds the lock commits. -/
theorem commit (hs : JournalOk ops txs store journal s) {i : ι} {written : List (S → S)} {row : R}
    (hphase : s.phase i = .appended written row) :
    JournalOk ops txs store journal
      { store := applyWrites written s.store
        journal := ops.add s.journal row
        phase := Function.update s.phase i .committed
        commits := s.commits ++ [⟨i, written⟩] } where
  lock := by
    intro a b written₁ row₁ written₂ row₂ ha hb
    simp only [Function.update_apply] at ha hb
    split_ifs at ha hb
    exact hs.lock a b _ _ _ _ ha hb
  phases := by
    intro a
    simp only [Function.update_apply]
    split_ifs with ha
    · trivial
    · -- nobody else holds the lock, so the journal matters to nobody else
      have hok := hs.phases a
      cases hpa : s.phase a with
      | appended written' row' => exact absurd (hs.lock a i _ _ _ _ hpa hphase) ha
      | changing written' rest =>
        rw [hpa] at hok
        exact hok
      | committed => trivial
      | rolledBack => trivial
  store := by simp [hs.store]
  journal := by
    have hok := hs.phases i
    rw [hphase] at hok
    simp [JournalOps.extend_append, hs.journal, JournalOps.extend, hok.2]
  once := by
    have hnot : i ∉ s.commits.map Committed.who := by
      rw [← hs.committed i, hphase]
      simp
    rw [List.map_append, List.nodup_append]
    refine ⟨hs.once, by simp, ?_⟩
    rintro a ha b hb rfl
    obtain rfl : a = i := by simpa using hb
    exact hnot ha
  committed := by
    intro a
    simp only [Function.update_apply, List.map_append, List.map_singleton, List.mem_append,
      List.mem_singleton]
    split_ifs with ha
    · simp [ha]
    · rw [hs.committed a]
      simp [ha]
  complete := by
    intro c hc
    rcases List.mem_append.mp hc with hold | hnew
    · exact hs.complete c hold
    · rw [List.mem_singleton.mp hnew]
      have hok := hs.phases i
      rw [hphase] at hok
      exact hok.1

theorem step {l : TxLabel ι} (hstep : (journaled ops txs).step s l s')
    (hs : JournalOk ops txs store journal s) : JournalOk ops txs store journal s' := by
  cases hstep with
  | @write i written f rest w hphase hw =>
    have hok := hs.phases i
    rw [hphase] at hok
    refine hs.setPhase (by simp [hphase]) (by simp) (by simp) ?_
    simp only [PhaseOk, List.length_append, List.length_cons, List.length_nil] at hok ⊢
    omega
  | giveUp hphase he => exact hs.setPhase (by simp [hphase]) (by simp) (by simp) trivial
  | @append i written row hphase hfree hnext =>
    have hok := hs.phases i
    rw [hphase] at hok
    refine hs.setPhase (by simp [hphase]) (by simp) (fun _ _ _ => hfree) ⟨?_, hnext⟩
    simpa [PhaseOk] using hok
  | full hphase hfree hnext => exact hs.setPhase (by simp [hphase]) (by simp) (by simp) trivial
  | commit hphase => exact hs.commit hphase
  | rollBack hphase => exact hs.setPhase hphase (by simp) (by simp) trivial

/-- **What holds in every reachable state.** -/
theorem of_run {s₀ : Shared S J R E ι} {ls : List (TxLabel ι)} (hinit : s₀.Initial txs store journal)
    (hrun : (journaled ops txs).Run s₀ ls s) : JournalOk ops txs store journal s :=
  hrun.invariant (fun _ _ _ hstep hok => hok.step hstep) (initial hinit)

end JournalOk

/-! ### A transaction that is not interrupted -/

section Alone

variable {ops : JournalOps J A R} {txs : ι → Transaction S A E} {s s' : Shared S J R E ι}

/-- Some changes of one transaction, its append and its commit. -/
def TxLabel.alone (i : ι) (n : ℕ) : List (TxLabel ι) :=
  List.replicate n (.change i) ++ [.append i, .commit i]

theorem not_alone_of_rolledBack {i : ι} {n : ℕ} (hphase : s.phase i = .rolledBack) :
    ¬ (journaled ops txs).Run s (TxLabel.alone i n) s' := by
  intro hrun
  cases n with
  | zero =>
    obtain ⟨s₁, hstep, -⟩ := System.Run.cons_iff.mp hrun
    cases hstep <;> simp_all
  | succ n =>
    obtain ⟨s₁, hstep, -⟩ := System.Run.cons_iff.mp hrun
    cases hstep <;> simp_all

/-- **A transaction that is not interrupted does what its changes do one after the other.** -/
theorem run_alone {i : ι} {n : ℕ} {written : List (S → S)} {rest : List (S → Except E (S → S))}
    (hphase : s.phase i = .changing written rest)
    (hrun : (journaled ops txs).Run s (TxLabel.alone i n) s') :
    (∃ row, ops.next s.journal (txs i).entry = some row ∧ s'.journal = ops.add s.journal row) ∧
      runChanges rest (applyWrites written s.store) = .ok s'.store := by
  induction n generalizing s written rest with
  | zero =>
    obtain ⟨s₁, happend, hrun⟩ := System.Run.cons_iff.mp hrun
    obtain ⟨s₂, hcommit, hnil⟩ := System.Run.cons_iff.mp hrun
    obtain rfl := System.Run.nil_iff.mp hnil
    cases happend with
    | @append _ written' row hphase' hfree hnext =>
      obtain ⟨rfl, rfl⟩ := TxPhase.changing.inj (hphase.symm.trans hphase')
      cases hcommit with
      | @commit _ written' row' happended =>
        simp only [Shared.setPhase, Function.update_self, TxPhase.appended.injEq] at happended
        obtain ⟨rfl, rfl⟩ := happended
        exact ⟨⟨row, hnext, rfl⟩, rfl⟩
    | full hphase' hfree hnext =>
      cases hcommit with
      | commit happended => simp [Shared.setPhase] at happended
  | succ n ih =>
    obtain ⟨s₁, hchange, hrun⟩ := System.Run.cons_iff.mp hrun
    cases hchange with
    | @write _ written' f rest' w hphase' hw =>
      obtain ⟨rfl, rfl⟩ := TxPhase.changing.inj (hphase.symm.trans hphase')
      have hnew : (s.setPhase i (.changing (written ++ [w]) rest')).phase i =
          .changing (written ++ [w]) rest' := by simp [Shared.setPhase]
      obtain ⟨hrow, hchanges⟩ := ih hnew hrun
      refine ⟨hrow, ?_⟩
      rw [runChanges, hw]
      simpa [applyWrites, Shared.setPhase] using hchanges
    | giveUp hphase' he =>
      exact (not_alone_of_rolledBack (by simp [Shared.setPhase]) hrun).elim

end Alone

/-! ### Schedules -/

/-- The transaction holds the lock of the journal. -/
def TxPhase.holdsLock : TxPhase S R E → Bool
  | .appended _ _ => true
  | _ => false

/-- The transaction has committed. -/
def TxPhase.isCommitted : TxPhase S R E → Bool
  | .committed => true
  | _ => false

omit [DecidableEq ι] in
theorem lockFree_iff {s : Shared S J R E ι} : LockFree s ↔ ∀ i, (s.phase i).holdsLock = false := by
  refine forall_congr' fun i => ?_
  cases s.phase i <;> simp [TxPhase.holdsLock]

variable [Fintype ι]

instance (s : Shared S J R E ι) : Decidable (LockFree s) := decidable_of_iff' _ lockFree_iff

/-- The state after a step, if it can be taken. -/
def Shared.next (ops : JournalOps J A R) (txs : ι → Transaction S A E) (s : Shared S J R E ι) :
    TxLabel ι → Option (Shared S J R E ι)
  | .change i =>
    match s.phase i with
    | .changing written (f :: rest) =>
      match f (applyWrites written s.store) with
      | .ok w => some (s.setPhase i (.changing (written ++ [w]) rest))
      | .error _ => some (s.setPhase i .rolledBack)
    | _ => none
  | .append i =>
    match s.phase i with
    | .changing written [] =>
      if LockFree s then
        match ops.next s.journal (txs i).entry with
        | some row => some (s.setPhase i (.appended written row))
        | none => some (s.setPhase i .rolledBack)
      else none
    | _ => none
  | .commit i =>
    match s.phase i with
    | .appended written row =>
      some
        { store := applyWrites written s.store
          journal := ops.add s.journal row
          phase := Function.update s.phase i .committed
          commits := s.commits ++ [⟨i, written⟩] }
    | _ => none
  | .rollBack i =>
    if (s.phase i).isCommitted then none else some (s.setPhase i .rolledBack)

theorem step_of_next {ops : JournalOps J A R} {txs : ι → Transaction S A E}
    {s s' : Shared S J R E ι} {l : TxLabel ι} (h : s.next ops txs l = some s') :
    (journaled ops txs).step s l s' := by
  cases l with
  | change i =>
    simp only [Shared.next] at h
    cases hphase : s.phase i with
    | changing written rest =>
      cases rest with
      | nil => simp [hphase] at h
      | cons f rest =>
        cases hf : f (applyWrites written s.store) with
        | ok w =>
          simp only [hphase, hf] at h
          obtain rfl := Option.some.inj h
          exact .write hphase hf
        | error e =>
          simp only [hphase, hf] at h
          obtain rfl := Option.some.inj h
          exact .giveUp hphase hf
    | _ => simp [hphase] at h
  | append i =>
    simp only [Shared.next] at h
    cases hphase : s.phase i with
    | changing written rest =>
      cases rest with
      | cons f rest => simp [hphase] at h
      | nil =>
        simp only [hphase, Option.ite_none_right_eq_some] at h
        obtain ⟨hfree, h⟩ := h
        cases hnext : ops.next s.journal (txs i).entry with
        | some row =>
          simp only [hnext] at h
          obtain rfl := Option.some.inj h
          exact .append hphase hfree hnext
        | none =>
          simp only [hnext] at h
          obtain rfl := Option.some.inj h
          exact .full hphase hfree hnext
    | _ => simp [hphase] at h
  | commit i =>
    simp only [Shared.next] at h
    cases hphase : s.phase i with
    | appended written row =>
      simp only [hphase] at h
      obtain rfl := Option.some.inj h
      exact .commit hphase
    | _ => simp [hphase] at h
  | rollBack i =>
    simp only [Shared.next, Option.ite_none_left_eq_some] at h
    obtain ⟨hrunning, h⟩ := h
    obtain rfl := Option.some.inj h
    exact .rollBack fun hcommitted => hrunning (by rw [hcommitted]; rfl)

/-- The state after some steps, if they can be taken. -/
def Shared.play (ops : JournalOps J A R) (txs : ι → Transaction S A E) :
    List (TxLabel ι) → Shared S J R E ι → Option (Shared S J R E ι)
  | [], s => some s
  | l :: rest, s => (s.next ops txs l).bind (Shared.play ops txs rest)

/-- A schedule is a run. -/
theorem Shared.run_play {ops : JournalOps J A R} {txs : ι → Transaction S A E}
    {ls : List (TxLabel ι)} {s s' : Shared S J R E ι} (h : Shared.play ops txs ls s = some s') :
    (journaled ops txs).Run s ls s' := by
  induction ls generalizing s with
  | nil =>
    obtain rfl := Option.some.inj h
    exact .nil _
  | cons l rest ih =>
    obtain ⟨s₁, hnext, hrest⟩ := Option.bind_eq_some_iff.mp h
    exact .cons (step_of_next hnext) (ih hrest)

end Lib
