import SmirkBackend.Schema

/-!
# The audit chain

Privileged actions are logged in a hash chain: each row carries the hash of the row before it.
An append runs inside the transaction of the change it records, under a lock, so the sequence
numbers cannot race.  The keyed hash is a parameter.

An append adds one row at the end, unless the sequence is exhausted (`appendAdminAudit_spec`).
-/

namespace SmirkBackend

open Lib (Table)

/-- The keyed hash of a chain row: previous hash, sequence number, entry and time. -/
abbrev ChainHash := String → Int64 → NewAdminAudit → Timestamp → String

/-- First-row predecessor hash. -/
def auditGenesis : String := "smirk-admin-audit-genesis"

/-- The row with the greatest sequence number. -/
def lastAudit : List AdminAuditRow → Option AdminAuditRow
  | [] => none
  | r :: rest =>
    match lastAudit rest with
    | none => some r
    | some b => if b.seq < r.seq then some r else some b

theorem lastAudit_eq_none_iff {rows : List AdminAuditRow} : lastAudit rows = none ↔ rows = [] := by
  cases rows with
  | nil => simp [lastAudit]
  | cons r rest =>
    simp only [lastAudit, reduceCtorEq, iff_false]
    split
    · simp
    · split_ifs <;> simp

theorem seq_le_lastAudit {rows : List AdminAuditRow} {last r : AdminAuditRow}
    (h : lastAudit rows = some last) (hr : r ∈ rows) : r.seq.toInt ≤ last.seq.toInt := by
  induction rows generalizing last with
  | nil => cases hr
  | cons x rest ih =>
    simp only [lastAudit] at h
    cases hb : lastAudit rest with
    | none =>
      obtain rfl := lastAudit_eq_none_iff.mp hb
      simp only [hb, Option.some.injEq] at h
      rw [List.mem_singleton] at hr
      simp [hr, h]
    | some b =>
      simp only [hb, Int64.lt_iff_toInt_lt] at h
      rcases List.mem_cons.mp hr with rfl | hrest
      · split_ifs at h <;> obtain rfl := Option.some.inj h <;> omega
      · have hle := ih hb hrest
        split_ifs at h <;> obtain rfl := Option.some.inj h <;> omega

/-- The sequence number and hash the next row links to. -/
def chainHead (t : Table AdminAuditRow) : Int64 × String :=
  match lastAudit t.rows with
  | some r => (r.seq, r.rowHash)
  | none => (0, auditGenesis)

/-- `append_admin_audit`. Arithmetic overflow of the sequence aborts the transaction. -/
def appendAdminAudit (hash : ChainHash) (now : Timestamp) (entry : NewAdminAudit)
    (t : Table AdminAuditRow) : Except AppError (Table AdminAuditRow) :=
  let (prevSeq, prevHash) := chainHead t
  if 2 ^ 63 ≤ prevSeq.toInt + 1 then .error (.internal "attempt to add with overflow")
  else
    let seq := Int64.ofInt (prevSeq.toInt + 1)
    match t.insert? ⟨seq, entry, now, prevHash, hash prevHash seq entry now⟩ with
    | some t' => .ok t'
    | none => .error (.databaseError "duplicate key value violates unique constraint")

/-- The sequence numbers of the chain are used up. -/
def AuditExhausted (t : Table AdminAuditRow) : Prop := (chainHead t).1.toInt = 2 ^ 63 - 1

/-- **An append adds exactly one row**, unless the sequence is exhausted. -/
theorem appendAdminAudit_spec (hash : ChainHash) (now : Timestamp) (entry : NewAdminAudit)
    (t : Table AdminAuditRow) :
    (AuditExhausted t → ∃ e, appendAdminAudit hash now entry t = .error e) ∧
    (¬ AuditExhausted t → ∃ t' row, appendAdminAudit hash now entry t = .ok t' ∧
      t'.rows = t.rows ++ [row] ∧ row.entry = entry ∧ row.createdAt = now) := by
  have hlt := (chainHead t).1.toInt_lt
  have hge := (chainHead t).1.le_toInt
  unfold AuditExhausted
  constructor
  · intro h
    refine ⟨.internal "attempt to add with overflow", ?_⟩
    simp only [appendAdminAudit]
    rw [if_pos (by omega)]
  · intro h
    have hnot : ¬ 2 ^ 63 ≤ (chainHead t).1.toInt + 1 := by omega
    have hseq : (Int64.ofInt ((chainHead t).1.toInt + 1)).toInt = (chainHead t).1.toInt + 1 :=
      Int64.toInt_ofInt_of_le (by omega) (by omega)
    -- the new number is above every number in use
    have hfree : t.get? (Int64.ofInt ((chainHead t).1.toInt + 1)) = none := by
      rw [Table.get?_eq_none_iff]
      intro r hr hkey
      have hr' : r.seq.toInt = (chainHead t).1.toInt + 1 := by
        rw [← hseq]
        exact congrArg Int64.toInt hkey
      unfold chainHead at hr'
      cases hlast : lastAudit t.rows with
      | none => simp [lastAudit_eq_none_iff.mp hlast] at hr
      | some last =>
        have hle := seq_le_lastAudit hlast hr
        rw [hlast] at hr'
        simp only at hr'
        omega
    obtain ⟨t', hins⟩ := Table.exists_insert? (t := t) (r := ⟨Int64.ofInt ((chainHead t).1.toInt + 1),
      entry, now, (chainHead t).2,
      hash (chainHead t).2 (Int64.ofInt ((chainHead t).1.toInt + 1)) entry now⟩) hfree
    refine ⟨t', _, ?_, (Table.insert?_eq_some_iff.mp hins).2, rfl, rfl⟩
    simp only [appendAdminAudit]
    rw [if_neg hnot, hins]

theorem appendAdminAudit_rows {hash : ChainHash} {now : Timestamp} {entry : NewAdminAudit}
    {t t' : Table AdminAuditRow} (h : appendAdminAudit hash now entry t = .ok t') :
    ∃ row, t'.rows = t.rows ++ [row] ∧ row.createdAt = now ∧ row.entry = entry := by
  obtain ⟨hfull, hroom⟩ := appendAdminAudit_spec hash now entry t
  by_cases hex : AuditExhausted t
  · obtain ⟨e, he⟩ := hfull hex
    rw [he] at h
    cases h
  · obtain ⟨t₁, row, ht₁, hrows, hentry, htime⟩ := hroom hex
    rw [ht₁] at h
    obtain rfl := Except.ok.inj h
    exact ⟨row, hrows, htime, hentry⟩

end SmirkBackend
