import SmirkBackend.Admin.Setup

/-!
# Verification of the audit chain

The chain is walked in the order of the sequence numbers; every row must have the next number,
name the hash of the row before it and carry the hash of its own columns.

Somebody without the secret may replace the table.  A row then carries a right hash only if a row
with the same message was appended.

What was appended (`appendAll`) is accepted, and a table is accepted exactly when it is a first part
of that, up to what the hash does not cover (`verifyAdminAuditChain_iff`).  So deleted rows at the
end go unnoticed, and `tamper_evident_iff` says when an accepted table is what was appended.
-/

namespace SmirkBackend

open Lib (Table FloatText)

/-- The table after some appends, from the first to the last. -/
def appendAll (hash : ChainHash) :
    List (Timestamp × NewAdminAudit) → Table AdminAuditRow → Except AppError (Table AdminAuditRow)
  | [], t => .ok t
  | (now, entry) :: rest, t =>
    match appendAdminAudit hash now entry t with
    | .ok t' => appendAll hash rest t'
    | .error e => .error e

/-- The walk of `verify_admin_audit_chain` from the `i`-th row on. -/
def verifyFrom (hash : ChainHash) (prev : String) (i : ℕ) : List AdminAuditRow → Bool
  | [] => true
  | row :: rest =>
    if row.seq.toInt ≠ i + 1 ∨ row.prevHash ≠ prev then false
    else if hash row.prevHash row.seq row.entry row.createdAt ≠ row.rowHash then false
    else verifyFrom hash row.rowHash (i + 1) rest

theorem verifyFrom_cons {hash : ChainHash} {prev : String} {i : ℕ} {row : AdminAuditRow}
    {rest : List AdminAuditRow} :
    verifyFrom hash prev i (row :: rest) = true ↔
      row.seq.toInt = i + 1 ∧ row.prevHash = prev ∧
        hash row.prevHash row.seq row.entry row.createdAt = row.rowHash ∧
        verifyFrom hash row.rowHash (i + 1) rest = true := by
  rw [verifyFrom]
  by_cases hlink : row.seq.toInt ≠ i + 1 ∨ row.prevHash ≠ prev
  · rw [if_pos hlink]
    refine ⟨fun h => absurd h (by decide), ?_⟩
    rintro ⟨hseq, hprev, -⟩
    exact absurd hlink (by simp [hseq, hprev])
  · by_cases hhash : hash row.prevHash row.seq row.entry row.createdAt = row.rowHash
    · have hlink' : row.seq.toInt = i + 1 ∧ row.prevHash = prev := by simpa [not_or] using hlink
      rw [if_neg hlink, if_neg (not_not.mpr hhash)]
      exact ⟨fun h => ⟨hlink'.1, hlink'.2, hhash, h⟩, fun h => h.2.2.2⟩
    · rw [if_neg hlink, if_pos hhash]
      exact ⟨fun h => absurd h (by decide), fun h => absurd h.2.2.1 hhash⟩

/-! ### What was appended -/

/-- The hash that the next row links to, after some rows. -/
def lastHash (prev : String) : List AdminAuditRow → String
  | [] => prev
  | row :: rest => lastHash row.rowHash rest

theorem verifyFrom_append {hash : ChainHash} {prev : String} {i : ℕ}
    {rows rows' : List AdminAuditRow} :
    verifyFrom hash prev i (rows ++ rows') = true ↔
      verifyFrom hash prev i rows = true ∧
        verifyFrom hash (lastHash prev rows) (i + rows.length) rows' = true := by
  induction rows generalizing prev i with
  | nil => simp [verifyFrom, lastHash]
  | cons row rest ih =>
    have hlen : i + 1 + rest.length = i + (rest.length + 1) := by omega
    rw [List.cons_append, verifyFrom_cons, verifyFrom_cons, ih, lastHash, List.length_cons, hlen]
    tauto

/-- In a chain the numbers count up. -/
theorem seq_of_verifyFrom {hash : ChainHash} {prev : String} {i : ℕ} {rows : List AdminAuditRow}
    (h : verifyFrom hash prev i rows = true) :
    rows.map (fun r => r.seq.toInt) =
      (List.range rows.length).map fun j : ℕ => ((i + j + 1 : ℕ) : ℤ) := by
  induction rows generalizing prev i with
  | nil => rfl
  | cons row rest ih =>
    obtain ⟨hseq, -, -, hrest⟩ := verifyFrom_cons.mp h
    rw [List.map_cons, ih hrest, List.length_cons, List.range_succ_eq_map, List.map_cons,
      List.map_map, hseq]
    congr 1
    apply List.map_congr_left
    intro j _
    simp only [Function.comp_apply, Nat.succ_eq_add_one]
    omega

/-- The row with the greatest number of a chain is its last one. -/
theorem lastAudit_of_verifyFrom {hash : ChainHash} {prev : String} {i : ℕ}
    {rows : List AdminAuditRow} {last : AdminAuditRow} (h : verifyFrom hash prev i rows = true)
    (hlast : lastAudit rows = some last) :
    last.seq.toInt = i + rows.length ∧ last.rowHash = lastHash prev rows := by
  induction rows generalizing prev i last with
  | nil => cases hlast
  | cons row rest ih =>
    obtain ⟨hseq, -, -, hrest⟩ := verifyFrom_cons.mp h
    rw [lastAudit] at hlast
    cases hb : lastAudit rest with
    | none =>
      obtain rfl := lastAudit_eq_none_iff.mp hb
      rw [hb] at hlast
      obtain rfl := Option.some.inj hlast
      exact ⟨by simpa using hseq, rfl⟩
    | some b =>
      obtain ⟨hbseq, hbhash⟩ := ih hrest hb
      -- the numbers of a chain grow, so the first row is not the greatest
      have hlt : ¬ b.seq < row.seq := by
        rw [Int64.lt_iff_toInt_lt, hbseq, hseq]
        omega
      rw [hb] at hlast
      simp only [hlt, if_false, Option.some.injEq] at hlast
      subst hlast
      refine ⟨?_, hbhash⟩
      rw [hbseq, List.length_cons]
      push_cast
      omega

theorem chainHead_of_verifyFrom {hash : ChainHash} {t : Table AdminAuditRow}
    (h : verifyFrom hash auditGenesis 0 t.rows = true) :
    (chainHead t).1.toInt = t.rows.length ∧ (chainHead t).2 = lastHash auditGenesis t.rows := by
  unfold chainHead
  cases hlast : lastAudit t.rows with
  | none => simp [lastAudit_eq_none_iff.mp hlast, lastHash]
  | some last => simpa using lastAudit_of_verifyFrom h hlast

theorem verifyFrom_appendAdminAudit {hash : ChainHash} {now : Timestamp} {entry : NewAdminAudit}
    {t t' : Table AdminAuditRow} (h : verifyFrom hash auditGenesis 0 t.rows = true)
    (happend : appendAdminAudit hash now entry t = .ok t') :
    verifyFrom hash auditGenesis 0 t'.rows = true := by
  obtain ⟨hseq, hhash⟩ := chainHead_of_verifyFrom h
  simp only [appendAdminAudit] at happend
  split_ifs at happend with hfull
  split at happend
  case h_2 => cases happend
  case h_1 t₁ hins =>
    obtain rfl := Except.ok.inj happend
    rw [(Table.insert?_eq_some_iff.mp hins).2, verifyFrom_append]
    refine ⟨h, verifyFrom_cons.mpr ⟨?_, hhash, rfl, rfl⟩⟩
    have hge := (chainHead t).1.le_toInt
    rw [Int64.toInt_ofInt_of_le (by omega) (by omega), hseq]
    omega

/-- **What was appended is accepted.** -/
theorem verifyFrom_appendAll {hash : ChainHash} {entries : List (Timestamp × NewAdminAudit)}
    {t t' : Table AdminAuditRow} (h : verifyFrom hash auditGenesis 0 t.rows = true)
    (happend : appendAll hash entries t = .ok t') :
    verifyFrom hash auditGenesis 0 t'.rows = true := by
  induction entries generalizing t with
  | nil =>
    obtain rfl := Except.ok.inj happend
    exact h
  | cons e rest ih =>
    obtain ⟨now, entry⟩ := e
    rw [appendAll] at happend
    split at happend
    · exact ih (verifyFrom_appendAdminAudit h ‹_›) happend
    · cases happend

/-! ### What somebody without the secret can put in its place -/

/-- A row of `admin_audit_logs` with its primary key. -/
structure AdminAuditLog where
  /-- Primary key. -/
  id : Uuid
  /-- The other columns. -/
  row : AdminAuditRow

/-- `ORDER BY seq ASC`. -/
def orderBySeq (logs : List AdminAuditLog) : List AdminAuditLog :=
  logs.insertionSort fun a b => a.row.seq.toInt ≤ b.row.seq.toInt

/-- `verify_admin_audit_chain`. -/
def verifyAdminAuditChain (hash : ChainHash) (logs : List AdminAuditLog) : Bool :=
  verifyFrom hash auditGenesis 0 ((orderBySeq logs).map AdminAuditLog.row)

/-- The columns of a row that its hash covers, with the hash. -/
def AdminAuditRow.covered (r : AdminAuditRow) :=
  (r.prevHash, r.seq, r.entry.covered, r.createdAt, r.rowHash)

/-- The rows differ at most in the primary key, and in whether absent details are stored as `NULL`
or as the JSON value `null`. -/
def Alike (a b : AdminAuditLog) : Prop := a.row.covered = b.row.covered

/-- What is hashed for a row. -/
def rowMessage (ft : FloatText) (r : AdminAuditRow) : String :=
  chainMessage ft r.prevHash r.seq r.entry r.createdAt

/-- The table can be put in place of the appended rows: a right hash is one that was appended. -/
def Replaceable (env : Integrity) (appended logs : List AdminAuditLog) : Prop :=
  ∀ l ∈ logs, env.hmac (rowMessage env.floats l.row) = l.row.rowHash →
    rowMessage env.floats l.row ∈ appended.map fun a => rowMessage env.floats a.row

theorem chain_eq_hmac (env : Integrity) (r : AdminAuditRow) :
    env.chain r.prevHash r.seq r.entry r.createdAt = env.hmac (rowMessage env.floats r) := rfl

theorem rowMessage_congr {ft : FloatText} {r r' : AdminAuditRow} (h : r.covered = r'.covered) :
    rowMessage ft r = rowMessage ft r' := by
  simp only [AdminAuditRow.covered, NewAdminAudit.covered, Prod.mk.injEq] at h
  obtain ⟨hprev, hseq, ⟨haction, hkind, hactor, htarget, hdetails, hip⟩, htime, -⟩ := h
  simp only [rowMessage, chainMessage, auditCanonical, hprev, hseq, haction, hkind, hactor, htarget,
    hdetails, hip, htime]

theorem verifyFrom_of_forall₂ {env : Integrity} {logs appended : List AdminAuditLog}
    (h : List.Forall₂ Alike logs appended) {prev : String} {i : ℕ}
    (hverify : verifyFrom env.chain prev i (appended.map AdminAuditLog.row) = true) :
    verifyFrom env.chain prev i (logs.map AdminAuditLog.row) = true := by
  induction h generalizing prev i with
  | nil => rfl
  | @cons l a logs appended halike _ ih =>
    obtain ⟨hseq, hprev, hhash, hrest⟩ := verifyFrom_cons.mp hverify
    have hmsg := @rowMessage_congr env.floats _ _ halike
    have hcovered := halike
    simp only [Alike, AdminAuditRow.covered, Prod.mk.injEq] at hcovered
    obtain ⟨hprev', hseq', -, -, hhash'⟩ := hcovered
    refine verifyFrom_cons.mpr ⟨by rw [hseq', hseq], hprev'.trans hprev, ?_, ?_⟩
    · rw [chain_eq_hmac, hmsg, ← chain_eq_hmac, hhash, hhash']
    · rw [hhash']
      exact ih hrest

/-- The row of a chain with a given number stands at that place. -/
theorem getElem?_of_seq {hash : ChainHash} {prev : String} {i j : ℕ} {logs : List AdminAuditLog}
    {a : AdminAuditLog} (h : verifyFrom hash prev i (logs.map AdminAuditLog.row) = true)
    (ha : a ∈ logs) (hseq : a.row.seq.toInt = i + j + 1) : logs[j]? = some a := by
  induction logs generalizing prev i j with
  | nil => cases ha
  | cons b rest ih =>
    obtain ⟨hbseq, -, -, hrest⟩ := verifyFrom_cons.mp h
    rcases List.mem_cons.mp ha with rfl | hmem
    · obtain rfl : j = 0 := by omega
      rfl
    · cases j with
      | zero =>
        -- a later row has a greater number
        have hnumbers := seq_of_verifyFrom hrest
        have hin : a.row.seq.toInt ∈ (rest.map AdminAuditLog.row).map fun r => r.seq.toInt :=
          List.mem_map_of_mem (List.mem_map_of_mem hmem)
        rw [hnumbers, List.mem_map] at hin
        obtain ⟨k, -, hk⟩ := hin
        omega
      | succ j =>
        rw [List.getElem?_cons_succ]
        refine ih hrest hmem ?_
        push_cast at hseq ⊢
        omega

theorem hash_of_mem {hash : ChainHash} {prev : String} {i : ℕ} {rows : List AdminAuditRow}
    {r : AdminAuditRow} (h : verifyFrom hash prev i rows = true) (hr : r ∈ rows) :
    hash r.prevHash r.seq r.entry r.createdAt = r.rowHash := by
  induction rows generalizing prev i with
  | nil => cases hr
  | cons row rest ih =>
    obtain ⟨-, -, hhash, hrest⟩ := verifyFrom_cons.mp h
    rcases List.mem_cons.mp hr with rfl | hmem
    · exact hhash
    · exact ih hrest hmem

/-- An accepted table is alike to a first part of what was appended. -/
theorem forall₂_of_verifyFrom {env : Integrity} {appended logs : List AdminAuditLog}
    (happended : verifyFrom env.chain auditGenesis 0 (appended.map AdminAuditLog.row) = true)
    (hreplaceable : Replaceable env appended logs) {prev : String} {i : ℕ}
    (hverify : verifyFrom env.chain prev i (logs.map AdminAuditLog.row) = true) :
    List.Forall₂ Alike logs ((appended.drop i).take logs.length) := by
  induction logs generalizing prev i with
  | nil => simp
  | cons l rest ih =>
    obtain ⟨hl, hrest⟩ := List.forall_mem_cons.mp hreplaceable
    obtain ⟨hseq, -, hhash, hverify'⟩ := verifyFrom_cons.mp hverify
    -- the message of the row is one that was appended, and the number in it tells its place
    obtain ⟨a, ha, hmsg⟩ := List.mem_map.mp (hl hhash)
    obtain ⟨hprev', hseq', hentry', htime'⟩ := chainMessage_inj hmsg
    have hat : appended[i]? = some a := by
      refine getElem?_of_seq happended ha ?_
      rw [hseq', hseq]
      simp
    have halike : Alike l a := by
      have hhash' : a.row.rowHash = l.row.rowHash := by
        rw [← hash_of_mem happended (List.mem_map_of_mem ha), chain_eq_hmac, hmsg, ← chain_eq_hmac,
          hhash]
      simp [Alike, AdminAuditRow.covered, hprev', hseq', hentry', htime', hhash']
    obtain ⟨hi, rfl⟩ := List.getElem?_eq_some_iff.mp hat
    rw [List.drop_eq_getElem_cons hi, List.length_cons, List.take_succ_cons]
    exact .cons halike (ih hrest hverify')

/-- **A table is accepted exactly when it is alike to a first part of what was appended.** -/
theorem verifyAdminAuditChain_iff {env : Integrity} {appended logs : List AdminAuditLog}
    (happended : verifyFrom env.chain auditGenesis 0 (appended.map AdminAuditLog.row) = true)
    (hreplaceable : Replaceable env appended logs) :
    verifyAdminAuditChain env.chain logs = true ↔
      List.Forall₂ Alike (orderBySeq logs) (appended.take logs.length) := by
  have hordered : Replaceable env appended (orderBySeq logs) := fun l hl =>
    hreplaceable l ((List.mem_insertionSort _).mp hl)
  have hlength : (orderBySeq logs).length = logs.length := List.length_insertionSort _ _
  constructor
  · intro hverify
    have h := forall₂_of_verifyFrom happended hordered hverify
    rwa [List.drop_zero, hlength] at h
  · intro h
    refine verifyFrom_of_forall₂ h ?_
    have hsplit : (appended.take logs.length).map AdminAuditLog.row ++
        (appended.drop logs.length).map AdminAuditLog.row = appended.map AdminAuditLog.row := by
      rw [← List.map_append, List.take_append_drop]
    rw [← hsplit] at happended
    exact (verifyFrom_append.mp happended).1

theorem eq_of_alike {l a : AdminAuditLog} (h : Alike l a) (hid : l.id = a.id)
    (hdetails : l.row.entry.details = a.row.entry.details) : l = a := by
  obtain ⟨id, seq, ⟨action, kind, actor, target, details, ip⟩, createdAt, prevHash, rowHash⟩ := l
  simp only [Alike, AdminAuditRow.covered, NewAdminAudit.covered, Prod.mk.injEq] at h
  obtain ⟨rfl, rfl, ⟨rfl, rfl, rfl, rfl, -, rfl⟩, rfl, rfl⟩ := h
  obtain rfl := hid
  obtain rfl := hdetails
  rfl

/-- Some column that the hash does not cover was changed. -/
def UncoveredChange (appended logs : List AdminAuditLog) : Prop :=
  ∃ p ∈ logs.zip appended, p.1.id ≠ p.2.id ∨ p.1.row.entry.details ≠ p.2.row.entry.details

/-- Rows that are alike to a first part of what was appended are another table when they are fewer
or an uncovered column was changed. -/
theorem ne_appended_iff {appended logs : List AdminAuditLog}
    (h : List.Forall₂ Alike logs (appended.take logs.length)) :
    logs ≠ appended ↔ logs.length < appended.length ∨ UncoveredChange appended logs := by
  induction logs generalizing appended with
  | nil => cases appended <;> simp [UncoveredChange]
  | cons l logs ih =>
    cases appended with
    | nil => cases h
    | cons a appended =>
      rw [List.length_cons, List.take_succ_cons] at h
      obtain ⟨halike, hrest⟩ := List.forall₂_cons.mp h
      have hchange : UncoveredChange (a :: appended) (l :: logs) ↔
          (l.id ≠ a.id ∨ l.row.entry.details ≠ a.row.entry.details) ∨
            UncoveredChange appended logs := by
        simp [UncoveredChange]
      have hhead : l ≠ a ↔ l.id ≠ a.id ∨ l.row.entry.details ≠ a.row.entry.details := by
        constructor
        · intro hne
          by_contra hsame
          rw [not_or, not_not, not_not] at hsame
          exact hne (eq_of_alike halike hsame.1 hsame.2)
        · rintro hdiff rfl
          simp at hdiff
      rw [hchange, ← hhead, List.length_cons, List.length_cons, Nat.add_lt_add_iff_right,
        Ne, List.cons.injEq, not_and_or, ← Ne, ← Ne, ih hrest]
      tauto

/-- Nothing but the last rows was cut off, or columns changed that the hash does not cover: the
primary key, or absent details between `NULL` and the JSON value `null`. -/
def CutOff (appended logs : List AdminAuditLog) : Prop :=
  List.Forall₂ Alike (orderBySeq logs) (appended.take logs.length) ∧
    (logs.length < appended.length ∨ UncoveredChange appended (orderBySeq logs))

/-- **An accepted table is what was appended exactly when it is not a cut-off one.** -/
theorem tamper_evident_iff (env : Integrity) (entries : List (Timestamp × NewAdminAudit))
    (t : Table AdminAuditRow) (happend : appendAll env.chain entries .empty = .ok t)
    (appended logs : List AdminAuditLog) (hrows : appended.map AdminAuditLog.row = t.rows)
    (hreplaceable : Replaceable env appended logs) :
    (verifyAdminAuditChain env.chain logs = true → orderBySeq logs = appended) ↔
      ¬ CutOff appended logs := by
  have happended : verifyFrom env.chain auditGenesis 0 (appended.map AdminAuditLog.row) = true := by
    rw [hrows]
    exact verifyFrom_appendAll rfl happend
  have hlength : (orderBySeq logs).length = logs.length := List.length_insertionSort _ _
  rw [verifyAdminAuditChain_iff happended hreplaceable, CutOff, not_and]
  refine forall_congr' fun halike => ?_
  rw [← hlength] at halike ⊢
  rw [← ne_appended_iff halike, not_not]

/-- Two audit entries. -/
def smallEntry (action : String) : NewAdminAudit := ⟨action, "cli", none, none, none, none⟩

/-- The row of the first entry. -/
def firstAudit : AdminAuditRow :=
  ⟨1, smallEntry "first", 0, auditGenesis, plainIntegrity.chain auditGenesis 1 (smallEntry "first") 0⟩

/-- The row of the second entry. -/
def secondAudit : AdminAuditRow :=
  ⟨2, smallEntry "second", 0, firstAudit.rowHash,
    plainIntegrity.chain firstAudit.rowHash 2 (smallEntry "second") 0⟩

theorem appendAll_small : appendAll plainIntegrity.chain
    [(0, smallEntry "first"), (0, smallEntry "second")] .empty =
      .ok ⟨[firstAudit, secondAudit], by decide⟩ := by
  rfl

/-- A table without its first row is not accepted. -/
theorem first_row_deleted_detected :
    verifyAdminAuditChain plainIntegrity.chain [⟨2, secondAudit⟩] = false := by
  refine Bool.eq_false_iff.mpr fun haccepted => ?_
  have hsame : orderBySeq [⟨2, secondAudit⟩] = [⟨1, firstAudit⟩, ⟨2, secondAudit⟩] := by
    refine (tamper_evident_iff plainIntegrity _ _ appendAll_small [⟨1, firstAudit⟩, ⟨2, secondAudit⟩]
      [⟨2, secondAudit⟩] rfl ?_).mpr ?_ haccepted
    · intro l hl _
      rw [List.mem_singleton.mp hl]
      exact List.mem_cons_of_mem _ List.mem_cons_self
    · rintro ⟨halike, -⟩
      have hfirst : Alike ⟨2, secondAudit⟩ ⟨1, firstAudit⟩ := (List.forall₂_cons.mp halike).1
      exact absurd (congrArg (fun c => c.2.1) hfirst) (by decide)
  exact absurd (congrArg List.length hsame) (by decide)

/-- A table without its last row is accepted. -/
theorem last_row_deleted_undetected :
    ¬ ∀ (env : Integrity) (entries : List (Timestamp × NewAdminAudit)) (t : Table AdminAuditRow),
      appendAll env.chain entries .empty = .ok t → ∀ appended logs : List AdminAuditLog,
        appended.map AdminAuditLog.row = t.rows → Replaceable env appended logs →
        verifyAdminAuditChain env.chain logs = true → orderBySeq logs = appended := by
  intro hclaim
  have hreplaceable : Replaceable plainIntegrity [⟨1, firstAudit⟩, ⟨2, secondAudit⟩]
      [⟨1, firstAudit⟩] := by
    intro l hl _
    rw [List.mem_singleton.mp hl]
    exact List.mem_cons_self
  have heq := hclaim plainIntegrity _ _ appendAll_small [⟨1, firstAudit⟩, ⟨2, secondAudit⟩]
    [⟨1, firstAudit⟩] rfl hreplaceable (by decide +kernel)
  exact absurd (congrArg List.length heq) (by decide)

end SmirkBackend
