import SmirkBackend.Erasure.Execute
import SmirkBackend.Lib.Batch
import SmirkBackend.Lib.Run

/-!
# Retention

Login events and audit entries age out.  Every replica sweeps on a timer: it deletes a batch of the
login events older than the operator's window, then a batch of the audit entries, and then clears a
batch of the address hashes that earlier builds wrote.  A window of 0 means forever.  The scrub picks
its rows and then updates them; when it updates fewer than a batch, the process takes the work to
be done and never looks again until it restarts.

Rows that another transaction deletes between the pick and the update count as not updated, so the
process can stop too early; it can for no other reason.

* `gone_of_run` : what a row goes by.
* `drained` : how fast a backlog is drained.
* `retention_kept` : over every run, both of these, and when a process stops scrubbing too early.
-/

namespace SmirkBackend

open Lib (Table HasKey key)

/-! ### Rows -/

/-- A login event with the columns that the sweep reads. -/
structure LoginEvent extends LoginEventRow where
  /-- When it was recorded. -/
  createdAt : Timestamp
  /-- The address hash of earlier builds. -/
  ipHash : Option String
  deriving DecidableEq

/-- An audit entry with the column that the sweep reads. -/
structure AuditLog extends AuditLogRow where
  /-- When it was recorded. -/
  createdAt : Timestamp
  deriving DecidableEq

instance : HasKey LoginEvent Uuid := ⟨fun r => r.id⟩

instance : HasKey AuditLog Uuid := ⟨fun r => r.id⟩

/-- Rows of a user that carry the instant of their insertion. -/
class Dated (R : Type) where
  /-- When the row was inserted. -/
  createdAt : R → Timestamp
  /-- Whose it is. -/
  owner : R → Option Uuid

instance : Dated LoginEvent := ⟨LoginEvent.createdAt, fun r => r.userId⟩

instance : Dated AuditLog := ⟨AuditLog.createdAt, fun r => r.userId⟩

/-! ### Statements -/

/-- `MAX_RETENTION_DAYS`. -/
def maxRetentionDays : ℕ := 1000000

/-- `RETENTION_BATCH`. -/
def retentionBatch : ℤ := 1000

/-- `interval_days`: a larger window is cut, and nothing wraps. -/
def intervalDays (d : UInt64) : Int32 := Int32.ofNat (min d.toNat maxRetentionDays)

theorem toInt_intervalDays (d : UInt64) : (intervalDays d).toInt = min d.toNat maxRetentionDays := by
  have hle : min d.toNat maxRetentionDays ≤ 1000000 := Nat.min_le_right _ _
  exact Int32.toInt_ofNat_of_lt (by omega)

/-- What is older than the window at an instant. -/
def cutoff (now : Timestamp) (d : UInt64) : Timestamp := now - days (intervalDays d).toInt

section Cleanup

variable {R : Type} [HasKey R Uuid] [Dated R]

/-- Older than an instant. -/
def olderThan (τ : Timestamp) (r : R) : Bool := Dated.createdAt r < τ

/-- `cleanup_old_login_events` and `cleanup_old_audit_logs`: the oldest rows beyond the window, a
batch at most, but none that others have locked. -/
def cleanupOld (now : Timestamp) (d : UInt64) (batch : ℤ) (locked : List Uuid) (t : Table R) :
    Table R :=
  if d = 0 ∨ batch ≤ 0 then t
  else t.deleteBatch (olderThan (cutoff now d)) (fun r => locked.contains (key r))
    (fun a b => decide (Dated.createdAt a ≤ Dated.createdAt b)) batch.toNat

/-- A row of the table has the key and the instant of another. -/
def Stays (r : R) (t : Table R) : Prop :=
  ∃ r' ∈ t.rows, key r' = key r ∧ Dated.createdAt r' = Dated.createdAt r

theorem Stays.of_mem {r : R} {t : Table R} (h : r ∈ t.rows) : Stays r t := ⟨r, h, rfl, rfl⟩

theorem Stays.trans {r r' : R} {t : Table R} (hkey : key r' = key r)
    (hdate : Dated.createdAt r' = Dated.createdAt r) (h : Stays r' t) : Stays r t := by
  obtain ⟨r'', hmem, hkey', hdate'⟩ := h
  exact ⟨r'', hmem, hkey'.trans hkey, hdate'.trans hdate⟩

theorem stays_updateWhere {r : R} {t : Table R} (h : r ∈ t.rows) (p : R → Bool) {f : Lib.Patch R}
    (hf : ∀ r, Dated.createdAt (f.set r) = Dated.createdAt r) : Stays r (t.updateWhere p f) := by
  refine ⟨_, List.mem_map_of_mem h, ?_, ?_⟩
  · split
    · exact f.key_set r
    · rfl
  · split
    · exact hf r
    · rfl

theorem stays_cleanupOld {now : Timestamp} {d : UInt64} {batch : ℤ} {locked : List Uuid} {r : R}
    {t : Table R} (h : r ∈ t.rows) : Stays r (cleanupOld now d batch locked t) ∨
      d ≠ 0 ∧ Dated.createdAt r < cutoff now d := by
  unfold cleanupOld
  split
  · exact .inl (.of_mem h)
  · rename_i hon
    by_cases hbatch : r ∈ t.batch (olderThan (cutoff now d)) (fun r => locked.contains (key r))
        (fun a b => decide (Dated.createdAt a ≤ Dated.createdAt b)) batch.toNat
    · exact .inr ⟨fun hzero => hon (.inl hzero), of_decide_eq_true (Table.mem_of_mem_batch hbatch).2⟩
    · exact .inl (.of_mem (Table.mem_deleteBatch.mpr ⟨h, hbatch⟩))

theorem countP_cleanupOld_le (now : Timestamp) (d : UInt64) (batch : ℤ) (locked : List Uuid)
    (t : Table R) (q : R → Bool) : (cleanupOld now d batch locked t).rows.countP q ≤ t.rows.countP q := by
  unfold cleanupOld
  split
  · exact Nat.le_refl _
  · exact t.countP_deleteBatch_le q

/-- A cleanup that finds nothing locked takes a batch of what is older than any instant beyond its
window, or all of it. -/
theorem countP_cleanupOld {now τ : Timestamp} {d : UInt64} (batch : ℤ) (t : Table R) (hd : d ≠ 0)
    (hτ : τ ≤ cutoff now d) :
    (cleanupOld now d batch [] t).rows.countP (olderThan τ) ≤
      t.rows.countP (olderThan τ) - batch.toNat := by
  unfold cleanupOld
  split
  · rename_i hoff
    have hbatch : batch ≤ 0 := hoff.resolve_left hd
    omega
  · have : Std.Total fun a b : R => (decide (Dated.createdAt a ≤ Dated.createdAt b) : Prop) :=
      ⟨fun a b => by simpa using le_total (Dated.createdAt a) (Dated.createdAt b)⟩
    have : IsTrans R fun a b => decide (Dated.createdAt a ≤ Dated.createdAt b) :=
      ⟨fun a b c hab hbc => by simpa using le_trans (of_decide_eq_true hab) (of_decide_eq_true hbc)⟩
    refine Nat.le_of_eq (t.countP_deleteBatch_first ?_ (fun _ _ => rfl) ?_)
    · intro r hr
      have hlt : Dated.createdAt r < τ := of_decide_eq_true hr
      exact decide_eq_true (lt_of_lt_of_le hlt hτ)
    · intro a b hb hab
      have hlt : Dated.createdAt b < τ := of_decide_eq_true hb
      have hle : Dated.createdAt a ≤ Dated.createdAt b := of_decide_eq_true hab
      exact decide_eq_true (lt_of_le_of_lt hle hlt)

theorem countP_olderThan_insert {t t' : Table R} {r : R} (h : t.insert? r = some t') {τ : Timestamp}
    (hnew : τ ≤ Dated.createdAt r) :
    t'.rows.countP (olderThan τ) = t.rows.countP (olderThan τ) := by
  have hr : olderThan τ r = false := decide_eq_false (not_lt.mpr hnew)
  rw [(Table.insert?_eq_some_iff.mp h).2, List.countP_append]
  simp [hr]

end Cleanup

theorem cutoff_le (now : Timestamp) (d : UInt64) : cutoff now d ≤ now := by
  have hnat : 0 ≤ ((min d.toNat maxRetentionDays : ℕ) : ℤ) := Int.natCast_nonneg _
  unfold cutoff days seconds Timestamp
  rw [toInt_intervalDays]
  omega

theorem cutoff_mono {now now' : Timestamp} {d d' : UInt64} (hnow : now ≤ now') (hd : d' ≤ d) :
    cutoff now d ≤ cutoff now' d' := by
  have hle := UInt64.le_iff_toNat_le.mp hd
  unfold cutoff days seconds
  rw [toInt_intervalDays, toInt_intervalDays]
  unfold Timestamp at *
  omega

/-! ### The system -/

/-- Where a replica is in `run_retention_sweep`. -/
inductive SweepPhase
  /-- Between two passes. -/
  | idle
  /-- The login events are done. -/
  | audits (auditDays : UInt64)
  /-- The audit entries are done. -/
  | pick
  /-- The rows to be scrubbed are picked. -/
  | write (picked : List Uuid)
  deriving DecidableEq

/-- The two tables, and the replicas that sweep them. -/
structure RetentionWorld where
  /-- `login_events` -/
  loginEvents : Table LoginEvent
  /-- `audit_logs` -/
  auditLogs : Table AuditLog
  /-- The clock of the database. -/
  now : Timestamp
  /-- Where each replica is. -/
  phase : ℕ → SweepPhase
  /-- `IP_HASH_SCRUB_DONE` of each replica. -/
  done : ℕ → Bool

/-- What happens to the tables. -/
inductive RetentionEvent
  /-- Time passes. -/
  | tick (elapsed : ℕ)
  /-- `record_login_event`. -/
  | login (r : LoginEventRow)
  /-- `create_audit_log`. -/
  | audit (r : AuditLogRow)
  /-- The part of `execute_erasure` for a user; `delete_login_events_for_user` is its first half. -/
  | erase (u : Uuid) (purge : Bool)
  /-- `cleanup_old_login_events` of a pass under the windows of the tick. -/
  | logins (replica : ℕ) (loginDays auditDays : UInt64) (locked : List Uuid)
  /-- `cleanup_old_audit_logs` of that pass. -/
  | audits (replica : ℕ) (auditDays : UInt64) (locked : List Uuid)
  /-- `scrub_legacy_login_ip_hashes` picks its rows, in no order. -/
  | pick (replica : ℕ) (picked : List Uuid)
  /-- It updates those that are still there. -/
  | write (replica : ℕ) (picked : List Uuid) (scrubbed : ℕ)
  /-- A statement fails, and the pass ends. -/
  | abort (replica : ℕ)
  /-- The process of a replica starts anew. -/
  | restart (replica : ℕ)

/-- A row has an address hash. -/
def LoginEvent.hashed (r : LoginEvent) : Bool := r.ipHash.isSome

/-- The erasure of a user, in the login events. -/
def eraseLogins (u : Uuid) (purge : Bool) (t : Table LoginEvent) : Table LoginEvent :=
  if purge then t.deleteWhere fun r => r.userId = some u
  else t.updateWhere (fun r => r.userId = some u)
    { set := fun r => { r with userId := none, origin := none, asset := "redacted" } }

/-- The erasure of a user, in the audit entries: the deletion of the user takes the link. -/
def eraseAudits (u : Uuid) (t : Table AuditLog) : Table AuditLog :=
  t.updateWhere (fun r => r.userId = some u)
    { set := fun r => { r with userAgent := none, userId := none } }

/-- The update of a scrub. -/
def scrubHashes (picked : List Uuid) (t : Table LoginEvent) : Table LoginEvent :=
  t.updateWhere (fun r => picked.contains r.id) { set := fun r => { r with ipHash := none } }

namespace RetentionWorld

/-- The picked rows are rows with a hash, and as many as there are or may be. -/
def Picks (w : RetentionWorld) (batch : ℤ) (picked : List Uuid) : Prop :=
  picked.Nodup ∧ (∀ id ∈ picked, ∃ r ∈ w.loginEvents.rows, r.id = id ∧ r.hashed) ∧
    picked.length = min batch.toNat (w.loginEvents.rows.countP (·.hashed))

instance (w : RetentionWorld) (batch : ℤ) (picked : List Uuid) : Decidable (w.Picks batch picked) :=
  -- not over every identifier there is
  have : Decidable (∀ id ∈ picked, ∃ r ∈ w.loginEvents.rows, r.id = id ∧ r.hashed) :=
    List.decidableBAll _ picked
  inferInstanceAs (Decidable (_ ∧ _ ∧ _))

/-- One step; `batch` is the bound of the statements. -/
def step (batch : ℤ) (w : RetentionWorld) : RetentionEvent → Option RetentionWorld
  | .tick elapsed => some { w with now := w.now + elapsed }
  | .login r => do
    let loginEvents ← w.loginEvents.insert? { r with createdAt := w.now, ipHash := none }
    some { w with loginEvents := loginEvents }
  | .audit r => do
    let auditLogs ← w.auditLogs.insert? { r with createdAt := w.now }
    some { w with auditLogs := auditLogs }
  | .erase u purge => some { w with
      loginEvents := eraseLogins u purge w.loginEvents
      auditLogs := eraseAudits u w.auditLogs }
  | .logins replica loginDays auditDays locked =>
    if w.phase replica = .idle then
      some { w with
        loginEvents := cleanupOld w.now loginDays batch locked w.loginEvents
        phase := Function.update w.phase replica (.audits auditDays) }
    else none
  | .audits replica auditDays locked =>
    if w.phase replica = .audits auditDays then
      some { w with
        auditLogs := cleanupOld w.now auditDays batch locked w.auditLogs
        phase := Function.update w.phase replica .pick }
    else none
  | .pick replica picked =>
    if w.phase replica = .pick then
      if batch ≤ 0 ∨ w.done replica then
        some { w with phase := Function.update w.phase replica .idle }
      else if w.Picks batch picked then
        some { w with phase := Function.update w.phase replica (.write picked) }
      else none
    else none
  | .write replica picked scrubbed =>
    if w.phase replica = .write picked ∧
        scrubbed = w.loginEvents.rows.countP (fun r => picked.contains r.id) then
      some { w with
        loginEvents := scrubHashes picked w.loginEvents
        phase := Function.update w.phase replica .idle
        done := Function.update w.done replica (w.done replica || decide ((scrubbed : ℤ) < batch)) }
    else none
  | .abort replica => some { w with phase := Function.update w.phase replica .idle }
  | .restart replica => some { w with
      phase := Function.update w.phase replica .idle
      done := Function.update w.done replica false }

/-- The runs. -/
def system (batch : ℤ) : Lib.System RetentionWorld RetentionEvent := .ofOption (step batch)

/-- The tables as the replicas start. -/
def boot (loginEvents : Table LoginEvent) (auditLogs : Table AuditLog) (now : Timestamp) :
    RetentionWorld := ⟨loginEvents, auditLogs, now, fun _ => .idle, fun _ => false⟩

/-! ### Steps -/

/-- What a step does. -/
inductive Moves (batch : ℤ) (w : RetentionWorld) : RetentionEvent → RetentionWorld → Prop
  | tick (elapsed : ℕ) : Moves batch w (.tick elapsed) { w with now := w.now + elapsed }
  | login (r : LoginEventRow) {t : Table LoginEvent}
      (h : w.loginEvents.insert? { r with createdAt := w.now, ipHash := none } = some t) :
      Moves batch w (.login r) { w with loginEvents := t }
  | audit (r : AuditLogRow) {t : Table AuditLog}
      (h : w.auditLogs.insert? { r with createdAt := w.now } = some t) :
      Moves batch w (.audit r) { w with auditLogs := t }
  | erase (u : Uuid) (purge : Bool) : Moves batch w (.erase u purge) { w with
      loginEvents := eraseLogins u purge w.loginEvents
      auditLogs := eraseAudits u w.auditLogs }
  | logins {replica : ℕ} (loginDays auditDays : UInt64) (locked : List Uuid)
      (h : w.phase replica = .idle) :
      Moves batch w (.logins replica loginDays auditDays locked) { w with
        loginEvents := cleanupOld w.now loginDays batch locked w.loginEvents
        phase := Function.update w.phase replica (.audits auditDays) }
  | audits {replica : ℕ} {auditDays : UInt64} (locked : List Uuid)
      (h : w.phase replica = .audits auditDays) :
      Moves batch w (.audits replica auditDays locked) { w with
        auditLogs := cleanupOld w.now auditDays batch locked w.auditLogs
        phase := Function.update w.phase replica .pick }
  | skip {replica : ℕ} (picked : List Uuid) (h : w.phase replica = .pick) :
      Moves batch w (.pick replica picked)
        { w with phase := Function.update w.phase replica .idle }
  | pick {replica : ℕ} {picked : List Uuid} (h : w.phase replica = .pick)
      (hpicked : w.Picks batch picked) :
      Moves batch w (.pick replica picked)
        { w with phase := Function.update w.phase replica (.write picked) }
  | write {replica : ℕ} {picked : List Uuid} {scrubbed : ℕ} (h : w.phase replica = .write picked)
      (hscrubbed : scrubbed = w.loginEvents.rows.countP fun r => picked.contains r.id) :
      Moves batch w (.write replica picked scrubbed) { w with
        loginEvents := scrubHashes picked w.loginEvents
        phase := Function.update w.phase replica .idle
        done := Function.update w.done replica (w.done replica || decide ((scrubbed : ℤ) < batch)) }
  | abort (replica : ℕ) :
      Moves batch w (.abort replica) { w with phase := Function.update w.phase replica .idle }
  | restart (replica : ℕ) : Moves batch w (.restart replica) { w with
      phase := Function.update w.phase replica .idle
      done := Function.update w.done replica false }

variable {batch : ℤ} {w w' : RetentionWorld} {l : RetentionEvent}

theorem moves_of_step (h : step batch w l = some w') : Moves batch w l w' := by
  cases l with
  | tick elapsed =>
    cases h
    exact .tick elapsed
  | login r =>
    obtain ⟨t, hins, h⟩ := Option.bind_eq_some_iff.mp h
    cases h
    exact .login r hins
  | audit r =>
    obtain ⟨t, hins, h⟩ := Option.bind_eq_some_iff.mp h
    cases h
    exact .audit r hins
  | erase u purge =>
    cases h
    exact .erase u purge
  | logins replica loginDays auditDays locked =>
    simp only [step, Option.ite_none_right_eq_some] at h
    obtain ⟨hphase, h⟩ := h
    cases h
    exact .logins loginDays auditDays locked hphase
  | audits replica auditDays locked =>
    simp only [step, Option.ite_none_right_eq_some] at h
    obtain ⟨hphase, h⟩ := h
    cases h
    exact .audits locked hphase
  | pick replica picked =>
    simp only [step, Option.ite_none_right_eq_some] at h
    obtain ⟨hphase, h⟩ := h
    split at h
    · cases h
      exact .skip picked hphase
    · obtain ⟨hpicked, h⟩ := Option.ite_none_right_eq_some.mp h
      cases h
      exact .pick hphase hpicked
  | write replica picked scrubbed =>
    simp only [step, Option.ite_none_right_eq_some] at h
    obtain ⟨⟨hphase, hscrubbed⟩, h⟩ := h
    cases h
    exact .write hphase hscrubbed
  | abort replica =>
    cases h
    exact .abort replica
  | restart replica =>
    cases h
    exact .restart replica

theorem Moves.now_le (h : Moves batch w l w') : w.now ≤ w'.now := by
  cases h with
  | tick elapsed => exact le_add_of_nonneg_right (Int.natCast_nonneg elapsed)
  | _ => exact le_refl _

/-! ### Login events -/

/-- A step that takes a login event: an erasure of its user, or a sweep under a window that the event
has outlived. -/
def TakesLogin (w : RetentionWorld) (r : LoginEvent) : RetentionEvent → Prop
  | .erase u purge => purge ∧ r.userId = some u
  | .logins _ loginDays _ _ => loginDays ≠ 0 ∧ r.createdAt < cutoff w.now loginDays
  | _ => False

theorem Moves.stays_login (h : Moves batch w l w') {r : LoginEvent} (hr : r ∈ w.loginEvents.rows) :
    Stays r w'.loginEvents ∨ TakesLogin w r l := by
  cases h with
  | login r' hins =>
    refine .inl (.of_mem ?_)
    rw [(Table.insert?_eq_some_iff.mp hins).2]
    exact List.mem_append_left _ hr
  | erase u purge =>
    cases purge with
    | false => exact .inl (stays_updateWhere hr _ fun _ => rfl)
    | true =>
      by_cases howner : r.userId = some u
      · exact .inr ⟨rfl, howner⟩
      · exact .inl (.of_mem (List.mem_filter.mpr ⟨hr, by simpa using howner⟩))
  | logins loginDays auditDays locked hphase => exact stays_cleanupOld hr
  | write hphase hscrubbed => exact .inl (stays_updateWhere hr _ fun _ => rfl)
  | _ => exact .inl (.of_mem hr)

/-- A sweep of the login events under a window of `d` days or less that finds nothing locked. -/
def sweepsLogins (d : UInt64) : RetentionEvent → Bool
  | .logins _ loginDays _ locked => loginDays ≠ 0 && loginDays ≤ d && locked.isEmpty
  | _ => false

/-- The backlog of login events at an instant that lies a window back never grows, and every sweep
takes a batch of it. -/
theorem Moves.drains_logins (h : Moves batch w l w') {d : UInt64} {τ : Timestamp}
    (hτ : τ ≤ cutoff w.now d) :
    w'.loginEvents.rows.countP (olderThan τ) ≤
      w.loginEvents.rows.countP (olderThan τ) - batch.toNat * (if sweepsLogins d l then 1 else 0) := by
  cases h with
  | login r hins =>
    exact Nat.le_of_eq (countP_olderThan_insert hins (le_trans hτ (cutoff_le _ _)))
  | erase u purge =>
    cases purge with
    | false =>
      refine Nat.le_of_eq ?_
      exact w.loginEvents.countP_updateWhere _ fun _ => rfl
    | true => exact List.filter_sublist.countP_le
  | @logins replica loginDays auditDays locked hphase =>
    by_cases hfull : sweepsLogins d (.logins replica loginDays auditDays locked)
    · rw [if_pos hfull, Nat.mul_one]
      simp only [sweepsLogins, Bool.and_eq_true, decide_eq_true_eq, List.isEmpty_iff] at hfull
      obtain ⟨⟨hzero, hle⟩, rfl⟩ := hfull
      exact countP_cleanupOld batch _ hzero (le_trans hτ (cutoff_mono (le_refl _) hle))
    · rw [if_neg hfull, Nat.mul_zero, Nat.sub_zero]
      exact countP_cleanupOld_le _ _ _ _ _ _
  | write hphase hscrubbed =>
    refine Nat.le_of_eq ?_
    exact w.loginEvents.countP_updateWhere _ fun _ => rfl
  | _ => exact Nat.le_refl _

/-! ### Audit entries -/

/-- A step that takes an audit entry: a sweep under a window that the entry has outlived. -/
def TakesAudit (w : RetentionWorld) (r : AuditLog) : RetentionEvent → Prop
  | .audits _ auditDays _ => auditDays ≠ 0 ∧ r.createdAt < cutoff w.now auditDays
  | _ => False

theorem Moves.stays_audit (h : Moves batch w l w') {r : AuditLog} (hr : r ∈ w.auditLogs.rows) :
    Stays r w'.auditLogs ∨ TakesAudit w r l := by
  cases h with
  | audit r' hins =>
    refine .inl (.of_mem ?_)
    rw [(Table.insert?_eq_some_iff.mp hins).2]
    exact List.mem_append_left _ hr
  | erase u purge => exact .inl (stays_updateWhere hr _ fun _ => rfl)
  | audits locked hphase => exact stays_cleanupOld hr
  | _ => exact .inl (.of_mem hr)

/-- A sweep of the audit entries under a window of `d` days or less that finds nothing locked. -/
def sweepsAudits (d : UInt64) : RetentionEvent → Bool
  | .audits _ auditDays locked => auditDays ≠ 0 && auditDays ≤ d && locked.isEmpty
  | _ => false

theorem Moves.drains_audits (h : Moves batch w l w') {d : UInt64} {τ : Timestamp}
    (hτ : τ ≤ cutoff w.now d) :
    w'.auditLogs.rows.countP (olderThan τ) ≤
      w.auditLogs.rows.countP (olderThan τ) - batch.toNat * (if sweepsAudits d l then 1 else 0) := by
  cases h with
  | audit r hins =>
    exact Nat.le_of_eq (countP_olderThan_insert hins (le_trans hτ (cutoff_le _ _)))
  | erase u purge =>
    refine Nat.le_of_eq ?_
    exact w.auditLogs.countP_updateWhere _ fun _ => rfl
  | @audits replica auditDays locked hphase =>
    by_cases hfull : sweepsAudits d (.audits replica auditDays locked)
    · rw [if_pos hfull, Nat.mul_one]
      simp only [sweepsAudits, Bool.and_eq_true, decide_eq_true_eq, List.isEmpty_iff] at hfull
      obtain ⟨⟨hzero, hle⟩, rfl⟩ := hfull
      exact countP_cleanupOld batch _ hzero (le_trans hτ (cutoff_mono (le_refl _) hle))
    · rw [if_neg hfull, Nat.mul_zero, Nat.sub_zero]
      exact countP_cleanupOld_le _ _ _ _ _ _
  | _ => exact Nat.le_refl _

/-! ### Runs -/

section Runs

variable {R : Type} [HasKey R Uuid] [Dated R] {table : RetentionWorld → Table R}
  {ls : List RetentionEvent}

/-- A row went in one of the steps `ls` from `w`, by what `Takes` says. -/
def WentBy (table : RetentionWorld → Table R) (Takes : RetentionWorld → R → RetentionEvent → Prop)
    (batch : ℤ) (w : RetentionWorld) (ls : List RetentionEvent) (r : R) : Prop :=
  ∃ before l after w₁, ls = before ++ l :: after ∧ (system batch).Run w before w₁ ∧
    ∃ r₁ ∈ (table w₁).rows, key r₁ = key r ∧ Dated.createdAt r₁ = Dated.createdAt r ∧ Takes w₁ r₁ l

/-- A row that is gone at the end of a run went in one of its steps. -/
theorem gone_of_run {Takes : RetentionWorld → R → RetentionEvent → Prop}
    (hstep : ∀ {w l w'}, Moves batch w l w' → ∀ r ∈ (table w).rows, Stays r (table w') ∨ Takes w r l)
    (hrun : (system batch).Run w ls w') {r : R} (hr : r ∈ (table w).rows) :
    Stays r (table w') ∨ WentBy table Takes batch w ls r := by
  induction hrun generalizing r with
  | nil w => exact .inl (.of_mem hr)
  | @cons w w₁ w' l ls hst hrest ih =>
    rcases hstep (moves_of_step hst) r hr with ⟨r', hr', hkey, hdate⟩ | htakes
    · rcases ih hr' with hstays | ⟨before, l', after, w₂, rfl, hbefore, r₂, hr₂, hkey₂, hdate₂, htakes⟩
      · exact .inl (hstays.trans hkey hdate)
      · exact .inr ⟨l :: before, l', after, w₂, rfl, .cons hst hbefore, r₂, hr₂, hkey₂.trans hkey,
          hdate₂.trans hdate, htakes⟩
    · exact .inr ⟨[], l, ls, w, rfl, .nil w, r, hr, rfl, rfl, htakes⟩

/-- A backlog is drained a batch at a time. -/
theorem drained {d : UInt64} {sweeps : RetentionEvent → Bool} {τ : Timestamp}
    (hstep : ∀ {w l w'}, Moves batch w l w' → τ ≤ cutoff w.now d →
      (table w').rows.countP (olderThan τ) ≤
        (table w).rows.countP (olderThan τ) - batch.toNat * (if sweeps l then 1 else 0))
    (hrun : (system batch).Run w ls w') (hτ : τ ≤ cutoff w.now d) :
    (table w').rows.countP (olderThan τ) ≤
      (table w).rows.countP (olderThan τ) - batch.toNat * ls.countP sweeps := by
  induction hrun with
  | nil w => exact Nat.le_refl _
  | @cons w w₁ w' l ls hst hrest ih =>
    have hmoves := moves_of_step hst
    have hfirst := hstep hmoves hτ
    have hlater := ih (le_trans hτ (cutoff_mono hmoves.now_le (UInt64.le_refl d)))
    rw [List.countP_cons, Nat.mul_add]
    omega

end Runs

/-! ### The scrub -/

/-- A scrub of a replica updated fewer rows than it had picked. -/
def Missed (replica : ℕ) (ls : List RetentionEvent) : Prop :=
  ∃ picked scrubbed, .write replica picked scrubbed ∈ ls ∧ scrubbed < picked.length

/-- No step brings a hash, and a scrub leaves none in the rows it picked. -/
theorem Moves.hashed (h : Moves batch w l w') {r' : LoginEvent} (hr' : r' ∈ w'.loginEvents.rows)
    (hhash : r'.hashed) : (∃ r ∈ w.loginEvents.rows, r.id = r'.id ∧ r.hashed) ∧
      ∀ replica picked scrubbed, l = .write replica picked scrubbed → r'.id ∉ picked := by
  cases h with
  | login r hins =>
    refine ⟨?_, by rintro _ _ _ ⟨⟩⟩
    rw [(Table.insert?_eq_some_iff.mp hins).2, List.mem_append, List.mem_singleton] at hr'
    rcases hr' with hr' | rfl
    · exact ⟨r', hr', rfl, hhash⟩
    · cases hhash
  | erase u purge =>
    refine ⟨?_, by rintro _ _ _ ⟨⟩⟩
    cases purge with
    | false =>
      obtain ⟨r, hr, rfl⟩ := List.mem_map.mp hr'
      refine ⟨r, hr, ?_, ?_⟩
      · split
        · rfl
        · rfl
      · revert hhash
        split
        · exact fun h => h
        · exact fun h => h
    | true => exact ⟨r', List.mem_of_mem_filter hr', rfl, hhash⟩
  | logins loginDays auditDays locked hphase =>
    refine ⟨?_, by rintro _ _ _ ⟨⟩⟩
    unfold cleanupOld at hr'
    split at hr'
    · exact ⟨r', hr', rfl, hhash⟩
    · exact ⟨r', (Table.mem_deleteBatch.mp hr').1, rfl, hhash⟩
  | @write replica picked scrubbed hphase hscrubbed =>
    obtain ⟨r, hr, rfl⟩ := List.mem_map.mp hr'
    by_cases hpicked : picked.contains r.id = true
    · rw [if_pos hpicked] at hhash
      cases hhash
    · rw [if_neg hpicked] at hhash ⊢
      refine ⟨⟨r, hr, rfl, hhash⟩, ?_⟩
      rintro _ _ _ ⟨⟩ hmem
      exact hpicked (List.contains_iff_mem.mpr hmem)
  | _ => exact ⟨⟨r', hr', rfl, hhash⟩, by rintro _ _ _ ⟨⟩⟩

theorem Picks.complete {picked : List Uuid} (h : w.Picks batch picked)
    (hlength : (picked.length : ℤ) < batch) {r : LoginEvent} (hr : r ∈ w.loginEvents.rows)
    (hhash : r.hashed) : r.id ∈ picked := by
  obtain ⟨hnodup, hhashed, hcount⟩ := h
  set ids := (w.loginEvents.rows.filter (·.hashed)).map (·.id) with hids
  have hsubset : picked ⊆ ids := by
    intro id hid
    obtain ⟨r', hr', rfl, hhash'⟩ := hhashed id hid
    exact List.mem_map_of_mem (List.mem_filter.mpr ⟨hr', hhash'⟩)
  have hall : ids.length ≤ picked.length := by
    rw [hids, List.length_map, ← List.countP_eq_length_filter, hcount]
    omega
  have hperm := (List.subperm_of_subset hnodup hsubset).perm_of_length_le hall
  exact hperm.mem_iff.mpr (List.mem_map_of_mem (List.mem_filter.mpr ⟨hr, hhash⟩))

/-- What a replica knows of the hashes, after the steps `past`. -/
structure Knows (batch : ℤ) (past : List RetentionEvent) (w : RetentionWorld) (replica : ℕ) : Prop where
  /-- A pick that is not full still has every hash. -/
  picked : ∀ picked, w.phase replica = .write picked → (picked.length : ℤ) < batch →
    ∀ r ∈ w.loginEvents.rows, r.hashed → r.id ∈ picked
  /-- A replica that has stopped left no hash, or has missed a row. -/
  done : w.done replica → (∀ r ∈ w.loginEvents.rows, r.hashed = false) ∨ Missed replica past

theorem Missed.append {replica : ℕ} {past : List RetentionEvent} (h : Missed replica past)
    (l : RetentionEvent) : Missed replica (past ++ [l]) := by
  obtain ⟨picked, scrubbed, hmem, hlt⟩ := h
  exact ⟨picked, scrubbed, List.mem_append_left _ hmem, hlt⟩

theorem Moves.hashed_none (h : Moves batch w l w')
    (hnone : ∀ r ∈ w.loginEvents.rows, r.hashed = false) :
    ∀ r ∈ w'.loginEvents.rows, r.hashed = false := by
  intro r hr
  by_contra hhash
  obtain ⟨⟨r₀, hr₀, -, hhash₀⟩, -⟩ := h.hashed hr (by simpa using hhash)
  rw [hnone r₀ hr₀] at hhash₀
  cases hhash₀

theorem Knows.picked_of_moves {past : List RetentionEvent} {replica : ℕ}
    (hknows : Knows batch past w replica) (h : Moves batch w l w') {picked : List Uuid}
    (hphase : w.phase replica = .write picked) (hlength : (picked.length : ℤ) < batch) :
    ∀ r ∈ w'.loginEvents.rows, r.hashed → r.id ∈ picked := by
  intro r hr hhash
  obtain ⟨⟨r₀, hr₀, hid, hhash₀⟩, -⟩ := h.hashed hr hhash
  rw [← hid]
  exact hknows.picked picked hphase hlength r₀ hr₀ hhash₀

theorem Knows.done_of_moves {past : List RetentionEvent} {replica : ℕ}
    (hknows : Knows batch past w replica) (h : Moves batch w l w') (hdone : w.done replica) :
    (∀ r ∈ w'.loginEvents.rows, r.hashed = false) ∨ Missed replica (past ++ [l]) := by
  rcases hknows.done hdone with hnone | hmissed
  · exact .inl (h.hashed_none hnone)
  · exact .inr (hmissed.append l)

theorem Knows.carried {past : List RetentionEvent} {replica : ℕ} (hknows : Knows batch past w replica)
    (h : Moves batch w l w')
    (hphase : ∀ picked, w'.phase replica = .write picked → w.phase replica = .write picked)
    (hdone : w'.done replica → w.done replica) : Knows batch (past ++ [l]) w' replica where
  picked := fun picked hwrite hlength =>
    hknows.picked_of_moves h (hphase picked hwrite) hlength
  done := fun hstopped => hknows.done_of_moves h (hdone hstopped)

theorem phase_of_update {phase : ℕ → SweepPhase} {replica replica' : ℕ} {φ : SweepPhase}
    (hφ : ∀ picked, φ ≠ .write picked) {picked : List Uuid}
    (h : Function.update phase replica φ replica' = .write picked) :
    phase replica' = .write picked := by
  by_cases heq : replica' = replica
  · rw [heq, Function.update_self] at h
    exact absurd h (hφ picked)
  · rwa [Function.update_of_ne heq] at h

theorem Moves.knows (h : Moves batch w l w') {past : List RetentionEvent}
    (hknows : ∀ replica, Knows batch past w replica) (replica : ℕ) :
    Knows batch (past ++ [l]) w' replica := by
  have hcarried := (hknows replica).carried h
  have hdone := (hknows replica).done_of_moves h
  have hhashed {r : LoginEvent} (hr : r ∈ w'.loginEvents.rows) (hhash : r.hashed) := h.hashed hr hhash
  cases h with
  | tick => exact hcarried (fun _ => id) id
  | login => exact hcarried (fun _ => id) id
  | audit => exact hcarried (fun _ => id) id
  | erase => exact hcarried (fun _ => id) id
  | logins => exact hcarried (fun _ => phase_of_update (by rintro _ ⟨⟩)) id
  | audits => exact hcarried (fun _ => phase_of_update (by rintro _ ⟨⟩)) id
  | skip => exact hcarried (fun _ => phase_of_update (by rintro _ ⟨⟩)) id
  | abort => exact hcarried (fun _ => phase_of_update (by rintro _ ⟨⟩)) id
  | restart who =>
    refine hcarried (fun _ => phase_of_update (by rintro _ ⟨⟩)) fun hstopped => ?_
    by_cases heq : replica = who
    · simp [heq] at hstopped
    · simpa [heq] using hstopped
  | @pick who picked hphase hpicked =>
    by_cases heq : replica = who
    · refine ⟨?_, hdone⟩
      intro picked' hwrite hlength r hr hhash
      simp only [heq, Function.update_self, SweepPhase.write.injEq] at hwrite
      exact hwrite ▸ hpicked.complete (hwrite ▸ hlength) hr hhash
    · exact hcarried (fun _ hwrite => by simpa [heq] using hwrite) id
  | @write who picked scrubbed hphase hscrubbed =>
    by_cases heq : replica = who
    · subst heq
      refine ⟨fun picked' hwrite => by simp at hwrite, fun hstopped => ?_⟩
      simp only [Function.update_self, Bool.or_eq_true, decide_eq_true_eq] at hstopped
      rcases hstopped with hstopped | hshort
      · exact hdone hstopped
      · by_cases hmissed : scrubbed < picked.length
        · exact .inr ⟨picked, scrubbed, List.mem_append_right _ (List.mem_singleton.mpr rfl), hmissed⟩
        · -- every row that still had a hash was picked
          left
          intro r hr
          by_contra hhash
          obtain ⟨⟨r₀, hr₀, hid, hhash₀⟩, hnot⟩ := hhashed hr (by simpa using hhash)
          have hmem := (hknows replica).picked picked hphase (by omega) r₀ hr₀ hhash₀
          exact hnot replica picked scrubbed rfl (hid ▸ hmem)
    · refine hcarried (fun _ hwrite => by simpa [heq] using hwrite) fun hstopped => ?_
      simpa [heq] using hstopped

theorem knows_of_run {loginEvents : Table LoginEvent} {auditLogs : Table AuditLog} {now : Timestamp}
    {ls : List RetentionEvent} (hrun : (system batch).Run (boot loginEvents auditLogs now) ls w)
    (replica : ℕ) : Knows batch ls w replica := by
  have hboot : ∀ replica, Knows batch [] (boot loginEvents auditLogs now) replica :=
    fun _ => ⟨by rintro _ ⟨⟩, by rintro ⟨⟩⟩
  exact Lib.System.Run.history (I := fun past w => ∀ replica, Knows batch past w replica) hboot
    (fun _ _ _ _ hst hknows => (moves_of_step hst).knows hknows) hrun replica

end RetentionWorld

/-- **Retention over every run.**  From any state that the replicas reach, in any interleaving of
their sweeps, of new rows, of erasures, failures and restarts, and under windows that change from
tick to tick: a login event goes only by the purge of its user or by a sweep under a window other
than 0 that it has outlived, and an audit entry only by such a sweep; what lies beyond a window of
`d` days is drained by a batch for every sweep under a window of `d` days or less that finds nothing
locked; and a replica that has stopped scrubbing left no hash behind, unless one of its updates
missed a row that it had picked. -/
theorem retention_kept {batch : ℤ} {loginEvents : Table LoginEvent} {auditLogs : Table AuditLog}
    {start : Timestamp} {past ls : List RetentionEvent} {w w' : RetentionWorld}
    (hpast : (RetentionWorld.system batch).Run (.boot loginEvents auditLogs start) past w)
    (hrun : (RetentionWorld.system batch).Run w ls w') :
    ((∀ r ∈ w.loginEvents.rows, Stays r w'.loginEvents ∨
        RetentionWorld.WentBy (·.loginEvents) RetentionWorld.TakesLogin batch w ls r) ∧
      ∀ r ∈ w.auditLogs.rows, Stays r w'.auditLogs ∨
        RetentionWorld.WentBy (·.auditLogs) RetentionWorld.TakesAudit batch w ls r) ∧
    (∀ d τ, τ ≤ cutoff w.now d →
      w'.loginEvents.rows.countP (olderThan τ) ≤ w.loginEvents.rows.countP (olderThan τ) -
        batch.toNat * ls.countP (RetentionWorld.sweepsLogins d) ∧
      w'.auditLogs.rows.countP (olderThan τ) ≤ w.auditLogs.rows.countP (olderThan τ) -
        batch.toNat * ls.countP (RetentionWorld.sweepsAudits d)) ∧
    ∀ replica, w'.done replica →
      (∀ r ∈ w'.loginEvents.rows, r.hashed = false) ∨ RetentionWorld.Missed replica (past ++ ls) := by
  refine ⟨⟨?_, ?_⟩, ?_, ?_⟩
  · intro r hr
    exact RetentionWorld.gone_of_run (fun hmoves _ => hmoves.stays_login) hrun hr
  · intro r hr
    exact RetentionWorld.gone_of_run (fun hmoves _ => hmoves.stays_audit) hrun hr
  · intro d τ hτ
    have hlogins := RetentionWorld.drained (fun hmoves => hmoves.drains_logins) hrun hτ
    have haudits := RetentionWorld.drained (fun hmoves => hmoves.drains_audits) hrun hτ
    exact ⟨hlogins, haudits⟩
  · intro replica hdone
    exact (RetentionWorld.knows_of_run (hpast.trans hrun) replica).done hdone

/-- Three hashed login events, two of them of the user 5. -/
def hashedLogins : Table LoginEvent :=
  ⟨[⟨⟨1, some 5, "btc", "extension", none⟩, 0, some "a1"⟩,
    ⟨⟨2, some 5, "btc", "extension", none⟩, 0, some "a1"⟩,
    ⟨⟨3, some 6, "xmr", "extension", none⟩, 0, some "b2"⟩], by decide⟩

/-- The user 5 is purged between the pick and the update. -/
def RetentionEvent.raced : List RetentionEvent :=
  [.logins 0 0 0 [], .audits 0 0 [], .pick 0 [1, 2], .erase 5 true, .write 0 [1, 2] 0]

/-- In batches of two, the process stops with the hash of the user 6 still there: its update has
missed both of the rows that it picked. -/
theorem raced_stopped : ∃ w, (RetentionWorld.system 2).Run (.boot hashedLogins .empty 0) RetentionEvent.raced w ∧
    w.done 0 ∧ (∃ r ∈ w.loginEvents.rows, r.hashed) ∧ RetentionWorld.Missed 0 RetentionEvent.raced := by
  have hlife : (RetentionEvent.raced.foldlM (RetentionWorld.step 2)
      (.boot hashedLogins .empty 0)).any fun w =>
        w.done 0 && w.loginEvents.rows.any LoginEvent.hashed := by decide
  obtain ⟨w, hw, hfacts⟩ := (Option.any_eq_true _ _).mp hlife
  obtain ⟨hdone, hleft⟩ := (Bool.and_eq_true _ _).mp hfacts
  obtain ⟨r, hr, hhash⟩ := List.any_eq_true.mp hleft
  have hrun := Lib.System.Run.ofOption_iff.mpr hw
  refine ⟨w, hrun, hdone, ⟨r, hr, hhash⟩, ?_⟩
  rcases (retention_kept (.nil _) hrun).2.2 0 hdone with hnone | hmissed
  · rw [hnone r hr] at hhash
    cases hhash
  · exact hmissed

end SmirkBackend
