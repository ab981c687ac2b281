import SmirkBackend.Admin.AuditChain
import SmirkBackend.Admin.ConfigPut
import SmirkBackend.Erasure.Execute
import SmirkBackend.Lib.JsonOrder
import SmirkBackend.Lib.Journal

/-!
# Audited transactions side by side

Every privileged change appends its audit row in its own transaction.  The transactions are taken
apart into their statements (`AuditedOp.tx`) and run in every interleaving; the lock of the audit
chain is the only one that is assumed.  The details of a row come back from the database up to the
order of members.

With the chain as a journal (`auditJournal`), `audit_chain_complete` proves that in every
interleaving the committed rows are numbered without gaps and accepted when they are read back, and
that a change is committed if and only if its row is.
-/

namespace SmirkBackend

open Lib (Table Json Transaction JournalOps Shared)

/-! ### Statements -/

/-- What a statement does: a write, or the end of the transaction, with the error it returns. -/
abbrev Change := Db → Except (Option AppError) (Db → Db)

/-- A check that ends the transaction. -/
def refuseIf (p : Db → Bool) (e : Option AppError) : Change :=
  fun view => if p view then .error e else .ok id

/-- `INSERT INTO admin_keys`. -/
def insertKeyChange (row : AdminKeyRow) : Change := fun view =>
  match insertKeyRow row view.adminKeys with
  | .error e => .error (some e)
  | .ok _ => .ok fun db =>
    { db with adminKeys := (insertKeyRow row db.adminKeys).toOption.getD db.adminKeys }

/-- `SELECT … FOR UPDATE` of a live entry, and the `UPDATE` that revokes it. -/
def revokeKeyChange (env : Integrity) (clock : Timestamp) (id : Uuid) : Change := fun view =>
  match (view.adminKeys.get? id).filter fun k => k.revokedAt.isNone with
  | none => .error none
  | some old => .ok fun db =>
    { db with adminKeys := (db.adminKeys.updateOne id (fun _ => true)
        { set := fun k => { k with
            revokedAt := some clock
            integrityMac := env.keyMac { macInput old with revokedAt := some clock } } }).2 }

/-- The sessions of an entry end. -/
def revokeSessionsChange (now : Timestamp) (id : Uuid) : Change := fun _ =>
  .ok fun db => { db with adminSessions := revokeKeySessions now id db.adminSessions }

/-- The latch is closed. -/
def lockLatchChange (env : Integrity) (clock now : Timestamp) : Change := fun _ =>
  .ok fun db =>
    { db with serverConfig := setLatch (latchRow env "locked" (some clock) now) db.serverConfig }

/-- The latch is closed unless it is. -/
def lockLatchOnceChange (env : Integrity) (clock now : Timestamp) : Change := fun view =>
  if (view.serverConfig.get? 1).any fun c => c.setupState = "locked" then .ok id
  else lockLatchChange env clock now view

/-- `INSERT INTO admin_sessions`. -/
def insertSessionChange (session : AdminSessionRow) : Change := fun view =>
  if (view.adminKeys.get? session.adminKeyId).isNone then
    .error (some (.databaseError "insert or update violates foreign key constraint"))
  else
    match view.adminSessions.insert? session with
    | none => .error (some uniqueViolation)
    | some _ => .ok fun db =>
      { db with adminSessions := (db.adminSessions.insert? session).getD db.adminSessions }

/-- The version check of a settings section, and its `INSERT … ON CONFLICT`. -/
def putSettingChange (settingsMac : String → Int64 → Json → String) (sec : String) (doc : Json)
    (updatedBy : Uuid) (expected : Option Int64) : Change := fun view =>
  let cur := view.settingVersion sec
  if expected.any fun v => cur ≠ v then .error (expected.map fun v => staleSetting sec v cur)
  else if 2 ^ 63 ≤ cur.toInt + 1 then .error (some (.internal "attempt to add with overflow"))
  else if (view.adminKeys.get? updatedBy).isNone then
    .error (some (.databaseError "insert or update violates foreign key constraint"))
  else
    let row : OperatorSettingRow :=
      ⟨sec, doc, cur + 1, some updatedBy, settingsMac sec (cur + 1) doc⟩
    .ok fun db => { db with
      operatorSettings := db.operatorSettings.upsert row (replaceSetting row) }

/-- `INSERT INTO invite_codes`. -/
def insertInviteChange (codeHash : String) : Change := fun view =>
  match view.inviteCodes.insert? ⟨codeHash, none, none, none⟩ with
  | none => .error (some uniqueViolation)
  | some _ => .ok fun db =>
    { db with inviteCodes :=
        (db.inviteCodes.insert? ⟨codeHash, none, none, none⟩).getD db.inviteCodes }

/-- The statements of an erasure before its audit row. -/
def eraseChange (now : Timestamp) (id : Uuid) (purgeLogin : Bool) : Change := fun view =>
  let erase (db : Db) (u : Uuid) : Option Db :=
    (((db.claimErasure now id).2.scrubLoginEvents purgeLogin u).scrubAuditLogs u).deleteUser now u
  match (view.claimErasure now id).1.bind fun r => r.userId with
  | none => .error none
  | some u =>
    match erase view u with
    | none => .error (some (.databaseError "new row violates check constraint"))
    | some _ => .ok fun db => (erase db u).getD db

/-! ### Transactions -/

/-- The transactions that append an audit row. -/
inductive AuditedOp
  | createKey (g : Generated) (input : NewAdminKey) (audit : NewAdminAudit) (maxLive : Int64)
  | createKeyBootstrapping (g : Generated) (input : NewAdminKey) (audit : NewAdminAudit)
      (maxLive : Int64)
  | bootstrap (g : Generated) (pubkey : String)
  | revokeKey (g : Generated) (id : Uuid) (audit : NewAdminAudit) (keepMinLive : Bool)
  | rotateKey (revokedAt : Timestamp) (g : Generated) (oldId : Uuid) (new : NewAdminKey)
      (audit : NewAdminAudit)
  | login (time : Timestamp) (session : AdminSessionRow) (audit : NewAdminAudit)
  | putSetting (time : Timestamp) (settingsMac : String → Int64 → Json → String) (sec : String)
      (doc : Json) (updatedBy : Uuid) (expected : Option Int64) (audit : NewAdminAudit)
  | mintInvites (time : Timestamp) (codeHashes : List String) (audit : NewAdminAudit)
  | eraseAccount (time now : Timestamp) (id : Uuid) (purgeLogin : Bool)
  | record (time : Timestamp) (audit : NewAdminAudit)

/-- When the audit row is written, and its entry. -/
def AuditedOp.entry : AuditedOp → Timestamp × NewAdminAudit
  | createKey g _ audit _ => (g.auditTime, audit)
  | createKeyBootstrapping g _ audit _ => (g.auditTime, audit)
  | bootstrap g pubkey =>
    (g.auditTime, ⟨"bootstrap", "bootstrap", some (pubkeyPrefix pubkey), none, none, none⟩)
  | revokeKey g _ audit _ => (g.auditTime, audit)
  | rotateKey _ g _ _ audit => (g.auditTime, audit)
  | login time _ audit => (time, audit)
  | putSetting time _ _ _ _ _ audit => (time, audit)
  | mintInvites time _ audit => (time, audit)
  | eraseAccount time _ id _ => (time, erasureAudit id)
  | record time audit => (time, audit)

/-- The statements before the audit row. -/
def AuditedOp.changes (env : Integrity) : AuditedOp → List Change
  | createKey g input _ maxLive =>
    [refuseIf (fun db => maxLive.toInt ≤ liveKeyCount db.adminKeys) none,
      insertKeyChange (pendingKey env g input)]
  | createKeyBootstrapping g input _ maxLive =>
    [refuseIf (fun db => (db.serverConfig.get? 1).any fun c => !env.verifyLatch c)
        (some latchInvalid),
      refuseIf (fun db => maxLive.toInt ≤ liveKeyCount db.adminKeys) none,
      insertKeyChange (pendingKey env g input), lockLatchOnceChange env g.latchTime g.now]
  | bootstrap g pubkey =>
    [refuseIf (fun db => db.adminKeys.rows.any fun k => k.revokedAt.isNone)
        (some (.conflict ("an admin key already exists (active or pending); use add-key, or " ++
          "create-admin-wallet to add another generated key"))),
      insertKeyChange (bootstrapKey env g pubkey), lockLatchChange env g.keyTime g.now]
  | revokeKey g id _ keepMinLive =>
    [refuseIf (fun db => keepMinLive && liveKeyCount db.adminKeys ≤ 1) none,
      revokeKeyChange env g.keyTime id, revokeSessionsChange g.now id]
  | rotateKey revokedAt g oldId new _ =>
    [revokeKeyChange env revokedAt oldId, revokeSessionsChange g.now oldId,
      insertKeyChange (pendingKey env g new)]
  | login _ session _ => [insertSessionChange session]
  | putSetting _ settingsMac sec doc updatedBy expected _ =>
    [putSettingChange settingsMac sec doc updatedBy expected]
  | mintInvites _ codeHashes _ => codeHashes.map insertInviteChange
  | eraseAccount _ now id purgeLogin => [eraseChange now id purgeLogin]
  | record _ _ => []

/-- The transaction. -/
def AuditedOp.tx (env : Integrity) (op : AuditedOp) :
    Transaction Db (Timestamp × NewAdminAudit) (Option AppError) :=
  ⟨op.changes env, op.entry⟩

/-- The database after a transaction that runs alone. -/
def AuditedOp.alone (env : Integrity) (op : AuditedOp) (db : Db) : Db :=
  match Lib.runChanges (op.changes env) db,
      appendAdminAudit env.chain op.entry.1 op.entry.2 db.adminAuditLogs with
  | .ok db', .ok logs => { db' with adminAuditLogs := logs }
  | _, _ => db

/-- The allowlist transaction of an operation. -/
def AuditedOp.transaction (env : Integrity) (db : Db) : AuditedOp → Db
  | createKey g input audit maxLive => (createAdminKeyAudited env g input audit maxLive db).2
  | createKeyBootstrapping g input audit maxLive =>
    (createAdminKeyBootstrapping env g input audit maxLive db).2
  | bootstrap g pubkey => (bootstrapAdmin env g pubkey db).2
  | revokeKey g id audit keepMinLive => (revokeAdminKeyFull env g id audit keepMinLive db).2
  | rotateKey revokedAt g oldId new audit => (rotateAdminKey env revokedAt g oldId new audit db).2
  | op => op.alone env db

theorem runChanges_refuseIf (p : Db → Bool) (e : Option AppError) (rest : List Change) (db : Db) :
    Lib.runChanges (refuseIf p e :: rest) db =
      if p db then .error e else Lib.runChanges rest db := by
  simp only [Lib.runChanges, refuseIf]
  split_ifs <;> rfl

theorem runChanges_insertKey (row : AdminKeyRow) (rest : List Change) (db : Db) :
    Lib.runChanges (insertKeyChange row :: rest) db =
      match insertKeyRow row db.adminKeys with
      | .error e => .error (some e)
      | .ok keys => Lib.runChanges rest { db with adminKeys := keys } := by
  simp only [Lib.runChanges, insertKeyChange]
  cases h : insertKeyRow row db.adminKeys with
  | error e => rfl
  | ok keys => simp [h, Except.toOption]

theorem updateOne_eq_revokeKeys {env : Integrity} {clock : Timestamp} {id : Uuid}
    {t : Table AdminKeyRow} {old : AdminKeyRow} (hget : t.get? id = some old)
    (hlive : old.revokedAt = none) :
    (t.updateOne id (fun _ => true)
      { set := fun k => { k with
          revokedAt := some clock
          integrityMac := env.keyMac { macInput old with revokedAt := some clock } } }).2 =
      (revokeKeys env clock id t).2 := by
  obtain ⟨hold, hid⟩ := Table.get?_eq_some_iff.mp hget
  simp only [revokeKeys, Table.updateOne, Table.updateWhere, Table.mk.injEq]
  apply List.map_congr_left
  intro k hk
  by_cases hkey : Lib.key k = id
  · obtain rfl := Table.eq_of_mem_of_key hk hold (hkey.trans hid.symm)
    simp [hkey, hlive, Integrity.sign, macInput]
  · simp [hkey]

theorem runChanges_revokeKey (env : Integrity) (clock : Timestamp) (id : Uuid) (rest : List Change)
    (db : Db) :
    Lib.runChanges (revokeKeyChange env clock id :: rest) db =
      match revokeKeys env clock id db.adminKeys with
      | (none, _) => .error none
      | (some _, keys) => Lib.runChanges rest { db with adminKeys := keys } := by
  have hfst : (revokeKeys env clock id db.adminKeys).1 =
      ((db.adminKeys.get? id).filter fun k => k.revokedAt.isNone).map
        fun k => env.sign { k with revokedAt := some clock } := rfl
  simp only [Lib.runChanges, revokeKeyChange]
  cases hold : (db.adminKeys.get? id).filter fun k => k.revokedAt.isNone with
  | none =>
    rw [hold] at hfst
    cases hrev : revokeKeys env clock id db.adminKeys with
    | mk revoked keys =>
      rw [hrev] at hfst
      obtain rfl : revoked = none := hfst
      rfl
  | some old =>
    obtain ⟨hget, hlive⟩ := Option.filter_eq_some_iff.mp hold
    have hupdate := @updateOne_eq_revokeKeys env clock _ _ _ hget
      (Option.isNone_iff_eq_none.mp hlive)
    rw [hold] at hfst
    cases hrev : revokeKeys env clock id db.adminKeys with
    | mk revoked keys =>
      rw [hrev] at hfst hupdate
      obtain rfl : revoked = some (env.sign { old with revokedAt := some clock }) := hfst
      simp only [hupdate]

/-- **Run alone, the statements of an allowlist transaction do what the transaction does.** -/
theorem alone_eq (env : Integrity) (op : AuditedOp) (db : Db) :
    op.alone env db = op.transaction env db := by
  cases op with
  | createKey g input audit maxLive =>
    simp only [AuditedOp.alone, AuditedOp.transaction, AuditedOp.changes, AuditedOp.entry,
      createAdminKeyAudited, insertAdminKey, runChanges_refuseIf, runChanges_insertKey,
      decide_eq_true_eq]
    split_ifs
    · rfl
    · cases insertKeyRow (pendingKey env g input) db.adminKeys with
      | error e => rfl
      | ok keys =>
        cases appendAdminAudit env.chain g.auditTime audit db.adminAuditLogs <;> rfl
  | createKeyBootstrapping g input audit maxLive =>
    simp only [AuditedOp.alone, AuditedOp.transaction, AuditedOp.changes, AuditedOp.entry,
      createAdminKeyBootstrapping, insertAdminKey, runChanges_refuseIf, runChanges_insertKey,
      decide_eq_true_eq]
    split_ifs with htampered hcap
    · rfl
    · rfl
    all_goals
      cases insertKeyRow (pendingKey env g input) db.adminKeys with
      | error e => rfl
      | ok keys =>
        cases appendAdminAudit env.chain g.auditTime audit db.adminAuditLogs <;>
          simp_all [Lib.runChanges, lockLatchOnceChange, lockLatchChange]
  | bootstrap g pubkey =>
    simp only [AuditedOp.alone, AuditedOp.transaction, AuditedOp.changes, AuditedOp.entry,
      bootstrapAdmin, runChanges_refuseIf, runChanges_insertKey]
    split_ifs
    · rfl
    · cases insertKeyRow (bootstrapKey env g pubkey) db.adminKeys with
      | error e => rfl
      | ok keys =>
        cases appendAdminAudit env.chain g.auditTime
          ⟨"bootstrap", "bootstrap", some (pubkeyPrefix pubkey), none, none, none⟩
          db.adminAuditLogs <;> rfl
  | revokeKey g id audit keepMinLive =>
    simp only [AuditedOp.alone, AuditedOp.transaction, AuditedOp.changes, AuditedOp.entry,
      revokeAdminKeyFull, runChanges_refuseIf, runChanges_revokeKey]
    split_ifs
    · rfl
    · cases revokeKeys env g.keyTime id db.adminKeys with
      | mk revoked keys =>
        cases revoked with
        | none => rfl
        | some k =>
          cases appendAdminAudit env.chain g.auditTime audit db.adminAuditLogs <;> rfl
  | rotateKey revokedAt g oldId new audit =>
    simp only [AuditedOp.alone, AuditedOp.transaction, AuditedOp.changes, AuditedOp.entry,
      rotateAdminKey, insertAdminKey, runChanges_revokeKey]
    cases revokeKeys env revokedAt oldId db.adminKeys with
    | mk revoked keys =>
      cases revoked with
      | none => rfl
      | some k =>
        simp only [Lib.runChanges, revokeSessionsChange, insertKeyChange]
        cases hins : insertKeyRow (pendingKey env g new) keys with
        | error e => rfl
        | ok keys' =>
          cases appendAdminAudit env.chain g.auditTime audit db.adminAuditLogs <;>
            simp [hins, Except.toOption]
  | _ => rfl

/-! ### The audit chain as a journal -/

/-- The audit chain as a journal. -/
def auditJournal (env : Integrity) :
    JournalOps (Table AdminAuditRow) (Timestamp × NewAdminAudit) AdminAuditRow where
  next t a :=
    match appendAdminAudit env.chain a.1 a.2 t with
    | .ok t' => t'.rows.getLast?
    | .error _ => none
  add t r := (t.insert? r).getD t

theorem appendAdminAudit_of_next {env : Integrity} {t : Table AdminAuditRow} {now : Timestamp}
    {entry : NewAdminAudit} {row : AdminAuditRow}
    (h : (auditJournal env).next t (now, entry) = some row) :
    appendAdminAudit env.chain now entry t = .ok ((auditJournal env).add t row) := by
  simp only [auditJournal] at h
  split at h
  case h_2 => cases h
  case h_1 t₁ happend =>
    obtain ⟨row', hrows, -⟩ := appendAdminAudit_rows happend
    rw [hrows, List.getLast?_concat] at h
    obtain rfl := Option.some.inj h
    have hadd : (auditJournal env).add t row' = t₁ := by
      simp [auditJournal, Table.insert?_of_rows_append hrows]
    rw [hadd, happend]

theorem appendAll_of_extend {env : Integrity} {entries : List (Timestamp × NewAdminAudit)}
    {t t' : Table AdminAuditRow} (h : (auditJournal env).extend entries t = some t') :
    appendAll env.chain entries t = .ok t' := by
  induction entries generalizing t with
  | nil =>
    obtain rfl := Option.some.inj h
    rfl
  | cons a rest ih =>
    obtain ⟨now, entry⟩ := a
    rw [JournalOps.extend, Option.bind_eq_some_iff] at h
    obtain ⟨row, hnext, hrest⟩ := h
    rw [appendAll, appendAdminAudit_of_next hnext]
    exact ih hrest

theorem entries_of_appendAll {hash : ChainHash} {entries : List (Timestamp × NewAdminAudit)}
    {t t' : Table AdminAuditRow} (h : appendAll hash entries t = .ok t') :
    t'.rows.map (fun r => (r.createdAt, r.entry)) =
      t.rows.map (fun r => (r.createdAt, r.entry)) ++ entries := by
  induction entries generalizing t with
  | nil =>
    obtain rfl := Except.ok.inj h
    simp
  | cons a rest ih =>
    obtain ⟨now, entry⟩ := a
    rw [appendAll] at h
    split at h
    case h_2 => cases h
    case h_1 t₁ happend =>
      obtain ⟨row, hrows, rfl, rfl⟩ := appendAdminAudit_rows happend
      rw [ih h, hrows]
      simp

/-! ### Transactions that are not interrupted -/

/-- A database with another audit chain. -/
def Db.withAudit (db : Db) (logs : Table AdminAuditRow) : Db := { db with adminAuditLogs := logs }

/-- A change neither reads nor writes the audit chain. -/
structure LogBlind (f : Change) : Prop where
  /-- What it reads. -/
  reads : ∀ db logs, f (db.withAudit logs) = f db
  /-- What it writes. -/
  writes : ∀ view w, f view = .ok w → ∀ db logs, w (db.withAudit logs) = (w db).withAudit logs

theorem logBlind_refuseIf {p : Db → Bool} {e : Option AppError}
    (hp : ∀ db logs, p (db.withAudit logs) = p db) : LogBlind (refuseIf p e) where
  reads db logs := by rw [refuseIf, refuseIf, hp]
  writes view w h db logs := by
    rw [refuseIf] at h
    split_ifs at h
    obtain rfl := Except.ok.inj h
    rfl

theorem logBlind_insertKey (row : AdminKeyRow) : LogBlind (insertKeyChange row) where
  reads _ _ := rfl
  writes view w h db logs := by
    unfold insertKeyChange at h
    split at h
    · cases h
    · obtain rfl := Except.ok.inj h
      rfl

theorem logBlind_revokeKey (env : Integrity) (clock : Timestamp) (id : Uuid) :
    LogBlind (revokeKeyChange env clock id) where
  reads _ _ := rfl
  writes view w h db logs := by
    unfold revokeKeyChange at h
    split at h
    · cases h
    · obtain rfl := Except.ok.inj h
      rfl

theorem logBlind_revokeSessions (now : Timestamp) (id : Uuid) :
    LogBlind (revokeSessionsChange now id) where
  reads _ _ := rfl
  writes view w h db logs := by
    obtain rfl := Except.ok.inj h
    rfl

theorem logBlind_lockLatch (env : Integrity) (clock now : Timestamp) :
    LogBlind (lockLatchChange env clock now) where
  reads _ _ := rfl
  writes view w h db logs := by
    obtain rfl := Except.ok.inj h
    rfl

theorem logBlind_lockLatchOnce (env : Integrity) (clock now : Timestamp) :
    LogBlind (lockLatchOnceChange env clock now) where
  reads _ _ := rfl
  writes view w h db logs := by
    unfold lockLatchOnceChange at h
    split_ifs at h
    · obtain rfl := Except.ok.inj h
      rfl
    · exact (logBlind_lockLatch env clock now).writes view w h db logs

theorem logBlind_insertSession (session : AdminSessionRow) :
    LogBlind (insertSessionChange session) where
  reads _ _ := rfl
  writes view w h db logs := by
    unfold insertSessionChange at h
    split_ifs at h
    split at h
    · cases h
    · obtain rfl := Except.ok.inj h
      rfl

theorem logBlind_putSetting (settingsMac : String → Int64 → Json → String) (sec : String)
    (doc : Json) (updatedBy : Uuid) (expected : Option Int64) :
    LogBlind (putSettingChange settingsMac sec doc updatedBy expected) where
  reads _ _ := rfl
  writes view w h db logs := by
    simp only [putSettingChange] at h
    split_ifs at h
    obtain rfl := Except.ok.inj h
    rfl

theorem logBlind_insertInvite (codeHash : String) : LogBlind (insertInviteChange codeHash) where
  reads _ _ := rfl
  writes view w h db logs := by
    unfold insertInviteChange at h
    split at h
    · cases h
    · obtain rfl := Except.ok.inj h
      rfl

theorem deleteUser_withAudit (now : Timestamp) (u : Uuid) (db : Db) (logs : Table AdminAuditRow) :
    (db.withAudit logs).deleteUser now u =
      (db.deleteUser now u).map fun db' => db'.withAudit logs := by
  simp only [Db.deleteUser, Db.withAudit, Option.bind_eq_bind, Option.map_bind, Function.comp_def,
    Option.pure_def, Option.map_some]

theorem logBlind_erase (now : Timestamp) (id : Uuid) (purgeLogin : Bool) :
    LogBlind (eraseChange now id purgeLogin) := by
  have herase (db : Db) (logs : Table AdminAuditRow) (u : Uuid) :
      (((((db.withAudit logs).claimErasure now id).2.scrubLoginEvents purgeLogin u).scrubAuditLogs
        u).deleteUser now u) =
      ((((db.claimErasure now id).2.scrubLoginEvents purgeLogin u).scrubAuditLogs u).deleteUser
        now u).map fun db' => db'.withAudit logs :=
    deleteUser_withAudit now u
      (((db.claimErasure now id).2.scrubLoginEvents purgeLogin u).scrubAuditLogs u) logs
  constructor
  · intro db logs
    simp only [eraseChange]
    have hclaim : ((db.withAudit logs).claimErasure now id).1 = (db.claimErasure now id).1 := rfl
    rw [hclaim]
    cases (db.claimErasure now id).1.bind fun r => r.userId with
    | none => rfl
    | some u =>
      simp only [herase]
      cases (((db.claimErasure now id).2.scrubLoginEvents purgeLogin u).scrubAuditLogs u).deleteUser
        now u <;> rfl
  · intro view w h db logs
    simp only [eraseChange] at h
    split at h
    · cases h
    · split at h
      · cases h
      · obtain rfl := Except.ok.inj h
        simp only [herase]
        cases (((db.claimErasure now id).2.scrubLoginEvents purgeLogin _).scrubAuditLogs
          _).deleteUser now _ <;> rfl

/-- No change of a transaction looks at the audit chain. -/
theorem logBlind_changes (env : Integrity) (op : AuditedOp) : ∀ f ∈ op.changes env, LogBlind f := by
  intro f hf
  cases op with
  | createKey g input audit maxLive =>
    simp only [AuditedOp.changes, List.mem_cons, List.not_mem_nil, or_false] at hf
    rcases hf with rfl | rfl
    · exact logBlind_refuseIf fun _ _ => rfl
    · exact logBlind_insertKey _
  | createKeyBootstrapping g input audit maxLive =>
    simp only [AuditedOp.changes, List.mem_cons, List.not_mem_nil, or_false] at hf
    rcases hf with rfl | rfl | rfl | rfl
    · exact logBlind_refuseIf fun _ _ => rfl
    · exact logBlind_refuseIf fun _ _ => rfl
    · exact logBlind_insertKey _
    · exact logBlind_lockLatchOnce env _ _
  | bootstrap g pubkey =>
    simp only [AuditedOp.changes, List.mem_cons, List.not_mem_nil, or_false] at hf
    rcases hf with rfl | rfl | rfl
    · exact logBlind_refuseIf fun _ _ => rfl
    · exact logBlind_insertKey _
    · exact logBlind_lockLatch env _ _
  | revokeKey g id audit keepMinLive =>
    simp only [AuditedOp.changes, List.mem_cons, List.not_mem_nil, or_false] at hf
    rcases hf with rfl | rfl | rfl
    · exact logBlind_refuseIf fun _ _ => rfl
    · exact logBlind_revokeKey env _ _
    · exact logBlind_revokeSessions _ _
  | rotateKey revokedAt g oldId new audit =>
    simp only [AuditedOp.changes, List.mem_cons, List.not_mem_nil, or_false] at hf
    rcases hf with rfl | rfl | rfl
    · exact logBlind_revokeKey env _ _
    · exact logBlind_revokeSessions _ _
    · exact logBlind_insertKey _
  | login time session audit =>
    obtain rfl := List.mem_singleton.mp hf
    exact logBlind_insertSession _
  | putSetting time settingsMac sec doc updatedBy expected audit =>
    obtain rfl := List.mem_singleton.mp hf
    exact logBlind_putSetting _ _ _ _ _
  | mintInvites time codeHashes audit =>
    obtain ⟨codeHash, -, rfl⟩ := List.mem_map.mp hf
    exact logBlind_insertInvite codeHash
  | eraseAccount time now id purgeLogin =>
    obtain rfl := List.mem_singleton.mp hf
    exact logBlind_erase _ _ _
  | record time audit => cases hf

/-- Changes that do not look at the audit chain do the same beside any. -/
theorem runChanges_logs {fs : List Change} (hfs : ∀ f ∈ fs, LogBlind f) {db db' : Db}
    (h : Lib.runChanges fs db = .ok db') (logs : Table AdminAuditRow) :
    Lib.runChanges fs (db.withAudit logs) = .ok (db'.withAudit logs) := by
  induction fs generalizing db with
  | nil =>
    obtain rfl := Except.ok.inj h
    rfl
  | cons f fs ih =>
    obtain ⟨hf, hrest⟩ := List.forall_mem_cons.mp hfs
    rw [Lib.runChanges] at h ⊢
    rw [hf.reads]
    cases hw : f db with
    | error e =>
      rw [hw] at h
      cases h
    | ok w =>
      rw [hw] at h
      simp only [hf.writes db w hw]
      exact ih hrest h

/-- The committed state as one database. -/
def committedDb {ι : Type} (s : Shared Db (Table AdminAuditRow) AdminAuditRow (Option AppError) ι) :
    Db :=
  s.store.withAudit s.journal

/-- **A transaction that is not interrupted does what the transaction does.** -/
theorem transaction_of_run_alone {ι : Type} [DecidableEq ι] {env : Integrity} {ops : ι → AuditedOp}
    {s s' : Shared Db (Table AdminAuditRow) AdminAuditRow (Option AppError) ι} {i : ι} {n : ℕ}
    (hphase : s.phase i = .changing [] ((ops i).changes env))
    (hrun : (Lib.journaled (auditJournal env) fun i => (ops i).tx env).Run s
      (Lib.TxLabel.alone i n) s') :
    committedDb s' = (ops i).transaction env (committedDb s) := by
  obtain ⟨⟨row, hnext, hjournal⟩, hstore⟩ := Lib.run_alone hphase hrun
  have happend : appendAdminAudit env.chain (ops i).entry.1 (ops i).entry.2 s.journal =
      .ok s'.journal := hjournal ▸ appendAdminAudit_of_next hnext
  rw [← alone_eq, AuditedOp.alone]
  rw [show Lib.runChanges ((ops i).changes env) (committedDb s) = _ from
    runChanges_logs (logBlind_changes env (ops i)) hstore s.journal]
  rw [show appendAdminAudit env.chain (ops i).entry.1 (ops i).entry.2
    (committedDb s).adminAuditLogs = _ from happend]
  rfl

/-! ### Rows as they are read -/

/-- A row as the database returns it: the details went through the store `jsonb` and are read into
ordered maps. -/
def readBack (jsonb : Json → Json) (r : AdminAuditRow) : AdminAuditRow :=
  { r with entry := { r.entry with details := r.entry.details.map fun v => (jsonb v).sorted } }

theorem readBack_eq {jsonb : Json → Json} (hjsonb : ∀ v, Lib.KeyOrder (jsonb v) v)
    {r : AdminAuditRow} (hr : ∀ v, r.entry.details = some v → v.Ordered) : readBack jsonb r = r := by
  obtain ⟨seq, ⟨action, kind, actor, target, details, ip⟩, createdAt, prevHash, rowHash⟩ := r
  cases details with
  | none => rfl
  | some v =>
    have hback : (jsonb v).sorted = v := Lib.sorted_of_keyOrder (hjsonb v) (hr v rfl)
    simp [readBack, hback]

/-- Rows of a chain are read in its order, whatever order they are stored in. -/
theorem orderBySeq_of_perm {hash : ChainHash} {t : Table AdminAuditRow} {logs : List AdminAuditLog}
    (hverify : verifyFrom hash auditGenesis 0 t.rows = true)
    (hperm : (logs.map AdminAuditLog.row).Perm t.rows) :
    (orderBySeq logs).map AdminAuditLog.row = t.rows := by
  have hsorted : ((orderBySeq logs).map AdminAuditLog.row).Pairwise
      fun a b => a.seq.toInt ≤ b.seq.toInt := by
    rw [List.pairwise_map]
    exact List.pairwise_insertionSort
      (fun a b : AdminAuditLog => a.row.seq.toInt ≤ b.row.seq.toInt) logs
  have hchain : t.rows.Pairwise fun a b => a.seq.toInt ≤ b.seq.toInt := by
    have hseq := seq_of_verifyFrom hverify
    rw [← List.pairwise_map (f := fun r : AdminAuditRow => r.seq.toInt) (R := (· ≤ ·)), hseq,
      List.pairwise_map]
    refine List.pairwise_lt_range.imp fun hlt => ?_
    omega
  have hboth : ((orderBySeq logs).map AdminAuditLog.row).Perm t.rows :=
    ((List.perm_insertionSort _ _).map _).trans hperm
  refine List.Perm.eq_of_pairwise (fun a b ha hb hab hba => ?_) hsorted hchain hboth
  exact Table.eq_of_mem_of_key (hboth.mem_iff.mp ha) hb (Int64.toInt_inj.mp (le_antisymm hab hba))

/-! ### Every interleaving -/

variable {ι : Type} [DecidableEq ι]

/-- A change is committed if and only if its audit row is: the committed store is what the changes
of some transactions give, in the order of the commits; the audit rows are those of the same
transactions in the same order; each of them commits once and with all its changes. -/
structure ChangesAudited (env : Integrity) (ops : ι → AuditedOp) (store : Db)
    (s : Shared Db (Table AdminAuditRow) AdminAuditRow (Option AppError) ι) : Prop where
  /-- The store. -/
  store : s.store = s.commits.foldl (fun db c => Lib.applyWrites c.written db) store
  /-- The rows. -/
  rows : s.journal.rows.map (fun r => (r.createdAt, r.entry)) =
    s.commits.map fun c => (ops c.who).entry
  /-- Each transaction at most once. -/
  once : (s.commits.map Lib.Committed.who).Nodup
  /-- The transactions that have committed. -/
  committed : ∀ i, s.phase i = .committed ↔ i ∈ s.commits.map Lib.Committed.who
  /-- All their changes. -/
  complete : ∀ c ∈ s.commits, c.written.length = ((ops c.who).changes env).length

/-- **The chain of honest runs is complete.**  In every interleaving of audited transactions, each
committed or rolled back, the committed rows are numbered from 1 without gaps, the chain is accepted
as it is read, and a change is committed if and only if its audit row is.  A transaction that is not
interrupted does from there what it does alone. -/
theorem audit_chain_complete (env : Integrity) (jsonb : Json → Json)
    (hjsonb : ∀ v, Lib.KeyOrder (jsonb v) v) (ops : ι → AuditedOp)
    (hvalues : ∀ i v, (ops i).entry.2.details = some v → v.Ordered) {store : Db}
    {s₀ s : Shared Db (Table AdminAuditRow) AdminAuditRow (Option AppError) ι}
    {ls : List (Lib.TxLabel ι)} (hinit : s₀.Initial (fun i => (ops i).tx env) store .empty)
    (hrun : (Lib.journaled (auditJournal env) fun i => (ops i).tx env).Run s₀ ls s) :
    s.journal.rows.map (fun r => r.seq.toInt) =
        (List.range s.journal.rows.length).map (fun j : ℕ => ((j + 1 : ℕ) : ℤ)) ∧
      (∀ logs : List AdminAuditLog,
        (logs.map AdminAuditLog.row).Perm (s.journal.rows.map (readBack jsonb)) →
        verifyAdminAuditChain env.chain logs = true) ∧
      ChangesAudited env ops store s ∧
      ∀ i n s', s.phase i = .changing [] ((ops i).changes env) →
        (Lib.journaled (auditJournal env) fun i => (ops i).tx env).Run s
          (Lib.TxLabel.alone i n) s' →
        committedDb s' = (ops i).transaction env (committedDb s) := by
  have hs := Lib.JournalOk.of_run hinit hrun
  have happend := appendAll_of_extend hs.journal
  have hverify : verifyFrom env.chain auditGenesis 0 s.journal.rows = true :=
    verifyFrom_appendAll rfl happend
  have hentries : s.journal.rows.map (fun r => (r.createdAt, r.entry)) =
      s.commits.map fun c => (ops c.who).entry := entries_of_appendAll happend
  have hback : s.journal.rows.map (readBack jsonb) = s.journal.rows := by
    refine (List.map_congr_left fun r hr => ?_).trans (List.map_id _)
    refine readBack_eq hjsonb fun v hv => ?_
    -- the entry of the row is that of a transaction
    have hmem : (r.createdAt, r.entry) ∈ s.commits.map fun c => (ops c.who).entry :=
      hentries ▸ List.mem_map_of_mem hr
    obtain ⟨c, -, hc⟩ := List.mem_map.mp hmem
    refine hvalues c.who v ?_
    rw [hc]
    exact hv
  refine ⟨?_, fun logs hperm => ?_,
    ⟨hs.store, hentries, hs.once, hs.committed, hs.complete⟩,
    fun i n s' hphase halone => transaction_of_run_alone hphase halone⟩
  · simpa using seq_of_verifyFrom hverify
  · rw [hback] at hperm
    rw [verifyAdminAuditChain, orderBySeq_of_perm hverify hperm]
    exact hverify

/-- A standalone record with details. -/
def detailedEntry : NewAdminAudit :=
  ⟨"first", "cli", none, none, some (.obj [("a", .null), ("b", .str "x")]), none⟩

/-- Four operations on the allowlist. -/
inductive AllowlistWork
  | addition
  | secondAddition
  | record
  | revocation
  deriving DecidableEq

instance : Fintype AllowlistWork where
  elems := {.addition, .secondAddition, .record, .revocation}
  complete i := by cases i <;> decide

/-- Two entries of the allowlist are added, one of them is revoked, and somebody records an entry. -/
def auditedOps : AllowlistWork → AuditedOp
  | .addition => .createKey ⟨3, 0, 0, 0, 0⟩ ⟨"first", "admin", none⟩ detailedEntry 5
  | .secondAddition => .createKey ⟨4, 0, 0, 0, 0⟩ ⟨"second", "admin", none⟩ detailedEntry 5
  | .record => .record 0 detailedEntry
  | .revocation => .revokeKey ⟨0, 5, 5, 5, 5⟩ 3 detailedEntry true

/-- Before all of them. -/
def beforeOps : Shared Db (Table AdminAuditRow) AdminAuditRow (Option AppError) AllowlistWork :=
  ⟨.empty, .empty, fun i => .changing [] ((auditedOps i).changes plainIntegrity), []⟩

/-- The additions overlap; the record is rolled back after its append; the second addition commits
first. -/
def overlappingTurns : List (Lib.TxLabel AllowlistWork) :=
  [.change .addition, .change .secondAddition, .change .addition, .append .record,
    .change .secondAddition, .rollBack .record, .append .secondAddition, .commit .secondAddition,
    .append .addition, .commit .addition]

/-- The state then. -/
def afterAdditions : Shared Db (Table AdminAuditRow) AdminAuditRow (Option AppError) AllowlistWork :=
  (Shared.play (auditJournal plainIntegrity) (fun i => (auditedOps i).tx plainIntegrity)
    overlappingTurns beforeOps).get (by decide +kernel)

/-- The state once the revocation has run without an interruption. -/
def afterRevocation : Shared Db (Table AdminAuditRow) AdminAuditRow (Option AppError) AllowlistWork :=
  (Shared.play (auditJournal plainIntegrity) (fun i => (auditedOps i).tx plainIntegrity)
    (Lib.TxLabel.alone .revocation 3) afterAdditions).get (by decide +kernel)

/-- Both additions are committed with their rows, the record is not; the revocation does what the
source's transaction does. -/
theorem overlapping_additions_audited :
    ChangesAudited plainIntegrity auditedOps .empty afterAdditions ∧
      afterAdditions.store.adminKeys.rows.map AdminKeyRow.id = [4, 3] ∧
      afterAdditions.journal.rows.map (fun r => r.seq.toInt) = [1, 2] ∧
      committedDb afterRevocation =
        (revokeAdminKeyFull plainIntegrity ⟨0, 5, 5, 5, 5⟩ 3 detailedEntry true
          (committedDb afterAdditions)).2 := by
  have hvalues : ∀ i v, (auditedOps i).entry.2.details = some v → v.Ordered := by
    intro i v hv
    have hdetails : detailedEntry.details = some v := by
      cases i <;> exact hv
    obtain rfl := Option.some.inj hdetails
    exact ⟨by decide, trivial, trivial, trivial⟩
  have hrun : (Lib.journaled (auditJournal plainIntegrity)
      fun i => (auditedOps i).tx plainIntegrity).Run beforeOps overlappingTurns afterAdditions :=
    Shared.run_play (Option.some_get _).symm
  have hcomplete := audit_chain_complete plainIntegrity (fun v => v) .refl auditedOps hvalues
    ⟨rfl, rfl, fun _ => rfl, rfl⟩ hrun
  exact ⟨hcomplete.2.2.1, by decide +kernel, by decide +kernel,
    hcomplete.2.2.2 .revocation 3 afterRevocation rfl (Shared.run_play (Option.some_get _).symm)⟩

end SmirkBackend
