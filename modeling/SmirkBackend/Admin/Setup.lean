import SmirkBackend.Admin.Keys

/-!
# The latch of the first-run setup

One row says whether the first operator was ever set up, under a keyed hash.  The first start
writes it, two commands close it together with the first entry of the allowlist, and a recovery
command opens it again.

The commands that close it differ: `createAdminKeyBootstrapping` refuses a latch whose hash is wrong
(`createAdminKeyBootstrapping_rejected`), while whether `bootstrapAdmin` refuses does not depend on
the latch (`bootstrapAdmin_rejected_iff`).
-/

namespace SmirkBackend

open Lib (Table Patch)

/-- What the latch says. -/
inductive SetupState
  | fresh
  | uninitialized
  | locked
  | tampered
  deriving DecidableEq, Repr

/-- `verify_latch`. -/
def Integrity.verifyLatch (env : Integrity) (c : ServerConfigRow) : Bool :=
  latchMac env.hmac c.setupState c.bootstrapCompletedAt = c.integrityMac

/-- What a row of the latch says. -/
def setupStateOf (env : Integrity) (c : ServerConfigRow) : SetupState :=
  if ¬ env.verifyLatch c then .tampered
  else if c.setupState = "locked" then .locked
  else .uninitialized

/-- `read_setup_state`. -/
def Db.readSetupState (db : Db) (env : Integrity) : SetupState :=
  match db.serverConfig.get? 1 with
  | none => .fresh
  | some c => setupStateOf env c

/-- A latch with its keyed hash. -/
def latchRow (env : Integrity) (setupState : String) (completed : Option Timestamp)
    (now : Timestamp) : ServerConfigRow where
  id := 1
  setupState := setupState
  bootstrapCompletedAt := completed
  lockedAt := completed
  updatedAt := now
  integrityMac := latchMac env.hmac setupState completed

@[simp] theorem verifyLatch_latchRow (env : Integrity) (setupState : String)
    (completed : Option Timestamp) (now : Timestamp) :
    env.verifyLatch (latchRow env setupState completed now) = true := by
  simp [Integrity.verifyLatch, latchRow]

/-- `INSERT INTO server_config … ON CONFLICT (id) DO UPDATE`. -/
def setLatch (row : ServerConfigRow) (t : Table ServerConfigRow) : Table ServerConfigRow :=
  t.upsert row
    { set := fun r => { r with
        setupState := row.setupState
        bootstrapCompletedAt := row.bootstrapCompletedAt
        lockedAt := row.lockedAt
        updatedAt := row.updatedAt
        integrityMac := row.integrityMac } }

theorem get?_setLatch {row : ServerConfigRow} (hid : row.id = 1) (t : Table ServerConfigRow) :
    (setLatch row t).get? 1 = some row := by
  rw [setLatch, Table.get?_upsert]
  have hkey : (1 : Int32) = Lib.key row := hid.symm
  rw [if_pos hkey]
  cases hrow : t.get? 1 with
  | none => rfl
  | some r =>
    have hr : r.id = row.id := (Table.key_of_get? hrow).trans hid.symm
    obtain ⟨id, setupState, completedAt, lockedAt, updatedAt, mac⟩ := r
    obtain rfl : id = row.id := hr
    rfl

/-- `init_server_config`. -/
def initServerConfig (env : Integrity) (g : Generated) (locked : Bool) (db : Db) : Db :=
  let row :=
    if locked then latchRow env "locked" (some g.latchTime) g.now
    else latchRow env "uninitialized" none g.now
  { db with serverConfig := (db.serverConfig.insert? row).getD db.serverConfig }

/-- The start of the server: a database without a latch gets one, which is closed if the database
is in use.  A latch whose keyed hash is wrong stops the start. -/
def adoptLatch (env : Integrity) (g : Generated) (db : Db) : Except String Unit × Db :=
  match db.readSetupState env with
  | .fresh =>
    let adopt := !db.users.rows.isEmpty || !db.adminKeys.rows.isEmpty
    (.ok (), initServerConfig env g adopt db)
  | .uninitialized => (.ok (), db)
  | .locked => (.ok (), db)
  | .tampered =>
    (.error ("server_config bootstrap latch MAC invalid (tamper or restore-to-pre-bootstrap); " ++
      "run `smirk-admin reset-setup --i-understand` if this is intentional"), db)

/-- The first operator, already active. -/
def bootstrapKey (env : Integrity) (g : Generated) (pubkey : String) : AdminKeyRow :=
  env.sign
    { id := g.id
      pubkey := pubkey
      scope := "admin"
      createdAt := g.keyTime
      activatedAt := some g.keyTime
      activationDeadline := none
      revokedAt := none
      lastUsedAt := none
      integrityMac := "" }

/-- `bootstrap_admin`. -/
def bootstrapAdmin (env : Integrity) (g : Generated) (pubkey : String) (db : Db) :
    Except AppError Unit × Db :=
  if db.adminKeys.rows.any fun k => k.revokedAt.isNone then
    (.error (.conflict ("an admin key already exists (active or pending); use add-key, or " ++
      "create-admin-wallet to add another generated key")), db)
  else
    match insertKeyRow (bootstrapKey env g pubkey) db.adminKeys,
        appendAdminAudit env.chain g.auditTime
          ⟨"bootstrap", "bootstrap", some (pubkeyPrefix pubkey), none, none, none⟩
          db.adminAuditLogs with
    | .ok keys, .ok logs =>
      (.ok (), { db with
        adminKeys := keys
        serverConfig :=
          setLatch (latchRow env "locked" (some g.keyTime) g.now) db.serverConfig
        adminAuditLogs := logs })
    | .error e, _ => (.error e, db)
    | _, .error e => (.error e, db)

/-- The error of a latch whose keyed hash is wrong. -/
def latchInvalid : AppError :=
  .conflict ("server_config bootstrap latch MAC invalid (tamper or restore-to-pre-bootstrap); " ++
    "run `reset-setup --i-understand` first if this is intentional")

/-- `create_admin_key_bootstrapping`. -/
def createAdminKeyBootstrapping (env : Integrity) (g : Generated) (input : NewAdminKey)
    (audit : NewAdminAudit) (maxLive : Int64) (db : Db) :
    Except AppError (AddKeyOutcome × Bool) × Db :=
  let cfg := db.serverConfig.get? 1
  if cfg.any fun c => !env.verifyLatch c then (.error latchInvalid, db)
  else
    let alreadyLocked := cfg.any fun c => c.setupState = "locked"
    if maxLive.toInt ≤ liveKeyCount db.adminKeys then (.ok (.capReached, false), db)
    else
      match insertAdminKey env g input db.adminKeys,
          appendAdminAudit env.chain g.auditTime audit db.adminAuditLogs with
      | .ok keys, .ok logs =>
        (.ok (.created (pendingKey env g input), !alreadyLocked), { db with
          adminKeys := keys
          serverConfig :=
            if alreadyLocked then db.serverConfig
            else setLatch (latchRow env "locked" (some g.latchTime) g.now) db.serverConfig
          adminAuditLogs := logs })
      | .error e, _ => (.error e, db)
      | _, .error e => (.error e, db)

/-- `reset_setup`. -/
def resetSetup (env : Integrity) (g : Generated) (db : Db) : Db :=
  { db with serverConfig := setLatch (latchRow env "uninitialized" none g.now) db.serverConfig }

/-! ### A latch whose keyed hash is wrong -/

/-- A command returned an error and left the operator's tables alone. -/
def Rejected {α : Type} (r : Except AppError α × Db) (db : Db) : Prop :=
  (∃ e, r.1 = .error e) ∧ r.2.serverConfig = db.serverConfig ∧ r.2.adminKeys = db.adminKeys ∧
    r.2.adminAuditLogs = db.adminAuditLogs

/-- The first operator cannot be stored: an entry is live, the identifier is in use or the audit
chain is full. -/
def BootstrapRefused (g : Generated) (db : Db) : Prop :=
  (∃ k ∈ db.adminKeys.rows, k.revokedAt = none) ∨ (∃ k ∈ db.adminKeys.rows, k.id = g.id) ∨
    AuditExhausted db.adminAuditLogs

/-- A latch whose keyed hash is wrong stops the command that generates a key. -/
theorem createAdminKeyBootstrapping_rejected {env : Integrity} {db : Db} {c : ServerConfigRow}
    (hrow : db.serverConfig.get? 1 = some c) (htampered : env.verifyLatch c = false)
    (g : Generated) (input : NewAdminKey) (audit : NewAdminAudit) (maxLive : Int64) :
    Rejected (createAdminKeyBootstrapping env g input audit maxLive db) db := by
  have hguard : ((db.serverConfig.get? 1).any fun c => !env.verifyLatch c) = true := by
    simp [hrow, htampered]
  simp only [createAdminKeyBootstrapping, hguard, if_true]
  exact ⟨⟨_, rfl⟩, rfl, rfl, rfl⟩

theorem insertKeyRow_eq_ok {row : AdminKeyRow} {t : Table AdminKeyRow}
    (hlive : ∀ k ∈ t.rows, k.revokedAt ≠ none) (hid : ∀ k ∈ t.rows, k.id ≠ row.id) :
    ∃ t', insertKeyRow row t = .ok t' ∧ t'.rows = t.rows ++ [row] := by
  have hany : t.rows.any (fun k => k.pubkey = row.pubkey && k.revokedAt.isNone) = false := by
    rw [List.any_eq_false]
    intro k hk
    simp [hlive k hk]
  obtain ⟨t', ht'⟩ := Table.exists_insert? (Table.get?_eq_none_iff.mpr hid)
  refine ⟨t', ?_, (Table.insert?_eq_some_iff.mp ht').2⟩
  simp [insertKeyRow, hany, ht']

/-- The command for the first operator does not look at the latch. -/
theorem bootstrapAdmin_rejected_iff (env : Integrity) (g : Generated) (pubkey : String) (db : Db) :
    Rejected (bootstrapAdmin env g pubkey db) db ↔ BootstrapRefused g db := by
  by_cases hlive : ∃ k ∈ db.adminKeys.rows, k.revokedAt = none
  · have hany : (db.adminKeys.rows.any fun k => k.revokedAt.isNone) = true := by
      simpa [List.any_eq_true] using hlive
    refine ⟨fun _ => .inl hlive, fun _ => ?_⟩
    rw [bootstrapAdmin, if_pos hany]
    exact ⟨⟨_, rfl⟩, rfl, rfl, rfl⟩
  · have hany : ¬ (db.adminKeys.rows.any fun k => k.revokedAt.isNone) = true := by
      simpa [List.any_eq_true] using hlive
    have hdead : ∀ k ∈ db.adminKeys.rows, k.revokedAt ≠ none := fun k hk h => hlive ⟨k, hk, h⟩
    obtain ⟨hfull, hroom⟩ := appendAdminAudit_spec env.chain g.auditTime
      ⟨"bootstrap", "bootstrap", some (pubkeyPrefix pubkey), none, none, none⟩ db.adminAuditLogs
    rw [bootstrapAdmin, if_neg hany]
    by_cases hid : ∃ k ∈ db.adminKeys.rows, k.id = g.id
    · have hins : insertKeyRow (bootstrapKey env g pubkey) db.adminKeys = .error keyExists := by
        unfold insertKeyRow
        split_ifs
        · rfl
        · cases hins : db.adminKeys.insert? (bootstrapKey env g pubkey) with
          | none => rfl
          | some t' =>
            obtain ⟨k, hk, hkid⟩ := hid
            exact absurd hkid
              (Table.get?_eq_none_iff.mp (Table.insert?_eq_some_iff.mp hins).1 k hk)
      rw [hins]
      exact ⟨fun _ => .inr (.inl hid), fun _ => ⟨⟨_, rfl⟩, rfl, rfl, rfl⟩⟩
    · obtain ⟨keys, hkeys, hrows⟩ := @insertKeyRow_eq_ok (bootstrapKey env g pubkey) _ hdead
        fun k hk h => hid ⟨k, hk, h⟩
      rw [hkeys]
      by_cases haudit : AuditExhausted db.adminAuditLogs
      · obtain ⟨e, he⟩ := hfull haudit
        rw [he]
        exact ⟨fun _ => .inr (.inr haudit), fun _ => ⟨⟨_, rfl⟩, rfl, rfl, rfl⟩⟩
      · obtain ⟨logs, row, hlogs, -⟩ := hroom haudit
        rw [hlogs]
        constructor
        · rintro ⟨⟨e, he⟩, -⟩
          cases he
        · rintro (h | h | h)
          · exact absurd h hlive
          · exact absurd h hid
          · exact absurd h haudit

/-- The first start leaves a latch alone, whatever its keyed hash. -/
theorem initServerConfig_serverConfig {env : Integrity} {db : Db} {c : ServerConfigRow}
    (hrow : db.serverConfig.get? 1 = some c) (g : Generated) (locked : Bool) :
    (initServerConfig env g locked db).serverConfig = db.serverConfig := by
  have hnone : ∀ row : ServerConfigRow, row.id = 1 → db.serverConfig.insert? row = none := by
    intro row hid
    cases hins : db.serverConfig.insert? row with
    | none => rfl
    | some t' =>
      have hget := (Table.insert?_eq_some_iff.mp hins).1
      have hkey : Lib.key row = (1 : Int32) := hid
      simp [hkey, hrow] at hget
  unfold initServerConfig
  cases locked <;> simp [hnone, latchRow]

/-- **A latch whose keyed hash is wrong stops every command exactly when the first operator cannot
be stored.** -/
theorem bootstrap_writers_fail_closed_iff (env : Integrity) (db : Db) (c : ServerConfigRow)
    (hrow : db.serverConfig.get? 1 = some c) (htampered : env.verifyLatch c = false)
    (g g' : Generated) (input : NewAdminKey) (audit : NewAdminAudit) (maxLive : Int64)
    (pubkey : String) (locked : Bool) :
    Rejected (createAdminKeyBootstrapping env g input audit maxLive db) db ∧
      Rejected (bootstrapAdmin env g' pubkey db) db ∧
      (initServerConfig env g locked db).serverConfig = db.serverConfig ∧
      (adoptLatch env g db).2.serverConfig = db.serverConfig ↔ BootstrapRefused g' db := by
  have hadopt : (adoptLatch env g db).2.serverConfig = db.serverConfig := by
    have hstate : db.readSetupState env = .tampered := by
      simp [Db.readSetupState, hrow, setupStateOf, htampered]
    simp [adoptLatch, hstate]
  constructor
  · rintro ⟨-, hboot, -⟩
    exact (bootstrapAdmin_rejected_iff env g' pubkey db).mp hboot
  · intro hrefused
    exact ⟨createAdminKeyBootstrapping_rejected hrow htampered g input audit maxLive,
      (bootstrapAdmin_rejected_iff env g' pubkey db).mpr hrefused,
      initServerConfig_serverConfig hrow g locked, hadopt⟩

/-- A keyed hash for small databases: the message itself. -/
def plainIntegrity : Integrity := ⟨fun m => m, .bits⟩

/-- An opened latch without its keyed hash. -/
def forgedLatch : ServerConfigRow := ⟨1, "uninitialized", none, none, 0, "00"⟩

/-- A database whose latch was written by hand, with some entries of the allowlist. -/
def forgedDb (keys : Table AdminKeyRow) : Db :=
  { Db.empty with serverConfig := ⟨[forgedLatch], by simp⟩, adminKeys := keys }

/-- What a transaction generates in a small run. -/
def smallGenerated : Generated := ⟨7, 1, 1, 1, 1⟩

/-- A pending entry of a small database. -/
def smallKey : AdminKeyRow := pendingKey plainIntegrity ⟨3, 0, 0, 0, 0⟩ ⟨"operator", "admin", none⟩

/-- With a live entry both commands refuse the latch. -/
theorem forgedDb_fails_closed :
    Rejected (createAdminKeyBootstrapping plainIntegrity smallGenerated ⟨"new", "admin", none⟩
        ⟨"admin_key_added", "cli", none, none, none, none⟩ 5 (forgedDb ⟨[smallKey], by simp⟩))
        (forgedDb ⟨[smallKey], by simp⟩) ∧
      Rejected (bootstrapAdmin plainIntegrity smallGenerated "new" (forgedDb ⟨[smallKey], by simp⟩))
        (forgedDb ⟨[smallKey], by simp⟩) ∧
      (initServerConfig plainIntegrity smallGenerated false
        (forgedDb ⟨[smallKey], by simp⟩)).serverConfig =
        (forgedDb ⟨[smallKey], by simp⟩).serverConfig ∧
      (adoptLatch plainIntegrity smallGenerated (forgedDb ⟨[smallKey], by simp⟩)).2.serverConfig =
        (forgedDb ⟨[smallKey], by simp⟩).serverConfig :=
  (bootstrap_writers_fail_closed_iff plainIntegrity (forgedDb ⟨[smallKey], by simp⟩) forgedLatch rfl
    (by decide) smallGenerated smallGenerated ⟨"new", "admin", none⟩
    ⟨"admin_key_added", "cli", none, none, none, none⟩ 5 "new" false).mpr
    (.inl ⟨smallKey, by simp [forgedDb], rfl⟩)

-- Without one, the command for the first operator overwrites the latch.
example :
    (forgedDb .empty).readSetupState plainIntegrity = .tampered ∧
      (bootstrapAdmin plainIntegrity smallGenerated "new" (forgedDb .empty)).1 = .ok () ∧
      (bootstrapAdmin plainIntegrity smallGenerated "new" (forgedDb .empty)).2.readSetupState
        plainIntegrity = .locked := by
  decide +kernel

/-- A latch whose keyed hash is wrong does not stop every command. -/
theorem not_bootstrap_writers_fail_closed :
    ¬ ∀ (env : Integrity) (db : Db) (c : ServerConfigRow), db.serverConfig.get? 1 = some c →
      env.verifyLatch c = false → ∀ (g : Generated) (input : NewAdminKey) (audit : NewAdminAudit)
        (maxLive : Int64) (pubkey : String),
        Rejected (createAdminKeyBootstrapping env g input audit maxLive db) db ∧
          Rejected (bootstrapAdmin env g pubkey db) db := by
  intro hclaim
  have hboth := hclaim plainIntegrity (forgedDb .empty) forgedLatch rfl (by decide) smallGenerated
    ⟨"new", "admin", none⟩ ⟨"admin_key_added", "cli", none, none, none, none⟩ 5 "new"
  rcases (bootstrapAdmin_rejected_iff plainIntegrity smallGenerated "new" (forgedDb .empty)).mp
    hboth.2 with ⟨k, hk, -⟩ | ⟨k, hk, -⟩ | hfull
  · simp [forgedDb, Db.empty] at hk
  · simp [forgedDb, Db.empty] at hk
  · simp [AuditExhausted, chainHead, lastAudit, forgedDb, Db.empty] at hfull

end SmirkBackend
