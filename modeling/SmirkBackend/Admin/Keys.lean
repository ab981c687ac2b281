import SmirkBackend.Admin.Mac

/-!
# The operator's allowlist

Entries are added as pending, activated by the first login, revoked, or rotated to another key.
Each operation is one transaction under the lock of the allowlist, and signs the columns that it
stores.  All but the activation append to the audit chain.

The rows after each statement are given by `mem_insertKeyRow`, `mem_activateKeys` and
`mem_revokeKeys`.
-/

namespace SmirkBackend

open Lib (Table Patch FloatText)

/-- What the keyed hashes are computed with. -/
structure Integrity where
  /-- Keyed hash under the integrity secret, in hexadecimal. -/
  hmac : String → String
  /-- Texts of floating-point numbers. -/
  floats : FloatText

/-- The keyed hash of an allowlist entry. -/
abbrev Integrity.keyMac (env : Integrity) : AdminKeyMacInput → String := computeAdminKeyMac env.hmac

/-- The keyed hash of an audit row. -/
abbrev Integrity.chain (env : Integrity) : ChainHash := chainHash env.floats env.hmac

/-- `NewAdminKey`. -/
structure NewAdminKey where
  /-- Nostr key. -/
  pubkey : String
  /-- What it may do. -/
  scope : String
  /-- End of the time for the first login. -/
  activationDeadline : Option Timestamp

/-- What a transaction generates: an identifier, and the instants of its statements. -/
structure Generated where
  /-- `Uuid::new_v4`. -/
  id : Uuid
  /-- When the entry is written. -/
  keyTime : Timestamp
  /-- When the latch is written. -/
  latchTime : Timestamp
  /-- When the audit row is written. -/
  auditTime : Timestamp
  /-- `NOW()`. -/
  now : Timestamp

/-- `verify_admin_key_mac` of a row. -/
def Integrity.verifiesKey (env : Integrity) (k : AdminKeyRow) : Bool :=
  env.keyMac (macInput k) = k.integrityMac

/-- The row with its keyed hash computed. -/
def Integrity.sign (env : Integrity) (k : AdminKeyRow) : AdminKeyRow :=
  { k with integrityMac := env.keyMac (macInput k) }

@[simp] theorem macInput_sign (env : Integrity) (k : AdminKeyRow) :
    macInput (env.sign k) = macInput k := rfl

@[simp] theorem verifiesKey_sign (env : Integrity) (k : AdminKeyRow) :
    env.verifiesKey (env.sign k) = true := by
  simp [Integrity.verifiesKey, Integrity.sign, macInput]

/-- `live_key_count`. -/
def liveKeyCount (t : Table AdminKeyRow) : ℕ := t.rows.countP fun k => k.revokedAt.isNone

/-! ### Statements -/

/-- The error of a second live entry with one key. -/
def keyExists : AppError := .conflict "an active admin key with this pubkey already exists"

/-- `INSERT INTO admin_keys`, with its unique constraints. -/
def insertKeyRow (row : AdminKeyRow) (t : Table AdminKeyRow) : Except AppError (Table AdminKeyRow) :=
  if t.rows.any fun k => k.pubkey = row.pubkey && k.revokedAt.isNone then .error keyExists
  else
    match t.insert? row with
    | some t' => .ok t'
    | none => .error keyExists

theorem mem_insertKeyRow {row : AdminKeyRow} {t t' : Table AdminKeyRow}
    (h : insertKeyRow row t = .ok t') (k : AdminKeyRow) : k ∈ t'.rows ↔ k ∈ t.rows ∨ k = row := by
  unfold insertKeyRow at h
  split_ifs at h
  cases hins : t.insert? row with
  | none => simp [hins] at h
  | some t₁ =>
    simp only [hins, Except.ok.injEq] at h
    subst h
    simp [(Table.insert?_eq_some_iff.mp hins).2]

/-- A pending entry. -/
def pendingKey (env : Integrity) (g : Generated) (input : NewAdminKey) : AdminKeyRow :=
  env.sign
    { id := g.id
      pubkey := input.pubkey
      scope := input.scope
      createdAt := g.keyTime
      activatedAt := none
      activationDeadline := input.activationDeadline
      revokedAt := none
      lastUsedAt := none
      integrityMac := "" }

/-- `insert_admin_key`. -/
def insertAdminKey (env : Integrity) (g : Generated) (input : NewAdminKey) (t : Table AdminKeyRow) :
    Except AppError (Table AdminKeyRow) :=
  insertKeyRow (pendingKey env g input) t

theorem key_activated (keyMac : AdminKeyMacInput → String) (clock : Timestamp) (k : AdminKeyRow) :
    Lib.key { k with
      activatedAt := some clock
      integrityMac := keyMac { macInput k with activatedAt := some clock } } = Lib.key k := rfl

/-- The statements of `activate_admin_key`: a pending entry is activated and signed again. -/
def activateKeys (keyMac : AdminKeyMacInput → String) (clock : Timestamp) (id : Uuid)
    (t : Table AdminKeyRow) : Table AdminKeyRow :=
  (t.updateOne id (fun k => k.revokedAt.isNone && k.activatedAt.isNone)
    { set := fun k => { k with
        activatedAt := some clock
        integrityMac := keyMac { macInput k with activatedAt := some clock } }
      key_set := key_activated keyMac clock }).2

theorem activateAdminKey_eq (keyMac : AdminKeyMacInput → String) (clock : Timestamp) (id : Uuid) :
    activateAdminKey keyMac clock id = execute fun _ db =>
      (.ok (), { db with adminKeys := activateKeys keyMac clock id db.adminKeys }) := rfl

theorem key_touched (now : Timestamp) (k : AdminKeyRow) :
    Lib.key { k with lastUsedAt := some now } = Lib.key k := rfl

/-- The statement of `touch_admin_key_last_used`. -/
def touchKeys (now : Timestamp) (id : Uuid) (t : Table AdminKeyRow) : Table AdminKeyRow :=
  (t.updateOne id (fun _ => true)
    { set := fun k => { k with lastUsedAt := some now }, key_set := key_touched now }).2

theorem touchAdminKeyLastUsed_eq (id : Uuid) :
    touchAdminKeyLastUsed id = execute fun now db =>
      (.ok (), { db with adminKeys := touchKeys now id db.adminKeys }) := rfl

/-- The statements of `revoke_admin_key`: an entry that is not revoked is revoked and signed again.
With the revoked entry, if there was one. -/
def revokeKeys (env : Integrity) (clock : Timestamp) (id : Uuid) (t : Table AdminKeyRow) :
    Option AdminKeyRow × Table AdminKeyRow :=
  t.updateOne id (fun k => k.revokedAt.isNone)
    { set := fun k => env.sign { k with revokedAt := some clock } }

theorem mem_activateKeys {env : Integrity} {clock : Timestamp} {id : Uuid} {t : Table AdminKeyRow}
    {k : AdminKeyRow} (h : k ∈ (activateKeys env.keyMac clock id t).rows) :
    k ∈ t.rows ∨ ∃ old ∈ t.rows, old.id = id ∧ old.revokedAt = none ∧ old.activatedAt = none ∧
      k = env.sign { old with activatedAt := some clock } := by
  obtain ⟨old, hold, hk⟩ := List.mem_map.mp h
  split_ifs at hk with hcond
  · simp only [Bool.and_eq_true, decide_eq_true_eq, Option.isNone_iff_eq_none] at hcond
    exact .inr ⟨old, hold, hcond.1, hcond.2.1, hcond.2.2, hk.symm⟩
  · exact .inl (hk ▸ hold)

theorem mem_touchKeys {now : Timestamp} {id : Uuid} {t : Table AdminKeyRow} {k : AdminKeyRow}
    (h : k ∈ (touchKeys now id t).rows) :
    ∃ old ∈ t.rows, macInput old = macInput k ∧ old.integrityMac = k.integrityMac := by
  obtain ⟨old, hold, hk⟩ := List.mem_map.mp h
  refine ⟨old, hold, ?_⟩
  split_ifs at hk <;> subst hk <;> exact ⟨rfl, rfl⟩

theorem mem_revokeKeys {env : Integrity} {clock : Timestamp} {id : Uuid} {t : Table AdminKeyRow}
    {k : AdminKeyRow} (h : k ∈ (revokeKeys env clock id t).2.rows) :
    (k ∈ t.rows ∧ (k.id = id → k.revokedAt ≠ none)) ∨ (k.id = id ∧ k.revokedAt = some clock) := by
  obtain ⟨old, hold, hk⟩ := List.mem_map.mp h
  split_ifs at hk with hcond
  · simp only [Bool.and_eq_true, decide_eq_true_eq] at hcond
    subst hk
    exact .inr ⟨hcond.1, rfl⟩
  · subst hk
    refine .inl ⟨hold, fun hid hlive => hcond ?_⟩
    simp only [Bool.and_eq_true, decide_eq_true_eq, Option.isNone_iff_eq_none]
    exact ⟨hid, hlive⟩

theorem id_of_revokeKeys {env : Integrity} {clock : Timestamp} {id : Uuid} {t : Table AdminKeyRow}
    {k : AdminKeyRow} (h : (revokeKeys env clock id t).1 = some k) : k.id = id := by
  simp only [revokeKeys, Table.updateOne, Option.map_eq_some_iff, Option.filter_eq_some_iff] at h
  obtain ⟨old, ⟨hget, -⟩, rfl⟩ := h
  exact Table.key_of_get? hget

/-! ### Transactions -/

/-- Outcome of adding an entry. -/
inductive AddKeyOutcome
  | created (key : AdminKeyRow)
  | capReached
  deriving DecidableEq

/-- Outcome of a revocation. -/
inductive RevokeKeyOutcome
  | revoked (key : AdminKeyRow)
  | notFound
  | wouldEmptyAllowlist
  deriving DecidableEq

/-- `create_admin_key`. -/
def createAdminKey (env : Integrity) (g : Generated) (input : NewAdminKey) (db : Db) :
    Except AppError AdminKeyRow × Db :=
  match insertAdminKey env g input db.adminKeys with
  | .ok keys => (.ok (pendingKey env g input), { db with adminKeys := keys })
  | .error e => (.error e, db)

/-- `create_admin_key_audited`. -/
def createAdminKeyAudited (env : Integrity) (g : Generated) (input : NewAdminKey)
    (audit : NewAdminAudit) (maxLive : Int64) (db : Db) : Except AppError AddKeyOutcome × Db :=
  if maxLive.toInt ≤ liveKeyCount db.adminKeys then (.ok .capReached, db)
  else
    match insertAdminKey env g input db.adminKeys,
        appendAdminAudit env.chain g.auditTime audit db.adminAuditLogs with
    | .ok keys, .ok logs =>
      (.ok (.created (pendingKey env g input)),
        { db with adminKeys := keys, adminAuditLogs := logs })
    | .error e, _ => (.error e, db)
    | _, .error e => (.error e, db)

/-- `revoke_admin_key`. -/
def revokeAdminKey (env : Integrity) (g : Generated) (id : Uuid) (db : Db) :
    Except AppError (Option AdminKeyRow) × Db :=
  let (revoked, keys) := revokeKeys env g.keyTime id db.adminKeys
  (.ok revoked, { db with adminKeys := keys })

/-- `SET revoked_at = NOW()`, of a session. -/
def endPatch (now : Timestamp) : Patch AdminSessionRow where
  set s := { s with revokedAt := some now }

@[simp] theorem endPatch_set (now : Timestamp) (s : AdminSessionRow) :
    (endPatch now).set s = { s with revokedAt := some now } := rfl

/-- The sessions of an entry end with it. -/
def revokeKeySessions (now : Timestamp) (id : Uuid) (t : Table AdminSessionRow) :
    Table AdminSessionRow :=
  t.updateWhere (fun s => s.adminKeyId = id && s.revokedAt.isNone) (endPatch now)

/-- `revoke_admin_key_full`. -/
def revokeAdminKeyFull (env : Integrity) (g : Generated) (id : Uuid) (audit : NewAdminAudit)
    (keepMinLive : Bool) (db : Db) : Except AppError RevokeKeyOutcome × Db :=
  if keepMinLive && liveKeyCount db.adminKeys ≤ 1 then (.ok .wouldEmptyAllowlist, db)
  else
    match revokeKeys env g.keyTime id db.adminKeys with
    | (none, _) => (.ok .notFound, db)
    | (some updated, keys) =>
      match appendAdminAudit env.chain g.auditTime audit db.adminAuditLogs with
      | .error e => (.error e, db)
      | .ok logs =>
        (.ok (.revoked updated),
          { db with
            adminKeys := keys
            adminSessions := revokeKeySessions g.now id db.adminSessions
            adminAuditLogs := logs })

/-- `rotate_admin_key`. -/
def rotateAdminKey (env : Integrity) (revokedAt : Timestamp) (g : Generated) (oldId : Uuid)
    (new : NewAdminKey) (audit : NewAdminAudit) (db : Db) :
    Except AppError (Option AdminKeyRow) × Db :=
  match revokeKeys env revokedAt oldId db.adminKeys with
  | (none, _) => (.ok none, db)
  | (some _, keys) =>
    match insertAdminKey env g new keys,
        appendAdminAudit env.chain g.auditTime audit db.adminAuditLogs with
    | .ok keys', .ok logs =>
      (.ok (some (pendingKey env g new)),
        { db with
          adminKeys := keys'
          adminSessions := revokeKeySessions g.now oldId db.adminSessions
          adminAuditLogs := logs })
    | .error e, _ => (.error e, db)
    | _, .error e => (.error e, db)

end SmirkBackend
