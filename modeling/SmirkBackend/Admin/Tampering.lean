import SmirkBackend.Admin.Setup
import SmirkBackend.Lib.Run

/-!
# The operator's tables under a writer without the secret

The server runs the operations of the allowlist and of the latch.  Between them somebody may read
the database and replace it by any other one.  The keyed hash cannot be forged: a row that was
replaced carries a right hash only if its message was hashed and stored before.

The history of additions and revocations says which entries are authorised (`KeyAuthorised`).

It is proved over every run of the operations and of such replacements (`plane`):

* `allowlist_integrity` : an entry that is found active is authorised, as long as no live row of a
  revoked entry is put back and only rows with a right hash are activated.
* `latch_closed_iff` : no row that can be put in place opens the latch exactly when the server never
  stored an open latch.
-/

namespace SmirkBackend

open Lib (Table System)

/-- `verify` of an audit row. -/
def Integrity.verifiesAudit (env : Integrity) (r : AdminAuditRow) : Bool :=
  env.chain r.prevHash r.seq r.entry r.createdAt = r.rowHash

/-- The messages with a right keyed hash in a database. -/
def storedMessages (env : Integrity) (db : Db) : List String :=
  ((db.adminKeys.rows.filter env.verifiesKey).map fun k => keyMessage (macInput k)) ++
    ((db.serverConfig.rows.filter env.verifyLatch).map fun c =>
      latchMessage c.setupState c.bootstrapCompletedAt) ++
    ((db.adminAuditLogs.rows.filter env.verifiesAudit).map fun r =>
      chainMessage env.floats r.prevHash r.seq r.entry r.createdAt)

/-- What happened to an entry of the allowlist. -/
inductive KeyEvent
  | added (id : Uuid) (pubkey : String)
  | revoked (id : Uuid)
  deriving DecidableEq

/-- The server added the entry and did not revoke it since.  The newest event comes first. -/
def KeyAuthorised (id : Uuid) (pubkey : String) : List KeyEvent → Prop
  | [] => False
  | .added id' pubkey' :: rest => (id' = id ∧ pubkey' = pubkey) ∨ KeyAuthorised id pubkey rest
  | .revoked id' :: rest => id' ≠ id ∧ KeyAuthorised id pubkey rest

theorem keyAuthorised_of_added {id : Uuid} {pubkey : String} {h : List KeyEvent}
    (hadded : .added id pubkey ∈ h) (hnot : .revoked id ∉ h) : KeyAuthorised id pubkey h := by
  induction h with
  | nil => cases hadded
  | cons e rest ih =>
    cases e with
    | added id' pubkey' =>
      rcases List.mem_cons.mp hadded with heq | hrest
      · obtain ⟨rfl, rfl⟩ := KeyEvent.added.inj heq
        exact .inl ⟨rfl, rfl⟩
      · exact .inr (ih hrest fun hmem => hnot (List.mem_cons_of_mem _ hmem))
    | revoked id' =>
      have hrest : .added id pubkey ∈ rest := by simpa using hadded
      refine ⟨?_, ih hrest fun hmem => hnot (List.mem_cons_of_mem _ hmem)⟩
      rintro rfl
      exact hnot List.mem_cons_self

theorem added_of_keyAuthorised {id : Uuid} {pubkey : String} {h : List KeyEvent}
    (hauth : KeyAuthorised id pubkey h) : .added id pubkey ∈ h := by
  induction h with
  | nil => cases hauth
  | cons e rest ih =>
    cases e with
    | added id' pubkey' =>
      rcases hauth with ⟨rfl, rfl⟩ | hrest
      · exact List.mem_cons_self
      · exact List.mem_cons_of_mem _ (ih hrest)
    | revoked id' => exact List.mem_cons_of_mem _ (ih hauth.2)

/-! ### Operations -/

/-- The operations on the operator's tables. -/
inductive AdminOp
  /-- The server starts. -/
  | start (g : Generated)
  | create (g : Generated) (input : NewAdminKey)
  | createAudited (g : Generated) (input : NewAdminKey) (audit : NewAdminAudit) (maxLive : Int64)
  | createBootstrapping (g : Generated) (input : NewAdminKey) (audit : NewAdminAudit)
      (maxLive : Int64)
  | bootstrap (g : Generated) (pubkey : String)
  | activate (clock : Timestamp) (id : Uuid)
  | touch (now : Timestamp) (id : Uuid)
  | revoke (g : Generated) (id : Uuid)
  | revokeFull (g : Generated) (id : Uuid) (audit : NewAdminAudit) (keepMinLive : Bool)
  | rotate (revokedAt : Timestamp) (g : Generated) (oldId : Uuid) (new : NewAdminKey)
      (audit : NewAdminAudit)
  | reset (g : Generated)
  /-- `record_admin_audit`. -/
  | record (t : Timestamp) (entry : NewAdminAudit)
  /-- Somebody replaces the database. -/
  | tamper (db : Db)

/-- The database after an operation. -/
def AdminOp.run (env : Integrity) : AdminOp → Db → Db
  | start g, db => (adoptLatch env g db).2
  | create g input, db => (createAdminKey env g input db).2
  | createAudited g input audit maxLive, db => (createAdminKeyAudited env g input audit maxLive db).2
  | createBootstrapping g input audit maxLive, db =>
    (createAdminKeyBootstrapping env g input audit maxLive db).2
  | bootstrap g pubkey, db => (bootstrapAdmin env g pubkey db).2
  | activate clock id, db =>
    { db with adminKeys := activateKeys env.keyMac clock id db.adminKeys }
  | touch now id, db => { db with adminKeys := touchKeys now id db.adminKeys }
  | revoke g id, db => (revokeAdminKey env g id db).2
  | revokeFull g id audit keepMinLive, db => (revokeAdminKeyFull env g id audit keepMinLive db).2
  | rotate revokedAt g oldId new audit, db =>
    (rotateAdminKey env revokedAt g oldId new audit db).2
  | reset g, db => resetSetup env g db
  | record t entry, db =>
    match appendAdminAudit env.chain t entry db.adminAuditLogs with
    | .ok logs => { db with adminAuditLogs := logs }
    | .error _ => db
  | tamper db', _ => db'

/-- The entries that an operation adds and revokes, by what it returns; the newest first. -/
def AdminOp.events (env : Integrity) : AdminOp → Db → List KeyEvent
  | create g input, db =>
    match (createAdminKey env g input db).1 with
    | .ok k => [.added k.id k.pubkey]
    | .error _ => []
  | createAudited g input audit maxLive, db =>
    match (createAdminKeyAudited env g input audit maxLive db).1 with
    | .ok (.created k) => [.added k.id k.pubkey]
    | _ => []
  | createBootstrapping g input audit maxLive, db =>
    match (createAdminKeyBootstrapping env g input audit maxLive db).1 with
    | .ok (.created k, _) => [.added k.id k.pubkey]
    | _ => []
  | bootstrap g pubkey, db =>
    match (bootstrapAdmin env g pubkey db).1 with
    | .ok () => [.added g.id pubkey]
    | .error _ => []
  | revoke g id, db =>
    match (revokeAdminKey env g id db).1 with
    | .ok (some k) => [.revoked k.id]
    | _ => []
  | revokeFull g id audit keepMinLive, db =>
    match (revokeAdminKeyFull env g id audit keepMinLive db).1 with
    | .ok (.revoked k) => [.revoked k.id]
    | _ => []
  | rotate revokedAt g oldId new audit, db =>
    match (rotateAdminKey env revokedAt g oldId new audit db).1 with
    | .ok (some k) => [.added k.id k.pubkey, .revoked oldId]
    | _ => []
  | _, _ => []

/-- The database, the messages whose keyed hash was ever stored, and what happened to the
entries. -/
structure Plane where
  /-- The database. -/
  db : Db
  /-- Messages whose keyed hash was stored at some time. -/
  seen : List String
  /-- Additions and revocations, the newest first. -/
  history : List KeyEvent

/-- What may be put in place of the database: rows with a right keyed hash were stored before. -/
def Unforged (env : Integrity) (seen : List String) : AdminOp → Prop
  | .tamper db => ∀ m ∈ storedMessages env db, m ∈ seen
  | _ => True

theorem unforged_tamper {env : Integrity} {seen : List String} {db : Db} :
    Unforged env seen (.tamper db) ↔ ∀ m ∈ storedMessages env db, m ∈ seen :=
  Iff.rfl

/-- The state after an operation. -/
def Plane.next (env : Integrity) (s : Plane) (op : AdminOp) : Plane where
  db := op.run env s.db
  seen := storedMessages env (op.run env s.db) ++ s.seen
  history := op.events env s.db ++ s.history

/-- The runs of the server and of somebody who writes to its database. -/
def plane (env : Integrity) : System Plane AdminOp where
  step s op s' := Unforged env s.seen op ∧ s' = s.next env op

/-- A new instance. -/
structure Plane.Initial (s : Plane) : Prop where
  /-- The allowlist is empty. -/
  adminKeys : s.db.adminKeys.rows = []
  /-- There is no latch. -/
  serverConfig : s.db.serverConfig.rows = []
  /-- The audit chain is empty. -/
  adminAuditLogs : s.db.adminAuditLogs.rows = []
  /-- Nothing was hashed. -/
  seen : s.seen = []
  /-- Nothing happened. -/
  history : s.history = []

/-! ### The allowlist -/

/-- What an operation of the server does to the allowlist. -/
inductive KeyChange (env : Integrity) (op : AdminOp) (keys : Table AdminKeyRow) :
    Table AdminKeyRow → List KeyEvent → Prop
  /-- Nothing. -/
  | none : KeyChange env op keys keys []
  /-- A signed live row is added. -/
  | insert {row : AdminKeyRow} {keys' : Table AdminKeyRow} :
      insertKeyRow row keys = .ok keys' → KeyChange env op keys keys' [.added row.id row.pubkey]
  /-- A row is activated and signed again. -/
  | activate {clock : Timestamp} {id : Uuid} : op = .activate clock id →
      KeyChange env op keys (activateKeys env.keyMac clock id keys) []
  /-- A login is noted. -/
  | touch (now : Timestamp) (id : Uuid) : KeyChange env op keys (touchKeys now id keys) []
  /-- A row is revoked, if it is there. -/
  | revoke (clock : Timestamp) (id : Uuid) {es : List KeyEvent} : (∀ e ∈ es, e = .revoked id) →
      KeyChange env op keys (revokeKeys env clock id keys).2 es
  /-- A row is revoked and a signed live row is added. -/
  | rotate (clock : Timestamp) (id : Uuid) {row : AdminKeyRow} {keys' : Table AdminKeyRow} :
      insertKeyRow row (revokeKeys env clock id keys).2 = .ok keys' →
      KeyChange env op keys keys' [.added row.id row.pubkey, .revoked id]

/-- **What an operation of the server does to the allowlist.** -/
theorem AdminOp.keyChange (env : Integrity) (op : AdminOp) (db : Db)
    (hop : ∀ db', op ≠ .tamper db') :
    KeyChange env op db.adminKeys (op.run env db).adminKeys (op.events env db) := by
  cases op with
  | start g =>
    simp only [run, events, adoptLatch]
    split <;> exact .none
  | create g input =>
    simp only [run, events, createAdminKey]
    cases hins : insertAdminKey env g input db.adminKeys with
    | ok keys => exact .insert hins
    | error e => exact .none
  | createAudited g input audit maxLive =>
    simp only [run, events, createAdminKeyAudited]
    split_ifs
    · exact .none
    · cases hins : insertAdminKey env g input db.adminKeys with
      | error e => exact .none
      | ok keys =>
        cases appendAdminAudit env.chain g.auditTime audit db.adminAuditLogs with
        | ok logs => exact .insert hins
        | error e => exact .none
  | createBootstrapping g input audit maxLive =>
    simp only [run, events, createAdminKeyBootstrapping]
    split_ifs
    · exact .none
    · exact .none
    all_goals
      cases hins : insertAdminKey env g input db.adminKeys with
      | error e => exact .none
      | ok keys =>
        cases appendAdminAudit env.chain g.auditTime audit db.adminAuditLogs with
        | ok logs => exact .insert hins
        | error e => exact .none
  | bootstrap g pubkey =>
    simp only [run, events, bootstrapAdmin]
    split_ifs
    · exact .none
    · cases hins : insertKeyRow (bootstrapKey env g pubkey) db.adminKeys with
      | error e => exact .none
      | ok keys =>
        cases appendAdminAudit env.chain g.auditTime
          ⟨"bootstrap", "bootstrap", some (pubkeyPrefix pubkey), none, none, none⟩
          db.adminAuditLogs with
        | ok logs => exact .insert hins
        | error e => exact .none
  | activate clock id => exact .activate rfl
  | touch now id => exact .touch now id
  | revoke g id =>
    refine .revoke g.keyTime id ?_
    simp only [events, revokeAdminKey]
    cases hrev : (revokeKeys env g.keyTime id db.adminKeys).1 with
    | none => simp
    | some k => simp [id_of_revokeKeys hrev]
  | revokeFull g id audit keepMinLive =>
    simp only [run, events, revokeAdminKeyFull]
    split_ifs
    · exact .none
    · cases hrev : revokeKeys env g.keyTime id db.adminKeys with
      | mk revoked keys =>
        cases revoked with
        | none => exact .none
        | some k =>
          cases appendAdminAudit env.chain g.auditTime audit db.adminAuditLogs with
          | error e => exact .none
          | ok logs =>
            have hkeys : keys = (revokeKeys env g.keyTime id db.adminKeys).2 := by rw [hrev]
            have hid : k.id = id := id_of_revokeKeys (congrArg Prod.fst hrev)
            subst hkeys
            exact .revoke g.keyTime id (by simp [hid])
  | rotate revokedAt g oldId new audit =>
    simp only [run, events, rotateAdminKey]
    cases hrev : revokeKeys env revokedAt oldId db.adminKeys with
    | mk revoked keys =>
      cases revoked with
      | none => exact .none
      | some k =>
        dsimp only
        cases hins : insertAdminKey env g new keys with
        | error e => exact .none
        | ok keys' =>
          cases appendAdminAudit env.chain g.auditTime audit db.adminAuditLogs with
          | error e => exact .none
          | ok logs =>
            have hkeys : keys = (revokeKeys env revokedAt oldId db.adminKeys).2 := by rw [hrev]
            subst hkeys
            exact .rotate revokedAt oldId hins
  | reset g => exact .none
  | record t entry =>
    simp only [run, events]
    split <;> exact .none
  | tamper db' => exact absurd rfl (hop db')

theorem keyAuthorised_append {id : Uuid} {pubkey : String} {es h : List KeyEvent}
    (hes : .revoked id ∉ es) (hauth : KeyAuthorised id pubkey h) :
    KeyAuthorised id pubkey (es ++ h) := by
  induction es with
  | nil => exact hauth
  | cons e es ih =>
    have hrest := ih fun hmem => hes (List.mem_cons_of_mem _ hmem)
    cases e with
    | added id' pubkey' => exact .inr hrest
    | revoked id' =>
      refine ⟨?_, hrest⟩
      rintro rfl
      exact hes List.mem_cons_self

/-- The rows of the allowlist that count are authorised. -/
def RowsAuthorised (env : Integrity) (keys : Table AdminKeyRow) (h : List KeyEvent) : Prop :=
  ∀ k ∈ keys.rows, k.revokedAt = none → env.verifiesKey k = true → KeyAuthorised k.id k.pubkey h

/-- An activation meets only rows with a right keyed hash. -/
def ActivatesSigned (env : Integrity) (keys : Table AdminKeyRow) : AdminOp → Prop
  | .activate _ id => ∀ k ∈ keys.rows, k.id = id → k.revokedAt = none → k.activatedAt = none →
      env.verifiesKey k = true
  | _ => True

theorem KeyChange.rowsAuthorised {env : Integrity} {op : AdminOp} {keys keys' : Table AdminKeyRow}
    {es h : List KeyEvent} (hchange : KeyChange env op keys keys' es)
    (hsigned : ActivatesSigned env keys op) (hrows : RowsAuthorised env keys h) :
    RowsAuthorised env keys' (es ++ h) := by
  intro k hk hlive hmac
  cases hchange with
  | none => exact hrows k hk hlive hmac
  | insert hins =>
    rcases (mem_insertKeyRow hins k).mp hk with hold | rfl
    · exact .inr (hrows k hold hlive hmac)
    · exact .inl ⟨rfl, rfl⟩
  | @activate clock id hop =>
    rcases mem_activateKeys hk with hold | ⟨old, hold, hid, hlive', hpending, rfl⟩
    · exact hrows k hold hlive hmac
    · subst hop
      exact hrows old hold hlive' (hsigned old hold hid hlive' hpending)
  | touch now id =>
    obtain ⟨old, hold, hinput, htag⟩ := mem_touchKeys hk
    have hmac' : env.verifiesKey old = true := by
      rw [Integrity.verifiesKey, hinput, htag]
      exact hmac
    have hlive' : old.revokedAt = Option.none :=
      (congrArg AdminKeyMacInput.revokedAt hinput).trans hlive
    have hauth := hrows old hold hlive' hmac'
    rwa [show old.id = k.id from congrArg AdminKeyMacInput.id hinput,
      show old.pubkey = k.pubkey from congrArg AdminKeyMacInput.pubkey hinput] at hauth
  | revoke clock id hes =>
    rcases mem_revokeKeys hk with ⟨hold, hother⟩ | ⟨-, hrevoked⟩
    · refine keyAuthorised_append (fun hmem => ?_) (hrows k hold hlive hmac)
      exact hother (KeyEvent.revoked.inj (hes _ hmem)) hlive
    · rw [hrevoked] at hlive
      cases hlive
  | rotate clock id hins =>
    rcases (mem_insertKeyRow hins k).mp hk with hold | rfl
    · rcases mem_revokeKeys hold with ⟨hold', hother⟩ | ⟨-, hrevoked⟩
      · refine keyAuthorised_append (fun hmem => ?_) (hrows k hold' hlive hmac)
        have hid : k.id = id := by simpa using hmem
        exact hother hid hlive
      · rw [hrevoked] at hlive
        cases hlive
    · exact .inl ⟨rfl, rfl⟩

theorem keyMessage_mem_storedMessages {env : Integrity} {db : Db} {i : AdminKeyMacInput}
    (h : keyMessage i ∈ storedMessages env db) :
    ∃ k ∈ db.adminKeys.rows, env.verifiesKey k = true ∧ macInput k = i := by
  simp only [storedMessages, List.mem_append, List.mem_map, List.mem_filter] at h
  rcases h with (⟨k, ⟨hk, hmac⟩, hmsg⟩ | ⟨c, -, hmsg⟩) | ⟨r, -, hmsg⟩
  · exact ⟨k, hk, hmac, keyMessage_injective hmsg⟩
  -- the other tables have other domains
  · exact absurd (pepperedMessage_inj (by decide) (by decide) hmsg).1 (by decide)
  · exact absurd (pepperedMessage_inj (by decide) (by decide) hmsg).1 (by decide)

/-- The condition on a step: an activation meets only rows with a right keyed hash, and whoever
replaces the database puts back no live row of an entry that the server revoked. -/
def KeyStepOk (env : Integrity) (s : Plane) (op : AdminOp) (_ : Plane) : Prop :=
  ActivatesSigned env s.db.adminKeys op ∧
    ∀ db, op = .tamper db → ∀ k ∈ db.adminKeys.rows, k.revokedAt = none →
      env.verifiesKey k = true → .revoked k.id ∉ s.history

/-- What holds along the runs whose steps meet the condition. -/
structure AllowlistOk (env : Integrity) (s : Plane) : Prop where
  /-- Rows that count are authorised. -/
  rows : RowsAuthorised env s.db.adminKeys s.history
  /-- Live rows were signed for entries that had been added. -/
  seen : ∀ i : AdminKeyMacInput, i.revokedAt = none → keyMessage i ∈ s.seen →
    .added i.id i.pubkey ∈ s.history

theorem AllowlistOk.step {env : Integrity} {s s' : Plane} {op : AdminOp}
    (hstep : ((plane env).only (KeyStepOk env)).step s op s') (hs : AllowlistOk env s) :
    AllowlistOk env s' := by
  obtain ⟨⟨hunforged, rfl⟩, hsigned, hback⟩ := hstep
  have hrows : RowsAuthorised env (op.run env s.db).adminKeys (op.events env s.db ++ s.history) := by
    by_cases htamper : ∃ db, op = .tamper db
    · obtain ⟨db, rfl⟩ := htamper
      intro k hk hlive hmac
      have hmem : keyMessage (macInput k) ∈ storedMessages env db := by
        simp only [storedMessages, List.mem_append, List.mem_map, List.mem_filter]
        exact .inl (.inl ⟨k, ⟨hk, hmac⟩, rfl⟩)
      have hadded := hs.seen (macInput k) hlive (hunforged _ hmem)
      exact keyAuthorised_of_added hadded (hback db rfl k hk hlive hmac)
    · exact (op.keyChange env s.db fun db heq => htamper ⟨db, heq⟩).rowsAuthorised hsigned hs.rows
  refine ⟨hrows, fun i hlive hmem => ?_⟩
  rcases List.mem_append.mp hmem with hnew | hold
  · obtain ⟨k, hk, hmac, rfl⟩ := keyMessage_mem_storedMessages hnew
    exact added_of_keyAuthorised (hrows k hk hlive hmac)
  · exact List.mem_append_right _ (hs.seen i hlive hold)

theorem AllowlistOk.initial {env : Integrity} {s : Plane} (h : s.Initial) : AllowlistOk env s where
  rows := by simp [RowsAuthorised, h.adminKeys]
  seen := by simp [h.seen]

/-- **An entry that is found active is authorised**, in every run whose steps meet the condition. -/
theorem allowlist_integrity (env : Integrity) {s₀ s : Plane} {ops : List AdminOp}
    (hinit : s₀.Initial) (hrun : ((plane env).only (KeyStepOk env)).Run s₀ ops s)
    (pubkey : String) (k : AdminKeyRow)
    (hactive : s.db.getActiveAdminKey env.keyMac pubkey = some k) :
    k.pubkey = pubkey ∧ KeyAuthorised k.id k.pubkey s.history := by
  have hs : AllowlistOk env s :=
    hrun.invariant (fun _ _ _ hstep hok => hok.step hstep) (.initial hinit)
  obtain ⟨hfind, hmac⟩ := Option.filter_eq_some_iff.mp hactive
  have hcond := List.find?_some hfind
  simp only [Bool.and_eq_true, decide_eq_true_eq, Option.isNone_iff_eq_none] at hcond
  exact ⟨hcond.1, hs.rows k (List.mem_of_find?_eq_some hfind) hcond.2 hmac⟩

/-- A new instance without users. -/
def emptyPlane : Plane := ⟨.empty, [], []⟩

theorem emptyPlane_initial : emptyPlane.Initial := ⟨rfl, rfl, rfl, rfl, rfl⟩

/-- An entry is added. -/
def addOperator : AdminOp := .create ⟨3, 0, 0, 0, 0⟩ ⟨"operator", "admin", none⟩

/-- The entry is revoked. -/
def revokeOperator : AdminOp := .revoke ⟨0, 5, 5, 5, 5⟩ 3

/-- The database with one pending entry. -/
def pendingDb : Db := { Db.empty with adminKeys := ⟨[smallKey], by simp⟩ }

/-- The entry is added, its row is written back as it was, and it is activated. -/
def activatedPlane : Plane :=
  ((emptyPlane.next plainIntegrity addOperator).next plainIntegrity (.tamper pendingDb)).next
    plainIntegrity (.activate 2 3)

/-- The activated entry. -/
def activeKey : AdminKeyRow := plainIntegrity.sign { smallKey with activatedAt := some 2 }

/-- An entry that is added and activated is authorised, also after its row was written back. -/
theorem operator_authorised :
    activatedPlane.db.getActiveAdminKey plainIntegrity.keyMac "operator" = some activeKey ∧
      KeyAuthorised activeKey.id activeKey.pubkey activatedPlane.history := by
  have hfound : activatedPlane.db.getActiveAdminKey plainIntegrity.keyMac "operator" =
      some activeKey := by decide +kernel
  have hrun : ((plane plainIntegrity).only (KeyStepOk plainIntegrity)).Run emptyPlane
      [addOperator, .tamper pendingDb, .activate 2 3] activatedPlane := by
    refine .cons ⟨⟨trivial, rfl⟩, trivial, by simp [addOperator]⟩
      (.cons ⟨⟨?_, rfl⟩, trivial, ?_⟩ (.cons ⟨⟨trivial, rfl⟩, ?_, by simp⟩ (.nil _)))
    · show ∀ m ∈ storedMessages plainIntegrity pendingDb,
        m ∈ (emptyPlane.next plainIntegrity addOperator).seen
      decide +kernel
    · intro db heq k hk _ _
      obtain rfl := AdminOp.tamper.inj heq
      obtain rfl : k = smallKey := by simpa [pendingDb] using hk
      decide +kernel
    · intro k hk _ _ _
      obtain rfl : k = smallKey := by simpa [Plane.next, AdminOp.run, pendingDb] using hk
      decide +kernel
  exact ⟨hfound, (allowlist_integrity plainIntegrity emptyPlane_initial hrun "operator" _ hfound).2⟩

/-- The entry is added and revoked, and its first row is put back. -/
def restoredPlane : Plane :=
  ((emptyPlane.next plainIntegrity addOperator).next plainIntegrity revokeOperator).next
    plainIntegrity (.tamper pendingDb)

/-- A row that is put back after its revocation is found active. -/
theorem revoked_operator_found_active :
    ¬ ∀ (env : Integrity) (s₀ s : Plane) (ops : List AdminOp), s₀.Initial →
      (plane env).Run s₀ ops s → ∀ (pubkey : String) (k : AdminKeyRow),
        s.db.getActiveAdminKey env.keyMac pubkey = some k → KeyAuthorised k.id k.pubkey s.history := by
  intro hclaim
  have hrun : (plane plainIntegrity).Run emptyPlane
      [addOperator, revokeOperator, .tamper pendingDb] restoredPlane := by
    refine .cons ⟨trivial, rfl⟩ (.cons ⟨trivial, rfl⟩ (.cons ⟨?_, rfl⟩ (.nil _)))
    exact unforged_tamper.mpr (by decide +kernel)
  have hauth := hclaim plainIntegrity _ _ _ emptyPlane_initial hrun "operator" smallKey
    (by decide +kernel)
  have hhistory : restoredPlane.history = [.revoked 3, .added 3 "operator"] := by decide +kernel
  rw [hhistory] at hauth
  exact hauth.1 rfl

/-! ### The latch -/

/-- An operation of the server that stores an open latch: the start on an unused database without a
latch, and the recovery. -/
def Opens (env : Integrity) (db : Db) : AdminOp → Prop
  | .start _ => db.readSetupState env = .fresh ∧ db.users.rows = [] ∧ db.adminKeys.rows = []
  | .reset _ => True
  | _ => False

/-- A row can be put in place of the latch. -/
def Writable (env : Integrity) (seen : List String) (c : ServerConfigRow) : Prop :=
  env.verifyLatch c = true → latchMessage c.setupState c.bootstrapCompletedAt ∈ seen

theorem mem_setLatch {row c : ServerConfigRow} {t : Table ServerConfigRow}
    (h : c ∈ (setLatch row t).rows) : c ∈ t.rows ∨ c.setupState = row.setupState := by
  unfold setLatch Table.upsert at h
  cases hins : t.insert? row with
  | some t' =>
    rw [hins, Option.getD_some, (Table.insert?_eq_some_iff.mp hins).2] at h
    rcases List.mem_append.mp h with hold | hnew
    · exact .inl hold
    · rw [List.mem_singleton] at hnew
      exact .inr (hnew ▸ rfl)
  | none =>
    rw [hins, Option.getD_none] at h
    obtain ⟨old, hold, hc⟩ := List.mem_map.mp h
    split_ifs at hc
    · exact .inr (hc ▸ rfl)
    · exact .inl (hc ▸ hold)

/-- Apart from the openings, the operations leave the latch alone or close it. -/
theorem AdminOp.mem_serverConfig {env : Integrity} {op : AdminOp} {db : Db}
    (hop : ∀ db', op ≠ .tamper db') (hopens : ¬ Opens env db op) {c : ServerConfigRow}
    (h : c ∈ (op.run env db).serverConfig.rows) :
    c ∈ db.serverConfig.rows ∨ c.setupState = "locked" := by
  cases op with
  | start g =>
    simp only [run, adoptLatch] at h
    split at h
    case h_1 hfresh =>
      have hused : (!db.users.rows.isEmpty || !db.adminKeys.rows.isEmpty) = true := by
        by_contra hnot
        simp only [Bool.or_eq_true, Bool.not_eq_true', not_or, Bool.not_eq_false,
          List.isEmpty_iff] at hnot
        exact hopens ⟨hfresh, hnot⟩
      simp only [hused, initServerConfig, if_true] at h
      cases hins : db.serverConfig.insert? (latchRow env "locked" (some g.latchTime) g.now) with
      | none =>
        rw [hins] at h
        exact .inl h
      | some t' =>
        rw [hins, Option.getD_some, (Table.insert?_eq_some_iff.mp hins).2] at h
        rcases List.mem_append.mp h with hold | hnew
        · exact .inl hold
        · rw [List.mem_singleton] at hnew
          exact .inr (hnew ▸ rfl)
    all_goals exact .inl h
  | create g input =>
    simp only [run, createAdminKey] at h
    split at h <;> exact .inl h
  | createAudited g input audit maxLive =>
    simp only [run, createAdminKeyAudited] at h
    split_ifs at h
    · exact .inl h
    · split at h <;> exact .inl h
  | createBootstrapping g input audit maxLive =>
    simp only [run, createAdminKeyBootstrapping] at h
    split_ifs at h
    · exact .inl h
    · exact .inl h
    · split at h <;> exact .inl h
    · split at h
      · exact mem_setLatch h
      · exact .inl h
      · exact .inl h
  | bootstrap g pubkey =>
    simp only [run, bootstrapAdmin] at h
    split_ifs at h
    · exact .inl h
    · split at h
      · exact mem_setLatch h
      · exact .inl h
      · exact .inl h
  | activate clock id => exact .inl h
  | touch now id => exact .inl h
  | revoke g id => exact .inl h
  | revokeFull g id audit keepMinLive =>
    simp only [run, revokeAdminKeyFull] at h
    split_ifs at h
    · exact .inl h
    · split at h
      · exact .inl h
      · split at h <;> exact .inl h
  | rotate revokedAt g oldId new audit =>
    simp only [run, rotateAdminKey] at h
    split at h
    · exact .inl h
    · split at h <;> exact .inl h
  | reset g => exact absurd trivial hopens
  | record t entry =>
    simp only [run] at h
    split at h <;> exact .inl h
  | tamper db' => exact absurd rfl (hop db')

theorem latchMessage_mem_storedMessages {env : Integrity} {db : Db} {st : String}
    {t : Option Timestamp} (h : latchMessage st t ∈ storedMessages env db) :
    ∃ c ∈ db.serverConfig.rows, env.verifyLatch c = true ∧ c.setupState = st := by
  simp only [storedMessages, List.mem_append, List.mem_map, List.mem_filter] at h
  rcases h with (⟨k, -, hmsg⟩ | ⟨c, ⟨hc, hmac⟩, hmsg⟩) | ⟨r, -, hmsg⟩
  · exact absurd (pepperedMessage_inj (by decide) (by decide) hmsg).1 (by decide)
  · exact ⟨c, hc, hmac, (latchMessage_inj hmsg).1⟩
  · exact absurd (pepperedMessage_inj (by decide) (by decide) hmsg).1 (by decide)

theorem latchMessage_mem_of_row {env : Integrity} {db : Db} {c : ServerConfigRow}
    (hc : c ∈ db.serverConfig.rows) (hmac : env.verifyLatch c = true) :
    latchMessage c.setupState c.bootstrapCompletedAt ∈ storedMessages env db := by
  simp only [storedMessages, List.mem_append, List.mem_map, List.mem_filter]
  exact .inl (.inr ⟨c, ⟨hc, hmac⟩, rfl⟩)

/-- What holds along the runs that store no open latch. -/
structure LatchOk (env : Integrity) (s : Plane) : Prop where
  /-- A latch with a right keyed hash is closed. -/
  rows : ∀ c ∈ s.db.serverConfig.rows, env.verifyLatch c = true → c.setupState = "locked"
  /-- Only closed latches were hashed. -/
  seen : ∀ st t, latchMessage st t ∈ s.seen → st = "locked"

theorem LatchOk.step {env : Integrity} {s s' : Plane} {op : AdminOp}
    (hstep : ((plane env).only fun s op _ => ¬ Opens env s.db op).step s op s')
    (hs : LatchOk env s) : LatchOk env s' := by
  obtain ⟨⟨hunforged, rfl⟩, hopens⟩ := hstep
  have hrows : ∀ c ∈ (op.run env s.db).serverConfig.rows, env.verifyLatch c = true →
      c.setupState = "locked" := by
    intro c hc hmac
    by_cases htamper : ∃ db, op = .tamper db
    · obtain ⟨db, rfl⟩ := htamper
      exact hs.seen _ _ (hunforged _ (latchMessage_mem_of_row hc hmac))
    · rcases AdminOp.mem_serverConfig (fun db heq => htamper ⟨db, heq⟩) hopens hc with
        hold | hlocked
      · exact hs.rows c hold hmac
      · exact hlocked
  refine ⟨hrows, fun st t hmem => ?_⟩
  rcases List.mem_append.mp hmem with hnew | hold
  · obtain ⟨c, hc, hmac, rfl⟩ := latchMessage_mem_storedMessages hnew
    exact hrows c hc hmac
  · exact hs.seen st t hold

theorem LatchOk.initial {env : Integrity} {s : Plane} (h : s.Initial) : LatchOk env s where
  rows := by simp [h.serverConfig]
  seen := by simp [h.seen]

/-- An opening stores the keyed hash of the open latch. -/
theorem Opens.mem_storedMessages {env : Integrity} {db : Db} {op : AdminOp}
    (h : Opens env db op) : latchMessage "uninitialized" none ∈ storedMessages env (op.run env db) := by
  have hrow : ∀ (db' : Db) (g : Generated),
      latchRow env "uninitialized" none g.now ∈ db'.serverConfig.rows →
      latchMessage "uninitialized" none ∈ storedMessages env db' := fun db' g hmem =>
    latchMessage_mem_of_row (c := latchRow env "uninitialized" none g.now) hmem (by simp)
  cases op with
  | start g =>
    obtain ⟨hfresh, husers, hkeys⟩ := h
    have hnone : db.serverConfig.get? 1 = none := by
      unfold Db.readSetupState at hfresh
      split at hfresh
      · assumption
      · unfold setupStateOf at hfresh
        split_ifs at hfresh
    obtain ⟨t', ht'⟩ := Table.exists_insert? (t := db.serverConfig)
      (r := latchRow env "uninitialized" none g.now) hnone
    refine hrow _ g ?_
    simp [AdminOp.run, adoptLatch, hfresh, husers, hkeys, initServerConfig, ht',
      (Table.insert?_eq_some_iff.mp ht').2]
  | reset g => exact hrow _ g (Table.mem_of_get? (get?_setLatch rfl _))
  | _ => cases h

theorem seen_subset_of_run {env : Integrity} {s s' : Plane} {ops : List AdminOp}
    (hrun : (plane env).Run s ops s') {m : String} (hm : m ∈ s.seen) : m ∈ s'.seen := by
  refine hrun.invariant (I := fun s => m ∈ s.seen) (fun s op s' hstep hmem => ?_) hm
  obtain ⟨-, rfl⟩ := hstep
  exact List.mem_append_right _ hmem

theorem closed_or_seen {env : Integrity} {s s' : Plane} {ops : List AdminOp}
    (hrun : (plane env).Run s ops s') :
    ((plane env).only fun s op _ => ¬ Opens env s.db op).Run s ops s' ∨
      latchMessage "uninitialized" none ∈ s'.seen := by
  induction hrun with
  | nil s => exact .inl (.nil s)
  | @cons s s₁ s' op ops hstep hrest ih =>
    by_cases hopens : Opens env s.db op
    · refine .inr (seen_subset_of_run hrest ?_)
      obtain ⟨-, rfl⟩ := hstep
      exact List.mem_append_left _ hopens.mem_storedMessages
    · rcases ih with hclosed | hseen
      · exact .inl (.cons ⟨hstep, hopens⟩ hclosed)
      · exact .inr hseen

/-- **No row that can be put in place opens the latch exactly when the server never stored an open
latch.** -/
theorem latch_closed_iff (env : Integrity) {s₀ s : Plane} {ops : List AdminOp}
    (hinit : s₀.Initial) (hrun : (plane env).Run s₀ ops s) :
    (∀ c, Writable env s.seen c →
      setupStateOf env c = .locked ∨ setupStateOf env c = .tampered) ↔
    ((plane env).only fun s op _ => ¬ Opens env s.db op).Run s₀ ops s := by
  constructor
  · intro hproperty
    rcases closed_or_seen hrun with hclosed | hseen
    · exact hclosed
    · -- the open latch can be put back
      have hread := hproperty (latchRow env "uninitialized" none 0) fun _ => hseen
      simp [setupStateOf, latchRow, Integrity.verifyLatch] at hread
  · intro hclosed c hwritable
    have hs : LatchOk env s :=
      hclosed.invariant (fun _ _ _ hstep hok => hok.step hstep) (.initial hinit)
    cases hmac : env.verifyLatch c with
    | false => simp [setupStateOf, hmac]
    | true =>
      have hlocked := hs.seen _ _ (hwritable hmac)
      simp [setupStateOf, hmac, hlocked]

/-- A database with a user and these latches. -/
def usedDb (latches : Table ServerConfigRow) : Db :=
  { Db.empty with
    users := .single ⟨1, none, none, none, none, none, none, none, none⟩
    serverConfig := latches }

/-- A database with a user and no latch, before anything was hashed. -/
def adoptedPlane : Plane := ⟨usedDb .empty, [], []⟩

/-- An operator is set up; the latch is replaced by a forged open one, which stops a start; the
latch is deleted, which the next start answers with a closed one; the first closed latch is put
back. -/
def latchAttack : List AdminOp :=
  [.bootstrap smallGenerated "operator", .tamper (usedDb (.single forgedLatch)),
    .start smallGenerated, .tamper (usedDb .empty), .start { smallGenerated with latchTime := 2 },
    .tamper (usedDb (.single (latchRow plainIntegrity "locked" (some 1) 1)))]

/-- The state after the attack. -/
def attackedPlane : Plane := latchAttack.foldl (Plane.next plainIntegrity) adoptedPlane

/-- The attack opens the latch at no point, and leaves no row that would. -/
theorem attacked_latch_closed :
    (plane plainIntegrity).Run adoptedPlane latchAttack attackedPlane ∧
      latchMessage "locked" (some 2) ∈ attackedPlane.seen ∧
      ∀ c, Writable plainIntegrity attackedPlane.seen c →
        setupStateOf plainIntegrity c = .locked ∨ setupStateOf plainIntegrity c = .tampered := by
  have hforged : ¬ Opens plainIntegrity (usedDb (.single forgedLatch))
      (.start smallGenerated) := fun h => absurd h.2.1 (by simp [usedDb, Table.single])
  have hdeleted : ¬ Opens plainIntegrity (usedDb .empty)
      (.start { smallGenerated with latchTime := 2 }) := fun h =>
    absurd h.2.1 (by simp [usedDb, Table.single])
  have hclosed : ((plane plainIntegrity).only fun s op _ => ¬ Opens plainIntegrity s.db op).Run
      adoptedPlane latchAttack attackedPlane :=
    .cons ⟨⟨trivial, rfl⟩, id⟩
      (.cons ⟨⟨unforged_tamper.mpr (by decide +kernel), rfl⟩, id⟩
      (.cons ⟨⟨trivial, rfl⟩, hforged⟩
      (.cons ⟨⟨unforged_tamper.mpr (by decide +kernel), rfl⟩, id⟩
      (.cons ⟨⟨trivial, rfl⟩, hdeleted⟩
      (.cons ⟨⟨unforged_tamper.mpr (by decide +kernel), rfl⟩, id⟩ (.nil _))))))
  exact ⟨hclosed.of_only, by decide +kernel,
    (latch_closed_iff plainIntegrity ⟨rfl, rfl, rfl, rfl, rfl⟩ hclosed.of_only).mpr hclosed⟩

/-- The first start and the setup of an operator. -/
def setupPlane : Plane :=
  (emptyPlane.next plainIntegrity (.start smallGenerated)).next plainIntegrity
    (.bootstrap smallGenerated "operator")

/-- The latch from before the setup can be put back, and opens it again. -/
theorem latch_reopened_from_backup :
    ¬ ∀ (env : Integrity) (s₀ s₁ s : Plane) (ops₁ ops₂ : List AdminOp), s₀.Initial →
      (plane env).Run s₀ ops₁ s₁ → s₁.db.readSetupState env = .locked →
      (plane env).Run s₁ ops₂ s → (∀ g, .reset g ∉ ops₂) → ∀ c, Writable env s.seen c →
        setupStateOf env c = .locked ∨ setupStateOf env c = .tampered := by
  intro hclaim
  have hrun : (plane plainIntegrity).Run emptyPlane
      [.start smallGenerated, .bootstrap smallGenerated "operator"] setupPlane :=
    .cons ⟨trivial, rfl⟩ (.cons ⟨trivial, rfl⟩ (.nil _))
  have hread := hclaim plainIntegrity _ _ _ _ [] emptyPlane_initial hrun (by decide +kernel)
    (.nil _) (by simp) (latchRow plainIntegrity "uninitialized" none 0)
    (fun _ => by decide +kernel)
  simp [setupStateOf, latchRow, Integrity.verifyLatch] at hread

end SmirkBackend
