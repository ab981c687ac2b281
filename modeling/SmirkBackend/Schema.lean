import SmirkBackend.Lib.Json
import SmirkBackend.Tips.Store

/-!
# The database

The tables that belong to a user, to registration and to the operator, and the database that
holds them.  Rows keep the columns some modelled statement reads or writes.
-/

namespace SmirkBackend

open Lib (Table Patch)

/-- Supported assets. -/
inductive AssetType
  | btc
  | ltc
  | xmr
  | wow
  | grin
  deriving DecidableEq, Repr

/-- The database string of an asset. -/
def AssetType.asStr : AssetType → String
  | btc => "btc"
  | ltc => "ltc"
  | xmr => "xmr"
  | wow => "wow"
  | grin => "grin"

/-- A user. `pubkeyHash` and `seedFingerprint` are stored peppered. -/
structure UserRow where
  /-- Primary key. -/
  id : Uuid
  /-- Reserved name. -/
  username : Option String
  /-- Peppered hash of the identity key. -/
  pubkeyHash : Option String
  /-- Linked Nostr key. -/
  nostrPubkey : Option String
  /-- First use of the wallet. -/
  walletBirthday : Option Timestamp
  /-- Peppered fingerprint of the seed. -/
  seedFingerprint : Option String
  /-- Height the XMR wallet starts at. -/
  xmrStartHeight : Option Int64
  /-- Height the WOW wallet starts at. -/
  wowStartHeight : Option Int64
  /-- End of the paid period. -/
  premiumUntil : Option Timestamp
  deriving DecidableEq

instance : Lib.HasKey UserRow Uuid := ⟨UserRow.id⟩

/-- A public key of a user. A user has one row for each asset and key type. -/
structure UserKeyRow where
  /-- Owner. -/
  userId : Uuid
  /-- Asset. -/
  asset : AssetType
  /-- Public key. -/
  publicKey : String
  /-- Second public key of the two-key assets. -/
  publicSpendKey : Option String
  /-- `primary`, `enc` or `slatepack`. -/
  keyType : String
  deriving DecidableEq

instance : Lib.HasKey UserKeyRow (Uuid × AssetType × String) :=
  ⟨fun r => (r.userId, r.asset, r.keyType)⟩

/-- A session. -/
structure SessionRow where
  /-- Primary key. -/
  id : Uuid
  /-- Owner. -/
  userId : Uuid
  /-- Peppered hash of the refresh token. -/
  refreshTokenHash : String
  /-- Kind of client. -/
  platform : String
  /-- Description of the client. -/
  deviceInfo : Option String
  /-- End of validity. -/
  expiresAt : Timestamp
  /-- When it was revoked. -/
  revokedAt : Option Timestamp
  deriving DecidableEq

instance : Lib.HasKey SessionRow Uuid := ⟨SessionRow.id⟩

/-- A relayed Grin slate. -/
structure GrinSlatepackRow where
  /-- Primary key. -/
  id : Uuid
  /-- Slate identifier. -/
  slateId : String
  /-- Who sent it. -/
  senderUserId : Uuid
  /-- Who it is for. -/
  recipientUserId : Option Uuid
  deriving DecidableEq

instance : Lib.HasKey GrinSlatepackRow Uuid := ⟨GrinSlatepackRow.id⟩

/-- A security log entry. -/
structure AuditLogRow where
  /-- Primary key. -/
  id : Uuid
  /-- Whose action it was. -/
  userId : Option Uuid
  /-- Client software. -/
  userAgent : Option String
  deriving DecidableEq

instance : Lib.HasKey AuditLogRow Uuid := ⟨AuditLogRow.id⟩

/-- A login event. -/
structure LoginEventRow where
  /-- Primary key. -/
  id : Uuid
  /-- Who logged in. -/
  userId : Option Uuid
  /-- Login method. -/
  asset : String
  /-- Kind of client. -/
  platform : String
  /-- Origin of the request. -/
  origin : Option String
  deriving DecidableEq

instance : Lib.HasKey LoginEventRow Uuid := ⟨LoginEventRow.id⟩

/-- A single-use nonce. -/
structure ChallengeRow where
  /-- The nonce. -/
  nonce : String
  /-- What it may be used for. -/
  purpose : String
  /-- Whom it was issued to. -/
  subject : Option String
  /-- End of validity. -/
  expiresAt : Timestamp
  deriving DecidableEq

instance : Lib.HasKey ChallengeRow String := ⟨ChallengeRow.nonce⟩

/-- Status of an erasure request. -/
inductive ErasureStatus
  | pending
  | confirmed
  | completed
  | cancelled
  deriving DecidableEq, Repr

/-- An erasure request. -/
structure ErasureRequestRow where
  /-- Primary key. -/
  id : Uuid
  /-- Whose account is to be erased. -/
  userId : Option Uuid
  /-- Opaque identifier that outlives the account. -/
  subjectHash : String
  /-- Place in the lifecycle. -/
  status : ErasureStatus
  /-- Creation. -/
  requestedAt : Timestamp
  /-- End of the grace period. -/
  scheduledFor : Timestamp
  /-- Second proof. -/
  confirmedAt : Option Timestamp
  /-- Execution. -/
  completedAt : Option Timestamp
  /-- Cancellation. -/
  cancelledAt : Option Timestamp
  deriving DecidableEq

instance : Lib.HasKey ErasureRequestRow Uuid := ⟨ErasureRequestRow.id⟩

/-- A single-use invite. -/
structure InviteCodeRow where
  /-- Hash of the code. -/
  codeHash : String
  /-- End of validity. -/
  expiresAt : Option Timestamp
  /-- When it was used. -/
  usedAt : Option Timestamp
  /-- Who used it. -/
  usedBy : Option Uuid
  deriving DecidableEq

instance : Lib.HasKey InviteCodeRow String := ⟨InviteCodeRow.codeHash⟩

/-- A registration payment. -/
structure PaymentInvoiceRow where
  /-- The processor's invoice id. -/
  invoiceId : String
  /-- The registrant the invoice is bound to. -/
  pubkeyHash : String
  /-- Who minted it. -/
  provider : String
  /-- When it granted a registration. -/
  consumedAt : Option Timestamp
  deriving DecidableEq

instance : Lib.HasKey PaymentInvoiceRow String := ⟨PaymentInvoiceRow.invoiceId⟩

/-- A payment for a premium period. -/
structure PremiumInvoiceRow where
  /-- The processor's invoice id. -/
  invoiceId : String
  /-- Who pays. -/
  userId : Uuid
  /-- The rail it was minted on. -/
  provider : String
  /-- Days the payment buys. -/
  periodDays : Int32
  /-- When it extended the period. -/
  consumedAt : Option Timestamp
  deriving DecidableEq

instance : Lib.HasKey PremiumInvoiceRow String := ⟨PremiumInvoiceRow.invoiceId⟩

/-- A privileged action to be logged. -/
structure NewAdminAudit where
  /-- What was done. -/
  action : String
  /-- Kind of actor. -/
  actorKind : String
  /-- First characters of the actor's key. -/
  actorPubkeyPrefix : Option String
  /-- What it was done to. -/
  target : Option String
  /-- Further details. -/
  details : Option Lib.Json
  /-- Peer address. -/
  ipAddress : Option String

/-- A row of the audit chain, keyed by its sequence number. -/
structure AdminAuditRow where
  /-- Place in the chain. -/
  seq : Int64
  /-- The logged action. -/
  entry : NewAdminAudit
  /-- When it was logged. -/
  createdAt : Timestamp
  /-- Hash of the previous row. -/
  prevHash : String
  /-- Hash of this row. -/
  rowHash : String

instance : Lib.HasKey AdminAuditRow Int64 := ⟨AdminAuditRow.seq⟩

/-- An entry of the operator's allowlist. -/
structure AdminKeyRow where
  /-- Primary key. -/
  id : Uuid
  /-- Nostr key. -/
  pubkey : String
  /-- What it may do. -/
  scope : String
  /-- Creation. -/
  createdAt : Timestamp
  /-- First login. -/
  activatedAt : Option Timestamp
  /-- End of the time for the first login. -/
  activationDeadline : Option Timestamp
  /-- Revocation. -/
  revokedAt : Option Timestamp
  /-- Last login. -/
  lastUsedAt : Option Timestamp
  /-- Keyed hash of the entry. -/
  integrityMac : String
  deriving DecidableEq

instance : Lib.HasKey AdminKeyRow Uuid := ⟨AdminKeyRow.id⟩

/-- A session of the operator. -/
structure AdminSessionRow where
  /-- Primary key. -/
  id : Uuid
  /-- The allowlist entry. -/
  adminKeyId : Uuid
  /-- Nostr key. -/
  pubkey : String
  /-- Peppered hash of the refresh token. -/
  refreshTokenHash : String
  /-- Identifier of the live access token. -/
  accessJti : String
  /-- Peer address. -/
  ipAddress : Option String
  /-- End of validity. -/
  expiresAt : Timestamp
  /-- Revocation. -/
  revokedAt : Option Timestamp
  deriving DecidableEq

instance : Lib.HasKey AdminSessionRow Uuid := ⟨AdminSessionRow.id⟩

/-- A section of the operator's settings. -/
structure OperatorSettingRow where
  /-- Primary key. -/
  «section» : String
  /-- The overlay. -/
  doc : Lib.Json
  /-- Number of the last write. -/
  version : Int64
  /-- Who wrote it. -/
  updatedBy : Option Uuid
  /-- Keyed hash of section, overlay and version. -/
  integrityMac : String

instance : Lib.HasKey OperatorSettingRow String := ⟨OperatorSettingRow.section⟩

/-- The latch of the first-run setup. -/
structure ServerConfigRow where
  /-- Primary key, always 1. -/
  id : Int32
  /-- `uninitialized` or `locked`. -/
  setupState : String
  /-- End of the setup. -/
  bootstrapCompletedAt : Option Timestamp
  /-- When the latch was closed. -/
  lockedAt : Option Timestamp
  /-- Last write. -/
  updatedAt : Timestamp
  /-- Keyed hash of the state and the end of the setup. -/
  integrityMac : String
  deriving DecidableEq

instance : Lib.HasKey ServerConfigRow Int32 := ⟨ServerConfigRow.id⟩

/-- The tables of the backend. -/
structure Db where
  /-- `users` -/
  users : Table UserRow
  /-- `user_keys` -/
  userKeys : Table UserKeyRow
  /-- `sessions` -/
  sessions : Table SessionRow
  /-- `grin_slatepacks` -/
  grinSlatepacks : Table GrinSlatepackRow
  /-- `audit_logs` -/
  auditLogs : Table AuditLogRow
  /-- `login_events` -/
  loginEvents : Table LoginEventRow
  /-- `challenges` -/
  challenges : Table ChallengeRow
  /-- `erasure_requests` -/
  erasureRequests : Table ErasureRequestRow
  /-- `invite_codes` -/
  inviteCodes : Table InviteCodeRow
  /-- `payment_invoices` -/
  paymentInvoices : Table PaymentInvoiceRow
  /-- `premium_invoices` -/
  premiumInvoices : Table PremiumInvoiceRow
  /-- `social_tips` -/
  socialTips : SocialTips
  /-- `admin_audit_logs` -/
  adminAuditLogs : Table AdminAuditRow
  /-- `admin_keys` -/
  adminKeys : Table AdminKeyRow
  /-- `admin_sessions` -/
  adminSessions : Table AdminSessionRow
  /-- `operator_settings` -/
  operatorSettings : Table OperatorSettingRow
  /-- `server_config` -/
  serverConfig : Table ServerConfigRow

/-- The database without rows. -/
def Db.empty : Db :=
  ⟨.empty, .empty, .empty, .empty, .empty, .empty, .empty, .empty, .empty, .empty, .empty, .empty,
    .empty, .empty, .empty, .empty, .empty⟩

/-- A `UNIQUE` column: no value stands in two rows. -/
def UniqueOn {R : Type} (column : R → Option String) (rows : List R) : Prop :=
  ∀ r ∈ rows, ∀ r' ∈ rows, ∀ v, column r = some v → column r' = some v → r = r'

/-- The `UNIQUE` columns of `users`. -/
structure UsersUnique (t : Table UserRow) : Prop where
  /-- `username` -/
  username : UniqueOn UserRow.username t.rows
  /-- `pubkey_hash` -/
  pubkeyHash : UniqueOn UserRow.pubkeyHash t.rows
  /-- `nostr_pubkey` -/
  nostrPubkey : UniqueOn UserRow.nostrPubkey t.rows
  /-- `seed_fingerprint` -/
  seedFingerprint : UniqueOn UserRow.seedFingerprint t.rows

/-- A user exists. -/
def Db.HasUser (db : Db) (u : Uuid) : Prop := (db.users.get? u).isSome

instance (db : Db) (u : Uuid) : Decidable (db.HasUser u) :=
  inferInstanceAs (Decidable ((db.users.get? u).isSome = true))

theorem Db.linked_of_all {α : Type} {db : Db} {rows : List α} {f : α → Option Uuid}
    (h : (rows.all fun r => (f r).all fun u => db.HasUser u) = true) :
    ∀ r ∈ rows, ∀ u ∈ f r, db.HasUser u := by
  intro r hr u hu
  have hrow := List.all_eq_true.mp h r hr
  rw [Option.mem_def.mp hu] at hrow
  exact of_decide_eq_true hrow

/-- The constraints of the schema beyond the primary keys. -/
structure Db.SchemaOk (db : Db) : Prop where
  /-- Unique columns of `users`. -/
  users : UsersUnique db.users
  /-- Foreign keys to `users` that are not null. -/
  owned : (∀ r ∈ db.sessions.rows, db.HasUser r.userId) ∧
    (∀ r ∈ db.userKeys.rows, db.HasUser r.userId) ∧
    (∀ r ∈ db.grinSlatepacks.rows, db.HasUser r.senderUserId) ∧
    (∀ r ∈ db.premiumInvoices.rows, db.HasUser r.userId) ∧
    (∀ r ∈ db.socialTips.rows, db.HasUser r.senderUserId)
  /-- Foreign keys to `users` that may be null. -/
  linked : (∀ r ∈ db.grinSlatepacks.rows, ∀ u ∈ r.recipientUserId, db.HasUser u) ∧
    (∀ r ∈ db.auditLogs.rows, ∀ u ∈ r.userId, db.HasUser u) ∧
    (∀ r ∈ db.loginEvents.rows, ∀ u ∈ r.userId, db.HasUser u) ∧
    (∀ r ∈ db.erasureRequests.rows, ∀ u ∈ r.userId, db.HasUser u) ∧
    (∀ r ∈ db.inviteCodes.rows, ∀ u ∈ r.usedBy, db.HasUser u) ∧
    (∀ r ∈ db.socialTips.rows, ∀ u ∈ r.claimedByUserId, db.HasUser u) ∧
    (∀ r ∈ db.socialTips.rows, ∀ u ∈ r.recipientUserId, db.HasUser u)
  /-- A user has at most one live erasure request. -/
  erasureActive : ∀ r ∈ db.erasureRequests.rows, ∀ r' ∈ db.erasureRequests.rows, ∀ u,
    r.userId = some u → r'.userId = some u → (r.status = .pending ∨ r.status = .confirmed) →
    (r'.status = .pending ∨ r'.status = .confirmed) → r = r'
  /-- `CHECK` constraints of `social_tips`. -/
  tipChecks : ∀ r ∈ db.socialTips.rows, r.checks

end SmirkBackend
