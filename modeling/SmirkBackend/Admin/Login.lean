import SmirkBackend.Admin.Audit
import SmirkBackend.Auth.Nostr

/-!
# The operator's login

The operator signs in by a signed action over a single-use nonce.  The key must be on the allowlist
with a valid keyed hash; the first login of a key activates it.  The session and its audit row are
stored in one transaction.

The handlers are `adminChallenge` and `adminVerify`.
-/

namespace SmirkBackend

open Lib (Prog)

/-- The columns the keyed hash of an allowlist entry covers. -/
structure AdminKeyMacInput where
  /-- Primary key. -/
  id : Uuid
  /-- Nostr key. -/
  pubkey : String
  /-- What it may do. -/
  scope : String
  /-- Creation. -/
  createdAt : Timestamp
  /-- First login. -/
  activatedAt : Option Timestamp
  /-- End of the time for the first login. -/
  activationDeadline : Option Timestamp
  /-- Revocation. -/
  revokedAt : Option Timestamp

/-- `mac_input`. -/
def macInput (k : AdminKeyRow) : AdminKeyMacInput :=
  ⟨k.id, k.pubkey, k.scope, k.createdAt, k.activatedAt, k.activationDeadline, k.revokedAt⟩

/-- What the operator's handlers take from the instance. -/
structure AdminEnv where
  /-- Hashes and checks shared with the other handlers. -/
  auth : AuthEnv
  /-- The operator's surface is on. -/
  enabled : Bool
  /-- Canonical URL of the surface. -/
  publicUrl : String
  /-- Hexadecimal hash of a text. -/
  sha256Hex : String → String
  /-- `compute_admin_key_mac` under the instance's secret. -/
  keyMac : AdminKeyMacInput → String
  /-- Keyed hash of the audit chain. -/
  chainHash : ChainHash
  /-- Validity of a refresh token. -/
  refreshTtl : ℤ

/-- A minted pair of tokens. -/
structure AdminTokenPair where
  /-- Access token. -/
  accessToken : String
  /-- Token for renewal. -/
  refreshToken : String
  /-- Validity of the access token, in seconds. -/
  expiresIn : Int64
  /-- Identifier of the access token. -/
  accessJti : String

/-- What a request meets outside the database. -/
structure AdminAnswers where
  /-- The clock, in seconds, when the proof is checked. -/
  now : Int64
  /-- The clock when the key is activated and the session is issued. -/
  clock : Timestamp
  /-- Generated identifier of the session. -/
  sessionId : Uuid
  /-- Peer address. -/
  ip : Option String
  /-- `create_token_pair`. -/
  createTokenPair : String → Uuid → Except AppError AdminTokenPair

/-- `admin_auth_fail`. -/
def adminAuthFail : AppError := .authError "Invalid admin credentials"

/-- `admin_manager`. -/
def adminManager (env : AdminEnv) : Except AppError Unit :=
  if env.enabled then .ok () else .error (.notFound "admin surface is not enabled")

/-- `ADMIN_CHALLENGE_TTL_SECS`. -/
def adminChallengeTtlSecs : ℤ := 120

/-- `ADMIN_ACTION_MAX_AGE_SECS`. -/
def adminActionMaxAgeSecs : Int64 := 30

/-- `admin_verify_url`. -/
def adminVerifyUrl (env : AdminEnv) : String :=
  trimEndSlashes env.publicUrl ++ "/admin/auth/verify"

/-- `admin_instance_id`. -/
def adminInstanceId (env : AdminEnv) : String :=
  String.ofList ((env.sha256Hex env.publicUrl).toList.take 16)

/-- `pubkey_prefix`. -/
def pubkeyPrefix (pubkey : String) : String := String.ofList (pubkey.toList.take 16)

/-- `get_active_admin_key`: an entry that is not revoked, if its keyed hash is right. -/
def Db.getActiveAdminKey (db : Db) (keyMac : AdminKeyMacInput → String) (pubkey : String) :
    Option AdminKeyRow :=
  (db.adminKeys.rows.find? fun k => k.pubkey = pubkey && k.revokedAt.isNone).filter
    fun k => keyMac (macInput k) = k.integrityMac

/-- `activate_admin_key`. -/
def activateAdminKey (keyMac : AdminKeyMacInput → String) (clock : Timestamp) (id : Uuid) :
    Handler Unit :=
  execute fun _ db =>
    (.ok (), { db with
      adminKeys := (db.adminKeys.updateOne id (fun k => k.revokedAt.isNone && k.activatedAt.isNone)
        { set := fun k => { k with
            activatedAt := some clock
            integrityMac := keyMac { macInput k with activatedAt := some clock } } }).2 })

/-- `create_admin_session_audited`: the session and the audit row, or neither. -/
def createAdminSessionAudited (hash : ChainHash) (session : AdminSessionRow)
    (entry : NewAdminAudit) : Handler Unit :=
  execute fun now db =>
    if (db.adminKeys.get? session.adminKeyId).isNone then
      (.error (.databaseError "insert or update violates foreign key constraint"), db)
    else
      match db.adminSessions.insert? session, appendAdminAudit hash now entry db.adminAuditLogs with
      | some sessions, .ok logs =>
        (.ok (), { db with adminSessions := sessions, adminAuditLogs := logs })
      | none, _ => (.error uniqueViolation, db)
      | _, .error e => (.error e, db)

/-- `touch_admin_key_last_used`. -/
def touchAdminKeyLastUsed (id : Uuid) : Handler Unit :=
  execute fun now db =>
    (.ok (), { db with
      adminKeys := (db.adminKeys.updateOne id (fun _ => true)
        { set := fun k => { k with lastUsedAt := some now } }).2 })

/-- `admin_challenge`. -/
def adminChallenge (env : AdminEnv) (nonce : String) : Handler String := do
  .ofExcept (adminManager env)
  issueChallenge nonce "admin_login" none adminChallengeTtlSecs

/-- `AdminVerifyRequest`. -/
structure AdminVerifyRequest where
  /-- Signed event. -/
  adminToken : String
  /-- The nonce it binds. -/
  challenge : String

/-- The binding of a login. -/
def adminBinding (env : AdminEnv) (challenge : String) : ActionBinding where
  url := adminVerifyUrl env
  method := "POST"
  purpose := "admin_login"
  nonce := challenge
  payload := env.auth.descriptorSha256
    (requestDescriptor "POST" "/admin/auth/verify" "" env.auth.emptyBodyHash)
  target := none
  instanceId := some (adminInstanceId env)

/-- The first login of a key, before its deadline, activates it. -/
def activateIfPending (env : AdminEnv) (a : AdminAnswers) (key : AdminKeyRow) : Handler Unit :=
  if key.activatedAt.isSome then .ret ()
  else if key.activationDeadline.any fun deadline => deadline < a.clock then .fail adminAuthFail
  else activateAdminKey env.keyMac a.clock key.id

/-- The session of a login, and what is logged of it. -/
def openAdminSession (env : AdminEnv) (a : AdminAnswers) (pubkey : String) (key : AdminKeyRow) :
    Handler AdminTokenPair := do
  let pair ← .ofExcept (a.createTokenPair pubkey a.sessionId)
  createAdminSessionAudited env.chainHash
    { id := a.sessionId
      adminKeyId := key.id
      pubkey := pubkey
      refreshTokenHash := env.auth.hashRefreshToken pair.refreshToken
      accessJti := pair.accessJti
      ipAddress := a.ip
      expiresAt := a.clock + env.refreshTtl
      revokedAt := none }
    { action := "admin_login"
      actorKind := "admin"
      actorPubkeyPrefix := some (pubkeyPrefix pubkey)
      target := none
      details := none
      ipAddress := a.ip }
  touchAdminKeyLastUsed key.id
  return pair

/-- `admin_verify`. -/
def adminVerify (env : AdminEnv) (a : AdminAnswers) (req : AdminVerifyRequest) :
    Handler AdminTokenPair := do
  .ofExcept (adminManager env)
  let pubkey ← .ofExcept ((verifySignedAction env.auth.crypto req.adminToken (adminBinding env req.challenge) a.now adminActionMaxAgeSecs).mapError fun _ => adminAuthFail)
  match ← consumeChallenge req.challenge "admin_login" with
  | none => .fail adminAuthFail
  | some _ =>
    match ← select fun db => db.getActiveAdminKey env.keyMac pubkey with
    | none => .fail adminAuthFail
    | some key => do
      activateIfPending env a key
      openAdminSession env a pubkey key

end SmirkBackend
