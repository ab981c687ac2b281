import SmirkBackend.Auth.Website
import SmirkBackend.Erasure.Requests

/-!
# Sessions

`POST /auth/refresh` trades a refresh token for a new pair: the session of the token is revoked,
then a session of the new pair is created.  `POST /auth/logout` only revokes.

`SessionRequest` is any request that opens or revokes a session.
-/

namespace SmirkBackend

open Lib (Prog)

/-- `Platform::from_str`. -/
def Platform.fromStr (s : String) : Except AppError Platform :=
  match toLowercase s with
  | "extension" => .ok .extension
  | "web" => .ok .web
  | "nostr" => .ok .nostr
  | _ => .error (.validationError ("Invalid platform: " ++ s))

/-- `get_session_by_token_hash`. -/
def Db.getSessionByTokenHash (db : Db) (now : Timestamp) (tokenHash : String) :
    Option SessionRow :=
  db.sessions.rows.find? fun r =>
    r.refreshTokenHash = tokenHash && r.revokedAt.isNone && now < r.expiresAt

theorem SessionRow.key_revoke (now : Timestamp) (r : SessionRow) :
    Lib.key { r with revokedAt := some now } = Lib.key r := rfl

/-- A session, revoked. -/
def SessionRow.revoke (now : Timestamp) : Lib.Patch SessionRow where
  set r := { r with revokedAt := some now }
  key_set := SessionRow.key_revoke now

/-- `UPDATE sessions SET revoked_at = NOW() WHERE id = … AND revoked_at IS NULL`. -/
def Db.revokeSession (now : Timestamp) (session : Uuid) (db : Db) : Bool × Db :=
  let (row, t) := db.sessions.updateOne session (fun r => r.revokedAt.isNone) (SessionRow.revoke now)
  (row.isSome, { db with sessions := t })

/-- `revoke_session`: whether the session was there and not revoked. -/
def revokeSession (session : Uuid) : Handler Bool :=
  execute fun now db => (.ok (db.revokeSession now session).1, (db.revokeSession now session).2)

/-- `cleanup_expired_sessions`. -/
def Db.cleanupExpiredSessions (now : Timestamp) (db : Db) : Db :=
  { db with sessions := db.sessions.deleteWhere fun r => r.expiresAt < now }

/-- `update_user_last_seen`, of a column that is not kept. -/
def updateUserLastSeen : Handler Unit := execute fun _ db => (.ok (), db)

/-- The answer to every bad token. -/
def invalidToken : AppError := .authError "Invalid or expired token"

/-- The session of a refresh token. -/
def sessionOfToken (env : AuthEnv) (token : String) : Handler (Option SessionRow) :=
  .read dbFault fun w => w.db.getSessionByTokenHash w.now (env.hashRefreshToken token)

/-- Revoke the session, then issue its successor. -/
def rotateSession (env : AuthEnv) (a : Answers) (session : SessionRow) (user : UserRow)
    (platform : Platform) : Handler AuthResponse := do
  if ← revokeSession session.id then
    let pair ← issueSession env a user.id platform (session.deviceInfo.getD "unknown")
    updateUserLastSeen
    return ⟨pair.accessToken, pair.refreshToken, pair.expiresIn, userInfo user, false⟩
  else .fail invalidToken

/-- `refresh_token`; `verified` is what the token's signature says: the user and the session. -/
def refreshToken (env : AuthEnv) (a : Answers) (verified : Except AppError (Uuid × Uuid))
    (token : String) : Handler AuthResponse := do
  let (u, _) ← .ofExcept verified
  match ← sessionOfToken env token with
  | none => .fail invalidToken
  | some session =>
    if session.userId ≠ u then .fail invalidToken
    else
      match ← select fun db => db.users.get? u with
      | none => .fail invalidToken
      | some user => do
        let platform ← .ofExcept (Platform.fromStr session.platform)
        rotateSession env a session user platform

/-- `logout`: an unknown token is no error, and neither is a failure to revoke. -/
def logout (env : AuthEnv) (token : String) : Handler Unit := do
  match ← sessionOfToken env token with
  | none => .ret ()
  | some session => executeIgnored fun now db => (db.revokeSession now session.id).2

/-! ### Every request that opens or revokes a session -/

/-- The requests that open or revoke sessions. -/
inductive SessionRequest
  | extension (a : Answers) (req : ExtensionRegisterRequest)
  | nostrLogin (a : Answers) (authorization : Option String)
  | nostrRegister (a : Answers) (req : NostrRegisterRequest)
  | website (a : WebsiteAnswers) (req : WebsiteVerifyRequest)
  | refresh (a : Answers) (verified : Except AppError (Uuid × Uuid)) (token : String)
  | logout (token : String)
  | confirmErasure (a : ErasureAnswers) (id : Uuid) (body : ProofRequest)

/-- What these requests take from the instance. -/
structure SessionEnv where
  /-- What the erasure handlers take, and the hashes and checks of all. -/
  erasure : ErasureEnv
  /-- `verify_ed25519_signature`: message, signature, key. -/
  verifyEd25519Signature : String → String → String → Except AppError Unit
  /-- `str::to_lowercase` with the tables of Unicode. -/
  lowercase : String → String

/-- The hashes and checks of all handlers. -/
def SessionEnv.auth (env : SessionEnv) : AuthEnv := env.erasure.auth

/-- What website sign-in takes. -/
def SessionEnv.website (env : SessionEnv) : WebsiteEnv where
  auth := env.auth
  verifyEd25519Signature := env.verifyEd25519Signature
  lowercase := env.lowercase

/-- The answers of these requests. -/
inductive SessionAnswer
  | signedIn (r : AuthResponse)
  | loggedOut
  | confirmed (r : ErasureRequestRow)

namespace SessionRequest

/-- The answer to a login. -/
def signedIn (p : Handler AuthResponse) : Handler SessionAnswer := do
  let r ← p
  return .signedIn r

/-- The program of a request. -/
def program (env : SessionEnv) : SessionRequest → Handler SessionAnswer
  | extension a req => signedIn (extensionRegister env.auth a req)
  | nostrLogin a authorization => signedIn (SmirkBackend.nostrLogin env.auth a authorization)
  | nostrRegister a req => signedIn (SmirkBackend.nostrRegister env.auth a req)
  | website a req => signedIn (websiteVerify env.website a req)
  | refresh a verified token => signedIn (refreshToken env.auth a verified token)
  | logout token => do
    SmirkBackend.logout env.auth token
    return .loggedOut
  | confirmErasure a id body => do
    let r ← SmirkBackend.confirmErasure env.erasure a id body
    return .confirmed r

/-- The generated identifiers and minted tokens of a request that opens a session. -/
def answers : SessionRequest → Option Answers
  | extension a _ => some a
  | nostrLogin a _ => some a
  | nostrRegister a _ => some a
  | website a _ => some a.auth
  | refresh a _ _ => some a
  | logout _ => none
  | confirmErasure _ _ _ => none

/-- The token that a refresh presents. -/
def presentedToken : SessionRequest → Option String
  | refresh _ _ token => some token
  | _ => none

end SessionRequest

end SmirkBackend
