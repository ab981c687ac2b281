import SmirkBackend.Admin.Login
import SmirkBackend.Erasure.Execute

/-!
# Erasure requests

Every step of an erasure is a signed action over a single-use nonce.  The signer's linked user is
the one that is erased; confirming and cancelling also bind the identifier of the request.

`prove` is the shared proof; the handlers are `requestErasure`, `confirmErasure` and
`cancelErasure`.
-/

namespace SmirkBackend

open Lib (Prog)

/-- What the erasure handlers take from the instance. -/
structure ErasureEnv where
  /-- Hashes and checks shared with the other handlers. -/
  auth : AuthEnv
  /-- Erasure is on. -/
  erasureEnabled : Bool
  /-- Hours between confirmation and execution. -/
  gracePeriodHours : ℤ
  /-- `subject_hash`. -/
  subjectHash : String → String
  /-- `synthetic_erasure_id` under the instance's secret. -/
  syntheticErasureId : String → String
  /-- Keyed hash of the audit chain. -/
  chainHash : ChainHash

/-- What a request meets outside the database. -/
structure ErasureAnswers where
  /-- The clock, in seconds, when the proof is checked. -/
  now : Int64
  /-- The clock when the execution is scheduled. -/
  clock : Timestamp
  /-- Generated identifier of a request. -/
  erasureId : Uuid

/-- `ensure_enabled`. -/
def ensureEnabled (env : ErasureEnv) : Except AppError Unit :=
  if env.erasureEnabled then .ok () else .error (.notFound "erasure is not enabled")

/-- `erasure_url`. -/
def erasureUrl (env : ErasureEnv) (path : String) : Except AppError String :=
  match env.auth.publicApiUrl with
  | some base => .ok (trimEndSlashes base ++ path)
  | none => .error (.notFound "erasure is not enabled")

/-- `ACTION_MAX_AGE_SECS`. -/
def erasureActionMaxAgeSecs : Int64 := 120

/-- `CHALLENGE_TTL_SECS`. -/
def erasureChallengeTtlSecs : ℤ := 300

/-- `ProofRequest`. -/
structure ProofRequest where
  /-- Signed event. -/
  token : String
  /-- The nonce it binds. -/
  nonce : String

/-- The purposes of erasure nonces. -/
def erasurePurposes : List String :=
  ["erasure_request", "erasure_confirm", "erasure_cancel", "erasure_export"]

/-- `challenge`. -/
def erasureChallenge (env : ErasureEnv) (purpose nonce : String) : Handler String := do
  .ofExcept (ensureEnabled env)
  if purpose ∈ erasurePurposes then
    issueChallenge nonce purpose none erasureChallengeTtlSecs
  else .fail (.validationError "unknown erasure purpose")

/-- The binding of an erasure step. -/
def erasureBinding (env : ErasureEnv) (url actionPath purpose nonce : String)
    (target : Option (String × String)) : ActionBinding where
  url := url
  method := "POST"
  purpose := purpose
  nonce := nonce
  payload := emptyBodyPayload env.auth ("/api/v1" ++ actionPath)
  target := target
  instanceId := none

/-- The answer to every bad proof. -/
def badErasureProof : AppError := .authError "Invalid erasure proof"

/-- `prove`: check the proof, consume the nonce, find the signer's user. -/
def prove (env : ErasureEnv) (a : ErasureAnswers) (body : ProofRequest)
    (purpose actionPath : String) (target : Option (String × String)) :
    Handler (String × Option UserRow) := do
  let url ← .ofExcept (erasureUrl env actionPath)
  let pubkey ← .ofExcept ((verifySignedAction env.auth.crypto body.token (erasureBinding env url actionPath purpose body.nonce target) a.now erasureActionMaxAgeSecs).mapError fun _ => badErasureProof)
  match ← consumeChallenge body.nonce purpose with
  | none => .fail badErasureProof
  | some _ =>
    let user ← select fun db => db.findUserByNostrPubkey pubkey
    return (pubkey, user)

/-- A request that is pending or confirmed. -/
def ErasureRequestRow.active (r : ErasureRequestRow) : Bool :=
  r.status = .pending || r.status = .confirmed

/-- `active_erasure_request`. -/
def Db.activeErasureRequest (db : Db) (u : Uuid) : Option ErasureRequestRow :=
  db.erasureRequests.rows.find? fun r => r.userId = some u && r.active

/-- The insertion of a request; `none` when the user has a live one already. -/
def insertErasureRequest (id u : Uuid) (subjectHash : String) (scheduledFor : Timestamp) :
    Handler (Option ErasureRequestRow) :=
  execute fun now db =>
    if (db.users.get? u).isNone then
      (.error (.databaseError "insert or update violates foreign key constraint"), db)
    else if (db.activeErasureRequest u).isSome then (.ok none, db)
    else
      let row : ErasureRequestRow :=
        ⟨id, some u, subjectHash, .pending, now, scheduledFor, none, none, none⟩
      match db.erasureRequests.insert? row with
      | some t => (.ok (some row), { db with erasureRequests := t })
      | none => (.ok none, db)

/-- `request_erasure` of the database: get or create; a lost race returns the winner. -/
def getOrCreateErasureRequest (a : ErasureAnswers) (u : Uuid) (subjectHash : String)
    (graceHours : ℤ) : Handler ErasureRequestRow := do
  match ← select fun db => db.activeErasureRequest u with
  | some existing => return existing
  | none =>
    match ← insertErasureRequest a.erasureId u subjectHash (a.clock + seconds (graceHours * 3600)) with
    | some row => return row
    | none =>
      match ← select fun db => db.activeErasureRequest u with
      | some winner => return winner
      | none => .fail (.internal "erasure request race")

/-- `record_admin_audit`; the handlers ignore its failure. -/
def recordErasureAudit (hash : ChainHash) (action : String) (id : Uuid) : Handler Unit :=
  executeIgnored fun now db =>
    match appendAdminAudit hash now ⟨action, "user", none, some (uuidText id), none, none⟩
        db.adminAuditLogs with
    | .ok logs => { db with adminAuditLogs := logs }
    | .error _ => db

/-- `request_erasure`: the identifier of the request. -/
def requestErasure (env : ErasureEnv) (a : ErasureAnswers) (body : ProofRequest) :
    Handler String := do
  .ofExcept (ensureEnabled env)
  let (pubkey, user) ← prove env a body "erasure_request" "/account/erasure" none
  match user with
  | some u => do
    let req ← getOrCreateErasureRequest a u.id (env.subjectHash pubkey) env.gracePeriodHours
    recordErasureAudit env.chainHash "account_erasure_requested" req.id
    return uuidText req.id
  | none => return env.syntheticErasureId pubkey

/-- `confirm_erasure_request`. -/
def confirmErasureRequest (a : ErasureAnswers) (id u : Uuid) (graceHours : ℤ) :
    Handler (Option ErasureRequestRow) :=
  execute fun now db =>
    let (row, t) := db.erasureRequests.updateOne id
      (fun r => r.userId = some u && r.status = .pending)
      { set := fun r => { r with
          status := .confirmed
          confirmedAt := some now
          scheduledFor := a.clock + seconds (graceHours * 3600) } }
    (.ok row, { db with erasureRequests := t })

/-- `cancel_erasure_request`. -/
def cancelErasureRequest (id u : Uuid) : Handler (Option ErasureRequestRow) :=
  execute fun now db =>
    let (row, t) := db.erasureRequests.updateOne id (fun r => r.userId = some u && r.active)
      { set := fun r => { r with status := .cancelled, cancelledAt := some now } }
    (.ok row, { db with erasureRequests := t })

/-- `revoke_all_user_sessions`; the handler ignores its failure. -/
def revokeAllUserSessions (u : Uuid) : Handler Unit :=
  executeIgnored fun now db =>
    { db with
      sessions := db.sessions.updateWhere (fun r => r.userId = u && r.revokedAt.isNone)
        { set := fun r => { r with revokedAt := some now } } }

/-- The path of a confirmation. -/
def confirmPath (id : Uuid) : String := "/account/erasure/" ++ uuidText id ++ "/confirm"

/-- The path of a cancellation. -/
def cancelPath (id : Uuid) : String := "/account/erasure/" ++ uuidText id

/-- `confirm_erasure`. -/
def confirmErasure (env : ErasureEnv) (a : ErasureAnswers) (id : Uuid) (body : ProofRequest) :
    Handler ErasureRequestRow := do
  .ofExcept (ensureEnabled env)
  let (_, user) ← prove env a body "erasure_confirm" (confirmPath id) (some ("erasure_id", uuidText id))
  match user with
  | none => .fail (.notFound "no such erasure request")
  | some user =>
    match ← confirmErasureRequest a id user.id env.gracePeriodHours with
    | none => .fail (.notFound "no pending erasure request")
    | some req => do
      revokeAllUserSessions user.id
      recordErasureAudit env.chainHash "account_erasure_confirmed" req.id
      return req

/-- `cancel_erasure`. -/
def cancelErasure (env : ErasureEnv) (a : ErasureAnswers) (id : Uuid) (body : ProofRequest) :
    Handler ErasureRequestRow := do
  .ofExcept (ensureEnabled env)
  let (_, user) ← prove env a body "erasure_cancel" (cancelPath id) (some ("erasure_id", uuidText id))
  match user with
  | none => .fail (.notFound "no such erasure request")
  | some user =>
    match ← cancelErasureRequest id user.id with
    | none => .fail (.notFound "no live erasure request")
    | some req => do
      recordErasureAudit env.chainHash "account_erasure_cancelled" req.id
      return req

end SmirkBackend
