import SmirkBackend.Admin.Keys
import SmirkBackend.Admin.ConfigPut

/-!
# The operators at work

Operators sign in, renew their access tokens, sign out, and add, revoke and rotate entries of the
allowlist, over the network or from the command line.  Over the network every change is made for
the operator that the guard admits, the number of entries is capped, and the last entry is not
revoked; the command line is not bound by either.

`AdminCall` is any of these requests and commands, and `OperatorEnv` what an instance is given.
-/

namespace SmirkBackend

open Lib (Prog Table)

/-- What the operators' handlers take from the instance. -/
structure OperatorEnv where
  /-- The operator's surface. -/
  admin : AdminEnv
  /-- What keyed hashes are computed with. -/
  integrity : Integrity
  /-- `max_keys`. -/
  maxKeys : UInt32
  /-- `pending_key_ttl_days`. -/
  pendingKeyTtlDays : UInt32
  /-- `str::to_lowercase`. -/
  lowercase : String → String
  /-- Entries are checked with the hash that signs them. -/
  keyMac : admin.keyMac = integrity.keyMac
  /-- Audit rows too. -/
  chainHash : admin.chainHash = integrity.chain

/-- `max_keys as i64`. -/
def OperatorEnv.maxLive (env : OperatorEnv) : Int64 := Int64.ofNat env.maxKeys.toNat

/-! ### Sessions -/

/-- `find_active_admin_session_by_id`. -/
def Db.findActiveAdminSessionById (db : Db) (now : Timestamp) (id : Uuid) :
    Option AdminSessionRow :=
  (db.adminSessions.get? id).filter fun s => s.revokedAt.isNone && now < s.expiresAt

/-- The statement of `rotate_admin_session_jti`. -/
def renewSession (now : Timestamp) (id : Uuid) (jti : String) (t : Table AdminSessionRow) :
    Option AdminSessionRow × Table AdminSessionRow :=
  t.updateOne id (fun s => s.revokedAt.isNone && now < s.expiresAt)
    { set := fun s => { s with accessJti := jti } }

/-- The statement of `revoke_admin_session`. -/
def endSession (now : Timestamp) (id : Uuid) (t : Table AdminSessionRow) : Table AdminSessionRow :=
  (t.updateOne id (fun s => s.revokedAt.isNone) (endPatch now)).2

/-- A minted access token. -/
structure AdminAccessToken where
  /-- The token. -/
  token : String
  /-- Its identifier. -/
  jti : String
  /-- Its validity, in seconds. -/
  expiresIn : Int64

/-- What a renewal meets outside the database. -/
structure RefreshAnswers where
  /-- `verify_refresh` of the presented token: the key and the session. -/
  verifyRefresh : Except AppError (String × Uuid)
  /-- `mint_access_token`. -/
  mintAccessToken : String → Except AppError AdminAccessToken

/-- `admin_refresh`. -/
def adminRefresh (env : OperatorEnv) (a : RefreshAnswers) (refreshToken : String) :
    Handler AdminTokenPair := do
  .ofExcept (adminManager env.admin)
  let (pubkey, sessionId) ← .ofExcept (a.verifyRefresh.mapError fun _ => adminAuthFail)
  let key ← .orFail adminAuthFail <|
    (← select fun db => db.getActiveAdminKey env.admin.keyMac pubkey).filter
      fun k => k.activatedAt.isSome
  let session ← .orFail adminAuthFail <|
    (← .read dbFault fun w => w.db.findActiveAdminSessionById w.now sessionId)
  if env.admin.auth.hashRefreshToken refreshToken ≠ session.refreshTokenHash ∨
      session.adminKeyId ≠ key.id then .fail adminAuthFail
  else do
    let access ← .ofExcept (a.mintAccessToken pubkey)
    let _ ← .orFail adminAuthFail <|
      (← execute fun now db =>
        (.ok (renewSession now sessionId access.jti db.adminSessions).1,
          { db with
            adminSessions := (renewSession now sessionId access.jti db.adminSessions).2 }))
    return ⟨access.token, refreshToken, access.expiresIn, access.jti⟩

/-- An audit row of an operator. -/
def operatorAudit (ctx : AdminContext) (action : String) (target : Option String) :
    NewAdminAudit :=
  ⟨action, "admin", some (pubkeyPrefix ctx.pubkey), target, none, none⟩

/-- `admin_logout`, once the guard has admitted the request. -/
def endOwnSession (env : OperatorEnv) (ctx : AdminContext) : Handler Unit := do
  execute fun now db =>
    (.ok (), { db with adminSessions := endSession now ctx.sessionId db.adminSessions })
  executeIgnored fun now db =>
    match appendAdminAudit env.integrity.chain now (operatorAudit ctx "admin_logout" none)
        db.adminAuditLogs with
    | .ok logs => { db with adminAuditLogs := logs }
    | .error _ => db

/-- `admin_logout`. -/
def adminLogout (env : OperatorEnv) (bearer : Except AppError AdminTokenInfo) : Handler Unit := do
  let ctx ← adminGuard env.admin bearer
  endOwnSession env ctx

/-! ### The allowlist over the network -/

/-- `validate_admin_pubkey`. -/
def validateAdminPubkey (pubkey : String) : Except AppError Unit :=
  if pubkey.utf8ByteSize = 64 ∧
      pubkey.toList.all fun c => ('0' ≤ c && c ≤ '9') || ('a' ≤ c && c ≤ 'f') then .ok ()
  else .error (.validationError "pubkey must be 64 lowercase hex chars")

/-- `pending_key`. -/
def networkKey (env : OperatorEnv) (clock : Timestamp) (pubkey : String) : NewAdminKey where
  pubkey := pubkey
  scope := "admin"
  activationDeadline := some (clock + days env.pendingKeyTtlDays.toNat)

/-- What a change of the allowlist generates. -/
structure KeyAnswers where
  /-- Of the transaction. -/
  generated : Generated
  /-- When a rotated entry is revoked. -/
  revokedAt : Timestamp
  /-- The clock when the time for the first login begins. -/
  clock : Timestamp

/-- `admin_keys_add`, once the guard has admitted the request. -/
def addKey (env : OperatorEnv) (a : KeyAnswers) (pubkey : String) (ctx : AdminContext) :
    Handler AdminKeyRow := do
  .ofExcept (validateAdminPubkey (env.lowercase pubkey))
  match ← execute fun _ db =>
      createAdminKeyAudited env.integrity a.generated
        (networkKey env a.clock (env.lowercase pubkey))
        (operatorAudit ctx "admin_key_added" (some (pubkeyPrefix (env.lowercase pubkey))))
        env.maxLive db with
  | .created key => return key
  | .capReached => .fail (.forbidden "admin key limit reached; revoke an existing key first")

/-- `admin_keys_add`. -/
def adminKeysAdd (env : OperatorEnv) (bearer : Except AppError AdminTokenInfo) (a : KeyAnswers)
    (pubkey : String) : Handler AdminKeyRow := do
  let ctx ← adminGuard env.admin bearer
  addKey env a pubkey ctx

/-- The error of a change of an entry that is not there. -/
def keyNotFound : AppError := .notFound "admin key not found or already revoked"

/-- `admin_keys_revoke`, once the guard has admitted the request. -/
def revokeKey (env : OperatorEnv) (g : Generated) (id : Uuid) (ctx : AdminContext) :
    Handler Unit := do
  match ← execute fun _ db =>
      revokeAdminKeyFull env.integrity g id
        (operatorAudit ctx "admin_key_revoked" (some (uuidText id))) true db with
  | .revoked _ => return ()
  | .notFound => .fail keyNotFound
  | .wouldEmptyAllowlist =>
    .fail (.forbidden "refusing to revoke the last admin key over the network; use the CLI")

/-- `admin_keys_revoke`. -/
def adminKeysRevoke (env : OperatorEnv) (bearer : Except AppError AdminTokenInfo) (g : Generated)
    (id : Uuid) : Handler Unit := do
  let ctx ← adminGuard env.admin bearer
  revokeKey env g id ctx

/-- `admin_keys_rotate`, once the guard has admitted the request. -/
def rotateKey (env : OperatorEnv) (a : KeyAnswers) (id : Uuid) (pubkey : String)
    (ctx : AdminContext) : Handler AdminKeyRow := do
  .ofExcept (validateAdminPubkey (env.lowercase pubkey))
  let created ← execute fun _ db =>
    rotateAdminKey env.integrity a.revokedAt a.generated id
      (networkKey env a.clock (env.lowercase pubkey))
      (operatorAudit ctx "admin_key_rotated" (some (uuidText id))) db
  .orFail keyNotFound created

/-- `admin_keys_rotate`. -/
def adminKeysRotate (env : OperatorEnv) (bearer : Except AppError AdminTokenInfo) (a : KeyAnswers)
    (id : Uuid) (pubkey : String) : Handler AdminKeyRow := do
  let ctx ← adminGuard env.admin bearer
  rotateKey env a id pubkey ctx

/-! ### The command line -/

/-- A message of the command line, which has no kinds of errors. -/
def cliError (message : String) : AppError := .internal message

/-- `cli_audit`. -/
def cliAudit (action : String) (target : Option String) : NewAdminAudit :=
  ⟨action, "cli", none, target, none, none⟩

/-- `validate_pubkey`. -/
def validatePubkey (env : OperatorEnv) (pubkey : String) : Except AppError String :=
  match validateAdminPubkey (env.lowercase pubkey) with
  | .ok _ => .ok (env.lowercase pubkey)
  | .error _ => .error (cliError "pubkey must be 64 lowercase hex chars")

/-- An entry added from the command line has no deadline. -/
def cliKey (pubkey : String) : NewAdminKey := ⟨pubkey, "admin", none⟩

/-- `add_key`. -/
def cliAddKey (env : OperatorEnv) (g : Generated) (pubkey : String) : Handler Unit := do
  let pk ← .ofExcept (validatePubkey env pubkey)
  match ← execute fun _ db =>
      createAdminKeyAudited env.integrity g (cliKey pk) (cliAudit "admin_key_added" (some pk))
        Int64.maxValue db with
  | .created _ => return ()
  | .capReached => .fail (cliError "unexpected: cap reached")

/-- The call of `revoke_admin_key_full` of the command line. -/
def cliRevoke (env : OperatorEnv) (g : Generated) (id : Uuid) : Handler RevokeKeyOutcome :=
  execute fun _ db =>
    revokeAdminKeyFull env.integrity g id (cliAudit "admin_key_revoked" (some (uuidText id)))
      false db

/-- `revoke_key`. -/
def cliRevokeKey (env : OperatorEnv) (g : Generated) (id : Uuid) : Handler Unit := do
  match ← cliRevoke env g id with
  | .revoked _ => return ()
  | .notFound => .fail (cliError "key not found or already revoked")
  | .wouldEmptyAllowlist => .fail (cliError "keep_min_live is false")

/-- The entries of a list that `--revoke-all` revokes, one after the other. -/
def cliRevokeOthers (env : OperatorEnv) (g : Uuid → Generated) (created : Uuid) :
    List AdminKeyRow → Handler Unit
  | [] => .ret ()
  | k :: rest =>
    if k.revokedAt.isSome ∨ k.id = created then cliRevokeOthers env g created rest
    else do
      let _ ← cliRevoke env (g k.id) k.id
      cliRevokeOthers env g created rest

/-- `list_admin_keys`: newest first. -/
def Db.listAdminKeys (db : Db) : List AdminKeyRow :=
  db.adminKeys.select (fun _ => true) fun a b => b.createdAt ≤ a.createdAt

/-- `replace_key`. -/
def cliReplaceKey (env : OperatorEnv) (a : KeyAnswers) (others : Uuid → Generated) (old : Uuid)
    (pubkey : String) (revokeAll : Bool) : Handler Unit := do
  let pk ← .ofExcept (validatePubkey env pubkey)
  let created ← .orFail (cliError "old key not found or already revoked") <|
    (← execute fun _ db =>
      rotateAdminKey env.integrity a.revokedAt a.generated old (cliKey pk)
        (cliAudit "admin_key_rotated" (some (uuidText old))) db)
  if revokeAll then do
    let keys ← select fun db => db.listAdminKeys
    cliRevokeOthers env others created.id keys
  else .ret ()

/-! ### Calls -/

/-- A request of an operator, or a command. -/
inductive AdminCall
  | challenge (nonce : String)
  | verify (a : AdminAnswers) (req : AdminVerifyRequest)
  | refresh (a : RefreshAnswers) (refreshToken : String)
  | logout (bearer : Except AppError AdminTokenInfo)
  | me (bearer : Except AppError AdminTokenInfo)
  | add (bearer : Except AppError AdminTokenInfo) (a : KeyAnswers) (pubkey : String)
  | revoke (bearer : Except AppError AdminTokenInfo) (g : Generated) (id : Uuid)
  | rotate (bearer : Except AppError AdminTokenInfo) (a : KeyAnswers) (id : Uuid) (pubkey : String)
  | cliAdd (g : Generated) (pubkey : String)
  | cliRevoke (g : Generated) (id : Uuid)
  | cliReplace (a : KeyAnswers) (others : Uuid → Generated) (old : Uuid) (pubkey : String)
      (revokeAll : Bool)

/-- What is run for a call. -/
def AdminCall.handler (env : OperatorEnv) : AdminCall → Handler Unit
  | challenge nonce => do
    let _ ← adminChallenge env.admin nonce
    return ()
  | verify a req => do
    let _ ← adminVerify env.admin a req
    return ()
  | refresh a refreshToken => do
    let _ ← adminRefresh env a refreshToken
    return ()
  | logout bearer => adminLogout env bearer
  | me bearer => do
    let _ ← adminGuard env.admin bearer
    return ()
  | add bearer a pubkey => do
    let _ ← adminKeysAdd env bearer a pubkey
    return ()
  | revoke bearer g id => adminKeysRevoke env bearer g id
  | rotate bearer a id pubkey => do
    let _ ← adminKeysRotate env bearer a id pubkey
    return ()
  | cliAdd g pubkey => cliAddKey env g pubkey
  | cliRevoke g id => cliRevokeKey env g id
  | cliReplace a others old pubkey revokeAll => cliReplaceKey env a others old pubkey revokeAll

/-- The call comes over the network. -/
def AdminCall.overNetwork : AdminCall → Bool
  | cliAdd _ _ => false
  | cliRevoke _ _ => false
  | cliReplace _ _ _ _ _ => false
  | _ => true

/-- The bearer token that the guard of a call checks. -/
def AdminCall.bearer? : AdminCall → Option (Except AppError AdminTokenInfo)
  | logout bearer => some bearer
  | me bearer => some bearer
  | add bearer _ _ => some bearer
  | revoke bearer _ _ => some bearer
  | rotate bearer _ _ _ => some bearer
  | _ => none

/-- What a call does once its guard has admitted it. -/
def AdminCall.body (env : OperatorEnv) : AdminCall → AdminContext → Handler Unit
  | logout _, ctx => endOwnSession env ctx
  | add _ a pubkey, ctx => do
    let _ ← addKey env a pubkey ctx
    return ()
  | revoke _ g id, ctx => revokeKey env g id ctx
  | rotate _ a id pubkey, ctx => do
    let _ ← rotateKey env a id pubkey ctx
    return ()
  | _, _ => .ret ()

/-- A guarded call asks its guard first. -/
theorem AdminCall.handler_guarded {env : OperatorEnv} {q : AdminCall}
    {bearer : Except AppError AdminTokenInfo} (h : q.bearer? = some bearer) :
    q.handler env = adminGuard env.admin bearer >>= q.body env := by
  cases q with
  | logout b =>
    obtain rfl := Option.some.inj h
    rfl
  | me b =>
    obtain rfl := Option.some.inj h
    rfl
  | add b a pubkey =>
    obtain rfl := Option.some.inj h
    exact Prog.bind_bind _ _ _
  | revoke b g id =>
    obtain rfl := Option.some.inj h
    rfl
  | rotate b a id pubkey =>
    obtain rfl := Option.some.inj h
    exact Prog.bind_bind _ _ _
  | _ => simp [AdminCall.bearer?] at h

/-! ### What the transactions do -/

theorem createAdminKeyAudited_cases (env : Integrity) (g : Generated) (input : NewAdminKey)
    (audit : NewAdminAudit) (maxLive : Int64) (db : Db) :
    (createAdminKeyAudited env g input audit maxLive db).2 = db ∨
      ∃ keys logs, (liveKeyCount db.adminKeys : ℤ) < maxLive.toInt ∧
        insertAdminKey env g input db.adminKeys = .ok keys ∧
        (createAdminKeyAudited env g input audit maxLive db).2 =
          { db with adminKeys := keys, adminAuditLogs := logs } := by
  unfold createAdminKeyAudited
  split_ifs with hcap
  · exact .inl rfl
  · cases hins : insertAdminKey env g input db.adminKeys with
    | error e => exact .inl rfl
    | ok keys =>
      cases appendAdminAudit env.chain g.auditTime audit db.adminAuditLogs with
      | error e => exact .inl rfl
      | ok logs => exact .inr ⟨keys, logs, not_le.mp hcap, rfl, rfl⟩

theorem revokeAdminKeyFull_cases (env : Integrity) (g : Generated) (id : Uuid)
    (audit : NewAdminAudit) (keepMinLive : Bool) (db : Db) :
    (revokeAdminKeyFull env g id audit keepMinLive db).2 = db ∨
      ∃ k keys logs, (keepMinLive = true → 1 < liveKeyCount db.adminKeys) ∧
        revokeKeys env g.keyTime id db.adminKeys = (some k, keys) ∧
        (revokeAdminKeyFull env g id audit keepMinLive db).2 =
          { db with
            adminKeys := keys
            adminSessions := revokeKeySessions g.now id db.adminSessions
            adminAuditLogs := logs } := by
  unfold revokeAdminKeyFull
  split_ifs with hlast
  · exact .inl rfl
  · rcases hrev : revokeKeys env g.keyTime id db.adminKeys with ⟨_ | k, keys⟩
    · exact .inl rfl
    · cases appendAdminAudit env.chain g.auditTime audit db.adminAuditLogs with
      | error e => exact .inl rfl
      | ok logs =>
        refine .inr ⟨k, keys, logs, fun hkeep => ?_, rfl, rfl⟩
        simpa [hkeep] using hlast

theorem rotateAdminKey_cases (env : Integrity) (revokedAt : Timestamp) (g : Generated) (old : Uuid)
    (new : NewAdminKey) (audit : NewAdminAudit) (db : Db) :
    (rotateAdminKey env revokedAt g old new audit db).2 = db ∨
      ∃ k keys keys' logs, revokeKeys env revokedAt old db.adminKeys = (some k, keys) ∧
        insertAdminKey env g new keys = .ok keys' ∧
        (rotateAdminKey env revokedAt g old new audit db).2 =
          { db with
            adminKeys := keys'
            adminSessions := revokeKeySessions g.now old db.adminSessions
            adminAuditLogs := logs } := by
  unfold rotateAdminKey
  rcases revokeKeys env revokedAt old db.adminKeys with ⟨_ | k, keys⟩
  · exact .inl rfl
  · simp only
    cases hins : insertAdminKey env g new keys with
    | error e => exact .inl rfl
    | ok keys' =>
      cases appendAdminAudit env.chain g.auditTime audit db.adminAuditLogs with
      | error e => exact .inl rfl
      | ok logs => exact .inr ⟨k, keys, keys', logs, rfl, hins, rfl⟩

/-! ### What leaves the operators alone -/

/-- Entries and sessions stay as they are, and time goes on. -/
structure OperatorsIdle (w w' : World) : Prop where
  /-- The allowlist. -/
  keys : w'.db.adminKeys = w.db.adminKeys
  /-- The sessions. -/
  sessions : w'.db.adminSessions = w.db.adminSessions
  /-- The clock. -/
  now : w.now ≤ w'.now

theorem OperatorsIdle.refl (w : World) : OperatorsIdle w w := ⟨rfl, rfl, le_rfl⟩

theorem steps_consumeChallenge_idle (nonce purpose : String) :
    (consumeChallenge nonce purpose).Steps OperatorsIdle :=
  Prog.steps_query fun _ => ⟨rfl, rfl, le_rfl⟩

theorem steps_adminChallenge (env : AdminEnv) (nonce : String) :
    (adminChallenge env nonce).Steps OperatorsIdle := by
  refine (Prog.steps_ofExcept _).bind fun _ => Prog.Steps.bind ?_ fun _ => trivial
  refine Prog.steps_query fun w => ?_
  simp only
  split <;> exact ⟨rfl, rfl, le_rfl⟩

theorem AdminCall.steps_guarded {env : OperatorEnv} {q : AdminCall}
    {bearer : Except AppError AdminTokenInfo} (h : q.bearer? = some bearer)
    {R : World → World → Prop} (hrefl : ∀ w, R w w) (hbody : ∀ ctx, (q.body env ctx).Steps R) :
    (q.handler env).Steps R := by
  rw [AdminCall.handler_guarded h]
  refine Prog.Steps.bind ((steps_adminGuard _ _).mono ?_) hbody
  rintro w _ rfl
  exact hrefl _

/-- Keyed hashes that are the messages. -/
def openIntegrity : Integrity := ⟨fun m => m, .bits⟩

/-- An instance that computes them. -/
def sampleOperators : OperatorEnv where
  admin := ⟨sampleEnv, true, "https://admin", id, openIntegrity.keyMac, openIntegrity.chain, days 30⟩
  integrity := openIntegrity
  maxKeys := 8
  pendingKeyTtlDays := 7
  lowercase := id
  keyMac := rfl
  chainHash := rfl

end SmirkBackend
