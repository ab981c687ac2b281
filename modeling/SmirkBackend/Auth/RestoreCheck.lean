import Mathlib.Data.List.Sort
import SmirkBackend.Auth.ClientIp
import SmirkBackend.Auth.Users

/-!
# The restore check

A wallet asks whether a seed fingerprint is known and its keys match.  Two governors run before the
lookup: the attempts from one address and the failed attempts against one fingerprint, both of the
last hour.  The attempt is recorded after the lookup, by a statement whose failure is ignored.

The keyed hash of an address is a parameter, as is the pepper.

A request only adds attempts (`restoreSteps_checkRestore`), and `path_checkRestore` says what one
that is answered has read and recorded.
-/

namespace SmirkBackend

open Lib (Table Prog)

/-! ### Attempts -/

/-- A recorded attempt. -/
structure RestoreAttemptRow where
  /-- Primary key. -/
  id : Uuid
  /-- Peppered fingerprint. -/
  fingerprint : String
  /-- Keyed hash of the address. -/
  ipHash : Option String
  /-- The wallet is known and the keys match. -/
  success : Bool
  /-- Creation. -/
  createdAt : Timestamp
  deriving DecidableEq

instance : Lib.HasKey RestoreAttemptRow Uuid := ⟨RestoreAttemptRow.id⟩

/-- The table of attempts, and the rest of the database with the clock. -/
structure RestoreWorld where
  /-- Users, keys and the clock. -/
  world : World
  /-- `restore_attempts` -/
  attempts : Table RestoreAttemptRow

/-- An action of a restore check. -/
abbrev RestoreHandler (α : Type) := Prog RestoreWorld AppError α

/-- What a restore check needs of its instance. -/
structure RestoreEnv where
  /-- Keyed hash of the stored columns. -/
  pepper : Pepper
  /-- `hash_ip`. -/
  hashIp : String → String
  /-- Proxies whose header counts. -/
  trustedProxies : List IpNetwork

/-- `RESTORE_FAIL_THRESHOLD`. -/
def restoreFailThreshold : ℕ := 3

/-- `RESTORE_IP_THRESHOLD`. -/
def restoreIpThreshold : ℕ := 30

/-- An hour. -/
def hour : ℤ := seconds 3600

/-! ### Statements -/

/-- The attempts of the last hour among the selected ones. -/
def RestoreWorld.recent (w : RestoreWorld) (sel : RestoreAttemptRow → Bool) :
    List RestoreAttemptRow :=
  w.attempts.rows.filter fun r => sel r && r.createdAt > w.world.now - hour

/-- The attempts from an address. -/
def fromIp (env : RestoreEnv) (ip : String) (r : RestoreAttemptRow) : Bool :=
  r.ipHash = some (env.hashIp ip)

/-- The failed attempts against a fingerprint. -/
def failedAgainst (env : RestoreEnv) (fingerprint : String) (r : RestoreAttemptRow) : Bool :=
  r.fingerprint = env.pepper "restore_fingerprint" fingerprint && !r.success

/-- `count_ip_restore_attempts`. -/
def countIpRestoreAttempts (env : RestoreEnv) (ip : String) : RestoreHandler ℕ :=
  .read dbFault fun w => (w.recent (fromIp env ip)).length

/-- `count_failed_restore_attempts`. -/
def countFailedRestoreAttempts (env : RestoreEnv) (fingerprint : String) : RestoreHandler ℕ :=
  .read dbFault fun w => (w.recent (failedAgainst env fingerprint)).length

/-- The row of an attempt. -/
def restoreAttemptRow (env : RestoreEnv) (id : Uuid) (fingerprint ip : String) (success : Bool)
    (now : Timestamp) : RestoreAttemptRow where
  id := id
  fingerprint := env.pepper "restore_fingerprint" fingerprint
  ipHash := some (env.hashIp ip)
  success := success
  createdAt := now

/-- The `INSERT` of an attempt. -/
def RestoreWorld.record (env : RestoreEnv) (id : Uuid) (fingerprint ip : String) (success : Bool)
    (w : RestoreWorld) : RestoreWorld :=
  { w with attempts := (w.attempts.insert?
      (restoreAttemptRow env id fingerprint ip success w.world.now)).getD w.attempts }

/-- `record_restore_attempt`; the caller ignores its failure. The identifier is generated. -/
def recordRestoreAttempt (env : RestoreEnv) (id : Uuid) (fingerprint ip : String)
    (success : Bool) : RestoreHandler Unit :=
  .attempt (.record env id fingerprint ip success)

/-- `cleanup_old_restore_attempts`. -/
def cleanupOldRestoreAttempts (w : RestoreWorld) : RestoreWorld :=
  { w with attempts := w.attempts.deleteWhere fun r => r.createdAt < w.world.now - days 7 }

/-- `get_user_keys`: the keys of a user, ordered by asset. -/
def Db.getUserKeys (db : Db) (u : Uuid) : List UserKeyRow :=
  (db.userKeys.rows.filter fun k => k.userId = u).insertionSort fun k k' =>
    k.asset.ctorIdx ≤ k'.asset.ctorIdx

/-! ### The handler -/

/-- `CheckRestoreRequest`, with where it came from. -/
structure CheckRestoreRequest where
  /-- `X-Forwarded-For`. -/
  xff : Option String
  /-- Address of the TCP peer. -/
  peer : IpAddr
  /-- Fingerprint of the seed. -/
  fingerprint : String
  /-- Public keys to compare. -/
  keys : List AssetPublicKey

/-- `CheckRestoreResponse`. -/
structure CheckRestoreResponse where
  /-- The fingerprint is known. -/
  found : Bool
  /-- The keys match, if it is known. -/
  keysValid : Option Bool
  /-- Height the XMR wallet starts at. -/
  xmrStartHeight : Option Int64
  /-- Height the WOW wallet starts at. -/
  wowStartHeight : Option Int64
  deriving DecidableEq

/-- The address a request is counted under. -/
def CheckRestoreRequest.ip (req : CheckRestoreRequest) (env : RestoreEnv) : IpAddr :=
  clientIp env.trustedProxies req.xff req.peer

/-- The response is that of a failed attempt. -/
def CheckRestoreResponse.failed (resp : CheckRestoreResponse) : Bool :=
  resp.keysValid ≠ some true

/-- A fingerprint of 16 or 64 hexadecimal digits. -/
def validFingerprint (fingerprint : String) : Bool :=
  fingerprint.toList.all (fun c => (toDigit 16 c).isSome) &&
    (fingerprint.utf8ByteSize = 16 || fingerprint.utf8ByteSize = 64)

/-- The submitted keys all match, and there is one. -/
def allMatch (stored : List UserKeyRow) (keys : List AssetPublicKey) : Bool :=
  !keys.isEmpty && keys.all fun submitted =>
    match parseAsset submitted.asset with
    | .error _ => false
    | .ok asset =>
      (stored.find? fun k => k.asset = asset).any fun k => k.publicKey = submitted.publicKey

/-- The keys of the user, if there is one. -/
def storedKeys (user : Option UserRow) : RestoreHandler (List UserKeyRow) :=
  match user with
  | some u => .read dbFault fun w => w.world.db.getUserKeys u.id
  | none => pure []

/-- What the lookup found, recorded and answered. -/
def answerRestore (env : RestoreEnv) (id : Uuid) (req : CheckRestoreRequest) (ip : String)
    (user : Option UserRow) (stored : List UserKeyRow) : RestoreHandler CheckRestoreResponse :=
  match user with
  | none => do
    recordRestoreAttempt env id req.fingerprint ip false
    pure ⟨false, none, none, none⟩
  | some u => do
    recordRestoreAttempt env id req.fingerprint ip (allMatch stored req.keys)
    pure ⟨true, some (allMatch stored req.keys), u.xmrStartHeight, u.wowStartHeight⟩

/-- `check_restore`. -/
def checkRestore (env : RestoreEnv) (id : Uuid) (req : CheckRestoreRequest) :
    RestoreHandler CheckRestoreResponse := do
  let ip := (req.ip env).text
  if !validFingerprint req.fingerprint then
    .fail (.validationError "Invalid fingerprint format (expected 16 or 64 hex characters)")
  else
    let ipAttempts ← countIpRestoreAttempts env ip
    if ipAttempts ≥ restoreIpThreshold then .fail .rateLimited
    else
      let failed ← countFailedRestoreAttempts env req.fingerprint
      if failed ≥ restoreFailThreshold then .fail .rateLimited
      else
        let user ← .read dbFault fun w =>
          w.world.db.getUserBySeedFingerprint env.pepper req.fingerprint
        let stored ← storedKeys user
        answerRestore env id req ip user stored

/-- Beside the checks: users and keys change, time passes, and old attempts are deleted. -/
def RestoreIdle (w w' : RestoreWorld) : Prop :=
  w.world.now ≤ w'.world.now ∧
    (w'.attempts = w.attempts ∨ w'.attempts = (cleanupOldRestoreAttempts w).attempts)

/-! ### What a request does -/

/-- Attempts are added. -/
def RestoreStep (w w' : RestoreWorld) : Prop :=
  w'.world.now = w.world.now ∧ w.attempts.rows ⊆ w'.attempts.rows

theorem RestoreStep.refl (w : RestoreWorld) : RestoreStep w w := ⟨rfl, fun _ h => h⟩

theorem record_ne {env : RestoreEnv} {id : Uuid} {fingerprint ip : String} {success : Bool}
    {w : RestoreWorld} (h : w.record env id fingerprint ip success ≠ w) :
    w.attempts.get? id = none ∧ (w.record env id fingerprint ip success).attempts.rows =
      w.attempts.rows ++ [restoreAttemptRow env id fingerprint ip success w.world.now] := by
  cases hinsert : w.attempts.insert?
      (restoreAttemptRow env id fingerprint ip success w.world.now) with
  | none => simp [RestoreWorld.record, hinsert] at h
  | some attempts =>
    obtain ⟨hfree, hrows⟩ := Table.insert?_eq_some_iff.mp hinsert
    exact ⟨hfree, by simp [RestoreWorld.record, hinsert, hrows]⟩

theorem restoreStep_record (env : RestoreEnv) (id : Uuid) (fingerprint ip : String)
    (success : Bool) (w : RestoreWorld) :
    RestoreStep w (w.record env id fingerprint ip success) := by
  refine ⟨rfl, ?_⟩
  by_cases hsame : w.record env id fingerprint ip success = w
  · rw [hsame]
    exact fun _ h => h
  · rw [(record_ne hsame).2]
    exact List.subset_append_left _ _

theorem restoreSteps_checkRestore (env : RestoreEnv) (id : Uuid) (req : CheckRestoreRequest) :
    (checkRestore env id req).Steps RestoreStep := by
  unfold checkRestore
  split_ifs
  · trivial
  · refine (Prog.steps_read RestoreStep.refl).bind fun _ => ?_
    split_ifs
    · trivial
    · refine (Prog.steps_read RestoreStep.refl).bind fun _ => ?_
      split_ifs
      · trivial
      · refine (Prog.steps_read RestoreStep.refl).bind fun user => ?_
        cases user with
        | none => exact (Prog.steps_attempt (restoreStep_record _ _ _ _ _)).bind fun _ => trivial
        | some u =>
          refine (Prog.steps_read RestoreStep.refl).bind fun _ => ?_
          exact (Prog.steps_attempt (restoreStep_record _ _ _ _ _)).bind fun _ => trivial

theorem path_answerRestore {env : RestoreEnv} {id : Uuid} {req : CheckRestoreRequest} {ip : String}
    {user : Option UserRow} {stored : List UserKeyRow} {t : List (RestoreWorld × RestoreWorld)}
    {resp : CheckRestoreResponse}
    (h : (answerRestore env id req ip user stored).Path t (.ok resp)) :
    ∃ w w', t = [(w, w')] ∧
      (w' = w.record env id req.fingerprint ip (!resp.failed) ∨ w' = w) := by
  cases user with
  | none =>
    obtain ⟨t₁, t₂, _, rfl, hrecord, hret⟩ := Prog.path_bind_ok h
    cases hret
    obtain ⟨w, rfl | rfl, -⟩ := Prog.path_attempt hrecord
    · exact ⟨w, _, rfl, .inl rfl⟩
    · exact ⟨w, w, rfl, .inr rfl⟩
  | some u =>
    obtain ⟨t₁, t₂, _, rfl, hrecord, hret⟩ := Prog.path_bind_ok h
    cases hret
    obtain ⟨w, rfl | rfl, -⟩ := Prog.path_attempt hrecord
    · refine ⟨w, _, rfl, .inl ?_⟩
      cases hmatch : allMatch stored req.keys <;> simp [CheckRestoreResponse.failed]
    · exact ⟨w, w, rfl, .inr rfl⟩

/-- **A request that is answered** has passed both governors, and its last action is the recording
of its outcome. -/
theorem path_checkRestore {env : RestoreEnv} {id : Uuid} {req : CheckRestoreRequest}
    {t : List (RestoreWorld × RestoreWorld)} {resp : CheckRestoreResponse}
    (h : (checkRestore env id req).Path t (.ok resp)) :
    ∃ x y t' w w', t = (x, x) :: (y, y) :: t' ++ [(w, w')] ∧
      (x.recent (fromIp env (req.ip env).text)).length < restoreIpThreshold ∧
      (y.recent (failedAgainst env req.fingerprint)).length < restoreFailThreshold ∧
      (w' = w.record env id req.fingerprint (req.ip env).text (!resp.failed) ∨ w' = w) := by
  unfold checkRestore at h
  split_ifs at h with hvalid
  · cases h
  obtain ⟨t₁, t₂, ipAttempts, rfl, hcount, h⟩ := Prog.path_bind_ok h
  obtain ⟨x, rfl, hx | hx⟩ := Prog.path_read hcount
  case inr => cases hx
  obtain rfl := Except.ok.inj hx
  split_ifs at h with hip
  · cases h
  obtain ⟨t₃, t₄, failed, rfl, hcount', h⟩ := Prog.path_bind_ok h
  obtain ⟨y, rfl, hy | hy⟩ := Prog.path_read hcount'
  case inr => cases hy
  obtain rfl := Except.ok.inj hy
  split_ifs at h with hfailed
  · cases h
  obtain ⟨t₅, t₆, user, rfl, -, h⟩ := Prog.path_bind_ok h
  obtain ⟨t₇, t₈, stored, rfl, -, h⟩ := Prog.path_bind_ok h
  obtain ⟨w, w', rfl, hrecord⟩ := path_answerRestore h
  exact ⟨x, y, t₅ ++ t₇, w, w', by simp, not_le.mp hip, not_le.mp hfailed, hrecord⟩

end SmirkBackend
