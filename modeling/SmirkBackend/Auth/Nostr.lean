import SmirkBackend.Auth.Extension

/-!
# Nostr identities and keys

The endpoints that authenticate by a Nostr key, the nonces they consume, and `POST /keys`.  A login
proves control of a linked key; linking and registering are changes of state and consume a nonce
that the server issued for that purpose.
-/

namespace SmirkBackend

open Lib (Prog)

/-! ### Nonces -/

/-- `issue_challenge`; the nonce is generated. -/
def issueChallenge (nonce purpose : String) (subject : Option String) (ttlSecs : ℤ) :
    Handler String := do
  execute fun now db =>
    match db.challenges.insert? ⟨nonce, purpose, subject, now + seconds ttlSecs⟩ with
    | some challenges => (.ok (), { db with challenges := challenges })
    | none => (.error uniqueViolation, db)
  return nonce

/-- A nonce that can be consumed. -/
def ChallengeRow.live (now : Timestamp) (nonce purpose : String) (r : ChallengeRow) : Bool :=
  r.nonce = nonce && r.purpose = purpose && now < r.expiresAt

/-- `consume_challenge`: delete the row and return it. -/
def consumeChallenge (nonce purpose : String) : Handler (Option ChallengeRow) :=
  execute fun now db =>
    (.ok (db.challenges.rows.find? (ChallengeRow.live now nonce purpose)),
      { db with challenges := db.challenges.deleteWhere (ChallengeRow.live now nonce purpose) })

/-- `delete_expired_challenges`. -/
def deleteExpiredChallenges (now : Timestamp) (db : Db) : Db :=
  { db with challenges := db.challenges.deleteWhere fun r => r.expiresAt ≤ now }

/-- A consumed nonce must be there. -/
def requireChallenge (nonce purpose : String) : Handler ChallengeRow := do
  match ← consumeChallenge nonce purpose with
  | some consumed => return consumed
  | none => .fail (.authError "Invalid or expired nonce")

/-! ### Bearer tokens -/

/-- A verified access token. -/
structure TokenInfo where
  /-- Whose token it is. -/
  userId : Uuid
  /-- The session it was minted with. -/
  sessionId : Option Uuid

/-- `extract_user_id_from_token`; `bearer` is what the header and the token's signature say. -/
def extractUserIdFromToken (bearer : Except AppError TokenInfo) : Handler Uuid := do
  let info ← .ofExcept bearer
  match info.sessionId with
  | none => return info.userId
  | some session =>
    if ← .read dbFault fun w => w.db.isSessionLive w.now session then return info.userId
    else .fail (.authError "Invalid or expired token")

/-! ### Login -/

/-- `NIP98_REJECTED_MSG`. -/
def nip98Rejected : AppError :=
  .authError ("Nostr proof rejected. Check that your device date and time are correct, then try " ++
    "again.")

/-- `NIP98_LOGIN_MAX_AGE_SECS`. -/
def nip98LoginMaxAgeSecs : Int64 := 120

/-- `NIP98_ACTION_MAX_AGE_SECS`. -/
def nip98ActionMaxAgeSecs : Int64 := 120

/-- `NOSTR_LINK_NONCE_TTL_SECS`. -/
def nostrLinkNonceTtlSecs : ℤ := 300

/-- `nip98_url`. -/
def nip98Url (publicApiUrl : Option String) (path : String) : Except AppError String :=
  match publicApiUrl with
  | some base => .ok (trimEndSlashes base ++ path)
  | none => .error (.authError "Nostr authentication is not enabled")

/-- Every rejection of a proof reads the same. -/
def opaquely {α : Type} : Except Nip98Error α → Except AppError α :=
  Except.mapError fun _ => nip98Rejected

/-- `nostr_login`; `authorization` is the header, when there is one. -/
def nostrLogin (env : AuthEnv) (a : Answers) (authorization : Option String) :
    Handler AuthResponse :=
  match authorization with
  | none => .fail (.authError "Missing authorization header")
  | some auth => do
    let url ← .ofExcept (nip98Url env.publicApiUrl "/auth/nostr")
    let pubkey ← .ofExcept (opaquely (verifyNip98 env.crypto auth url "POST" a.now nip98LoginMaxAgeSecs))
    match ← select fun db => db.findUserByNostrPubkey pubkey with
    | some user => signIn env a user .nostr "Nostr" "btc" false
    | none => .fail (.authError
        "No account is linked to this Nostr identity. Link it from a signed-in session first.")

/-! ### Signed changes of state -/

/-- The hash a signed request to this path binds: no query, an empty body. -/
def emptyBodyPayload (env : AuthEnv) (path : String) : String :=
  env.descriptorSha256 (requestDescriptor "POST" path "" env.emptyBodyHash)

/-- The binding of a signed `POST` under `/auth/nostr`. -/
def nostrBinding (env : AuthEnv) (url path purpose nonce : String) : ActionBinding where
  url := url
  method := "POST"
  purpose := purpose
  nonce := nonce
  payload := emptyBodyPayload env ("/api/v1" ++ path)
  target := none
  instanceId := none

/-- The proof of a signed change of state. -/
def proveNostr (env : AuthEnv) (a : Answers) (token path purpose nonce : String) :
    Except AppError String := do
  let url ← nip98Url env.publicApiUrl path
  opaquely (verifySignedAction env.crypto token (nostrBinding env url path purpose nonce) a.now nip98ActionMaxAgeSecs)

/-- `nostr_link_challenge`. -/
def nostrLinkChallenge (bearer : Except AppError TokenInfo) (nonce : String) : Handler String := do
  let user ← extractUserIdFromToken bearer
  issueChallenge nonce "nostr_link" (some (uuidText user)) nostrLinkNonceTtlSecs

/-- `NostrLinkRequest`. -/
structure NostrLinkRequest where
  /-- Signed event. -/
  nostrToken : String
  /-- The nonce it binds. -/
  nonce : String

/-- `nostr_link`. -/
def nostrLink (env : AuthEnv) (a : Answers) (bearer : Except AppError TokenInfo)
    (req : NostrLinkRequest) : Handler String := do
  let user ← extractUserIdFromToken bearer
  let consumed ← requireChallenge req.nonce "nostr_link"
  if consumed.subject ≠ some (uuidText user) then .fail (.authError "Invalid or expired nonce")
  let pubkey ← .ofExcept (proveNostr env a req.nostrToken "/auth/nostr/link" "nostr_link" req.nonce)
  setNostrPubkey user pubkey
  recordLoginEvent ⟨a.eventId, some user, "btc", Platform.nostr.asStr, none⟩
  return pubkey

/-- `nostr_register_challenge`. -/
def nostrRegisterChallenge (nonce : String) : Handler String :=
  issueChallenge nonce "nostr_register" none nostrLinkNonceTtlSecs

/-- `NostrRegisterRequest`. -/
structure NostrRegisterRequest where
  /-- Signed event. -/
  nostrToken : String
  /-- The nonce it binds. -/
  nonce : String
  /-- Keys. -/
  keys : List AssetPublicKey
  /-- Name to reserve. -/
  username : Option String
  /-- First use of the wallet, in seconds. -/
  walletBirthday : Option Int64
  /-- Fingerprint of the seed. -/
  seedFingerprint : Option String
  /-- Height the XMR wallet starts at. -/
  xmrStartHeight : Option Int64
  /-- Height the WOW wallet starts at. -/
  wowStartHeight : Option Int64
  /-- Solution of the proof of work. -/
  altchaSolution : Option (Except AppError Unit)
  /-- Presented invite. -/
  inviteCode : Option String
  /-- Presented invoice. -/
  paymentInvoiceId : Option String

/-- The optional values of a request. -/
def NostrRegisterRequest.optionals (req : NostrRegisterRequest) : Optionals where
  walletBirthday := req.walletBirthday.bind fromTimestamp
  seedFingerprint := req.seedFingerprint
  xmrStartHeight := req.xmrStartHeight
  wowStartHeight := req.wowStartHeight

/-- The registration of a new wallet: invoices are bound to the BTC key that comes along. -/
def NostrRegisterRequest.registration (req : NostrRegisterRequest) (env : AuthEnv) (a : Answers)
    (pubkey : String) : Registration where
  gates := env.gates
  hashInviteCode := env.hashInviteCode
  provider := a.provider
  pepper := env.pepper
  boundTo := ((btcKey req.keys).map fun k => env.hashPublicKey k.publicKey).getD pubkey
  new := req.optionals.newUser req.username none (some pubkey)
  keys := req.keys
  inviteCode := req.inviteCode
  paymentInvoiceId := req.paymentInvoiceId

/-- A fingerprint that is on file refuses a new Nostr key. -/
def rejectKnownFingerprint (pepper : Pepper) (fingerprint : Option String) : Handler Unit := do
  match ← fingerprintMatch pepper fingerprint with
  | some _ => .fail alreadyHasAccount
  | none => .ret ()

/-- `nostr_register`. -/
def nostrRegister (env : AuthEnv) (a : Answers) (req : NostrRegisterRequest) :
    Handler AuthResponse := do
  .ofExcept (validateOptional req.username)
  let _ ← requireChallenge req.nonce "nostr_register"
  let pubkey ← .ofExcept (proveNostr env a req.nostrToken "/auth/nostr/register" "nostr_register" req.nonce)
  let existing ← select fun db => db.findUserByNostrPubkey pubkey
  .ofExcept (enforcePow env.pow pubkey existing.isSome req.altchaSolution)
  if existing.isSome then
    let user ← getOrCreateUserByNostrPubkey env.pepper a.userId pubkey req.username req.optionals
    upsertAllKeys user.id req.keys
    signIn env a user .nostr "Nostr" "nostr" false
  else
    rejectKnownFingerprint env.pepper req.seedFingerprint
    let user ← registerNew (req.registration env a pubkey) a.userId
    signIn env a user .nostr "Nostr" "nostr" true

/-! ### `POST /keys` -/

/-- `ALLOWED_KEY_TYPES`. -/
def allowedKeyTypes : List String := ["primary", "enc", "slatepack"]

/-- `is_grin_slatepack_address`. -/
def isGrinSlatepackAddress (value : String) : Bool :=
  "grin1".toList.isPrefixOf (trim value).toList || "tgrin1".toList.isPrefixOf (trim value).toList

/-- `key_type_for`. -/
def keyTypeFor (asset : AssetType) (publicKey : String) : String :=
  if asset = .grin && isGrinSlatepackAddress publicKey then "slatepack" else "primary"

/-- `resolve_key_type`. -/
def resolveKeyType (asset : AssetType) (publicKey : String) (requested : Option String) :
    Except AppError String :=
  match presented requested with
  | none => .ok (keyTypeFor asset publicKey)
  | some requested =>
    match allowedKeyTypes.find? fun allowed => eqIgnoreAsciiCase allowed requested with
    | none => .error (.validationError
        (s!"Unknown key_type: {requested} (expected one of primary, enc, slatepack)"))
    | some resolved =>
      if resolved = "primary" && isGrinSlatepackAddress publicKey then
        .error (.validationError ("A Grin slatepack address cannot be registered as the primary " ++
          "key:              primary holds the key that signs, which is a different derivation."))
      else .ok resolved

/-- `RegisterKeyRequest`. -/
structure RegisterKeyRequest where
  /-- The key. -/
  key : AssetPublicKey
  /-- Requested type. -/
  keyType : Option String

/-- `register_key`. -/
def registerKey (bearer : Except AppError TokenInfo) (req : RegisterKeyRequest) :
    Handler UserKeyRow := do
  let user ← extractUserIdFromToken bearer
  let asset ← .ofExcept (parseAsset req.key.asset)
  let keyType ← .ofExcept (resolveKeyType asset req.key.publicKey req.keyType)
  let row : UserKeyRow := ⟨user, asset, req.key.publicKey, req.key.publicSpendKey, keyType⟩
  upsertUserKey row
  return row

end SmirkBackend
