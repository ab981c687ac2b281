import SmirkBackend.Auth.Gates
import SmirkBackend.Auth.Nip98

/-!
# Wallet registration

`POST /auth/extension`: a wallet proves control of its BTC key with a signed timestamp.  A known
key signs in; an unknown key may move onto an existing row that its seed fingerprint locates, when
the key on file is the same or has signed the move; otherwise it registers as a new wallet.

Hashes, signature checks and token encodings are parameters of the instance.  What a request meets
outside the database (clock readings, generated identifiers, the payment processor, the minted
tokens) comes with the request.
-/

namespace SmirkBackend

open Lib (Prog)

/-- The proof-of-work gate. -/
structure PowConfig where
  /-- The feature is on. -/
  enabled : Bool
  /-- Every new wallet needs a solution. -/
  required : Bool
  /-- Hashes that need a solution. -/
  requiredForPubkeys : List String

/-- What the handlers take from the instance. -/
structure AuthEnv where
  /-- Keyed hash of stored columns. -/
  pepper : Pepper
  /-- `hash_public_key`. -/
  hashPublicKey : String → String
  /-- `verify_bitcoin_signature`: message, signature, key. -/
  verifyBitcoinSignature : String → String → String → Except AppError Unit
  /-- `hash_invite_code`. -/
  hashInviteCode : String → String
  /-- `hash_refresh_token`. -/
  hashRefreshToken : String → String
  /-- `descriptor_sha256`. -/
  descriptorSha256 : String → String
  /-- The hash of an empty body. -/
  emptyBodyHash : String
  /-- Checks of Nostr events. -/
  crypto : Nip98Crypto
  /-- Canonical URL of the API. -/
  publicApiUrl : Option String
  /-- The proof-of-work gate. -/
  pow : PowConfig
  /-- The registration gates. -/
  gates : GateConfig
  /-- Validity of a refresh token. -/
  refreshTokenExpiryDays : ℤ

/-- A minted pair of tokens. -/
structure TokenPair where
  /-- Bearer token. -/
  accessToken : String
  /-- Token for renewal. -/
  refreshToken : String
  /-- Validity of the bearer token, in seconds. -/
  expiresIn : Int64

/-- What a request meets outside the database. -/
structure Answers where
  /-- The clock, in seconds, when a proof is checked. -/
  now : Int64
  /-- The clock when a session is issued. -/
  issuedAt : Timestamp
  /-- Generated identifier of a new user. -/
  userId : Uuid
  /-- Generated identifier of a session. -/
  sessionId : Uuid
  /-- Generated identifier of a login event. -/
  eventId : Uuid
  /-- The payment processor. -/
  provider : String → Except AppError Invoice
  /-- `create_token_pair`. -/
  createTokenPair : Uuid → Platform → Uuid → Except AppError TokenPair

/-- Minimal information on a signed-in user. -/
structure UserInfo where
  /-- Identifier; its text is sent. -/
  id : Uuid
  /-- Reserved name. -/
  username : Option String
  /-- Linked Nostr key. -/
  nostrPubkey : Option String

/-- `user_info`. -/
def userInfo (user : UserRow) : UserInfo := ⟨user.id, user.username, user.nostrPubkey⟩

/-- A successful sign-in. -/
structure AuthResponse where
  /-- Bearer token. -/
  accessToken : String
  /-- Token for renewal. -/
  refreshToken : String
  /-- Validity of the bearer token, in seconds. -/
  expiresIn : Int64
  /-- Who signed in. -/
  user : UserInfo
  /-- The request created the user. -/
  isNew : Bool

/-! ### Shared checks -/

/-- `validate_username`. -/
def validateUsername (username : String) : Except AppError Unit :=
  if username.utf8ByteSize < 3 || username.utf8ByteSize > 32 then
    .error (.validationError "Username must be 3-32 characters")
  else if !username.toList.all fun c => c.isLower || c.isDigit || c = '_' then
    .error (.validationError
      "Username must contain only lowercase letters, numbers, and underscores")
  else if username.toList.head? = some '_' || username.toList.getLast? = some '_' then
    .error (.validationError "Username cannot start or end with underscore")
  else .ok ()

/-- A username, when one is given, must be valid. -/
def validateOptional : Option String → Except AppError Unit
  | some username => validateUsername username
  | none => .ok ()

/-- `SIGNED_TS_MAX_DRIFT_SECS`. -/
def signedTsMaxDriftSecs : ℕ := 300

/-- The signed timestamp is close to the clock.  Overflow traps. -/
def checkDrift (now signedTimestamp : Int64) : Except AppError Unit :=
  let drift := now.toInt - signedTimestamp.toInt
  if drift ≤ -2 ^ 63 || 2 ^ 63 ≤ drift then .error (.internal "arithmetic overflow")
  else if signedTsMaxDriftSecs < drift.natAbs then
    .error (.validationError "Signed timestamp expired or too far in the future")
  else .ok ()

/-- `DateTime::from_timestamp`, with its range. -/
def fromTimestamp (secs : Int64) : Option Timestamp :=
  if -8334601228800 ≤ secs.toInt && secs.toInt ≤ 8210266876799 then some (seconds secs.toInt)
  else none

/-- `pow_applies`. -/
def powApplies (pow : PowConfig) (pubkeyHashLc : String) : Bool :=
  pow.enabled && (pow.required || pow.requiredForPubkeys.any fun p => p = pubkeyHashLc)

/-- `enforce_pow`; a solution is given by what its check answers. -/
def enforcePow (pow : PowConfig) (pubkeyHashLc : String) (returning : Bool)
    (solution : Option (Except AppError Unit)) : Except AppError Unit :=
  if returning then .ok ()
  else if powApplies pow pubkeyHashLc then
    match solution with
    | some verified => verified
    | none => .error (.validationError
        ("Proof-of-work solution is required to create a new wallet. Please upgrade to a newer " ++
          "Smirk client."))
  else
    match solution with
    | some verified => if pow.enabled then verified else .ok ()
    | none => .ok ()

/-- `trim_end_matches('/')`. -/
def trimEndSlashes (s : String) : String :=
  String.ofList (s.toList.reverse.dropWhile fun c => c = '/').reverse

/-- `rotation_message`. -/
def rotationMessage (publicApiUrl : Option String) (newPubkeyHash : String)
    (signedTimestamp : Int64) : Option String :=
  publicApiUrl.map fun url =>
    "smirk-rotate-v1|" ++ trimEndSlashes url ++ "|" ++ newPubkeyHash ++ "|" ++
      toString signedTimestamp.toInt

/-! ### Sessions -/

/-- `issue_session`. -/
def issueSession (env : AuthEnv) (a : Answers) (u : Uuid) (platform : Platform)
    (deviceInfo : String) : Handler TokenPair := do
  let pair ← .ofExcept (a.createTokenPair u platform a.sessionId)
  createSession
    { id := a.sessionId
      userId := u
      refreshTokenHash := env.hashRefreshToken pair.refreshToken
      platform := platform.asStr
      deviceInfo := some deviceInfo
      expiresAt := a.issuedAt + days env.refreshTokenExpiryDays
      revokedAt := none }
  return pair

/-- The end of every login: a session, an event, the answer. -/
def signIn (env : AuthEnv) (a : Answers) (user : UserRow) (platform : Platform)
    (deviceInfo asset : String) (isNew : Bool) : Handler AuthResponse := do
  let pair ← issueSession env a user.id platform deviceInfo
  recordLoginEvent ⟨a.eventId, some user.id, asset, platform.asStr, none⟩
  return ⟨pair.accessToken, pair.refreshToken, pair.expiresIn, userInfo user, isNew⟩

/-! ### The handler -/

/-- `ExtensionRegisterRequest`. -/
structure ExtensionRegisterRequest where
  /-- Keys; one for BTC is required. -/
  keys : List AssetPublicKey
  /-- Name to reserve. -/
  username : Option String
  /-- First use of the wallet, in seconds. -/
  walletBirthday : Option Int64
  /-- Fingerprint of the seed. -/
  seedFingerprint : Option String
  /-- Height the XMR wallet starts at. -/
  xmrStartHeight : Option Int64
  /-- Height the WOW wallet starts at. -/
  wowStartHeight : Option Int64
  /-- The time that was signed. -/
  signedTimestamp : Int64
  /-- Signature under the submitted BTC key. -/
  signature : String
  /-- Signature of the move under the BTC key on file. -/
  rotationSignature : Option String
  /-- Solution of the proof of work. -/
  altchaSolution : Option (Except AppError Unit)
  /-- Presented invite. -/
  inviteCode : Option String
  /-- Presented invoice. -/
  paymentInvoiceId : Option String

/-- The first BTC key. -/
def btcKey (keys : List AssetPublicKey) : Option AssetPublicKey :=
  keys.find? fun k => eqIgnoreAsciiCase k.asset "btc"

/-- The login message. -/
def authMessage (signedTimestamp : Int64) : String :=
  "smirk-auth-" ++ toString signedTimestamp.toInt

/-- A row without an identity whose key on file is the submitted one. -/
def adoptable (target : UserRow) (stored : Option UserKeyRow) (publicKey : String) : Bool :=
  target.pubkeyHash.isNone && stored.any fun k => k.publicKey = publicKey

/-- The key on file has signed the move. -/
def rotationProven (env : AuthEnv) (req : ExtensionRegisterRequest) (pubkeyHash : String)
    (stored : Option UserKeyRow) : Bool :=
  match req.rotationSignature, stored, rotationMessage env.publicApiUrl pubkeyHash
      req.signedTimestamp with
  | some sig, some k, some msg => (env.verifyBitcoinSignature msg sig k.publicKey).isOk
  | _, _, _ => false

/-- The row that an unknown key moves onto. -/
def repointTarget (env : AuthEnv) (req : ExtensionRegisterRequest) (publicKey pubkeyHash : String) :
    Handler (Option UserRow) :=
  match req.seedFingerprint with
  | none => .ret none
  | some fp => do
    match ← select fun db => db.getUserBySeedFingerprint env.pepper fp with
    | none => .ret none
    | some target =>
      let stored ← select fun db => db.getUserKey target.id .btc
      return if adoptable target stored publicKey || rotationProven env req pubkeyHash stored then
        some target else none

/-- The move: the same writes for an adoption and for a proven rotation. -/
def repoint (env : AuthEnv) (a : Answers) (req : ExtensionRegisterRequest) (pubkeyHash : String)
    (target : UserRow) : Handler AuthResponse := do
  .ofExcept (enforcePow env.pow (toLowercase pubkeyHash) false req.altchaSolution)
  updatePubkeyHash env.pepper target.id pubkeyHash
  upsertAllKeys target.id req.keys
  signIn env a target .extension "Browser Extension" "btc" false

/-- A fingerprint of another row is not attached. -/
def fingerprintForRow (env : AuthEnv) (existing : Option UserRow) (fingerprint : Option String) :
    Handler (Option String) :=
  match fingerprint with
  | none => .ret none
  | some fp => do
    let owner ← select fun db => db.getUserBySeedFingerprint env.pepper fp
    let belongsToOther : Bool := match owner, existing with
      | some owner, some me => owner.id ≠ me.id
      | some _, none => true
      | none, _ => false
    return if belongsToOther then none else some fp

/-- The optional values of a request. -/
def ExtensionRegisterRequest.optionals (req : ExtensionRegisterRequest)
    (fingerprint : Option String) : Optionals where
  walletBirthday := req.walletBirthday.bind fromTimestamp
  seedFingerprint := fingerprint
  xmrStartHeight := req.xmrStartHeight
  wowStartHeight := req.wowStartHeight

/-- The registration of a new wallet. -/
def ExtensionRegisterRequest.registration (req : ExtensionRegisterRequest) (env : AuthEnv)
    (a : Answers) (pubkeyHash : String) (fingerprint : Option String) : Registration where
  gates := env.gates
  hashInviteCode := env.hashInviteCode
  provider := a.provider
  pepper := env.pepper
  boundTo := pubkeyHash
  new := (req.optionals fingerprint).newUser req.username (some pubkeyHash) none
  keys := req.keys
  inviteCode := req.inviteCode
  paymentInvoiceId := req.paymentInvoiceId

/-- A known key signs in, a new one registers. -/
def getOrRegister (env : AuthEnv) (a : Answers) (req : ExtensionRegisterRequest)
    (pubkeyHash : String) (existing : Option UserRow) : Handler AuthResponse := do
  .ofExcept (enforcePow env.pow (toLowercase pubkeyHash) existing.isSome req.altchaSolution)
  let fingerprint ← fingerprintForRow env existing req.seedFingerprint
  if existing.isSome then
    let user ← getOrCreateUserByPubkeyHash env.pepper a.userId pubkeyHash req.username (req.optionals fingerprint)
    upsertAllKeys user.id req.keys
    signIn env a user .extension "Browser Extension" "btc" false
  else
    let user ← registerNew (req.registration env a pubkeyHash fingerprint) a.userId
    signIn env a user .extension "Browser Extension" "btc" true

/-- `extension_register`. -/
def extensionRegister (env : AuthEnv) (a : Answers) (req : ExtensionRegisterRequest) :
    Handler AuthResponse :=
  match btcKey req.keys with
  | none => .fail (.validationError "BTC public key is required")
  | some key => do
    let pubkeyHash := env.hashPublicKey key.publicKey
    .ofExcept (validateOptional req.username)
    .ofExcept (checkDrift a.now req.signedTimestamp)
    .ofExcept (env.verifyBitcoinSignature (authMessage req.signedTimestamp) req.signature key.publicKey)
    let existing ← select fun db => db.getUserByPubkeyHash env.pepper pubkeyHash
    let target ← if existing.isSome then .ret none else repointTarget env req key.publicKey pubkeyHash
    match target with
    | some target => repoint env a req pubkeyHash target
    | none => getOrRegister env a req pubkeyHash existing

end SmirkBackend
