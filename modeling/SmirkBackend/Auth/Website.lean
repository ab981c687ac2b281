import SmirkBackend.Auth.Nostr

/-!
# Website sign-in

`POST /auth/website/verify`: a wallet signs a challenge with the key of one asset and gets a session
of the user that holds this key.  A key that nobody holds may belong to an identity of the legacy
instance, which is then imported as a new user.

The challenges are kept in memory: what was stored under the presented nonce comes with the request,
and so do the answers of the legacy instance.

The handlers are `importLegacyIdentity` and `websiteVerify`.
-/

namespace SmirkBackend

open Lib (Prog)

/-! ### Challenges -/

/-- A challenge of website sign-in. -/
structure WebChallenge where
  /-- The nonce, also the handle of the challenge. -/
  nonce : String
  /-- Creation. -/
  createdAt : Timestamp
  /-- The website that asked for it. -/
  origin : String
  /-- End of validity. -/
  expiresAt : Timestamp

/-- `is_expired`. -/
def WebChallenge.isExpired (c : WebChallenge) (now : Timestamp) : Bool := c.expiresAt < now

/-- `message`: the text the wallet signs. -/
def WebChallenge.message (c : WebChallenge) : String :=
  "Smirk Authentication Challenge\nNonce: " ++ c.nonce ++ "\nOrigin: " ++ c.origin ++
    "\nTimestamp: " ++ toString (c.createdAt / 1000000)

/-! ### The legacy instance -/

/-- A key of the legacy instance. -/
structure LegacyKey where
  /-- Asset code. -/
  asset : String
  /-- Public key. -/
  publicKey : String
  /-- Second public key of the two-key assets. -/
  publicSpendKey : Option String

/-- An identity of the legacy instance. -/
structure LegacyIdentity where
  /-- The name it held there. -/
  username : Option String
  /-- Its keys. -/
  keys : List LegacyKey

/-- What website sign-in takes from the instance. -/
structure WebsiteEnv where
  /-- Hashes and checks shared with the other handlers. -/
  auth : AuthEnv
  /-- `verify_ed25519_signature`: message, signature, key. -/
  verifyEd25519Signature : String → String → String → Except AppError Unit
  /-- `str::to_lowercase` with the tables of Unicode. -/
  lowercase : String → String

/-- What a request meets outside the database. -/
structure WebsiteAnswers where
  /-- Generated identifiers and minted tokens. -/
  auth : Answers
  /-- The clock when the challenge is checked. -/
  clock : Timestamp
  /-- What was stored under the presented nonce. -/
  challenge : Option WebChallenge
  /-- `find_by_proven_key` of the legacy directory: asset and key. -/
  findByProvenKey : AssetType → String → Except AppError (Option LegacyIdentity)

/-! ### Resolution -/

/-- `get_user_by_asset_pubkey`: a user whose primary key of the asset this is. -/
def Db.getUserByAssetPubkey (db : Db) (asset : AssetType) (publicKey : String) : Option UserRow :=
  db.userKeys.rows.findSome? fun k =>
    if k.asset = asset && k.publicKey = publicKey && k.keyType = "primary" then
      db.users.get? k.userId
    else none

/-- `verify_asset_signature`. -/
def verifyAssetSignature (env : WebsiteEnv) (asset : AssetType) (message signature publicKey : String) :
    Except AppError Unit :=
  match asset with
  | .btc | .ltc => env.auth.verifyBitcoinSignature message signature publicKey
  | .xmr | .wow | .grin => env.verifyEd25519Signature message signature publicKey

/-- The name of a legacy identity, when it is free here. -/
def carriedUsername (env : WebsiteEnv) (username : Option String) : Handler (Option String) :=
  match username.map env.lowercase with
  | none => .ret none
  | some name => do
    match ← select fun db => db.getUserByUsername name with
    | none => return some name
    | some _ => return none

/-- The keys of a legacy identity: unknown assets and keys that some user holds are left out. -/
def importLegacyKeys (u : Uuid) : List LegacyKey → Handler Unit
  | [] => .ret ()
  | k :: rest =>
    match parseAsset k.asset with
    | .error _ => importLegacyKeys u rest
    | .ok asset => do
      match ← select fun db => db.getUserByAssetPubkey asset k.publicKey with
      | some _ => importLegacyKeys u rest
      | none =>
        upsertUserKey ⟨u, asset, k.publicKey, k.publicSpendKey, keyTypeFor asset k.publicKey⟩
        importLegacyKeys u rest

/-- The user a legacy identity becomes: nothing but its name is carried over. -/
def importedUser (username : Option String) : NewUser where
  username := username
  pubkeyHash := none
  nostrPubkey := none
  walletBirthday := none
  seedFingerprint := none
  xmrStartHeight := none
  wowStartHeight := none

/-- `import_legacy_identity`. -/
def importLegacyIdentity (env : WebsiteEnv) (a : WebsiteAnswers) (identity : LegacyIdentity) :
    Handler UserRow := do
  let username ← carriedUsername env identity.username
  let user ← createUser env.auth.pepper a.auth.userId (importedUser username)
  importLegacyKeys user.id identity.keys
  return user

/-- The registered user of a proven key; a BTC key may also be an identity. -/
def resolveRegistered (env : WebsiteEnv) (asset : AssetType) (publicKey : String) :
    Handler (Option UserRow) := do
  match ← select fun db => db.getUserByAssetPubkey asset publicKey with
  | some user => return some user
  | none =>
    if asset = .btc then
      select fun db => db.getUserByPubkeyHash env.auth.pepper (env.auth.hashPublicKey publicKey)
    else return none

/-- The user of a proven key, imported if need be. -/
def resolveProvenKey (env : WebsiteEnv) (a : WebsiteAnswers) (asset : AssetType)
    (publicKey : String) : Handler (Option UserRow) := do
  match ← resolveRegistered env asset publicKey with
  | some user => return some user
  | none =>
    match ← .ofExcept (a.findByProvenKey asset publicKey) with
    | some identity => do
      let user ← importLegacyIdentity env a identity
      return some user
    | none => return none

/-! ### The handler -/

/-- `WebsiteVerifyRequest`; the nonce has been looked up. -/
structure WebsiteVerifyRequest where
  /-- Asset whose key signed. -/
  asset : String
  /-- Signature of the challenge. -/
  signature : String
  /-- The key that signed. -/
  publicKey : String

/-- The answer to a challenge that is unknown, used or expired. -/
def invalidChallenge : AppError := .authError "Invalid or expired challenge"

/-- The answer to a key nobody holds. -/
def unknownWallet : AppError :=
  .authError ("We could not match this coin's key to a Smirk account on this server. Unlock your " ++
    "Smirk wallet once so it publishes its keys here, then try again with this or another coin.")

/-- The challenge must be there and not expired. -/
def requireWebChallenge (a : WebsiteAnswers) : Except AppError WebChallenge :=
  match a.challenge with
  | none => .error invalidChallenge
  | some c => if c.isExpired a.clock then .error invalidChallenge else .ok c

/-- `website_verify`. -/
def websiteVerify (env : WebsiteEnv) (a : WebsiteAnswers) (req : WebsiteVerifyRequest) :
    Handler AuthResponse := do
  let challenge ← .ofExcept (requireWebChallenge a)
  let asset ← .ofExcept (parseAsset req.asset)
  .ofExcept (verifyAssetSignature env asset challenge.message req.signature req.publicKey)
  match ← resolveProvenKey env a asset req.publicKey with
  | none => .fail unknownWallet
  | some user => do
    let pair ← issueSession env.auth a.auth user.id .web "Web Browser"
    recordLoginEvent
      ⟨a.auth.eventId, some user.id, asset.asStr, Platform.web.asStr, some challenge.origin⟩
    -- `update_user_last_seen`, of a column that is not kept
    executeIgnored fun _ db => db
    return ⟨pair.accessToken, pair.refreshToken, pair.expiresIn, userInfo user, false⟩

/-- The rest of `website_verify`: the session of a resolved user. -/
def websiteSession (env : WebsiteEnv) (a : WebsiteAnswers) (challenge : WebChallenge)
    (asset : AssetType) (user : UserRow) : Handler AuthResponse := do
  let pair ← issueSession env.auth a.auth user.id .web "Web Browser"
  recordLoginEvent
    ⟨a.auth.eventId, some user.id, asset.asStr, Platform.web.asStr, some challenge.origin⟩
  executeIgnored fun _ db => db
  return ⟨pair.accessToken, pair.refreshToken, pair.expiresIn, userInfo user, false⟩

theorem websiteVerify_eq (env : WebsiteEnv) (a : WebsiteAnswers) (req : WebsiteVerifyRequest) :
    websiteVerify env a req = (do
      let challenge ← .ofExcept (requireWebChallenge a)
      let asset ← .ofExcept (parseAsset req.asset)
      .ofExcept (verifyAssetSignature env asset challenge.message req.signature req.publicKey)
      let found ← resolveProvenKey env a asset req.publicKey
      let user ← .orFail unknownWallet found
      websiteSession env a challenge asset user) := by
  unfold websiteVerify
  congr 1
  funext challenge
  congr 1
  funext asset
  congr 1
  funext _
  congr 1
  funext found
  cases found <;> rfl

end SmirkBackend
