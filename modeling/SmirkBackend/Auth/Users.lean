import SmirkBackend.Lib.Program
import SmirkBackend.Schema

/-!
# Users, keys and sessions

The statements the login and registration handlers issue against `users`, `user_keys`, `sessions`
and `login_events`.  Two columns of `users` are peppered before they are stored or compared; the
pepper, the hashes and the session tokens are parameters.
-/

namespace SmirkBackend

open Lib (Table Patch Prog)

/-- The database and the clock. -/
structure World where
  /-- The tables. -/
  db : Db
  /-- The time. -/
  now : Timestamp

/-- The clock in whole seconds. -/
def World.unix (w : World) : Int64 := Int64.ofInt (w.now / 1000000)

/-- A handler: statements against the database, in order. -/
abbrev Handler (α : Type) := Prog World AppError α

/-- A statement that could not be carried out. -/
def dbFault : AppError := .databaseError "statement failed"

/-- `SELECT`. -/
def select {α : Type} (f : Db → α) : Handler α := .read dbFault fun w => f w.db

/-- A statement that writes. -/
def execute {α : Type} (f : Timestamp → Db → Except AppError α × Db) : Handler α :=
  .query dbFault fun w => ((f w.now w.db).1, { w with db := (f w.now w.db).2 })

/-- A statement whose failure is ignored. -/
def executeIgnored (f : Timestamp → Db → Db) : Handler Unit :=
  .attempt fun w => { w with db := f w.now w.db }

/-- Keyed hash of a column: the column's name and the value. -/
abbrev Pepper := String → String → String

/-! ### Lookups -/

namespace Db

variable (db : Db) (pepper : Pepper)

/-- `get_user_by_pubkey_hash`. -/
def getUserByPubkeyHash (pubkeyHash : String) : Option UserRow :=
  db.users.rows.find? fun r => r.pubkeyHash = some (pepper "pubkey_hash" pubkeyHash)

/-- `get_user_by_seed_fingerprint`. -/
def getUserBySeedFingerprint (fingerprint : String) : Option UserRow :=
  db.users.rows.find? fun r => r.seedFingerprint = some (pepper "seed_fingerprint" fingerprint)

/-- `get_user_by_username`. -/
def getUserByUsername (username : String) : Option UserRow :=
  db.users.rows.find? fun r => r.username = some username

/-- `find_user_by_nostr_pubkey`. -/
def findUserByNostrPubkey (nostrPubkey : String) : Option UserRow :=
  db.users.rows.find? fun r => r.nostrPubkey = some nostrPubkey

/-- `get_user_key`: the primary key of an asset. -/
def getUserKey (user : Uuid) (asset : AssetType) : Option UserKeyRow :=
  db.userKeys.get? (user, asset, "primary")

/-- `is_session_live`. -/
def isSessionLive (now : Timestamp) (session : Uuid) : Bool :=
  (db.sessions.get? session).any fun r => r.revokedAt.isNone && now < r.expiresAt

end Db

/-! ### Writes to `users` -/

/-- The `UNIQUE` columns of `users`. -/
inductive UniqueColumn
  | username
  | pubkeyHash
  | nostrPubkey
  | seedFingerprint
  deriving DecidableEq

/-- The value of a row in a unique column. -/
def UniqueColumn.of : UniqueColumn → UserRow → Option String
  | username, r => r.username
  | pubkeyHash, r => r.pubkeyHash
  | nostrPubkey, r => r.nostrPubkey
  | seedFingerprint, r => r.seedFingerprint

/-- The unique columns, in the order they are checked. -/
def UniqueColumn.all : List UniqueColumn := [username, pubkeyHash, nostrPubkey, seedFingerprint]

/-- The constraint a write violates. -/
inductive UserConstraint
  | primaryKey
  | unique (c : UniqueColumn)
  deriving DecidableEq

/-- Another row holds the value. -/
def heldByOther (rows : List UserRow) (r : UserRow) (c : UniqueColumn) : Bool :=
  rows.any fun r' => r'.id ≠ r.id && (c.of r).isSome && c.of r' = c.of r

/-- The first unique column of a row whose value another row holds. -/
def collision (rows : List UserRow) (r : UserRow) : Option UniqueColumn :=
  UniqueColumn.all.find? (heldByOther rows r)

/-- `INSERT INTO users`. -/
def Db.insertUser (r : UserRow) (db : Db) : Except UserConstraint Db :=
  match db.users.insert? r with
  | none => .error .primaryKey
  | some users =>
    match collision db.users.rows r with
    | some c => .error (.unique c)
    | none => .ok { db with users := users }

/-- `UPDATE users SET f WHERE id = u RETURNING *`. -/
def Db.updateUser (u : Uuid) (f : Patch UserRow) (db : Db) :
    Except UserConstraint (Option UserRow) × Db :=
  match db.users.get? u with
  | none => (.ok none, db)
  | some r =>
    match collision db.users.rows (f.set r) with
    | some c => (.error (.unique c), db)
    | none => (.ok (some (f.set r)), { db with users := (db.users.updateOne u (fun _ => true) f).2 })

/-- A unique violation that no caller expects. -/
def uniqueViolation : AppError := .databaseError "duplicate key value violates unique constraint"

/-- `registration_conflict`. -/
def registrationConflict : UserConstraint → AppError
  | .unique .username => .conflict "That username is already taken. Choose another."
  | _ => .conflict "This wallet is already being registered. Please retry."

/-- The values of a new user, before peppering. -/
structure NewUser where
  /-- Reserved name. -/
  username : Option String
  /-- Hash of the identity key. -/
  pubkeyHash : Option String
  /-- Nostr key. -/
  nostrPubkey : Option String
  /-- First use of the wallet. -/
  walletBirthday : Option Timestamp
  /-- Fingerprint of the seed. -/
  seedFingerprint : Option String
  /-- Height the XMR wallet starts at. -/
  xmrStartHeight : Option Int64
  /-- Height the WOW wallet starts at. -/
  wowStartHeight : Option Int64

/-- The stored row of a new user. -/
def NewUser.row (new : NewUser) (pepper : Pepper) (id : Uuid) : UserRow where
  id := id
  username := new.username
  pubkeyHash := new.pubkeyHash.map (pepper "pubkey_hash")
  nostrPubkey := new.nostrPubkey
  walletBirthday := new.walletBirthday
  seedFingerprint := new.seedFingerprint.map (pepper "seed_fingerprint")
  xmrStartHeight := new.xmrStartHeight
  wowStartHeight := new.wowStartHeight
  premiumUntil := none

/-- `create_user`; the identifier is generated. -/
def createUser (pepper : Pepper) (id : Uuid) (new : NewUser) : Handler UserRow :=
  execute fun _ db =>
    match db.insertUser (new.row pepper id) with
    | .ok db' => (.ok (new.row pepper id), db')
    | .error _ => (.error uniqueViolation, db)

/-- `update_pubkey_hash`. -/
def updatePubkeyHash (pepper : Pepper) (u : Uuid) (pubkeyHash : String) : Handler Unit :=
  execute fun _ db =>
    match db.updateUser u { set := fun r =>
        { r with pubkeyHash := some (pepper "pubkey_hash" pubkeyHash) } } with
    | (.ok _, db') => (.ok (), db')
    | (.error _, db') => (.error uniqueViolation, db')

/-- `set_nostr_pubkey`. -/
def setNostrPubkey (u : Uuid) (nostrPubkey : String) : Handler Unit :=
  execute fun _ db =>
    match db.updateUser u { set := fun r => { r with nostrPubkey := some nostrPubkey } } with
    | (.ok _, db') => (.ok (), db')
    | (.error _, db') =>
      (.error (.conflict "That Nostr identity is already linked to another account"), db')

/-- The optional values a returning wallet may supply. -/
structure Optionals where
  /-- First use of the wallet. -/
  walletBirthday : Option Timestamp
  /-- Fingerprint of the seed. -/
  seedFingerprint : Option String
  /-- Height the XMR wallet starts at. -/
  xmrStartHeight : Option Int64
  /-- Height the WOW wallet starts at. -/
  wowStartHeight : Option Int64

/-- The new user of a wallet that supplies these values. -/
def Optionals.newUser (o : Optionals) (username pubkeyHash nostrPubkey : Option String) :
    NewUser where
  username := username
  pubkeyHash := pubkeyHash
  nostrPubkey := nostrPubkey
  walletBirthday := o.walletBirthday
  seedFingerprint := o.seedFingerprint
  xmrStartHeight := o.xmrStartHeight
  wowStartHeight := o.wowStartHeight

/-- A missing value would be filled in. -/
def Optionals.needed (o : Optionals) (r : UserRow) : Bool :=
  (r.walletBirthday.isNone && o.walletBirthday.isSome) ||
  (r.seedFingerprint.isNone && o.seedFingerprint.isSome) ||
  (r.xmrStartHeight.isNone && o.xmrStartHeight.isSome) ||
  (r.wowStartHeight.isNone && o.wowStartHeight.isSome)

/-- Fill in what is missing. -/
def Optionals.fill (o : Optionals) (pepper : Pepper) : Patch UserRow where
  set r := { r with
    walletBirthday := r.walletBirthday <|> o.walletBirthday
    seedFingerprint := r.seedFingerprint <|> o.seedFingerprint.map (pepper "seed_fingerprint")
    xmrStartHeight := r.xmrStartHeight <|> o.xmrStartHeight
    wowStartHeight := r.wowStartHeight <|> o.wowStartHeight }

/-- `backfill_optionals`. -/
def backfillOptionals (pepper : Pepper) (existing : UserRow) (o : Optionals) : Handler UserRow :=
  if !o.needed existing then .ret existing
  else execute fun _ db =>
    match db.updateUser existing.id (o.fill pepper) with
    | (.ok (some r), db') => (.ok r, db')
    | (.ok none, db') => (.error (.databaseError "no rows returned"), db')
    | (.error _, db') => (.error uniqueViolation, db')

/-- `get_or_create_user_by_pubkey_hash`. -/
def getOrCreateUserByPubkeyHash (pepper : Pepper) (id : Uuid) (pubkeyHash : String)
    (username : Option String) (o : Optionals) : Handler UserRow := do
  match ← select fun db => db.getUserByPubkeyHash pepper pubkeyHash with
  | some existing => backfillOptionals pepper existing o
  | none => createUser pepper id (o.newUser username (some pubkeyHash) none)

/-- A fingerprint match alone never links a Nostr key. -/
def alreadyHasAccount : AppError :=
  .conflict ("This wallet already has an account. Sign in with your existing credentials and link " ++
    "your Nostr identity from settings.")

/-- The row with the fingerprint, if one is given. -/
def fingerprintMatch (pepper : Pepper) : Option String → Handler (Option UserRow)
  | some fp => select fun db => db.getUserBySeedFingerprint pepper fp
  | none => .ret none

/-- `get_or_create_user_by_nostr_pubkey`. -/
def getOrCreateUserByNostrPubkey (pepper : Pepper) (id : Uuid) (nostrPubkey : String)
    (username : Option String) (o : Optionals) : Handler UserRow := do
  match ← select fun db => db.findUserByNostrPubkey nostrPubkey with
  | some existing => backfillOptionals pepper existing o
  | none =>
    match ← fingerprintMatch pepper o.seedFingerprint with
    | some existing =>
      match existing.nostrPubkey with
      | some pk =>
        if pk = nostrPubkey then
          backfillOptionals pepper existing { o with seedFingerprint := none }
        else .fail (.conflict ("This wallet is already registered under a different Nostr identity. " ++
          "Sign in instead."))
      | none => .fail alreadyHasAccount
    | none => createUser pepper id (o.newUser username none (some nostrPubkey))

/-! ### Keys, sessions and login events -/

/-- A key as a client submits it. -/
structure AssetPublicKey where
  /-- Asset code. -/
  asset : String
  /-- Public key. -/
  publicKey : String
  /-- Second public key of the two-key assets. -/
  publicSpendKey : Option String

/-- `parse_asset`. -/
def parseAsset (asset : String) : Except AppError AssetType :=
  match toLowercase asset with
  | "btc" => .ok .btc
  | "ltc" => .ok .ltc
  | "xmr" => .ok .xmr
  | "wow" => .ok .wow
  | "grin" => .ok .grin
  | other => .error (.validationError s!"Invalid asset: {other}")

/-- `INSERT INTO user_keys … ON CONFLICT DO UPDATE`; the user must exist. -/
def Db.upsertUserKey (k : UserKeyRow) (db : Db) : Except AppError Db :=
  if (db.users.get? k.userId).isNone then
    .error (.databaseError "insert or update violates foreign key constraint")
  else
    .ok { db with
      userKeys := db.userKeys.upsert k
        { set := fun r =>
            { r with publicKey := k.publicKey, publicSpendKey := k.publicSpendKey } } }

/-- `upsert_user_key`. -/
def upsertUserKey (k : UserKeyRow) : Handler Unit :=
  execute fun _ db =>
    match db.upsertUserKey k with
    | .ok db' => (.ok (), db')
    | .error e => (.error e, db)

/-- The row of a submitted key. -/
def AssetPublicKey.row (k : AssetPublicKey) (u : Uuid) (asset : AssetType) : UserKeyRow :=
  ⟨u, asset, k.publicKey, k.publicSpendKey, "primary"⟩

/-- `upsert_all_keys`: one statement for each key; an unknown asset stops the loop. -/
def upsertAllKeys (u : Uuid) : List AssetPublicKey → Handler Unit
  | [] => .ret ()
  | k :: rest => do
    let asset ← .ofExcept (parseAsset k.asset)
    upsertUserKey (k.row u asset)
    upsertAllKeys u rest

/-- Kind of client. -/
inductive Platform
  | extension
  | web
  | nostr
  deriving DecidableEq

/-- The stored name of a platform. -/
def Platform.asStr : Platform → String
  | extension => "extension"
  | web => "web"
  | nostr => "nostr"

/-- `create_session`; the user must exist. -/
def createSession (r : SessionRow) : Handler Unit :=
  execute fun _ db =>
    if (db.users.get? r.userId).isNone then
      (.error (.databaseError "insert or update violates foreign key constraint"), db)
    else
      match db.sessions.insert? r with
      | some sessions => (.ok (), { db with sessions := sessions })
      | none => (.error uniqueViolation, db)

/-- `record_login_event`; callers ignore its failure. -/
def recordLoginEvent (r : LoginEventRow) : Handler Unit :=
  executeIgnored fun _ db =>
    if r.userId.any fun u => (db.users.get? u).isNone then db
    else { db with loginEvents := (db.loginEvents.insert? r).getD db.loginEvents }

end SmirkBackend
