import SmirkBackend.Auth.Nostr

/-!
# The Grin slatepack relay

Two users of one instance exchange the slatepacks of an interactive Grin transaction through a row
of `grin_slatepacks`: the sender creates it, the recipient adds a response, the sender records that
the transaction was finalized; either may cancel, and a sweep expires what is too old.  Every
transition is one `UPDATE` whose `WHERE` clause is its precondition.

The UUID parser is a parameter.  What a request meets outside the database (a generated identifier,
the clock of the process) comes with the request.
-/

namespace SmirkBackend

open Lib (Table Patch Prog)

/-! ### Rows -/

/-- `slatepack_status`. -/
inductive SlatepackStatus
  | pendingRecipient
  | pendingSender
  | finalized
  | expired
  | cancelled
  deriving DecidableEq, Repr

/-- The name of a status. -/
def SlatepackStatus.asStr : SlatepackStatus → String
  | pendingRecipient => "pending_recipient"
  | pendingSender => "pending_sender"
  | finalized => "finalized"
  | expired => "expired"
  | cancelled => "cancelled"

/-- A relayed slatepack, with all its columns. -/
structure GrinSlatepack where
  /-- Primary key. -/
  id : Uuid
  /-- Slate identifier, unique. -/
  slateId : String
  /-- Who sent it. -/
  senderUserId : Uuid
  /-- Who it is for. -/
  recipientUserId : Option Uuid
  /-- Address of a recipient that is not registered. -/
  recipientAddress : Option String
  /-- Slatepack of the sender. -/
  slatepackContent : String
  /-- Amount, for information. -/
  amountNanogrin : Int64
  /-- Place in the lifecycle. -/
  status : SlatepackStatus
  /-- Slatepack of the recipient. -/
  responseSlatepack : Option String
  /-- Creation. -/
  createdAt : Timestamp
  /-- Last change. -/
  updatedAt : Timestamp
  /-- End of validity. -/
  expiresAt : Timestamp
  /-- When it was finalized. -/
  finalizedAt : Option Timestamp
  /-- Hash of the transaction. -/
  txHash : Option String
  deriving DecidableEq

instance : Lib.HasKey GrinSlatepack Uuid := ⟨GrinSlatepack.id⟩

/-- The row is waiting for one of its parties. -/
def GrinSlatepack.active (r : GrinSlatepack) : Bool :=
  r.status = .pendingRecipient || r.status = .pendingSender

/-- The table of the relay, and the rest of the database with the clock. -/
structure RelayWorld where
  /-- Users, sessions and the clock. -/
  world : World
  /-- `grin_slatepacks` -/
  slatepacks : Table GrinSlatepack

/-- The rest of the database. -/
def relayRest : Prog.Part RelayWorld World where
  get w := w.world
  set s w := { w with world := s }
  get_set _ _ := rfl
  set_set _ _ _ := rfl
  set_get _ := rfl

/-- A handler of the relay. -/
abbrev RelayHandler (α : Type) := Prog RelayWorld AppError α

/-! ### Statements -/

/-- A statement on the table of the relay. -/
def relayExecute {α : Type}
    (f : Timestamp → Table GrinSlatepack → α × Table GrinSlatepack) : RelayHandler α :=
  .query dbFault fun w =>
    (.ok (f w.world.now w.slatepacks).1,
      { w with slatepacks := (f w.world.now w.slatepacks).2 })

/-- `NewGrinSlatepack`. -/
structure NewGrinSlatepack where
  /-- Slate identifier. -/
  slateId : String
  /-- Who sends it. -/
  senderUserId : Uuid
  /-- Who it is for. -/
  recipientUserId : Option Uuid
  /-- Address of a recipient that is not registered. -/
  recipientAddress : Option String
  /-- Slatepack of the sender. -/
  slatepackContent : String
  /-- Amount, for information. -/
  amountNanogrin : Int64
  /-- End of validity. -/
  expiresAt : Timestamp

/-- The row of a new slatepack. -/
def NewGrinSlatepack.row (input : NewGrinSlatepack) (id : Uuid) (now : Timestamp) :
    GrinSlatepack where
  id := id
  slateId := input.slateId
  senderUserId := input.senderUserId
  recipientUserId := input.recipientUserId
  recipientAddress := input.recipientAddress
  slatepackContent := input.slatepackContent
  amountNanogrin := input.amountNanogrin
  status := .pendingRecipient
  responseSlatepack := none
  createdAt := now
  updatedAt := now
  expiresAt := input.expiresAt
  finalizedAt := none
  txHash := none

/-- `create_grin_slatepack`; the identifier is generated.  The slate must be new, and the parties
must exist, which is checked at the end of the statement. -/
def createGrinSlatepack (id : Uuid) (input : NewGrinSlatepack) : RelayHandler GrinSlatepack :=
  .query dbFault fun w =>
    let row := input.row id w.world.now
    if w.slatepacks.rows.any fun r => r.slateId = row.slateId then
      (.error (.conflict "a relay for this slate_id already exists"), w)
    else
      match w.slatepacks.insert? row with
      | none => (.error (.conflict "a relay for this slate_id already exists"), w)
      | some t =>
        if (w.world.db.users.get? row.senderUserId).isNone ||
            row.recipientUserId.any fun u => (w.world.db.users.get? u).isNone then
          (.error (.databaseError "insert or update violates foreign key constraint"), w)
        else (.ok row, { w with slatepacks := t })

/-- `get_slatepack_by_slate_id`. -/
def getSlatepackBySlateId (slateId : String) : RelayHandler (Option GrinSlatepack) :=
  .read dbFault fun w => w.slatepacks.rows.find? fun r => r.slateId = slateId

/-- `get_pending_slatepacks_for_user`. -/
def getPendingSlatepacksForUser (u : Uuid) : RelayHandler (List GrinSlatepack) :=
  .read dbFault fun w => w.slatepacks.select
    (fun r => r.recipientUserId = some u && r.status = .pendingRecipient &&
      w.world.now < r.expiresAt)
    fun a b => b.createdAt ≤ a.createdAt

/-- The row with the response. -/
def responded (response : String) (now : Timestamp) : Patch GrinSlatepack where
  set r := { r with
    responseSlatepack := some response, status := .pendingSender, updatedAt := now }

/-- `add_slatepack_response`. -/
def addSlatepackResponse (id : Uuid) (response : String) : RelayHandler (Option GrinSlatepack) :=
  relayExecute fun now t =>
    t.updateOne id (fun r => r.status = .pendingRecipient && now < r.expiresAt)
      (responded response now)

/-- The row of a finalized transaction. -/
def relayFinalized (txHash : String) (now : Timestamp) : Patch GrinSlatepack where
  set r := { r with
    status := .finalized, txHash := some txHash, finalizedAt := some now, updatedAt := now }

/-- `finalize_slatepack`. -/
def finalizeSlatepack (id : Uuid) (txHash : String) : RelayHandler (Option GrinSlatepack) :=
  relayExecute fun now t =>
    t.updateOne id (fun r => r.status = .pendingSender && now < r.expiresAt)
      (relayFinalized txHash now)

/-- The cancelled row. -/
def relayCancelled (now : Timestamp) : Patch GrinSlatepack where
  set r := { r with status := .cancelled, updatedAt := now }

/-- `cancel_slatepack`. -/
def cancelSlatepack (id : Uuid) : RelayHandler (Option GrinSlatepack) :=
  relayExecute fun now t => t.updateOne id GrinSlatepack.active (relayCancelled now)

/-- The expired row. -/
def relayExpired (now : Timestamp) : Patch GrinSlatepack where
  set r := { r with status := .expired, updatedAt := now }

/-- The rows that a sweep expires. -/
def GrinSlatepack.overdue (now : Timestamp) (r : GrinSlatepack) : Bool :=
  r.active && r.expiresAt < now

/-- `expire_old_slatepacks`. -/
def expireOldSlatepacks : RelayHandler Unit :=
  relayExecute fun now t => ((), t.updateWhere (GrinSlatepack.overdue now) (relayExpired now))

/-! ### Checks -/

/-- What the relay takes from the instance. -/
structure RelayEnv where
  /-- The relay is on. -/
  grinRelay : Bool
  /-- `Uuid::parse_str`. -/
  parseUuid : String → Option Uuid

/-- `ensure_enabled`. -/
def ensureRelayEnabled (env : RelayEnv) : Except AppError Unit :=
  if env.grinRelay then .ok () else .error (.notFound "grin relay is not enabled on this server")

/-- `validate_slate_id`. -/
def validateSlateId (env : RelayEnv) (slateId : String) : Except AppError Unit :=
  match env.parseUuid slateId with
  | some _ => .ok ()
  | none => .error (.validationError "slate_id must be a valid UUID")

/-- `MAX_SLATEPACK_LEN`. -/
def maxSlatepackLen : ℕ := 64 * 1024

/-- `validate_slatepack`. -/
def validateSlatepack (value field : String) : Except AppError Unit :=
  if value.isEmpty || maxSlatepackLen < value.utf8ByteSize then
    .error (.validationError (field ++ " has invalid length"))
  else .ok ()

/-- `RELAY_TTL_DAYS`. -/
def relayTtlDays : ℤ := 7

/-- Which party an action asks the caller to be. -/
inductive RelayParty
  | sender
  | recipient
  | either
  deriving DecidableEq

/-- The caller is the party. -/
def RelayParty.authorizes (party : RelayParty) (row : GrinSlatepack) (u : Uuid) : Bool :=
  match party with
  | sender => row.senderUserId = u
  | recipient => row.recipientUserId = some u
  | either => row.senderUserId = u || row.recipientUserId = some u

/-- The answer to an unknown slate, and to strangers. -/
def relayNotFound : AppError := .notFound "relay not found"

/-- `fetch_authorized`. -/
def fetchAuthorized (slateId : String) (u : Uuid) (party : RelayParty) : RelayHandler GrinSlatepack := do
  let found ← getSlatepackBySlateId slateId
  let row ← .orFail relayNotFound found
  if party.authorizes row u then return row else .fail relayNotFound

/-! ### Handlers -/

/-- A relay entry as a party sees it; the texts of identifiers and instants are sent. -/
structure RelayEntry where
  /-- Slate identifier. -/
  slateId : String
  /-- Who sent it. -/
  senderUserId : Uuid
  /-- Who it is for. -/
  recipientUserId : Option Uuid
  /-- Slatepack of the sender. -/
  slatepackContent : String
  /-- Slatepack of the recipient. -/
  responseSlatepack : Option String
  /-- Amount, for information. -/
  amountNanogrin : Int64
  /-- Name of the status. -/
  status : String
  /-- Creation. -/
  createdAt : Timestamp
  /-- End of validity. -/
  expiresAt : Timestamp
  /-- When it was finalized. -/
  finalizedAt : Option Timestamp
  /-- Hash of the transaction. -/
  txHash : Option String

/-- `relay_entry`. -/
def relayEntry (s : GrinSlatepack) : RelayEntry where
  slateId := s.slateId
  senderUserId := s.senderUserId
  recipientUserId := s.recipientUserId
  slatepackContent := s.slatepackContent
  responseSlatepack := s.responseSlatepack
  amountNanogrin := s.amountNanogrin
  status := s.status.asStr
  createdAt := s.createdAt
  expiresAt := s.expiresAt
  finalizedAt := s.finalizedAt
  txHash := s.txHash

/-- The bearer check of the relay. -/
def relayUser (bearer : Except AppError TokenInfo) : RelayHandler Uuid :=
  (extractUserIdFromToken bearer).zoom relayRest

/-- `CreateRelayRequest`. -/
structure CreateRelayRequest where
  /-- Recipient. -/
  recipientUserId : Uuid
  /-- Slate identifier. -/
  slateId : String
  /-- Slatepack. -/
  slatepack : String
  /-- Amount, for information. -/
  amountNanogrin : Int64

/-- `create`; the identifier is generated, `clock` is the time of the process. -/
def createRelay (env : RelayEnv) (bearer : Except AppError TokenInfo) (id : Uuid)
    (clock : Timestamp) (req : CreateRelayRequest) : RelayHandler RelayEntry := do
  let user ← relayUser bearer
  .ofExcept (ensureRelayEnabled env)
  .ofExcept (validateSlateId env req.slateId)
  .ofExcept (validateSlatepack req.slatepack "slatepack")
  if req.amountNanogrin < 0 then
    .fail (.validationError "amount_nanogrin must be non-negative")
  else
    let found ← .read dbFault fun w => w.world.db.users.get? req.recipientUserId
    let recipient ← .orFail (.validationError "recipient is not a registered user") found
    let row ← createGrinSlatepack id
      { slateId := req.slateId
        senderUserId := user
        recipientUserId := some recipient.id
        recipientAddress := none
        slatepackContent := req.slatepack
        amountNanogrin := req.amountNanogrin
        expiresAt := clock + days relayTtlDays }
    return relayEntry row

/-- `pending`. -/
def pendingRelays (env : RelayEnv) (bearer : Except AppError TokenInfo) :
    RelayHandler (List RelayEntry) := do
  let user ← relayUser bearer
  .ofExcept (ensureRelayEnabled env)
  let rows ← getPendingSlatepacksForUser user
  return rows.map relayEntry

/-- `get_relay`. -/
def getRelay (env : RelayEnv) (bearer : Except AppError TokenInfo) (slateId : String) :
    RelayHandler RelayEntry := do
  let user ← relayUser bearer
  .ofExcept (ensureRelayEnabled env)
  let row ← fetchAuthorized slateId user .either
  return relayEntry row

/-- `RespondRelayRequest`. -/
structure RespondRelayRequest where
  /-- Slate identifier. -/
  slateId : String
  /-- Slatepack of the recipient. -/
  responseSlatepack : String

/-- `respond`. -/
def respondRelay (env : RelayEnv) (bearer : Except AppError TokenInfo) (req : RespondRelayRequest) :
    RelayHandler RelayEntry := do
  let user ← relayUser bearer
  .ofExcept (ensureRelayEnabled env)
  .ofExcept (validateSlatepack req.responseSlatepack "response_slatepack")
  let row ← fetchAuthorized req.slateId user .recipient
  let updated ← addSlatepackResponse row.id req.responseSlatepack
  let updated ← .orFail
    (.conflict "relay is not awaiting a recipient response (or has expired)") updated
  return relayEntry updated

/-- `FinalizeRelayRequest`. -/
structure FinalizeRelayRequest where
  /-- Slate identifier. -/
  slateId : String
  /-- Hash of the transaction. -/
  txHash : String

/-- The hash of a transaction has a length. -/
def validateTxHash (txHash : String) : Except AppError Unit :=
  if txHash.isEmpty || 128 < txHash.utf8ByteSize then
    .error (.validationError "tx_hash has invalid length")
  else .ok ()

/-- `finalize`. -/
def finalizeRelay (env : RelayEnv) (bearer : Except AppError TokenInfo)
    (req : FinalizeRelayRequest) : RelayHandler RelayEntry := do
  let user ← relayUser bearer
  .ofExcept (ensureRelayEnabled env)
  .ofExcept (validateTxHash req.txHash)
  let row ← fetchAuthorized req.slateId user .sender
  let updated ← finalizeSlatepack row.id req.txHash
  let updated ← .orFail (.conflict "relay is not awaiting finalization (or has expired)") updated
  return relayEntry updated

/-- `cancel`. -/
def cancelRelay (env : RelayEnv) (bearer : Except AppError TokenInfo) (slateId : String) :
    RelayHandler RelayEntry := do
  let user ← relayUser bearer
  .ofExcept (ensureRelayEnabled env)
  let row ← fetchAuthorized slateId user .either
  let updated ← cancelSlatepack row.id
  let updated ← .orFail
    (.conflict "relay can no longer be cancelled (already finalized or cancelled)") updated
  return relayEntry updated

end SmirkBackend
