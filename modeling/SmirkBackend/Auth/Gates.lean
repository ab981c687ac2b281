import Mathlib.Data.Setoid.Basic
import SmirkBackend.Auth.Users
import SmirkBackend.Lib.Locking

/-!
# Registration gates

A new wallet may have to present an invite, a settled payment, one of them or both.  What it must
spend is planned without spending; the tokens are then spent, the user is created and its keys are
stored in one transaction.

The transaction is the script `consumeGatesScript`, whose statements depend on what they lock
(`Lock`, `sameAt`); `registerNew` is the registration of a new wallet.
-/

namespace SmirkBackend

open Lib (Table Patch Prog Stmt)

/-! ### Planning -/

/-- How enabled gates combine. -/
inductive GateMode
  | all
  | any
  deriving DecidableEq

/-- The gates of an instance. -/
structure GateConfig where
  /-- How enabled gates combine. -/
  gateMode : GateMode
  /-- The invite gate is on. -/
  requireInvite : Bool
  /-- The payment gate is on. -/
  requirePayment : Bool
  /-- A payment processor is configured. -/
  paymentConfigured : Bool

/-- What to do about the gates. -/
inductive GatePlan
  | open
  | all
  | invite
  | payment
  | rejectBothPresented
  | requireOne
  deriving DecidableEq

/-- `plan_gates`. -/
def planGates (mode : GateMode) (requireInvite requirePayment hasInvite hasPayment : Bool) :
    GatePlan :=
  if !requireInvite && !requirePayment then .open
  else
    match mode with
    | .all => .all
    | .any =>
      if requireInvite && !requirePayment then .invite
      else if requirePayment && !requireInvite then .payment
      else
        match hasInvite, hasPayment with
        | true, true => .rejectBothPresented
        | true, false => .invite
        | false, true => .payment
        | false, false => .requireOne

/-- The tokens a registration must spend. -/
structure GatedRegistration where
  /-- Hash of the invite. -/
  inviteCodeHash : Option String
  /-- Invoice and the registrant it is bound to. -/
  payment : Option (String × String)
  deriving DecidableEq

/-- Status of an invoice at the processor. -/
inductive InvoiceStatus
  | pending
  | detected
  | settled
  | expired
  | invalid
  deriving DecidableEq

/-- An invoice, as the processor reports it. -/
structure Invoice where
  /-- How far the payment is. -/
  status : InvoiceStatus
  /-- The identity in the processor's metadata. -/
  bind : Option String

/-- A presented credential, without blanks around it. -/
def presented (credential : Option String) : Option String :=
  (credential.map trim).filter fun c => !c.isEmpty

/-- `require_invite_hash`. -/
def requireInviteHash (hashInviteCode : String → String) (inviteCode : Option String) :
    Except AppError String :=
  match presented inviteCode with
  | some code => .ok (hashInviteCode code)
  | none => .error (.validationError "An invite code is required to register on this instance.")

/-- The answer to an invoice that is missing or bound to somebody else. -/
def unknownInvoice : AppError := .validationError "Unknown or invalid payment invoice."

/-- The processor's answer: only a settled invoice with a matching bind grants. -/
def checkSettled (pubkeyHash id : String) (answer : Except AppError Invoice) :
    Except AppError (Option String) := do
  let invoice ← answer
  if invoice.status ≠ .settled then
    throw (.paymentPending "Payment not yet confirmed. Complete the payment and retry.")
  else if invoice.bind.any fun bound => bound ≠ pubkeyHash then throw unknownInvoice
  else pure (some id)

/-- `verify_payment_settled` for a new wallet. -/
def verifyPaymentSettled (cfg : GateConfig) (provider : String → Except AppError Invoice)
    (pubkeyHash : String) (paymentInvoiceId : Option String) : Handler (Option String) :=
  if !cfg.requirePayment then .ret none
  else if !cfg.paymentConfigured then .fail (.internal "payment provider not configured")
  else
    match presented paymentInvoiceId with
    | none => .fail (.validationError
        ("Registration on this instance requires payment. Request an invoice from " ++
          "/auth/payment-invoice, pay it, then retry."))
    | some id => do
      match (← select fun db => db.paymentInvoices.get? id).filter
          fun r => r.pubkeyHash = pubkeyHash with
      | none => .fail unknownInvoice
      | some row =>
        if row.consumedAt.isSome then
          .fail (.validationError "This payment invoice has already been used.")
        else .ofExcept (checkSettled pubkeyHash id (provider id))

/-- The invite of the conjunction, when its gate is on. -/
def plannedInvite (cfg : GateConfig) (hashInviteCode : String → String)
    (inviteCode : Option String) : Handler (Option String) :=
  if cfg.requireInvite then do
    let invite ← .ofExcept (requireInviteHash hashInviteCode inviteCode)
    return some invite
  else .ret none

/-- `plan_gate_consume`. -/
def planGateConsume (cfg : GateConfig) (hashInviteCode : String → String)
    (provider : String → Except AppError Invoice) (pubkeyHash : String)
    (inviteCode paymentInvoiceId : Option String) : Handler GatedRegistration :=
  match planGates cfg.gateMode cfg.requireInvite cfg.requirePayment (presented inviteCode).isSome
      (presented paymentInvoiceId).isSome with
  | .open => .ret ⟨none, none⟩
  | .all => do
    let invite ← plannedInvite cfg hashInviteCode inviteCode
    let paid ← verifyPaymentSettled cfg provider pubkeyHash paymentInvoiceId
    return ⟨invite, paid.map fun id => (id, pubkeyHash)⟩
  | .invite => do
    let invite ← .ofExcept (requireInviteHash hashInviteCode inviteCode)
    return ⟨some invite, none⟩
  | .payment => do
    let paid ← verifyPaymentSettled cfg provider pubkeyHash paymentInvoiceId
    return ⟨none, paid.map fun id => (id, pubkeyHash)⟩
  | .rejectBothPresented =>
    .fail (.validationError "Present exactly one registration method, not both.")
  | .requireOne => .fail (.validationError
      ("Registration on this instance requires an invite code or a settled payment. Choose one " ++
        "and retry."))

/-! ### The transaction -/

/-- What a statement of a registration locks: rows, and values of unique columns. -/
inductive Lock
  | invite (codeHash : String)
  | invoice (id : String)
  | user (id : Uuid)
  | unique (c : UniqueColumn) (v : String)
  | userKey (k : Uuid × AssetType × String)
  deriving DecidableEq

/-- Some user holds the value in the column. -/
def takenIn (c : UniqueColumn) (v : String) (w : World) : Bool :=
  w.db.users.rows.any fun r => c.of r = some v

/-- Two states agree on what a lock protects. -/
def sameAt : Lock → Setoid World
  | .invite h => Setoid.ker fun w => w.db.inviteCodes.get? h
  | .invoice id => Setoid.ker fun w => w.db.paymentInvoices.get? id
  | .user u => Setoid.ker fun w => w.db.users.get? u
  | .unique c v => Setoid.ker (takenIn c v)
  | .userKey k => Setoid.ker fun w => w.db.userKeys.get? k

/-- An invite that can be claimed. -/
def InviteCodeRow.usable (now : Timestamp) (r : InviteCodeRow) : Bool :=
  r.usedAt.isNone && r.expiresAt.all fun e => now < e

/-- An invoice that can be consumed for a registrant. -/
def PaymentInvoiceRow.usable (pubkeyHash : String) (r : PaymentInvoiceRow) : Bool :=
  r.pubkeyHash = pubkeyHash && r.consumedAt.isNone

/-- An invite, used. -/
def useInvite (now : Timestamp) : Patch InviteCodeRow where
  set r := { r with usedAt := some now }

/-- An invoice, consumed. -/
def useInvoice (now : Timestamp) : Patch PaymentInvoiceRow where
  set r := { r with consumedAt := some now }

/-- Claim an invite that is unused and not expired. -/
def claimInvite (now : Timestamp) (codeHash : String) : Stmt World Lock AppError where
  locks := [.invite codeHash]
  run w :=
    match w.db.inviteCodes.updateOne codeHash (InviteCodeRow.usable now) (useInvite now) with
    | (some _, t) => .ok { w with db := { w.db with inviteCodes := t } }
    | (none, _) => .error (.validationError "Invalid or already-used invite code.")

/-- Consume an invoice that is bound to the registrant and not consumed. -/
def consumeInvoice (now : Timestamp) (id pubkeyHash : String) : Stmt World Lock AppError where
  locks := [.invoice id]
  run w :=
    match w.db.paymentInvoices.updateOne id (PaymentInvoiceRow.usable pubkeyHash)
        (useInvoice now) with
    | (some _, t) => .ok { w with db := { w.db with paymentInvoices := t } }
    | (none, _) => .error (.validationError "This payment invoice has already been used.")

/-- The locks of a new user: its row and its values of the unique columns. -/
def UserRow.locks (r : UserRow) : List Lock :=
  .user r.id :: UniqueColumn.all.filterMap fun c => (c.of r).map (Lock.unique c)

/-- Create the user. -/
def insertUserStmt (r : UserRow) : Stmt World Lock AppError where
  locks := r.locks
  run w :=
    match w.db.insertUser r with
    | .ok db => .ok { w with db := db }
    | .error c => .error (registrationConflict c)

/-- Store a key; the user must exist. -/
def upsertKeyStmt (k : UserKeyRow) : Stmt World Lock AppError where
  locks := [.userKey (Lib.key k), .user k.userId]
  run w := (w.db.upsertUserKey k).map fun db => { w with db := db }

/-- What is fixed when the transaction begins: its time and the identifier it generates. -/
structure TxStart where
  /-- The time of the transaction. -/
  now : Timestamp
  /-- The generated identifier. -/
  userId : Uuid

/-- The statements of `create_user_consuming_gates`, in order. -/
def consumeGatesScript (pepper : Pepper) (new : NewUser) (gates : GatedRegistration)
    (keys : List (AssetType × AssetPublicKey)) (c : TxStart) : List (Stmt World Lock AppError) :=
  (gates.inviteCodeHash.map (claimInvite c.now)).toList ++
    (gates.payment.map fun p => consumeInvoice c.now p.1 p.2).toList ++
    insertUserStmt (new.row pepper c.userId) ::
    keys.map fun k => upsertKeyStmt (k.2.row c.userId k.1)

/-- `create_user_consuming_gates`: all statements or none. -/
def createUserConsumingGates (pepper : Pepper) (id : Uuid) (gates : GatedRegistration)
    (new : NewUser) (keys : List (AssetType × AssetPublicKey)) : Handler UserRow :=
  .query dbFault fun w =>
    match Lib.replay (consumeGatesScript pepper new gates keys ⟨w.now, id⟩) w with
    | .ok w' => (.ok (new.row pepper id), w')
    | .error e => (.error e, w)

/-! ### A new wallet -/

/-- `parse_keys`. -/
def parseKeys : List AssetPublicKey → Except AppError (List (AssetType × AssetPublicKey))
  | [] => .ok []
  | k :: rest => do
    let asset ← parseAsset k.asset
    let parsed ← parseKeys rest
    pure ((asset, k) :: parsed)

/-- `ensure_username_available` for a new wallet. -/
def ensureUsernameAvailable (username : Option String) : Handler Unit :=
  match presented username with
  | none => .ret ()
  | some name => do
    match ← select fun db => db.getUserByUsername name with
    | some _ => .fail (.conflict "That username is already taken. Choose another.")
    | none => .ret ()

/-- A registration: the gates, what the processor answers, and what the client submits. -/
structure Registration where
  /-- The gates of the instance. -/
  gates : GateConfig
  /-- The hash of an invite. -/
  hashInviteCode : String → String
  /-- The processor's answers. -/
  provider : String → Except AppError Invoice
  /-- The keyed hash of stored columns. -/
  pepper : Pepper
  /-- The identity an invoice must be bound to. -/
  boundTo : String
  /-- The user to create. -/
  new : NewUser
  /-- The keys to store. -/
  keys : List AssetPublicKey
  /-- The presented invite. -/
  inviteCode : Option String
  /-- The presented invoice. -/
  paymentInvoiceId : Option String

/-- What is checked before the transaction. -/
def registrationPlan (q : Registration) :
    Handler (GatedRegistration × List (AssetType × AssetPublicKey)) := do
  ensureUsernameAvailable q.new.username
  let gates ← planGateConsume q.gates q.hashInviteCode q.provider q.boundTo q.inviteCode
    q.paymentInvoiceId
  let keys ← .ofExcept (parseKeys q.keys)
  return (gates, keys)

/-- The registration of a new wallet. -/
def registerNew (q : Registration) (id : Uuid) : Handler UserRow := do
  let (gates, keys) ← registrationPlan q
  createUserConsumingGates q.pepper id gates q.new keys

end SmirkBackend
