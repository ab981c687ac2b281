import SmirkBackend.Basic
import SmirkBackend.Lib.Table

/-!
# The `social_tips` row

A social tip is one row of `social_tips`: who sent it, what it promises, how it was funded, who
claims it and how the claim settled on chain.  The row keeps every column of the table; the
`CHECK` constraints of the schema are the predicate `SocialTipRow.checks`.
-/

namespace SmirkBackend

/-- The legal `social_tips.status` values, in lifecycle order. -/
inductive TipStatus
  | draft
  | pendingConfirmation
  | pending
  | claiming
  | claimed
  | clawedBack
  | cancelled
  | fundingMismatch
  deriving DecidableEq, Repr

namespace TipStatus

/-- The wire and database string of a status. -/
def asStr : TipStatus → String
  | draft => "draft"
  | pendingConfirmation => "pending_confirmation"
  | pending => "pending"
  | claiming => "claiming"
  | claimed => "claimed"
  | clawedBack => "clawed_back"
  | cancelled => "cancelled"
  | fundingMismatch => "funding_mismatch"

end TipStatus

/-- A persisted social tip. -/
structure SocialTipRow where
  /-- Primary key. -/
  id : Uuid
  /-- The user who funds the tip. -/
  senderUserId : Uuid
  /-- Lower-case asset code. -/
  asset : String
  /-- Declared amount, in the smallest unit. -/
  amount : Int64
  /-- Anyone holding the claim URL may claim. -/
  isPublic : Bool
  /-- Hash of the claim key of a public tip. -/
  claimKeyHash : Option String
  /-- The claim secret, encrypted. -/
  encryptedKey : Option (List UInt8)
  /-- The address the tip is funded at and swept from. -/
  tipAddress : Option String
  /-- The funding transaction the sender attached. -/
  fundingTxid : Option String
  /-- Place in the lifecycle. -/
  status : TipStatus
  /-- Last confirmation count of the funding transaction. -/
  fundingConfirmations : Int32
  /-- When the funding first reached its threshold. -/
  fundingConfirmedAt : Option Timestamp
  /-- Last time a worker looked at the row. -/
  lastConfirmationCheck : Option Timestamp
  /-- Confirmations the funding needs. -/
  confirmationsRequired : Int32
  /-- The amount verifier has reached a verdict. -/
  fundingAmountVerified : Bool
  /-- The receipt the amount verifier saw. -/
  fundingAmountObserved : Option Int64
  /-- When the amount verifier reached its verdict. -/
  fundingAmountVerifiedAt : Option Timestamp
  /-- When the tip was claimed. -/
  claimedAt : Option Timestamp
  /-- Who claimed the tip. -/
  claimedByUserId : Option Uuid
  /-- When the sender took the funds back. -/
  clawedBackAt : Option Timestamp
  /-- The sweep transaction. -/
  sweepTxid : Option String
  /-- When the sweep was seen at the required depth. -/
  sweepConfirmedAt : Option Timestamp
  /-- Height of the block that holds the sweep. -/
  sweepBlockHeight : Option Int32
  /-- Hash of the block that holds the sweep. -/
  sweepBlockHash : Option String
  /-- Exactly-once stamp of the claim notification. -/
  sweepConfirmedDmSentAt : Option Timestamp
  /-- Exactly-once stamp of the reorg notification. -/
  reorgNotifiedAt : Option Timestamp
  /-- View key of an XMR or WOW tip address. -/
  tipViewKey : Option String
  /-- When the address was registered with the light-wallet server. -/
  lwsRegisteredAt : Option Timestamp
  /-- When the address was deactivated at the light-wallet server. -/
  lwsDeactivatedAt : Option Timestamp
  /-- Insertion instant. -/
  createdAt : Timestamp
  /-- Instant of the last update. -/
  updatedAt : Timestamp
  /-- Voucher commitment of a Grin tip. -/
  grinCommitment : Option String
  /-- The addressee of a targeted tip. -/
  recipientUserId : Option Uuid
  deriving DecidableEq

instance : Lib.HasKey SocialTipRow Uuid := ⟨SocialTipRow.id⟩

@[simp] theorem SocialTipRow.key_eq (r : SocialTipRow) : Lib.key r = r.id := rfl

/-- Values of a fresh tip. -/
structure NewSocialTip where
  /-- The user who funds the tip. -/
  senderUserId : Uuid
  /-- Asset code. -/
  asset : String
  /-- Declared amount. -/
  amount : Int64
  /-- Hash of the claim key of a public tip. -/
  claimKeyHash : Option String
  /-- The claim secret, encrypted. -/
  encryptedKey : Option (List UInt8)
  /-- The address the tip is funded at. -/
  tipAddress : Option String
  /-- The funding transaction, when it is attached at creation. -/
  fundingTxid : Option String
  /-- View key of an XMR or WOW tip address. -/
  tipViewKey : Option String
  /-- Confirmations the funding needs. -/
  confirmationsRequired : Int32
  /-- Voucher commitment of a Grin tip. -/
  grinCommitment : Option String
  /-- The addressee; `none` makes the tip public. -/
  recipientUserId : Option Uuid
  deriving DecidableEq

/-- A public Grin tip of 5 units, funded at creation. -/
def NewSocialTip.grinSample : NewSocialTip where
  senderUserId := 7
  asset := "grin"
  amount := 5
  claimKeyHash := some "00"
  encryptedKey := none
  tipAddress := some "08aa"
  fundingTxid := some "f0"
  tipViewKey := none
  confirmationsRequired := 10
  grinCommitment := some "08aa"
  recipientUserId := none

namespace SocialTipRow

/-- The `CHECK` constraints `public_tip_has_hash`, `targeted_tip_has_recipient` and
`targeted_tip_has_encrypted_key`. -/
def checks (r : SocialTipRow) : Bool :=
  (!r.isPublic || r.claimKeyHash.isSome) &&
  (r.isPublic || r.recipientUserId.isSome) &&
  (r.isPublic || r.encryptedKey.isSome)

/-- The row `INSERT INTO social_tips` stores: `is_public` is derived from the recipient, the
columns the statement does not name take their defaults. -/
def ofNew (id : Uuid) (now : Timestamp) (new : NewSocialTip) (status : TipStatus) :
    SocialTipRow where
  id := id
  senderUserId := new.senderUserId
  asset := new.asset
  amount := new.amount
  isPublic := new.recipientUserId.isNone
  claimKeyHash := new.claimKeyHash
  encryptedKey := new.encryptedKey
  tipAddress := new.tipAddress
  fundingTxid := new.fundingTxid
  status := status
  fundingConfirmations := 0
  fundingConfirmedAt := none
  lastConfirmationCheck := none
  confirmationsRequired := new.confirmationsRequired
  fundingAmountVerified := false
  fundingAmountObserved := none
  fundingAmountVerifiedAt := none
  claimedAt := none
  claimedByUserId := none
  clawedBackAt := none
  sweepTxid := none
  sweepConfirmedAt := none
  sweepBlockHeight := none
  sweepBlockHash := none
  sweepConfirmedDmSentAt := none
  reorgNotifiedAt := none
  tipViewKey := new.tipViewKey
  lwsRegisteredAt := none
  lwsDeactivatedAt := none
  createdAt := now
  updatedAt := now
  grinCommitment := new.grinCommitment
  recipientUserId := new.recipientUserId

end SocialTipRow

end SmirkBackend
