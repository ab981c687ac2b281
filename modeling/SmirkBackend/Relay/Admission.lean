import SmirkBackend.Auth.Users
import SmirkBackend.Config.Settings
import SmirkBackend.Lib.Hex

/-!
# Relay admission

The relay asks the backend about every event before it stores it.  The admission service looks up
whether the author and the recipients are registered and whether the author holds premium, and a
pure function of these answers and the operator's write policy decides.

The decoder of `npub` texts is a parameter.

About an event of no wallet kind within the size limit (`Relay.General`),
`WritePolicy.decide_general` gives the policy's answer and `Relay.admits_general_iff` that of the
service.
-/

namespace SmirkBackend

open Lib (Table Prog)

/-! ### The policies -/

/-- `GIFT_WRAP_KIND`. -/
def giftWrapKind : UInt64 := 1059

/-- `WALLET_KINDS`. -/
def walletKinds : List UInt64 := [giftWrapKind, 10050]

/-- `is_wallet_kind`. -/
def isWalletKind (kind : UInt64) : Bool := walletKinds.contains kind

/-- Who may write. -/
inductive WritePolicy
  | open
  | authorAllowlist
  | inboxOutbox
  | premiumPost
  deriving DecidableEq

/-- `WritePolicy::parse`. -/
def WritePolicy.parse : String → Option WritePolicy
  | "open" => some .open
  | "author-allowlist" => some .authorAllowlist
  | "inbox-outbox" => some .inboxOutbox
  | "premium-post" => some .premiumPost
  | _ => none

/-- The decision about an event. -/
inductive Admit
  | permit
  | deny (msg : String)
  deriving DecidableEq

/-- The facts of an event that a decision needs. -/
structure EventMeta where
  /-- Author, in lower-case hexadecimal. -/
  authorPubkey : String
  /-- Kind. -/
  kind : UInt64
  /-- Hash of the event, in hexadecimal. -/
  idHex : String

/-- The loop of `leading_zero_bits`. -/
def leadingZeroBitsOf : List UInt8 → ℕ
  | [] => 0
  | b :: rest => if b = 0 then 8 + leadingZeroBitsOf rest else 7 - b.toNat.log2

/-- `leading_zero_bits`. -/
def leadingZeroBits (idHex : String) : ℕ :=
  match Lib.hexDecode idHex with
  | none => 0
  | some bytes => leadingZeroBitsOf bytes

/-- `giftwrap_inbox`: anyone may deliver a gift wrap to a registered user, with enough work. -/
def giftwrapInbox (event : EventMeta) (inboundPowBits : UInt8) (recipientRegistered : Bool) :
    Admit :=
  if event.kind = giftWrapKind && recipientRegistered then
    if 0 < inboundPowBits && leadingZeroBits event.idHex < inboundPowBits.toNat then
      .deny "insufficient proof-of-work for cross-ecosystem delivery"
    else .permit
  else .deny "external authors may only deliver gift-wrapped DMs to registered users"

/-- `decide`. -/
def WritePolicy.decide (policy : WritePolicy) (event : EventMeta) (inboundPowBits : UInt8)
    (authorRegistered recipientRegistered authorPremium authorAllowlisted : Bool) : Admit :=
  if authorAllowlisted then .permit
  else
    match policy with
    | .open => .permit
    | authorAllowlist =>
      if authorRegistered then .permit else .deny "author is not a registered npub"
    | inboxOutbox =>
      if authorRegistered then .permit
      else giftwrapInbox event inboundPowBits recipientRegistered
    | premiumPost =>
      if authorPremium then .permit
      else if authorRegistered && isWalletKind event.kind then .permit
      else if authorRegistered then
        .deny "premium membership required to post general Nostr events to this relay"
      else giftwrapInbox event inboundPowBits recipientRegistered

/-- Who may post an event of no wallet kind under a policy. -/
def WritePolicy.mayPost (policy : WritePolicy) (registered premium : Bool) : Bool :=
  match policy with
  | .open => true
  | authorAllowlist | inboxOutbox => registered
  | premiumPost => premium

theorem giftwrapInbox_general {event : EventMeta} (hkind : isWalletKind event.kind = false)
    (bits : UInt8) (recipient : Bool) : giftwrapInbox event bits recipient ≠ .permit := by
  have hgift : event.kind ≠ giftWrapKind := by
    intro heq
    rw [heq] at hkind
    cases hkind
  simp [giftwrapInbox, hgift]

/-- Neither the recipients nor the work count for an event of no wallet kind. -/
theorem WritePolicy.decide_general (policy : WritePolicy) {event : EventMeta}
    (hkind : isWalletKind event.kind = false) (bits : UInt8)
    (registered recipient premium allowlisted : Bool) :
    policy.decide event bits registered recipient premium allowlisted = .permit ↔
      allowlisted = true ∨ policy.mayPost registered premium = true := by
  have hinbox := giftwrapInbox_general hkind bits recipient
  cases allowlisted
  case true => simp [WritePolicy.decide]
  case false =>
    cases policy <;> cases registered <;> cases premium <;>
      simp [WritePolicy.decide, WritePolicy.mayPost, hkind, hinbox]

/-! ### The relay of an instance -/

/-- `NostrRelayProvider`. -/
structure Relay where
  /-- Adapter. -/
  kind : String
  /-- URL for clients. -/
  advertisedUrl : String
  /-- Who may write. -/
  policy : WritePolicy
  /-- Difficulty of foreign events. -/
  inboundPowBits : UInt8
  /-- Size of an event. -/
  maxEventBytes : UInt64
  /-- Authors that may write anything, in lower-case hexadecimal. -/
  writeAllowlist : List String

/-- `is_write_allowlisted`. -/
def Relay.isWriteAllowlisted (relay : Relay) (authorHex : String) : Bool :=
  !relay.writeAllowlist.isEmpty && relay.writeAllowlist.contains authorHex

/-- Prefix and bytes of a bech32 text. -/
abbrev Bech32 := String → Option (String × List UInt8)

/-- `allowlist_entry_to_hex`. -/
def allowlistEntryToHex (env : ConfigEnv) (bech32 : Bech32) (entry : String) : Option String :=
  let s := trim entry
  if s.isEmpty then none
  else if startsWith s "npub1" then
    match bech32 s with
    | none => none
    | some (hrp, data) =>
      if hrp ≠ "npub" || data.length ≠ 32 then none else some (Lib.hexEncode data)
  else
    let lower := env.lowercase s
    if lower.utf8ByteSize = 64 && (Lib.hexDecode lower).isSome then some lower else none

/-- `from_config`; entries of the allowlist that cannot be read are skipped. -/
def relayFromConfig (env : ConfigEnv) (bech32 : Bech32) (r : Config.RelayConfig)
    (writeAllowlist : List String) : Except AppError (Option Relay) :=
  if !r.enabled then .ok none
  else
    match WritePolicy.parse r.writePolicy with
    | none => .error (.configError ("invalid RELAY_WRITE_POLICY: " ++ r.writePolicy))
    | some policy =>
      if r.mode ∈ ["bundled", "external"] then
        .ok (some
          { kind := if r.mode = "bundled" then "nostr-rs-relay" else "external"
            advertisedUrl := r.advertisedUrl
            policy := policy
            inboundPowBits := r.inboundPowBits
            maxEventBytes := r.maxEventBytes
            writeAllowlist := (writeAllowlist.filterMap (allowlistEntryToHex env bech32)).dedup })
      else .error (.configError ("unsupported RELAY_MODE: " ++ r.mode))

/-! ### The admission service -/

/-- An event, as the relay forwards it. -/
structure RelayEvent where
  /-- Hash. -/
  id : List UInt8
  /-- Author. -/
  pubkey : List UInt8
  /-- Kind. -/
  kind : UInt64
  /-- Body. -/
  content : String
  /-- Tags: a name followed by values. -/
  tags : List (List String)

/-- The author, in lower-case hexadecimal. -/
def RelayEvent.authorHex (event : RelayEvent) : String := Lib.hexEncode event.pubkey

namespace Db

variable (db : Db)

/-- `is_registered_npub`. -/
def isRegisteredNpub (npub : String) : Bool :=
  db.users.rows.any fun r => r.nostrPubkey = some npub

/-- `is_premium_npub`. -/
def isPremiumNpub (now : Timestamp) (npub : String) : Bool :=
  db.users.rows.any fun r => r.nostrPubkey = some npub && r.premiumUntil.any fun t => now < t

/-- `any_registered_npub`. -/
def anyRegisteredNpub (npubs : List String) : Bool :=
  db.users.rows.any fun r => r.nostrPubkey.any fun npub => npubs.contains npub

end Db

/-- A read whose failure counts as `false`. -/
def selectOrFalse (f : World → Bool) : Handler Bool :=
  .act (fun w => w) (fun w => .ret (f w)) (.ret false)

/-- `MAX_P_TAGS`. -/
def maxPTags : ℕ := 20

/-- The loop over the tags: the recipients found so far, and the tags that are left. -/
def collectPTags (lowercase : String → String) (pTags : List String) :
    List (List String) → List String
  | [] => pTags
  | tag :: rest =>
    if maxPTags ≤ pTags.length then pTags
    else
      match tag with
      | "p" :: value :: _ =>
        let p := lowercase value
        if pTags.contains p then collectPTags lowercase pTags rest
        else collectPTags lowercase (pTags ++ [p]) rest
      | _ => collectPTags lowercase pTags rest

namespace Relay

variable (relay : Relay) (lowercase : String → String) (event : RelayEvent)

/-- The author is on the operator's list. -/
def authorAllowlisted : Bool := relay.isWriteAllowlisted event.authorHex

/-- The lookup of the author. -/
def authorRegistered : Handler Bool :=
  if relay.authorAllowlisted event then return false
  else selectOrFalse fun w => w.db.isRegisteredNpub event.authorHex

/-- The lookup of the author's premium; only one policy asks for it. -/
def authorPremium : Handler Bool :=
  if !relay.authorAllowlisted event && relay.policy = .premiumPost then
    selectOrFalse fun w => w.db.isPremiumNpub w.now event.authorHex
  else return false

/-- The lookup of the recipients, for an author that is not registered. -/
def recipientRegistered (authorRegistered : Bool) : Handler Bool :=
  if authorRegistered || relay.authorAllowlisted event then return false
  else
    let pTags := collectPTags lowercase [] event.tags
    if pTags.isEmpty then return false
    else selectOrFalse fun w => w.db.anyRegisteredNpub pTags

/-- `event_admit`: the answer to an event, or to a request without one. -/
def eventAdmit : Option RelayEvent → Handler Admit
  | none => return .deny "missing event"
  | some event =>
    if relay.maxEventBytes.toNat < event.content.utf8ByteSize then
      return .deny "event exceeds max size"
    else do
      let registered ← relay.authorRegistered event
      let premium ← relay.authorPremium event
      let recipient ← relay.recipientRegistered lowercase event registered
      return relay.policy.decide ⟨event.authorHex, event.kind, Lib.hexEncode event.id⟩
        relay.inboundPowBits registered recipient premium (relay.authorAllowlisted event)

/-- An event of no wallet kind, within the size limit. -/
structure General : Prop where
  /-- Its kind. -/
  kind : isWalletKind event.kind = false
  /-- Its size. -/
  size : event.content.utf8ByteSize ≤ relay.maxEventBytes.toNat

/-- The service lets an event in. -/
def Admits (w : World) : Prop :=
  ((relay.eventAdmit lowercase (some event)).run w).1 = .ok .permit

theorem run_authorRegistered (w : World) :
    (relay.authorRegistered event).run w =
      (.ok (!relay.authorAllowlisted event && w.db.isRegisteredNpub event.authorHex), w) := by
  unfold authorRegistered
  cases relay.authorAllowlisted event <;> rfl

theorem run_authorPremium (w : World) :
    (relay.authorPremium event).run w =
      (.ok (!relay.authorAllowlisted event && decide (relay.policy = .premiumPost) &&
        w.db.isPremiumNpub w.now event.authorHex), w) := by
  unfold authorPremium
  by_cases hasked : (!relay.authorAllowlisted event && relay.policy = .premiumPost) = true
  · rw [if_pos hasked, hasked]
    rfl
  · rw [if_neg hasked, Bool.eq_false_iff.mpr hasked]
    rfl

theorem run_recipientRegistered (registered : Bool) (w : World) :
    ∃ b, (relay.recipientRegistered lowercase event registered).run w = (.ok b, w) := by
  unfold recipientRegistered
  by_cases hknown : (registered || relay.authorAllowlisted event) = true
  · exact ⟨false, by rw [if_pos hknown]; rfl⟩
  · rw [if_neg hknown]
    by_cases hnone : (collectPTags lowercase [] event.tags).isEmpty = true
    · exact ⟨false, by simp only [hnone]; rfl⟩
    · exact ⟨w.db.anyRegisteredNpub (collectPTags lowercase [] event.tags), by
        simp only [hnone]; rfl⟩

variable {relay lowercase event}

/-- The service answers as the policy does for the author's row, whoever the recipients are. -/
theorem admits_general_iff (hgeneral : relay.General event) {w : World} :
    relay.Admits lowercase event w ↔
      relay.authorAllowlisted event = true ∨
        relay.policy.mayPost (w.db.isRegisteredNpub event.authorHex)
          (w.db.isPremiumNpub w.now event.authorHex) = true := by
  obtain ⟨b, hrecipient⟩ := run_recipientRegistered relay lowercase event
    (!relay.authorAllowlisted event && w.db.isRegisteredNpub event.authorHex) w
  have hrun : ((relay.eventAdmit lowercase (some event)).run w).1 = .ok
      (relay.policy.decide ⟨event.authorHex, event.kind, Lib.hexEncode event.id⟩
        relay.inboundPowBits
        (!relay.authorAllowlisted event && w.db.isRegisteredNpub event.authorHex) b
        (!relay.authorAllowlisted event && decide (relay.policy = .premiumPost) &&
          w.db.isPremiumNpub w.now event.authorHex)
        (relay.authorAllowlisted event)) := by
    simp only [eventAdmit, if_neg (Nat.not_lt.mpr hgeneral.size), Prog.run_bind,
      run_authorRegistered, run_authorPremium, hrecipient]
    rfl
  rw [Admits, hrun, Except.ok.injEq, WritePolicy.decide_general _ hgeneral.kind]
  cases relay.authorAllowlisted event
  case true => simp
  case false => cases hpolicy : relay.policy <;> simp [WritePolicy.mayPost]

end Relay

end SmirkBackend
