import SmirkBackend.Admin.Boot

/-!
# Capabilities

Wallets adapt to an instance by what it advertises: chains, features, prices of premium, and gates.
The answer is computed from the running configuration, while the chains are served by clients, the
relay by a service and the tips by loops that the start has built.

A feature whose secret or URL is missing is downgraded (`chainServiceable`, `relayAdvertised`,
`premiumAdvertised`, `tipsAdvertised`); the answer is `effectiveCapabilities`.
-/

namespace SmirkBackend

/-! ### The answer -/

/-- `CAPABILITIES_CONTRACT_VERSION`. -/
def capabilitiesContractVersion : UInt32 := 1

/-- `CARGO_PKG_VERSION`. -/
def cargoPkgVersion : String := "0.3.0"

/-- `env_flag_enabled`. -/
def envFlagEnabled (vars : EnvVars) (name : String) : Bool :=
  (vars name).any fun raw =>
    ["1", "true", "on", "yes"].any fun truthy => eqIgnoreAsciiCase (trim raw) truthy

/-- `subaddr_provisioning_enabled`. -/
def subaddrProvisioningEnabled (vars : EnvVars) : Bool :=
  envFlagEnabled vars "FEATURE_XMR_SUBADDR_PROVISIONING"

/-- `utxo_multi_enabled`. -/
def utxoMultiEnabled (vars : EnvVars) : Bool := envFlagEnabled vars "FEATURE_UTXO_MULTI_ADDRESS"

/-- `ChainCapability`. -/
structure ChainCapability where
  /-- The chain is served. -/
  enabled : Bool
  /-- Its network, if the backend sets it. -/
  network : Option String

/-- `ChainCapabilities`. -/
structure ChainCapabilities where
  /-- Bitcoin. -/
  btc : ChainCapability
  /-- Litecoin. -/
  ltc : ChainCapability
  /-- Monero. -/
  xmr : ChainCapability
  /-- Wownero. -/
  wow : ChainCapability
  /-- Grin. -/
  grin : ChainCapability

/-- `FeatureCapabilities`. -/
structure FeatureCapabilities where
  /-- Grin mailbox. -/
  grinRelay : Bool
  /-- Light server of Grin. -/
  grinLws : Bool
  /-- Price feed. -/
  prices : Bool
  /-- Nostr identities. -/
  nostrIdentity : Bool
  /-- Registration with a Nostr key alone. -/
  nostrNativeAuth : Bool
  /-- Relay. -/
  nostrRelay : Bool
  /-- Premium accounts. -/
  premiumRelay : Bool
  /-- Public feed. -/
  feed : Bool
  /-- Tips. -/
  tips : Bool
  /-- Tips for one user. -/
  targetedTips : Bool
  /-- Provisioning of subaddresses. -/
  xmrSubaddrProvisioning : Bool
  /-- Queries for several addresses. -/
  utxoMultiAddress : Bool

/-- `MessagingCapability`. -/
structure MessagingCapability where
  /-- URL of the relay. -/
  relayUrl : String
  /-- Who may write. -/
  writePolicy : String
  /-- Difficulty of foreign events. -/
  inboundPowBits : UInt8
  /-- What the relay speaks. -/
  supportedNips : List UInt16
  deriving DecidableEq

/-- `PremiumRailInfo`. -/
structure PremiumRailInfo where
  /-- Name, as an invoice request has it. -/
  id : String
  /-- Assets. -/
  assets : List String

/-- `PremiumCapability`; a `PremiumPlanInfo` has the fields of a plan. -/
structure PremiumCapability where
  /-- Currency of the plans. -/
  currency : String
  /-- Plans. -/
  plans : List Config.PremiumPlan
  /-- URL of the relay. -/
  relayUrl : String
  /-- Ways to pay, the primary one first. -/
  rails : List PremiumRailInfo

/-- `FeedCapability`. -/
structure FeedCapability where
  /-- URL of the relay. -/
  relayUrl : String
  /-- The operator's posts. -/
  showOwner : Bool
  /-- The posts of members. -/
  showPremium : Bool
  /-- The operator's npub. -/
  ownerNpub : Option String
  /-- Other authors. -/
  allowlistNpubs : List String
  /-- Other relays. -/
  extraRelays : List String

/-- `RestoreCapability`. -/
structure RestoreCapability where
  /-- Policy. -/
  policy : String
  /-- Days behind the tip, if the policy has a bound. -/
  maxDepthDays : Option UInt32
  /-- Days without proof of work. -/
  powFreeDays : UInt32
  /-- Days for a bit of difficulty. -/
  powDaysPerBit : UInt32
  /-- Greatest difficulty. -/
  powMaxBits : UInt32

/-- `RegistrationCapability`. -/
structure RegistrationCapability where
  /-- New wallets need an invite. -/
  inviteRequired : Bool
  /-- New wallets solve a challenge. -/
  powRequired : Bool
  /-- New wallets pay. -/
  paymentRequired : Bool
  /-- Price. -/
  paymentAmount : Option String
  /-- Currency of the price. -/
  paymentCurrency : Option String
  /-- How the gates combine. -/
  registrationMode : String

/-- `CapabilitiesResponse`. -/
structure CapabilitiesResponse where
  /-- Version of the backend. -/
  version : String
  /-- Version of this contract. -/
  contractVersion : UInt32
  /-- Domain of the handles. -/
  nip05Domain : Option String
  /-- Chains. -/
  chains : ChainCapabilities
  /-- Features. -/
  features : FeatureCapabilities
  /-- Restoring wallets. -/
  restore : RestoreCapability
  /-- Registration. -/
  registration : RegistrationCapability
  /-- Relay. -/
  messaging : Option MessagingCapability
  /-- Premium accounts. -/
  premium : Option PremiumCapability
  /-- Public feed. -/
  feed : Option FeedCapability

/-- `chain_serviceable`. -/
def chainServiceable (c : Config) (asset : String) : Bool :=
  let f := c.features.chains
  let ch := c.chains
  match asset with
  | "btc" => f.btc && (ch.btc.electrumPrimary.isSome || !ch.btc.electrumFallbacks.isEmpty)
  | "ltc" => f.ltc && (ch.ltc.electrumPrimary.isSome || !ch.ltc.electrumFallbacks.isEmpty)
  | "xmr" => f.xmr && !ch.xmrLwsAdminKey.isEmpty
  | "wow" => f.wow && !ch.wowLwsAdminKey.isEmpty
  | "grin" => f.grin && !ch.grinOwnerApiSecret.isEmpty
  | _ => false

/-- `grin_lws_serviceable`. -/
def grinLwsServiceable (dep : Deployment) (c : Config) : Bool :=
  chainServiceable c "grin" && !(trim dep.grinLwsUrl).isEmpty

/-- `relay_advertised`. -/
def relayAdvertised (c : Config) : Bool := c.relay.enabled && !(trim c.relay.advertisedUrl).isEmpty

/-- `premium_advertised`. -/
def premiumAdvertised (c : Config) : Bool := c.premium.enabled && relayAdvertised c

/-- `feed_advertised`. -/
def feedAdvertised (c : Config) : Bool := c.feedEnabled && relayAdvertised c

/-- `tips_advertised`. -/
def tipsAdvertised (c : Config) : Bool :=
  c.features.tips && c.tipShareBase.isSome &&
    ["btc", "ltc", "xmr", "wow", "grin"].any (chainServiceable c)

/-- The asset of a checkout rail, as `CHECKOUT_RAILS` has it. -/
def railAsset : String → String
  | "xmrcheckout" => "XMR"
  | "wowcheckout" => "WOW"
  | _ => ""

/-- `premium_rails`. -/
def premiumRails (dep : Deployment) (c : Config) : List PremiumRailInfo :=
  ⟨c.registration.payment.provider, dep.primaryAssets⟩ ::
    c.premium.rails.map fun r => ⟨r.kind, [railAsset r.kind]⟩

/-- `SUPPORTED_NIPS`. -/
def supportedNips : List UInt16 := [1, 17, 44, 59]

/-- The domain of the handles: the one that is set, or the host of the API without its first
label. -/
def handleDomain (boot : BootEnv) (env : ConfigEnv) (dep : Deployment) (c : Config) :
    Option String :=
  dep.nip05Domain <|>
    ((c.publicApiUrl.bind env.parseUrl).bind Url.host).map fun host =>
      let h := toLowercase (boot.hostStr host)
      if startsWith h "api." then String.ofList (h.toList.drop 4) else h

/-- `effective_capabilities`. -/
def effectiveCapabilities (boot : BootEnv) (env : ConfigEnv) (dep : Deployment) (c : Config) :
    CapabilitiesResponse where
  version := cargoPkgVersion
  contractVersion := capabilitiesContractVersion
  nip05Domain := handleDomain boot env dep c
  chains :=
    { btc := ⟨chainServiceable c "btc", some dep.btcNetwork⟩
      ltc := ⟨chainServiceable c "ltc", some dep.ltcNetwork⟩
      xmr := ⟨chainServiceable c "xmr", none⟩
      wow := ⟨chainServiceable c "wow", none⟩
      grin := ⟨chainServiceable c "grin", none⟩ }
  features :=
    { grinRelay := c.features.grinRelay
      grinLws := grinLwsServiceable dep c
      prices := c.features.prices
      nostrIdentity := c.features.nostrIdentity && c.publicApiUrl.isSome
      nostrNativeAuth := c.features.nostrIdentity && c.publicApiUrl.isSome
      nostrRelay := relayAdvertised c
      premiumRelay := premiumAdvertised c
      feed := feedAdvertised c
      tips := tipsAdvertised c
      targetedTips := tipsAdvertised c && dep.targetedTips
      xmrSubaddrProvisioning := subaddrProvisioningEnabled dep.vars &&
        (chainServiceable c "xmr" || chainServiceable c "wow")
      utxoMultiAddress := utxoMultiEnabled dep.vars &&
        (chainServiceable c "btc" || chainServiceable c "ltc") }
  restore :=
    { policy := c.restore.policy.asStr
      maxDepthDays := if c.restore.policy = .bounded then some c.restore.maxDepthDays else none
      powFreeDays := c.restore.powFreeDays
      powDaysPerBit := c.restore.powDaysPerBit
      powMaxBits := c.restore.powMaxBits }
  registration :=
    { inviteRequired := c.registration.requireInvite
      powRequired := c.pow.enabled && c.pow.required
      paymentRequired := c.registration.payment.requirePayment
      paymentAmount :=
        if c.registration.payment.requirePayment then some c.registration.payment.amount else none
      paymentCurrency :=
        if c.registration.payment.requirePayment then some c.registration.payment.currency
        else none
      registrationMode := c.registration.gateMode.asStr }
  messaging :=
    if relayAdvertised c then
      some ⟨c.relay.advertisedUrl, c.relay.writePolicy, c.relay.inboundPowBits, supportedNips⟩
    else none
  premium :=
    if premiumAdvertised c then
      some ⟨c.premium.currency, c.premium.plans, c.relay.advertisedUrl, premiumRails dep c⟩
    else none
  feed :=
    if feedAdvertised c then
      some
        { relayUrl := c.relay.advertisedUrl
          showOwner := dep.showOwner
          showPremium := dep.showPremium
          ownerNpub := if dep.ownerNpub.isEmpty then none else some dep.ownerNpub
          allowlistNpubs := dep.allowlistNpubs
          extraRelays := dep.extraRelays }
    else none

end SmirkBackend
