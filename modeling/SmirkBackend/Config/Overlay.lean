import SmirkBackend.Config.Settings
import SmirkBackend.Lib.Json

/-!
# Edited settings

An overlay is a sparse edit of the configuration: for each section, the fields to change.  It is
stored as JSON, section by section, and applied to a configuration that must then pass the checks
of start-up.  A field either takes effect at once or needs a restart.
-/

namespace SmirkBackend

open Lib (Json)

/-! ### The sections -/

/-- `landing` -/
structure LandingOverlay where
  /-- The page is on. -/
  enabled : Option Bool
  /-- Title; an empty one clears it. -/
  title : Option String
  /-- Show the version. -/
  exposeVersion : Option Bool
  /-- Show the chains. -/
  exposeChains : Option Bool
  /-- Show the price feed. -/
  exposePriceFeed : Option Bool
  /-- Show the uptime. -/
  exposeUptime : Option Bool
  /-- Show numbers of users. -/
  statsEnabled : Option Bool
  /-- Hours between two counts. -/
  statsCacheHours : Option UInt64
  /-- Least number of users that is shown. -/
  statsMinUsers : Option Int64
  deriving DecidableEq

/-- `retention` -/
structure RetentionOverlay where
  /-- Days until login events are purged. -/
  loginEventsDays : Option UInt64
  /-- Days until audit rows are purged. -/
  auditDays : Option UInt64
  /-- Erasure is on. -/
  erasureEnabled : Option Bool
  /-- Purge login events. -/
  purgeLoginEvents : Option Bool
  /-- Exports in a day. -/
  exportPerDay : Option UInt32
  /-- Hours between confirmation and erasure. -/
  gracePeriodHours : Option UInt64
  deriving DecidableEq

/-- `restore` -/
structure RestoreOverlay where
  /-- Policy, by name. -/
  policy : Option String
  /-- Days behind the tip. -/
  maxDepthDays : Option UInt32
  /-- Days without proof of work. -/
  powFreeDays : Option UInt32
  /-- Days for a bit of difficulty. -/
  powDaysPerBit : Option UInt32
  /-- Greatest difficulty. -/
  powMaxBits : Option UInt32
  deriving DecidableEq

/-- `console` -/
structure ConsoleOverlay where
  /-- How a change that needs a restart is applied, by name. -/
  restartApplyMode : Option String
  deriving DecidableEq

/-- `registration` -/
structure RegistrationOverlay where
  /-- New wallets need an invite. -/
  requireInvite : Option Bool
  /-- How the gates combine, by name. -/
  gateMode : Option String
  /-- New wallets pay. -/
  requirePayment : Option Bool
  /-- Price, as a decimal. -/
  paymentAmount : Option String
  /-- Currency of the price. -/
  paymentCurrency : Option String
  /-- Confirmations until a payment is final. -/
  paymentConfirmations : Option UInt32
  /-- Minutes until an invoice expires. -/
  paymentExpiresMinutes : Option UInt32
  deriving DecidableEq

/-- `pow` -/
structure PowOverlay where
  /-- The feature is on. -/
  enabled : Option Bool
  /-- Every new wallet needs a solution. -/
  required : Option Bool
  /-- Cost of a solution. -/
  cost : Option UInt64
  deriving DecidableEq

/-- `features` -/
structure FeaturesOverlay where
  /-- Price feed. -/
  prices : Option Bool
  /-- Where prices come from. -/
  pricesProvider : Option String
  /-- Seconds between two queries. -/
  pricesIntervalSecs : Option UInt64
  /-- Quoted currency. -/
  pricesCurrency : Option String
  /-- Tips. -/
  tips : Option Bool
  /-- Nostr identities. -/
  nostrIdentity : Option Bool
  /-- Grin mailbox. -/
  grinRelay : Option Bool
  /-- Bitcoin. -/
  chainBtc : Option Bool
  /-- Litecoin. -/
  chainLtc : Option Bool
  /-- Monero. -/
  chainXmr : Option Bool
  /-- Wownero. -/
  chainWow : Option Bool
  /-- Grin. -/
  chainGrin : Option Bool
  deriving DecidableEq

/-- `relay` -/
structure RelayOverlay where
  /-- The relay is on. -/
  enabled : Option Bool
  /-- `bundled` or `external`. -/
  mode : Option String
  /-- URL for clients. -/
  advertisedUrl : Option String
  /-- Who may write. -/
  writePolicy : Option String
  /-- Difficulty of foreign events. -/
  inboundPowBits : Option UInt8
  /-- Size of an event. -/
  maxEventBytes : Option UInt64
  /-- Days until events are dropped. -/
  retentionDays : Option UInt32
  deriving DecidableEq

/-- `premium` -/
structure PremiumOverlay where
  /-- Premium is on. -/
  enabled : Option Bool
  /-- Currency of the plans. -/
  currency : Option String
  deriving DecidableEq

/-- A sparse edit of the configuration. -/
structure SettingsOverlay where
  /-- Landing page. -/
  landing : Option LandingOverlay
  /-- Retention. -/
  retention : Option RetentionOverlay
  /-- Restoring wallets. -/
  restore : Option RestoreOverlay
  /-- The operator's console. -/
  console : Option ConsoleOverlay
  /-- Registration gates. -/
  registration : Option RegistrationOverlay
  /-- Proof of work. -/
  pow : Option PowOverlay
  /-- Features. -/
  features : Option FeaturesOverlay
  /-- Relay. -/
  relay : Option RelayOverlay
  /-- Premium accounts. -/
  premium : Option PremiumOverlay
  deriving DecidableEq

/-- The edit that changes nothing. -/
def SettingsOverlay.default : SettingsOverlay :=
  ⟨none, none, none, none, none, none, none, none, none⟩

/-! ### When a field takes effect -/

/-- When a changed field takes effect. -/
inductive RuntimeClass
  | runtimeSafe
  | restartRequired
  deriving DecidableEq

/-- `runtime_class`. -/
def runtimeClass (sec field : String) : RuntimeClass :=
  match sec, field with
  | "retention", "erasure_enabled" => .restartRequired
  | "landing", _ => .runtimeSafe
  | "retention", _ => .runtimeSafe
  | "restore", _ => .runtimeSafe
  | "console", _ => .runtimeSafe
  | "registration", "require_payment" => .restartRequired
  | "registration", _ => .runtimeSafe
  | "pow", _ => .runtimeSafe
  | "features", _ => .restartRequired
  | "relay", _ => .restartRequired
  | "premium", _ => .restartRequired
  | _, _ => .restartRequired

/-! ### Application -/

/-- A changed value, or the one that is there. -/
def keep {α : Type} (edit : Option α) (current : α) : α := edit.getD current

/-- A changed value that is read from a name, or the one that is there. -/
def keepNamed {α : Type} (edit : Option String) (read : String → Except AppError α) (current : α) :
    Except AppError α :=
  match edit with
  | some name => read name
  | none => .ok current

open Config

/-- The edited landing page. -/
def LandingOverlay.apply (o : LandingOverlay) (c : LandingConfig) : LandingConfig where
  enabled := keep o.enabled c.enabled
  title := keep (o.title.map fun v => if v.isEmpty then none else some v) c.title
  exposeVersion := keep o.exposeVersion c.exposeVersion
  exposeChains := keep o.exposeChains c.exposeChains
  exposePriceFeed := keep o.exposePriceFeed c.exposePriceFeed
  exposeUptime := keep o.exposeUptime c.exposeUptime
  statsEnabled := keep o.statsEnabled c.statsEnabled
  statsCacheHours := keep o.statsCacheHours c.statsCacheHours
  statsMinUsers := keep o.statsMinUsers c.statsMinUsers

/-- The edited retention. -/
def RetentionOverlay.apply (o : RetentionOverlay) (c : RetentionConfig) : RetentionConfig where
  loginEventsDays := keep o.loginEventsDays c.loginEventsDays
  auditDays := keep o.auditDays c.auditDays
  erasureEnabled := keep o.erasureEnabled c.erasureEnabled
  purgeLoginEvents := keep o.purgeLoginEvents c.purgeLoginEvents
  exportPerDay := keep o.exportPerDay c.exportPerDay
  gracePeriodHours := keep o.gracePeriodHours c.gracePeriodHours

/-- The policy with this name. -/
def restorePolicyNamed (env : ConfigEnv) : String → Except AppError RestorePolicy
  | "create-only" => .ok .createOnly
  | "bounded" => .ok .bounded
  | "unlimited" => .ok .unlimited
  | other => .error (.validationError
      ("invalid restore.policy " ++ env.quoted other ++ " (want create-only|bounded|unlimited)"))

/-- The edited restore policy. -/
def RestoreOverlay.apply (env : ConfigEnv) (o : RestoreOverlay) (c : RestoreConfig) :
    Except AppError RestoreConfig := do
  let policy ← keepNamed o.policy (restorePolicyNamed env) c.policy
  return {
    policy := policy
    maxDepthDays := keep o.maxDepthDays c.maxDepthDays
    powFreeDays := keep o.powFreeDays c.powFreeDays
    powDaysPerBit := keep o.powDaysPerBit c.powDaysPerBit
    powMaxBits := keep o.powMaxBits c.powMaxBits }

/-- The mode with this name. -/
def restartApplyModeNamed (env : ConfigEnv) : String → Except AppError RestartApplyMode
  | "manual" => .ok .manual
  | "auto" => .ok .auto
  | other => .error (.validationError
      ("invalid console.restart_apply_mode " ++ env.quoted other ++ " (want manual|auto)"))

/-- The edited console. -/
def ConsoleOverlay.apply (env : ConfigEnv) (o : ConsoleOverlay) (c : RestartApplyMode) :
    Except AppError RestartApplyMode :=
  keepNamed o.restartApplyMode (restartApplyModeNamed env) c

/-- The mode with this name, in any letter case. -/
def gateModeNamed (env : ConfigEnv) (name : String) : Except AppError GateMode :=
  match env.lowercase name with
  | "all" => .ok .all
  | "any" => .ok .any
  | other => .error (.validationError
      ("invalid registration.gate_mode " ++ env.quoted other ++ " (want all|any)"))

/-- The edited registration gates. -/
def RegistrationOverlay.apply (env : ConfigEnv) (o : RegistrationOverlay)
    (c : RegistrationConfig) : Except AppError RegistrationConfig := do
  let gateMode ← keepNamed o.gateMode (gateModeNamed env) c.gateMode
  return {
    requireInvite := keep o.requireInvite c.requireInvite
    gateMode := gateMode
    payment := { c.payment with
      requirePayment := keep o.requirePayment c.payment.requirePayment
      amount := keep o.paymentAmount c.payment.amount
      currency := keep (o.paymentCurrency.map env.uppercase) c.payment.currency
      confirmations := keep o.paymentConfirmations c.payment.confirmations
      expiresMinutes := keep o.paymentExpiresMinutes c.payment.expiresMinutes } }

/-- The edited proof of work. -/
def PowOverlay.apply (o : PowOverlay) (c : Config.PowConfig) : Config.PowConfig :=
  { c with
    enabled := keep o.enabled c.enabled
    required := keep o.required c.required
    cost := keep o.cost c.cost }

/-- The edited features. -/
def FeaturesOverlay.apply (env : ConfigEnv) (o : FeaturesOverlay) (c : FeatureFlags) :
    FeatureFlags :=
  { c with
    prices := keep o.prices c.prices
    pricesProvider := keep (o.pricesProvider.map env.lowercase) c.pricesProvider
    pricesIntervalSecs := keep o.pricesIntervalSecs c.pricesIntervalSecs
    pricesCurrency := keep (o.pricesCurrency.map env.lowercase) c.pricesCurrency
    tips := keep o.tips c.tips
    nostrIdentity := keep o.nostrIdentity c.nostrIdentity
    grinRelay := keep o.grinRelay c.grinRelay
    chains :=
      { btc := keep o.chainBtc c.chains.btc
        ltc := keep o.chainLtc c.chains.ltc
        xmr := keep o.chainXmr c.chains.xmr
        wow := keep o.chainWow c.chains.wow
        grin := keep o.chainGrin c.chains.grin } }

/-- The edited relay. -/
def RelayOverlay.apply (env : ConfigEnv) (o : RelayOverlay) (c : RelayConfig) : RelayConfig :=
  { c with
    enabled := keep o.enabled c.enabled
    mode := keep (o.mode.map env.lowercase) c.mode
    advertisedUrl := keep o.advertisedUrl c.advertisedUrl
    writePolicy := keep (o.writePolicy.map env.lowercase) c.writePolicy
    inboundPowBits := keep o.inboundPowBits c.inboundPowBits
    maxEventBytes := keep o.maxEventBytes c.maxEventBytes
    retentionDays := keep o.retentionDays c.retentionDays }

/-- The edited premium accounts. -/
def PremiumOverlay.apply (env : ConfigEnv) (o : PremiumOverlay) (c : PremiumConfig) :
    PremiumConfig :=
  { c with
    enabled := keep o.enabled c.enabled
    currency := keep (o.currency.map env.uppercase) c.currency }

/-- A section is edited if it is there. -/
def applySection {O C : Type} (edit : O → C → C) (o : Option O) (c : C) : C :=
  match o with
  | some o => edit o c
  | none => c

/-- A section that can be refused is edited if it is there. -/
def applySectionM {O C : Type} (edit : O → C → Except AppError C) (o : Option O) (c : C) :
    Except AppError C :=
  match o with
  | some o => edit o c
  | none => .ok c

/-- `apply_overlay`. -/
def Config.applyOverlay (env : ConfigEnv) (c : Config) (ov : SettingsOverlay) :
    Except AppError Config := do
  let restore ← applySectionM (RestoreOverlay.apply env) ov.restore c.restore
  let restartApplyMode ← applySectionM (ConsoleOverlay.apply env) ov.console c.restartApplyMode
  let registration ←
    applySectionM (RegistrationOverlay.apply env) ov.registration c.registration
  let edited := { c with
    landing := applySection LandingOverlay.apply ov.landing c.landing
    retention := applySection RetentionOverlay.apply ov.retention c.retention
    restore := restore
    restartApplyMode := restartApplyMode
    registration := registration
    pow := applySection PowOverlay.apply ov.pow c.pow
    features := applySection (FeaturesOverlay.apply env) ov.features c.features
    relay := applySection (RelayOverlay.apply env) ov.relay c.relay
    premium := applySection (PremiumOverlay.apply env) ov.premium c.premium }
  edited.validate env
  return edited

/-- `editable_overlay`. -/
def Config.editableOverlay (c : Config) : SettingsOverlay where
  landing := some
    { enabled := some c.landing.enabled
      title := some (c.landing.title.getD "")
      exposeVersion := some c.landing.exposeVersion
      exposeChains := some c.landing.exposeChains
      exposePriceFeed := some c.landing.exposePriceFeed
      exposeUptime := some c.landing.exposeUptime
      statsEnabled := some c.landing.statsEnabled
      statsCacheHours := some c.landing.statsCacheHours
      statsMinUsers := some c.landing.statsMinUsers }
  retention := some
    { loginEventsDays := some c.retention.loginEventsDays
      auditDays := some c.retention.auditDays
      erasureEnabled := some c.retention.erasureEnabled
      purgeLoginEvents := some c.retention.purgeLoginEvents
      exportPerDay := some c.retention.exportPerDay
      gracePeriodHours := some c.retention.gracePeriodHours }
  restore := some
    { policy := some c.restore.policy.asStr
      maxDepthDays := some c.restore.maxDepthDays
      powFreeDays := some c.restore.powFreeDays
      powDaysPerBit := some c.restore.powDaysPerBit
      powMaxBits := some c.restore.powMaxBits }
  console := some { restartApplyMode := some c.restartApplyMode.asStr }
  registration := some
    { requireInvite := some c.registration.requireInvite
      gateMode := some c.registration.gateMode.asStr
      requirePayment := some c.registration.payment.requirePayment
      paymentAmount := some c.registration.payment.amount
      paymentCurrency := some c.registration.payment.currency
      paymentConfirmations := some c.registration.payment.confirmations
      paymentExpiresMinutes := some c.registration.payment.expiresMinutes }
  pow := some
    { enabled := some c.pow.enabled
      required := some c.pow.required
      cost := some c.pow.cost }
  features := some
    { prices := some c.features.prices
      pricesProvider := some c.features.pricesProvider
      pricesIntervalSecs := some c.features.pricesIntervalSecs
      pricesCurrency := some c.features.pricesCurrency
      tips := some c.features.tips
      nostrIdentity := some c.features.nostrIdentity
      grinRelay := some c.features.grinRelay
      chainBtc := some c.features.chains.btc
      chainLtc := some c.features.chains.ltc
      chainXmr := some c.features.chains.xmr
      chainWow := some c.features.chains.wow
      chainGrin := some c.features.chains.grin }
  relay := some
    { enabled := some c.relay.enabled
      mode := some c.relay.mode
      advertisedUrl := some c.relay.advertisedUrl
      writePolicy := some c.relay.writePolicy
      inboundPowBits := some c.relay.inboundPowBits
      maxEventBytes := some c.relay.maxEventBytes
      retentionDays := some c.relay.retentionDays }
  premium := some
    { enabled := some c.premium.enabled
      currency := some c.premium.currency }

end SmirkBackend
