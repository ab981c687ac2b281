import SmirkBackend.Auth.Gates
import SmirkBackend.Auth.Nip98

/-!
# The configuration of an instance

The settings that validation reads or that an operator can edit, and the validation itself: the
checks of start-up, in their order, each with its message.  It runs again whenever an operator
edits a setting.

The URL parser, name resolution, the case mapping of Unicode and the quoting of texts in messages
are parameters.
-/

namespace SmirkBackend

/-! ### Texts and addresses -/

/-- The host of a URL, or an address. -/
inductive Host
  | domain (name : String)
  | ipv4 (a : BitVec 32)
  | ipv6 (a : BitVec 128)

/-- `localhost`, `127.0.0.0/8` or `::1`. -/
def Host.isLoopback : Host → Bool
  | domain name => eqIgnoreAsciiCase name "localhost"
  | ipv4 a => a.extractLsb' 24 8 = 127
  | ipv6 a => a = 1

/-- A parsed URL. -/
structure Url where
  /-- Scheme. -/
  scheme : String
  /-- Host, if it has one. -/
  host : Option Host

/-- What validation takes from libraries. -/
structure ConfigEnv where
  /-- `Url::parse`. -/
  parseUrl : String → Option Url
  /-- `to_socket_addrs`. -/
  resolve : String → Option (List Host)
  /-- `str::to_lowercase`. -/
  lowercase : String → String
  /-- `str::to_uppercase`. -/
  uppercase : String → String
  /-- A text in quotes, as `{:?}` prints it. -/
  quoted : String → String

/-- `str::starts_with`. -/
def startsWith (s start : String) : Bool := start.toList.isPrefixOf s.toList

/-- A text occurs in another. -/
def containsText (s part : String) : Bool :=
  s.toList.tails.any fun rest => part.toList.isPrefixOf rest

/-- `PLACEHOLDERS`. -/
def placeholders : List String :=
  ["change_me", "changeme", "your-", "example", "placeholder", "dev-", "xxxx", "0000000000"]

/-- `looks_placeholder`. -/
def looksPlaceholder (env : ConfigEnv) (s : String) : Bool :=
  placeholders.any fun p => containsText (env.lowercase s) p

/-- `is_loopback_url`. -/
def isLoopbackUrl (env : ConfigEnv) (s : String) : Bool :=
  ((env.parseUrl s).bind Url.host).any Host.isLoopback

/-- The loop of `is_positive_decimal`. -/
def isPositiveDecimalFrom (seenDot seenDigit seenNonzero : Bool) : List Char → Bool
  | [] => seenDigit && seenNonzero
  | c :: rest =>
    if '0' ≤ c ∧ c ≤ '9' then isPositiveDecimalFrom seenDot true (seenNonzero || c ≠ '0') rest
    else if c = '.' ∧ !seenDot then isPositiveDecimalFrom true seenDigit seenNonzero rest
    else false

/-- `is_positive_decimal`. -/
def isPositiveDecimal (s : String) : Bool := isPositiveDecimalFrom false false false s.toList

/-! ### The settings -/

namespace Config

/-- Tiers of the rate limiter. -/
structure RateLimitConfig where
  /-- Milliseconds for a token, without authentication. -/
  strictPeriodMs : UInt64
  /-- Size of that bucket. -/
  strictBurst : UInt32
  /-- Milliseconds for a token, with authentication. -/
  normalPeriodMs : UInt64
  /-- Size of that bucket. -/
  normalBurst : UInt32

/-- Peppers and salts. -/
structure SecretConfig where
  /-- Pepper of stored fingerprints. -/
  seedFingerprintPepper : String
  /-- Pepper of stored refresh tokens. -/
  refreshTokenPepper : String
  /-- Salt of logged addresses. -/
  ipSalt : String

/-- Enabled chains. -/
structure ChainFlags where
  /-- Bitcoin. -/
  btc : Bool
  /-- Litecoin. -/
  ltc : Bool
  /-- Monero. -/
  xmr : Bool
  /-- Wownero. -/
  wow : Bool
  /-- Grin. -/
  grin : Bool

/-- Enabled features. -/
structure FeatureFlags where
  /-- Chains. -/
  chains : ChainFlags
  /-- Price feed. -/
  prices : Bool
  /-- Where prices come from. -/
  pricesProvider : String
  /-- Seconds between two queries. -/
  pricesIntervalSecs : UInt64
  /-- Quoted assets. -/
  pricesAssets : List String
  /-- Quoted currency. -/
  pricesCurrency : String
  /-- Tips. -/
  tips : Bool
  /-- Nostr identities. -/
  nostrIdentity : Bool
  /-- Grin mailbox. -/
  grinRelay : Bool

/-- Electrum servers. -/
structure UtxoConfig where
  /-- The operator's server. -/
  electrumPrimary : Option String
  /-- Other servers. -/
  electrumFallbacks : List String

/-- Access to the chains. -/
structure ChainConfig where
  /-- Bitcoin. -/
  btc : UtxoConfig
  /-- Litecoin. -/
  ltc : UtxoConfig
  /-- `XMR_LWS_ADMIN_KEY` -/
  xmrLwsAdminKey : String
  /-- `WOW_LWS_ADMIN_KEY` -/
  wowLwsAdminKey : String
  /-- `GRIN_OWNER_API_SECRET` -/
  grinOwnerApiSecret : String

/-- The proof-of-work gate. -/
structure PowConfig where
  /-- The feature is on. -/
  enabled : Bool
  /-- Key of the challenges. -/
  hmacKey : String
  /-- Every new wallet needs a solution. -/
  required : Bool
  /-- Cost of a solution. -/
  cost : UInt64
  /-- Hashes that need a solution. -/
  requiredForPubkeys : List String

/-- The operator's surface. -/
structure AdminConfig where
  /-- The surface is on. -/
  enabled : Bool
  /-- Canonical URL. -/
  publicUrl : String
  /-- Key of the access tokens. -/
  jwtSecret : String
  /-- Key of the integrity hashes. -/
  keyIntegritySecret : String

/-- The landing page. -/
structure LandingConfig where
  /-- The page is on. -/
  enabled : Bool
  /-- Title. -/
  title : Option String
  /-- Show the version. -/
  exposeVersion : Bool
  /-- Show the chains. -/
  exposeChains : Bool
  /-- Show the price feed. -/
  exposePriceFeed : Bool
  /-- Show the uptime. -/
  exposeUptime : Bool
  /-- Show numbers of users. -/
  statsEnabled : Bool
  /-- Hours between two counts. -/
  statsCacheHours : UInt64
  /-- Least number of users that is shown. -/
  statsMinUsers : Int64

/-- Retention and erasure. -/
structure RetentionConfig where
  /-- Days until login events are purged. -/
  loginEventsDays : UInt64
  /-- Days until audit rows are purged. -/
  auditDays : UInt64
  /-- Erasure is on. -/
  erasureEnabled : Bool
  /-- Purge login events. -/
  purgeLoginEvents : Bool
  /-- Exports in a day. -/
  exportPerDay : UInt32
  /-- Hours between confirmation and erasure. -/
  gracePeriodHours : UInt64

/-- How deep a wallet may be restored. -/
inductive RestorePolicy
  | createOnly
  | bounded
  | unlimited
  deriving DecidableEq

/-- `RestorePolicy::as_str`. -/
def RestorePolicy.asStr : RestorePolicy → String
  | createOnly => "create-only"
  | bounded => "bounded"
  | unlimited => "unlimited"

/-- Restoring wallets. -/
structure RestoreConfig where
  /-- Policy. -/
  policy : RestorePolicy
  /-- Days behind the tip. -/
  maxDepthDays : UInt32
  /-- Days without proof of work. -/
  powFreeDays : UInt32
  /-- Days for a bit of difficulty. -/
  powDaysPerBit : UInt32
  /-- Greatest difficulty. -/
  powMaxBits : UInt32

/-- The payment processor. -/
structure PaymentConfig where
  /-- New wallets pay. -/
  requirePayment : Bool
  /-- Kind of processor. -/
  provider : String
  /-- Its URL. -/
  providerUrl : String
  /-- Store. -/
  storeId : String
  /-- Key of the processor. -/
  apiKey : String
  /-- Price, as a decimal. -/
  amount : String
  /-- Currency of the price. -/
  currency : String
  /-- Confirmations until a payment is final. -/
  confirmations : UInt32
  /-- Minutes until an invoice expires. -/
  expiresMinutes : UInt32

/-- Registration gates. -/
structure RegistrationConfig where
  /-- New wallets need an invite. -/
  requireInvite : Bool
  /-- The payment processor. -/
  payment : PaymentConfig
  /-- How the gates combine. -/
  gateMode : GateMode

/-- The Nostr relay. -/
structure RelayConfig where
  /-- The relay is on. -/
  enabled : Bool
  /-- `bundled` or `external`. -/
  mode : String
  /-- URL for clients. -/
  advertisedUrl : String
  /-- Who may write. -/
  writePolicy : String
  /-- Difficulty of foreign events. -/
  inboundPowBits : UInt8
  /-- Address of the admission service. -/
  admissionBind : String
  /-- That address may be public. -/
  admissionAllowPublic : Bool
  /-- Size of an event. -/
  maxEventBytes : UInt64
  /-- Days until events are dropped. -/
  retentionDays : UInt32

/-- A premium plan. -/
structure PremiumPlan where
  /-- Name. -/
  id : String
  /-- Days. -/
  days : Int32
  /-- Price, as a decimal. -/
  amount : String

/-- A further payment processor. -/
structure PaymentRailConfig where
  /-- Name. -/
  kind : String
  /-- URL. -/
  providerUrl : String
  /-- Store. -/
  storeId : String
  /-- Key. -/
  apiKey : String

/-- Premium accounts. -/
structure PremiumConfig where
  /-- Premium is on. -/
  enabled : Bool
  /-- Currency of the plans. -/
  currency : String
  /-- Plans. -/
  plans : List PremiumPlan
  /-- Further processors. -/
  rails : List PaymentRailConfig

/-- How a change that needs a restart is applied. -/
inductive RestartApplyMode
  | manual
  | auto
  deriving DecidableEq

/-- `RestartApplyMode::as_str`. -/
def RestartApplyMode.asStr : RestartApplyMode → String
  | manual => "manual"
  | auto => "auto"

end Config

/-- `GateMode::as_str`. -/
def GateMode.asStr : GateMode → String
  | all => "all"
  | any => "any"

open Config in
/-- The settings of an instance. -/
structure Config where
  /-- `production` or another name. -/
  environment : String
  /-- Base of the links to tips. -/
  tipShareBase : Option String
  /-- Key of the access tokens. -/
  jwtSecret : String
  /-- Canonical URL of the API. -/
  publicApiUrl : Option String
  /-- Peppers and salts. -/
  secrets : SecretConfig
  /-- Rate limits. -/
  rateLimit : RateLimitConfig
  /-- Features. -/
  features : FeatureFlags
  /-- Chains. -/
  chains : ChainConfig
  /-- Proof of work. -/
  pow : Config.PowConfig
  /-- The operator's surface. -/
  admin : AdminConfig
  /-- Landing page. -/
  landing : LandingConfig
  /-- Retention. -/
  retention : RetentionConfig
  /-- Restoring wallets. -/
  restore : RestoreConfig
  /-- Registration. -/
  registration : RegistrationConfig
  /-- Relay. -/
  relay : RelayConfig
  /-- Premium accounts. -/
  premium : PremiumConfig
  /-- The public feed is on. -/
  feedEnabled : Bool
  /-- How a change that needs a restart is applied. -/
  restartApplyMode : RestartApplyMode

/-! ### Validation -/

/-- A check: the configuration is refused with this message. -/
def refuse (cond : Bool) (msg : String) : Except AppError Unit :=
  if cond then .error (.configError msg) else .ok ()

theorem refuse_eq_ok_iff {bad : Bool} {msg : String} {u : Unit} :
    refuse bad msg = .ok u ↔ bad = false := by
  cases bad <;> simp [refuse]

/-- `require_secret`. -/
def requireSecret (env : ConfigEnv) (prod : Bool) (name val : String) (min : ℕ) :
    Except AppError Unit := do
  refuse (val.utf8ByteSize < min) (s!"{name} must be set and at least {min} bytes")
  refuse (prod && looksPlaceholder env val) (s!"{name} looks like a placeholder; set a real value")

/-- A URL that must parse. -/
def requireUrl (env : ConfigEnv) (url msg : String) : Except AppError Url :=
  match env.parseUrl url with
  | some parsed => .ok parsed
  | none => .error (.configError msg)

namespace Config

/-- `SUPPORTED_PRICE_ASSETS`. -/
def supportedPriceAssets : List String := ["btc", "ltc", "xmr", "wow", "grin"]

/-- `SUPPORTED_PRICE_CURRENCIES`. -/
def supportedPriceCurrencies : List String :=
  ["usd", "eur", "gbp", "jpy", "cny", "aud", "cad", "chf", "btc"]

/-- Rate limits. -/
def RateLimitConfig.validate (r : RateLimitConfig) : Except AppError Unit := do
  refuse (r.strictPeriodMs = 0 || r.normalPeriodMs = 0)
    "RATE_LIMIT_*_PERIOD_MS must be >= 1 (milliseconds per replenished token)"
  refuse (r.strictBurst = 0 || r.normalBurst = 0) "RATE_LIMIT_*_BURST must be >= 1"

/-- Nostr identities need a real URL. -/
def validateIdentity (env : ConfigEnv) (prod : Bool) (publicApiUrl : Option String) :
    Except AppError Unit :=
  match publicApiUrl with
  | none => .error (.configError "PUBLIC_API_URL is required when FEATURE_NOSTR_IDENTITY is on")
  | some url => do
    let parsed ← requireUrl env url "PUBLIC_API_URL must be an absolute URL"
    refuse (prod && parsed.scheme ≠ "https") "PUBLIC_API_URL must be https in production"
    refuse (prod && looksPlaceholder env url)
      "PUBLIC_API_URL looks like a placeholder; set your own domain"

/-- Every quoted asset is one that can be quoted. -/
def validatePriceAssets (env : ConfigEnv) : List String → Except AppError Unit
  | [] => .ok ()
  | asset :: rest => do
    refuse (asset ∉ supportedPriceAssets)
      ("PRICES_ASSETS contains unsupported asset " ++ env.quoted asset ++ "; supported: " ++
        ", ".intercalate supportedPriceAssets)
    validatePriceAssets env rest

/-- The price feed. -/
def FeatureFlags.validatePrices (env : ConfigEnv) (f : FeatureFlags) : Except AppError Unit := do
  refuse (f.pricesProvider ∉ ["neroswap", "coingecko", "kraken"])
    ("PRICES_PROVIDER " ++ env.quoted f.pricesProvider ++
      " is not supported; supported: neroswap, coingecko, kraken")
  validatePriceAssets env f.pricesAssets
  refuse (f.pricesCurrency ∉ supportedPriceCurrencies)
    ("PRICES_CURRENCY " ++ env.quoted f.pricesCurrency ++ " is not supported; supported: " ++
      ", ".intercalate supportedPriceCurrencies)

/-- No Electrum server is set. -/
def UtxoConfig.unset (c : UtxoConfig) : Bool :=
  c.electrumPrimary.isNone && c.electrumFallbacks.isEmpty

/-- The settings that enabled chains miss. -/
def missingChainConfig (f : ChainFlags) (c : ChainConfig) : List String :=
  [(f.btc && c.btc.unset, "BTC_ELECTRUM_URL"), (f.ltc && c.ltc.unset, "LTC_ELECTRUM_URL"),
    (f.xmr && c.xmrLwsAdminKey.isEmpty, "XMR_LWS_ADMIN_KEY"),
    (f.wow && c.wowLwsAdminKey.isEmpty, "WOW_LWS_ADMIN_KEY"),
    (f.grin && c.grinOwnerApiSecret.isEmpty, "GRIN_OWNER_API_SECRET")].filterMap
    fun p => if p.1 then some p.2 else none

/-- Tips need a chain and a base for their links. -/
def validateTips (f : ChainFlags) (tipShareBase : Option String) : Except AppError Unit := do
  refuse (!(f.btc || f.ltc || f.xmr || f.wow || f.grin))
    ("FEATURE_TIPS is on but no supported tip chain is enabled: enable at least " ++
      "one of FEATURE_BTC / FEATURE_LTC / FEATURE_XMR / FEATURE_WOW / FEATURE_GRIN")
  refuse tipShareBase.isNone
    ("FEATURE_TIPS is on but TIP_SHARE_BASE_URL is unset — it is required to build " ++
      "public tip share links")

/-- The processor of the registration gate. -/
def PaymentConfig.validate (env : ConfigEnv) (prod : Bool) (p : PaymentConfig) :
    Except AppError Unit := do
  refuse (p.provider ≠ "btcpay")
    ("PAYMENT_PROVIDER " ++ env.quoted p.provider ++ " is not supported; supported: btcpay")
  refuse p.providerUrl.isEmpty
    "PAYMENT_PROVIDER_URL is required when REGISTRATION_REQUIRE_PAYMENT is on"
  let url ← requireUrl env p.providerUrl "PAYMENT_PROVIDER_URL must be an absolute URL"
  refuse (prod && url.scheme ≠ "https" && !isLoopbackUrl env p.providerUrl)
    "PAYMENT_PROVIDER_URL must be https in production (loopback exempt)"
  refuse p.storeId.isEmpty "PAYMENT_STORE_ID is required when REGISTRATION_REQUIRE_PAYMENT is on"
  requireSecret env prod "PAYMENT_API_KEY" p.apiKey 8
  refuse (!isPositiveDecimal p.amount)
    "PAYMENT_AMOUNT must be a positive decimal (e.g. 0.01) when REGISTRATION_REQUIRE_PAYMENT is on"
  refuse p.currency.isEmpty
    "PAYMENT_CURRENCY is required when REGISTRATION_REQUIRE_PAYMENT is on"
  refuse (p.confirmations = 0)
    ("PAYMENT_CONFIRMATIONS must be >= 1 (0-conf lets a settled payment be " ++
      "double-spent after registration)")
  refuse (p.expiresMinutes = 0 || p.expiresMinutes > 10080)
    "PAYMENT_EXPIRES_MINUTES must be between 1 and 10080 (7 days)"

/-- The admission service is reached on a loopback address only. -/
def bindsLoopback (env : ConfigEnv) (bind : String) : Bool :=
  (env.resolve bind).any fun addrs => !addrs.isEmpty && addrs.all Host.isLoopback

/-- The relay. -/
def RelayConfig.validate (env : ConfigEnv) (prod : Bool) (r : RelayConfig) :
    Except AppError Unit := do
  refuse (r.mode ∉ ["bundled", "external"])
    ("RELAY_MODE " ++ env.quoted r.mode ++ " is not supported; use bundled|external")
  refuse (trim r.advertisedUrl).isEmpty
    "RELAY_URL is required when RELAY_ENABLED (the ws(s):// URL clients connect to)"
  refuse (!(startsWith r.advertisedUrl "wss://" || startsWith r.advertisedUrl "ws://"))
    "RELAY_URL must be a ws:// or wss:// URL"
  refuse (prod && startsWith r.advertisedUrl "ws://") "RELAY_URL must be wss:// in production"
  refuse (r.writePolicy ∉ ["inbox-outbox", "author-allowlist", "open", "premium-post"])
    ("RELAY_WRITE_POLICY " ++ env.quoted r.writePolicy ++
      " is not supported; use inbox-outbox|author-allowlist|open|premium-post")
  refuse (r.inboundPowBits > 40) "RELAY_INBOUND_POW_BITS must be <= 40 (0 disables)"
  refuse (r.writePolicy ≠ "open" && (trim r.admissionBind).isEmpty)
    "RELAY_ADMISSION_BIND is required for a non-open RELAY_WRITE_POLICY"
  refuse (r.writePolicy ≠ "open" && !r.admissionAllowPublic && !bindsLoopback env r.admissionBind)
    ("RELAY_ADMISSION_BIND must be loopback (it is a registration oracle); " ++
      "set RELAY_ADMISSION_ALLOW_PUBLIC=true to override + firewall it")

/-- The plans: names are distinct, prices positive and periods bounded. -/
def validatePlans (env : ConfigEnv) (seen : List String) : List PremiumPlan → Except AppError Unit
  | [] => .ok ()
  | plan :: rest => do
    refuse (plan.id ∈ seen) ("duplicate PREMIUM_PLANS id " ++ env.quoted plan.id)
    refuse (!isPositiveDecimal plan.amount)
      ("PREMIUM_PLANS[" ++ plan.id ++ "] amount " ++ env.quoted plan.amount ++
        " must be a positive decimal")
    refuse (plan.days > 3660)
      ("PREMIUM_PLANS[" ++ plan.id ++ "] days " ++ toString plan.days.toInt ++
        " exceeds the 3660-day (10-year) maximum")
    validatePlans env (plan.id :: seen) rest

/-- The prefix of a rail's variables. -/
def railVariables : String → String
  | "xmrcheckout" => "PAYMENT_XMRCHECKOUT"
  | "wowcheckout" => "PAYMENT_WOWCHECKOUT"
  | _ => "PAYMENT_RAIL"

/-- `validate_rail`. -/
def validateRail (env : ConfigEnv) (prod : Bool) (rail : PaymentRailConfig) :
    Except AppError Unit := do
  let vars := railVariables rail.kind
  refuse ((trim rail.providerUrl).isEmpty || (trim rail.storeId).isEmpty)
    (vars ++ "_URL and " ++ vars ++ "_STORE_ID must both be set to enable the " ++ rail.kind ++
      " rail, or " ++ vars ++ "_* left entirely unset")
  refuse (prod && !startsWith rail.providerUrl "https://" && !isLoopbackUrl env rail.providerUrl)
    (vars ++ "_URL must be https:// in production (loopback exempt)")
  refuse (rail.apiKey.utf8ByteSize < 8) (vars ++ "_API_KEY must be set and at least 8 bytes")
  refuse (prod && looksPlaceholder env rail.apiKey)
    (vars ++ "_API_KEY looks like a placeholder; set a real value")

/-- All rails, in order. -/
def validateRails (env : ConfigEnv) (prod : Bool) : List PaymentRailConfig → Except AppError Unit
  | [] => .ok ()
  | rail :: rest => do
    validateRail env prod rail
    validateRails env prod rest

/-- Premium accounts reuse the processor of the registration gate. -/
def validatePremium (env : ConfigEnv) (prod : Bool) (p : PaymentConfig) (r : RelayConfig)
    (pr : PremiumConfig) : Except AppError Unit := do
  refuse (p.provider ≠ "btcpay")
    ("PREMIUM_ENABLED needs a supported PAYMENT_PROVIDER (btcpay); got " ++ env.quoted p.provider)
  refuse (trim p.providerUrl).isEmpty "PREMIUM_ENABLED needs PAYMENT_PROVIDER_URL"
  refuse (prod && !startsWith p.providerUrl "https://" && !isLoopbackUrl env p.providerUrl)
    "PAYMENT_PROVIDER_URL must be https:// in production (loopback exempt)"
  refuse (trim p.storeId).isEmpty "PREMIUM_ENABLED needs PAYMENT_STORE_ID"
  requireSecret env prod "PAYMENT_API_KEY" p.apiKey 8
  refuse (p.confirmations = 0)
    ("PAYMENT_CONFIRMATIONS must be >= 1 when PREMIUM_ENABLED is on " ++
      "(0-conf lets a settled premium payment be double-spent after activation)")
  refuse (p.expiresMinutes = 0 || p.expiresMinutes > 10080)
    "PAYMENT_EXPIRES_MINUTES must be between 1 and 10080 (7 days)"
  refuse (trim pr.currency).isEmpty "PREMIUM_ENABLED needs PREMIUM_CURRENCY"
  refuse (!r.enabled) "PREMIUM_ENABLED needs RELAY_ENABLED=true"
  refuse (r.writePolicy ≠ "premium-post") "PREMIUM_ENABLED needs RELAY_WRITE_POLICY=premium-post"
  refuse pr.plans.isEmpty "PREMIUM_ENABLED needs at least one PREMIUM_PLANS entry (id:days:amount)"
  validatePlans env [] pr.plans
  validateRails env prod pr.rails

/-- A check that applies when a feature is on. -/
def whenOn (on : Bool) (check : Except AppError Unit) : Except AppError Unit :=
  if on then check else .ok ()

/-- `is_production`. -/
def isProduction (c : Config) : Bool := c.environment = "production"

/-- Secrets that are always required. -/
def validateSecrets (env : ConfigEnv) (c : Config) : Except AppError Unit := do
  requireSecret env c.isProduction "JWT_SECRET" c.jwtSecret 32
  requireSecret env c.isProduction "SEED_FINGERPRINT_PEPPER" c.secrets.seedFingerprintPepper 32
  requireSecret env c.isProduction "REFRESH_TOKEN_PEPPER" c.secrets.refreshTokenPepper 32
  requireSecret env c.isProduction "IP_SALT" c.secrets.ipSalt 16

/-- The operator's surface. -/
def AdminConfig.validate (env : ConfigEnv) (prod : Bool) (a : AdminConfig) :
    Except AppError Unit := do
  requireSecret env prod "ADMIN_JWT_SECRET" a.jwtSecret 32
  requireSecret env prod "ADMIN_KEY_INTEGRITY_SECRET" a.keyIntegritySecret 32
  let _ ← requireUrl env a.publicUrl "ADMIN_PUBLIC_URL must be an absolute URL"
  return ()

/-- Erasure needs the audit secret, the URL that proofs bind, and a bounded delay. -/
def validateErasure (env : ConfigEnv) (c : Config) : Except AppError Unit := do
  requireSecret env c.isProduction "ADMIN_KEY_INTEGRITY_SECRET" c.admin.keyIntegritySecret 32
  refuse c.publicApiUrl.isNone
    "PUBLIC_API_URL is required when ERASURE_ENABLED is on (it binds the signed-action proof)"
  refuse (c.retention.gracePeriodHours > 87600)
    "ERASURE_GRACE_PERIOD_HOURS must be <= 87600 (10 years)"

/-- `validate`. -/
def validate (env : ConfigEnv) (c : Config) : Except AppError Unit := do
  let prod := c.isProduction
  c.rateLimit.validate
  c.validateSecrets env
  refuse (c.restore.policy = .bounded && c.restore.maxDepthDays = 0)
    "WALLET_MAX_RESTORE_DEPTH_DAYS must be > 0 when WALLET_RESTORE_POLICY=bounded"
  whenOn c.features.nostrIdentity (validateIdentity env prod c.publicApiUrl)
  whenOn c.pow.enabled (requireSecret env prod "ALTCHA_HMAC_KEY" c.pow.hmacKey 32)
  refuse (!c.pow.enabled && (c.pow.required || !c.pow.requiredForPubkeys.isEmpty))
    ("POW_REQUIRED (or TEST_POW_REQUIRED_FOR_PUBKEYS) is set but FEATURE_POW is off " ++
      "— the PoW gate would never apply; set FEATURE_POW=true")
  whenOn c.admin.enabled (c.admin.validate env prod)
  whenOn c.features.prices (c.features.validatePrices env)
  whenOn c.retention.erasureEnabled (c.validateErasure env)
  -- outside production, missing settings of a chain are only logged
  refuse (prod && !(missingChainConfig c.features.chains c.chains).isEmpty)
    ("missing required config for enabled chains: " ++
      ", ".intercalate (missingChainConfig c.features.chains c.chains))
  whenOn c.features.tips (validateTips c.features.chains c.tipShareBase)
  whenOn c.registration.payment.requirePayment (c.registration.payment.validate env prod)
  whenOn c.relay.enabled (c.relay.validate env prod)
  refuse (c.feedEnabled && !c.relay.enabled)
    "FEED_ENABLED needs RELAY_ENABLED=true (the feed reads posts from the relay)"
  whenOn c.premium.enabled (validatePremium env prod c.registration.payment c.relay c.premium)

end Config

end SmirkBackend
