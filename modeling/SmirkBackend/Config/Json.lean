import SmirkBackend.Config.Overlay

/-!
# Overlays as JSON

An overlay is stored and sent as a JSON object of sections, each an object of fields; a field that
is not edited is `null` or missing.  Members are kept in the order of their names.  An edit is
merged into a stored overlay member by member, and `null` leaves what is there.
-/

namespace SmirkBackend

open Lib (Json JsonNumber)

/-! ### Fields -/

/-- A value that stands in a field. -/
class Serde (α : Type) where
  /-- `to_value`. -/
  toValue : α → Json
  /-- `from_value`. -/
  fromValue : Json → Option α

instance : Serde Bool where
  toValue := .bool
  fromValue
    | .bool b => some b
    | _ => none

instance : Serde String where
  toValue := .str
  fromValue
    | .str s => some s
    | _ => none

instance : Serde UInt64 where
  toValue n := .num (.pos n)
  fromValue
    | .num (.pos n) => some n
    | _ => none

instance : Serde UInt32 where
  toValue n := .num (.pos n.toUInt64)
  fromValue
    | .num (.pos n) => if n.toNat < 2 ^ 32 then some n.toUInt32 else none
    | _ => none

instance : Serde UInt8 where
  toValue n := .num (.pos n.toUInt64)
  fromValue
    | .num (.pos n) => if n.toNat < 2 ^ 8 then some n.toUInt8 else none
    | _ => none

instance : Serde Int64 where
  toValue n := if h : n < 0 then .num (.neg n h) else .num (.pos n.toUInt64)
  fromValue
    | .num (.pos n) => if n.toNat < 2 ^ 63 then some n.toInt64 else none
    | .num (.neg n _) => some n
    | _ => none

/-- A field, edited or not. -/
def fieldValue {α : Type} [Serde α] (edit : Option α) : Json := edit.elim .null Serde.toValue

/-- A member of an object. -/
def member (members : List (String × Json)) (name : String) : Option Json :=
  (members.find? fun m => m.1 = name).map Prod.snd

/-- The field with this name; a missing one is not edited. -/
def readField {α : Type} [Serde α] (members : List (String × Json)) (name : String) :
    Option (Option α) :=
  match member members name with
  | none => some none
  | some .null => some none
  | some value => (Serde.fromValue value).map some

/-- The members of a record: by name, or by position in the order of its fields. -/
def recordMembers (fields : List String) : Json → Option (List (String × Json))
  | .obj members => some members
  | .arr items => if items.length ≤ fields.length then some (fields.zip items) else none
  | _ => none

/-! ### Sections -/

/-- The fields of `landing`. -/
def LandingOverlay.fields : List String :=
  ["enabled", "title", "expose_version", "expose_chains", "expose_price_feed", "expose_uptime",
    "stats_enabled", "stats_cache_hours", "stats_min_users"]

/-- `landing` as JSON. -/
def LandingOverlay.toValue (o : LandingOverlay) : Json :=
  .obj [("enabled", fieldValue o.enabled),
    ("expose_chains", fieldValue o.exposeChains),
    ("expose_price_feed", fieldValue o.exposePriceFeed),
    ("expose_uptime", fieldValue o.exposeUptime),
    ("expose_version", fieldValue o.exposeVersion),
    ("stats_cache_hours", fieldValue o.statsCacheHours),
    ("stats_enabled", fieldValue o.statsEnabled),
    ("stats_min_users", fieldValue o.statsMinUsers),
    ("title", fieldValue o.title)]

/-- `landing` from JSON. -/
def LandingOverlay.fromValue (value : Json) : Option LandingOverlay := do
  let members ← recordMembers LandingOverlay.fields value
  let enabled ← readField members "enabled"
  let title ← readField members "title"
  let exposeVersion ← readField members "expose_version"
  let exposeChains ← readField members "expose_chains"
  let exposePriceFeed ← readField members "expose_price_feed"
  let exposeUptime ← readField members "expose_uptime"
  let statsEnabled ← readField members "stats_enabled"
  let statsCacheHours ← readField members "stats_cache_hours"
  let statsMinUsers ← readField members "stats_min_users"
  return ⟨enabled, title, exposeVersion, exposeChains, exposePriceFeed, exposeUptime,
    statsEnabled, statsCacheHours, statsMinUsers⟩

instance : Serde LandingOverlay := ⟨LandingOverlay.toValue, LandingOverlay.fromValue⟩

/-- The fields of `retention`. -/
def RetentionOverlay.fields : List String :=
  ["login_events_days", "audit_days", "erasure_enabled", "purge_login_events", "export_per_day",
    "grace_period_hours"]

/-- `retention` as JSON. -/
def RetentionOverlay.toValue (o : RetentionOverlay) : Json :=
  .obj [("audit_days", fieldValue o.auditDays),
    ("erasure_enabled", fieldValue o.erasureEnabled),
    ("export_per_day", fieldValue o.exportPerDay),
    ("grace_period_hours", fieldValue o.gracePeriodHours),
    ("login_events_days", fieldValue o.loginEventsDays),
    ("purge_login_events", fieldValue o.purgeLoginEvents)]

/-- `retention` from JSON. -/
def RetentionOverlay.fromValue (value : Json) : Option RetentionOverlay := do
  let members ← recordMembers RetentionOverlay.fields value
  let loginEventsDays ← readField members "login_events_days"
  let auditDays ← readField members "audit_days"
  let erasureEnabled ← readField members "erasure_enabled"
  let purgeLoginEvents ← readField members "purge_login_events"
  let exportPerDay ← readField members "export_per_day"
  let gracePeriodHours ← readField members "grace_period_hours"
  return ⟨loginEventsDays, auditDays, erasureEnabled, purgeLoginEvents, exportPerDay,
    gracePeriodHours⟩

instance : Serde RetentionOverlay := ⟨RetentionOverlay.toValue, RetentionOverlay.fromValue⟩

/-- The fields of `restore`. -/
def RestoreOverlay.fields : List String :=
  ["policy", "max_depth_days", "pow_free_days", "pow_days_per_bit", "pow_max_bits"]

/-- `restore` as JSON. -/
def RestoreOverlay.toValue (o : RestoreOverlay) : Json :=
  .obj [("max_depth_days", fieldValue o.maxDepthDays),
    ("policy", fieldValue o.policy),
    ("pow_days_per_bit", fieldValue o.powDaysPerBit),
    ("pow_free_days", fieldValue o.powFreeDays),
    ("pow_max_bits", fieldValue o.powMaxBits)]

/-- `restore` from JSON. -/
def RestoreOverlay.fromValue (value : Json) : Option RestoreOverlay := do
  let members ← recordMembers RestoreOverlay.fields value
  let policy ← readField members "policy"
  let maxDepthDays ← readField members "max_depth_days"
  let powFreeDays ← readField members "pow_free_days"
  let powDaysPerBit ← readField members "pow_days_per_bit"
  let powMaxBits ← readField members "pow_max_bits"
  return ⟨policy, maxDepthDays, powFreeDays, powDaysPerBit, powMaxBits⟩

instance : Serde RestoreOverlay := ⟨RestoreOverlay.toValue, RestoreOverlay.fromValue⟩

/-- The fields of `console`. -/
def ConsoleOverlay.fields : List String :=
  ["restart_apply_mode"]

/-- `console` as JSON. -/
def ConsoleOverlay.toValue (o : ConsoleOverlay) : Json :=
  .obj [("restart_apply_mode", fieldValue o.restartApplyMode)]

/-- `console` from JSON. -/
def ConsoleOverlay.fromValue (value : Json) : Option ConsoleOverlay := do
  let members ← recordMembers ConsoleOverlay.fields value
  let restartApplyMode ← readField members "restart_apply_mode"
  return ⟨restartApplyMode⟩

instance : Serde ConsoleOverlay := ⟨ConsoleOverlay.toValue, ConsoleOverlay.fromValue⟩

/-- The fields of `registration`. -/
def RegistrationOverlay.fields : List String :=
  ["require_invite", "gate_mode", "require_payment", "payment_amount", "payment_currency",
    "payment_confirmations", "payment_expires_minutes"]

/-- `registration` as JSON. -/
def RegistrationOverlay.toValue (o : RegistrationOverlay) : Json :=
  .obj [("gate_mode", fieldValue o.gateMode),
    ("payment_amount", fieldValue o.paymentAmount),
    ("payment_confirmations", fieldValue o.paymentConfirmations),
    ("payment_currency", fieldValue o.paymentCurrency),
    ("payment_expires_minutes", fieldValue o.paymentExpiresMinutes),
    ("require_invite", fieldValue o.requireInvite),
    ("require_payment", fieldValue o.requirePayment)]

/-- `registration` from JSON. -/
def RegistrationOverlay.fromValue (value : Json) : Option RegistrationOverlay := do
  let members ← recordMembers RegistrationOverlay.fields value
  let requireInvite ← readField members "require_invite"
  let gateMode ← readField members "gate_mode"
  let requirePayment ← readField members "require_payment"
  let paymentAmount ← readField members "payment_amount"
  let paymentCurrency ← readField members "payment_currency"
  let paymentConfirmations ← readField members "payment_confirmations"
  let paymentExpiresMinutes ← readField members "payment_expires_minutes"
  return ⟨requireInvite, gateMode, requirePayment, paymentAmount, paymentCurrency,
    paymentConfirmations, paymentExpiresMinutes⟩

instance : Serde RegistrationOverlay := ⟨RegistrationOverlay.toValue, RegistrationOverlay.fromValue⟩

/-- The fields of `pow`. -/
def PowOverlay.fields : List String :=
  ["enabled", "required", "cost"]

/-- `pow` as JSON. -/
def PowOverlay.toValue (o : PowOverlay) : Json :=
  .obj [("cost", fieldValue o.cost),
    ("enabled", fieldValue o.enabled),
    ("required", fieldValue o.required)]

/-- `pow` from JSON. -/
def PowOverlay.fromValue (value : Json) : Option PowOverlay := do
  let members ← recordMembers PowOverlay.fields value
  let enabled ← readField members "enabled"
  let required ← readField members "required"
  let cost ← readField members "cost"
  return ⟨enabled, required, cost⟩

instance : Serde PowOverlay := ⟨PowOverlay.toValue, PowOverlay.fromValue⟩

/-- The fields of `features`. -/
def FeaturesOverlay.fields : List String :=
  ["prices", "prices_provider", "prices_interval_secs", "prices_currency", "tips",
    "nostr_identity", "grin_relay", "chain_btc", "chain_ltc", "chain_xmr", "chain_wow",
    "chain_grin"]

/-- `features` as JSON. -/
def FeaturesOverlay.toValue (o : FeaturesOverlay) : Json :=
  .obj [("chain_btc", fieldValue o.chainBtc),
    ("chain_grin", fieldValue o.chainGrin),
    ("chain_ltc", fieldValue o.chainLtc),
    ("chain_wow", fieldValue o.chainWow),
    ("chain_xmr", fieldValue o.chainXmr),
    ("grin_relay", fieldValue o.grinRelay),
    ("nostr_identity", fieldValue o.nostrIdentity),
    ("prices", fieldValue o.prices),
    ("prices_currency", fieldValue o.pricesCurrency),
    ("prices_interval_secs", fieldValue o.pricesIntervalSecs),
    ("prices_provider", fieldValue o.pricesProvider),
    ("tips", fieldValue o.tips)]

/-- `features` from JSON. -/
def FeaturesOverlay.fromValue (value : Json) : Option FeaturesOverlay := do
  let members ← recordMembers FeaturesOverlay.fields value
  let prices ← readField members "prices"
  let pricesProvider ← readField members "prices_provider"
  let pricesIntervalSecs ← readField members "prices_interval_secs"
  let pricesCurrency ← readField members "prices_currency"
  let tips ← readField members "tips"
  let nostrIdentity ← readField members "nostr_identity"
  let grinRelay ← readField members "grin_relay"
  let chainBtc ← readField members "chain_btc"
  let chainLtc ← readField members "chain_ltc"
  let chainXmr ← readField members "chain_xmr"
  let chainWow ← readField members "chain_wow"
  let chainGrin ← readField members "chain_grin"
  return ⟨prices, pricesProvider, pricesIntervalSecs, pricesCurrency, tips, nostrIdentity,
    grinRelay, chainBtc, chainLtc, chainXmr, chainWow, chainGrin⟩

instance : Serde FeaturesOverlay := ⟨FeaturesOverlay.toValue, FeaturesOverlay.fromValue⟩

/-- The fields of `relay`. -/
def RelayOverlay.fields : List String :=
  ["enabled", "mode", "advertised_url", "write_policy", "inbound_pow_bits", "max_event_bytes",
    "retention_days"]

/-- `relay` as JSON. -/
def RelayOverlay.toValue (o : RelayOverlay) : Json :=
  .obj [("advertised_url", fieldValue o.advertisedUrl),
    ("enabled", fieldValue o.enabled),
    ("inbound_pow_bits", fieldValue o.inboundPowBits),
    ("max_event_bytes", fieldValue o.maxEventBytes),
    ("mode", fieldValue o.mode),
    ("retention_days", fieldValue o.retentionDays),
    ("write_policy", fieldValue o.writePolicy)]

/-- `relay` from JSON. -/
def RelayOverlay.fromValue (value : Json) : Option RelayOverlay := do
  let members ← recordMembers RelayOverlay.fields value
  let enabled ← readField members "enabled"
  let mode ← readField members "mode"
  let advertisedUrl ← readField members "advertised_url"
  let writePolicy ← readField members "write_policy"
  let inboundPowBits ← readField members "inbound_pow_bits"
  let maxEventBytes ← readField members "max_event_bytes"
  let retentionDays ← readField members "retention_days"
  return ⟨enabled, mode, advertisedUrl, writePolicy, inboundPowBits, maxEventBytes, retentionDays⟩

instance : Serde RelayOverlay := ⟨RelayOverlay.toValue, RelayOverlay.fromValue⟩

/-- The fields of `premium`. -/
def PremiumOverlay.fields : List String :=
  ["enabled", "currency"]

/-- `premium` as JSON. -/
def PremiumOverlay.toValue (o : PremiumOverlay) : Json :=
  .obj [("currency", fieldValue o.currency),
    ("enabled", fieldValue o.enabled)]

/-- `premium` from JSON. -/
def PremiumOverlay.fromValue (value : Json) : Option PremiumOverlay := do
  let members ← recordMembers PremiumOverlay.fields value
  let enabled ← readField members "enabled"
  let currency ← readField members "currency"
  return ⟨enabled, currency⟩

instance : Serde PremiumOverlay := ⟨PremiumOverlay.toValue, PremiumOverlay.fromValue⟩

/-- An overlay as JSON. -/
def SettingsOverlay.toValue (ov : SettingsOverlay) : Json :=
  .obj [("console", fieldValue ov.console),
    ("features", fieldValue ov.features),
    ("landing", fieldValue ov.landing),
    ("pow", fieldValue ov.pow),
    ("premium", fieldValue ov.premium),
    ("registration", fieldValue ov.registration),
    ("relay", fieldValue ov.relay),
    ("restore", fieldValue ov.restore),
    ("retention", fieldValue ov.retention)]

/-- An overlay from the members of a JSON object. -/
def SettingsOverlay.fromMembers (members : List (String × Json)) : Option SettingsOverlay := do
  let landing ← readField members "landing"
  let retention ← readField members "retention"
  let restore ← readField members "restore"
  let console ← readField members "console"
  let registration ← readField members "registration"
  let pow ← readField members "pow"
  let features ← readField members "features"
  let relay ← readField members "relay"
  let premium ← readField members "premium"
  return ⟨landing, retention, restore, console, registration, pow, features, relay, premium⟩

/-- An overlay from JSON. -/
def SettingsOverlay.fromValue (value : Json) : Option SettingsOverlay := do
  let members ← recordMembers ["landing", "retention", "restore", "console", "registration", "pow", "features",
    "relay", "premium"] value
  fromMembers members

/-! ### Edits of a stored overlay -/

/-- The members with this one set, in the order of their names. -/
def setMember (name : String) (value : Json) : List (String × Json) → List (String × Json)
  | [] => [(name, value)]
  | m :: rest =>
    if m.1 = name then (name, value) :: rest
    else if name < m.1 then (name, value) :: m :: rest
    else m :: setMember name value rest

mutual

/-- `json_merge_skip_null`. -/
def jsonMergeSkipNull (base : Json) : Json → Json
  | .obj patch =>
    match base with
    | .obj members => .obj (mergeMembers members patch)
    | _ => .obj patch
  | patch => patch

/-- The members of `json_merge_skip_null`, in order. -/
def mergeMembers (members : List (String × Json)) : List (String × Json) → List (String × Json)
  | [] => members
  | (_, .null) :: rest => mergeMembers members rest
  | (name, value) :: rest =>
    mergeMembers (setMember name (jsonMergeSkipNull ((member members name).getD .null) value)
      members) rest

end

/-- The fields of a section that an edit sets. -/
def touchedFields : Json → List String
  | .obj fields => (fields.filter fun f => f.2 matches .null |> not).map Prod.fst
  | _ => []

/-- The sections that an edit changes, with the fields it sets, in order. -/
def touchedSections : Json → List (String × List String)
  | .obj sections =>
    (sections.map fun s => (s.1, touchedFields s.2)).filter fun s => !s.2.isEmpty
  | _ => []

end SmirkBackend
