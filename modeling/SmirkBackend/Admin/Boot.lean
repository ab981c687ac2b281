import SmirkBackend.Admin.RunningConfig
import SmirkBackend.Chain.Address
import SmirkBackend.Chain.ElectrumFailover
import SmirkBackend.Premium.Finality
import SmirkBackend.Premium.PostingRights

/-!
# What a start builds

A start builds the clients of the chains, the payment processors and the relay from the
configuration (`Config.boot`), and spawns the loops that serve the features.  They are kept while
the process runs, whatever an operator edits.  Handlers read the configuration that is running, so
an edit that takes effect at once must leave alone all that was built from: the fields that need a
restart are those.

`boot_of_run` : after any edits, a start from the running configuration would build the same.
-/

namespace SmirkBackend

open Lib (System)
open Config (UtxoConfig)

/-! ### The clients -/

/-- Settings of the environment that no check reads. -/
structure Deployment where
  /-- `BTC_NETWORK` -/
  btcNetwork : String
  /-- `LTC_NETWORK` -/
  ltcNetwork : String
  /-- `GRIN_LWS_URL` -/
  grinLwsUrl : String
  /-- `RELAY_WRITE_ALLOWLIST_NPUBS` -/
  relayWriteAllowlist : List String
  /-- `FEATURE_TARGETED_TIPS` -/
  targetedTips : Bool
  /-- `NIP05_DOMAIN` -/
  nip05Domain : Option String
  /-- Assets of the primary rail. -/
  primaryAssets : List String
  /-- The feed has the operator's posts. -/
  showOwner : Bool
  /-- The feed has the posts of members. -/
  showPremium : Bool
  /-- The operator's npub. -/
  ownerNpub : String
  /-- Other authors of the feed. -/
  allowlistNpubs : List String
  /-- Other relays of the feed. -/
  extraRelays : List String
  /-- The variables of the process. -/
  vars : EnvVars

/-- What a start takes from libraries. -/
structure BootEnv where
  /-- HTTP clients can be built. -/
  http : Bool
  /-- `bech32::decode`. -/
  bech32 : Bech32
  /-- `Url::host_str`. -/
  hostStr : Host → String

/-- `UtxoNetwork::bitcoin`. -/
def UtxoNetwork.bitcoin (network : String) : Except AppError UtxoNetwork :=
  match network with
  | "mainnet" => .ok .bitcoinMainnet
  | "testnet" => .ok .bitcoinTestnet
  | other => .error (.configError ("unknown bitcoin network: " ++ other))

/-- `UtxoNetwork::litecoin`. -/
def UtxoNetwork.litecoin (network : String) : Except AppError UtxoNetwork :=
  match network with
  | "mainnet" => .ok .litecoinMainnet
  | "testnet" => .ok .litecoinTestnet
  | other => .error (.configError ("unknown litecoin network: " ++ other))

/-- `str::split_once`: what is before the first separator, and what is behind it. -/
def splitOnce (sep : List Char) : List Char → Option (List Char × List Char)
  | [] => none
  | c :: rest =>
    if sep.isPrefixOf (c :: rest) then some ([], (c :: rest).drop sep.length)
    else (splitOnce sep rest).map fun p => (c :: p.1, p.2)

/-- `str::parse::<u16>`. -/
def parseU16 (s : List Char) : Option UInt16 :=
  let digits := if s.head? = some '+' then s.tail else s
  if digits.isEmpty || !digits.all Char.isDigit then none
  else
    let n := digits.foldl (fun n c => 10 * n + (c.toNat - 48)) 0
    if n < 2 ^ 16 then some (UInt16.ofNat n) else none

/-- `parse_server_url`. -/
def parseServerUrl (url : String) : Except AppError ServerUrl :=
  match splitOnce "://".toList url.toList with
  | none => .error (.configError ("invalid Electrum server URL: " ++ url))
  | some (scheme, rest) => do
    let useSsl ←
      if String.ofList scheme ∈ ["ssl", "tls"] then pure true
      else if String.ofList scheme = "tcp" then pure false
      else throw (.configError ("unknown scheme '" ++ String.ofList scheme ++ "' in Electrum URL"))
    -- the port is behind the last colon
    match splitOnce [':'] rest.reverse with
    | none => throw (.configError ("missing port in Electrum URL: " ++ url))
    | some (port, host) =>
      match parseU16 port.reverse with
      | none => throw (.configError ("invalid port in Electrum URL: " ++ url))
      | some port =>
        if host.isEmpty then throw (.configError ("empty host in Electrum URL: " ++ url))
        else return ⟨String.ofList host.reverse, port, useSsl⟩

/-- `ElectrumClient`, as it is built. -/
structure ElectrumHandle where
  /-- Coin and network. -/
  network : UtxoNetwork
  /-- The operator's server. -/
  primary : Option ServerUrl
  /-- Other servers. -/
  fallbacks : List ServerUrl
  deriving DecidableEq

/-- `ElectrumClient::new`. -/
def ElectrumHandle.new (network : UtxoNetwork) (cfg : UtxoConfig) :
    Except AppError ElectrumHandle := do
  let primary ← cfg.electrumPrimary.mapM parseServerUrl
  let fallbacks ← cfg.electrumFallbacks.mapM parseServerUrl
  return ⟨network, primary, fallbacks⟩

/-- `ElectrumClient::bitcoin`. -/
def ElectrumHandle.bitcoin (network : String) (cfg : UtxoConfig) :
    Except AppError ElectrumHandle := do
  ElectrumHandle.new (← UtxoNetwork.bitcoin network) cfg

/-- `ElectrumClient::litecoin`. -/
def ElectrumHandle.litecoin (network : String) (cfg : UtxoConfig) :
    Except AppError ElectrumHandle := do
  ElectrumHandle.new (← UtxoNetwork.litecoin network) cfg

/-- There is a server to ask. -/
def ElectrumHandle.hasServer (client : ElectrumHandle) : Bool :=
  client.primary.isSome || !client.fallbacks.isEmpty

/-- `LwsClient`, `GrinClient` or `GrinLwsClient`, as it is built. -/
structure HttpHandle where
  /-- The secret it presents, or its URL. -/
  credential : String
  deriving DecidableEq

/-- `new`, given whether an HTTP client can be built. -/
def HttpHandle.new (http : Bool) (name credential : String) : Except AppError HttpHandle :=
  if http then .ok ⟨credential⟩
  else .error (.nodeError ("failed to build " ++ name ++ " HTTP client"))

/-- `then` and `transpose`: what is off is not built. -/
def builtIf {α : Type} (on : Bool) (build : Except AppError α) : Except AppError (Option α) :=
  if on then some <$> build else .ok none

/-- `ChainClients`. -/
structure BuiltClients where
  /-- Bitcoin. -/
  btc : Option ElectrumHandle
  /-- Litecoin. -/
  ltc : Option ElectrumHandle
  /-- Monero. -/
  xmr : Option HttpHandle
  /-- Wownero. -/
  wow : Option HttpHandle
  /-- Grin. -/
  grin : Option HttpHandle
  /-- The light server of Grin. -/
  grinLws : Option HttpHandle
  deriving DecidableEq

/-- `ChainClients::from_config`. -/
def BuiltClients.fromConfig (http : Bool) (dep : Deployment) (c : Config) :
    Except AppError BuiltClients := do
  let flags := c.features.chains
  let btc ← builtIf flags.btc (ElectrumHandle.bitcoin dep.btcNetwork c.chains.btc)
  let ltc ← builtIf flags.ltc (ElectrumHandle.litecoin dep.ltcNetwork c.chains.ltc)
  let xmr ← builtIf flags.xmr (HttpHandle.new http "LWS" c.chains.xmrLwsAdminKey)
  let wow ← builtIf flags.wow (HttpHandle.new http "LWS" c.chains.wowLwsAdminKey)
  let grin ← builtIf flags.grin (HttpHandle.new http "Grin" c.chains.grinOwnerApiSecret)
  let grinLws ← builtIf (flags.grin && !(trim dep.grinLwsUrl).isEmpty)
    (HttpHandle.new http "grin-lws" dep.grinLwsUrl)
  return ⟨btc, ltc, xmr, wow, grin, grinLws⟩

/-! ### The parts -/

/-- `COIN_IDS`. -/
def coinIds : List (String × String) :=
  [("btc", "bitcoin"), ("ltc", "litecoin"), ("xmr", "monero"), ("wow", "wownero"), ("grin", "grin")]

/-- `PriceClient`. -/
structure PriceClient where
  /-- Where prices come from. -/
  provider : String
  /-- Quoted currency. -/
  currency : String
  /-- Quoted assets, with the names they have there. -/
  feeds : List (String × String)
  deriving DecidableEq

/-- The client of the price loop, if the feed is on, the client can be built, and it quotes some
asset. -/
def priceLoop (http : Bool) (f : Config.FeatureFlags) : Option PriceClient :=
  let feeds := f.pricesAssets.filterMap fun a => coinIds.find? fun coin => coin.1 = a
  if f.prices && http && !feeds.isEmpty then some ⟨f.pricesProvider, f.pricesCurrency, feeds⟩
  else none

/-- What a start builds, and which loops it spawns. -/
structure BootParts where
  /-- Clients of the chains. -/
  chains : BuiltClients
  /-- The processor of registrations. -/
  payment : Option BtcPayProvider
  /-- The processors of premium, the primary one first. -/
  paymentRails : List BtcPayProvider
  /-- The relay. -/
  relay : Option Relay
  /-- Where the admission service of the relay listens. -/
  admission : Option String
  /-- The loop that expires slatepacks. -/
  slatepackExpiry : Bool
  /-- The loop that erases accounts. -/
  erasureSweep : Bool
  /-- The loop that fetches prices. -/
  prices : Option PriceClient
  /-- The five loops of the tips. -/
  tipLoops : Bool

/-- `main`, between the configuration and the routes. -/
def Config.boot (boot : BootEnv) (env : ConfigEnv) (dep : Deployment) (c : Config) :
    Except AppError BootParts := do
  let chains ← BuiltClients.fromConfig boot.http dep c
  let payment ← Payment.fromConfig boot.http c
  let paymentRails ← Payment.railsFromConfig boot.http c payment
  let relay ← relayFromConfig env boot.bech32 c.relay dep.relayWriteAllowlist
  return {
    chains := chains
    payment := payment
    paymentRails := paymentRails
    relay := relay
    admission := (relay.filter fun r => r.policy ≠ .open).map fun _ => c.relay.admissionBind
    slatepackExpiry := c.features.grinRelay
    erasureSweep := c.retention.erasureEnabled
    prices := priceLoop boot.http c.features
    tipLoops := c.features.tips }

/-! ### Edits that take effect at once -/

/-- Two configurations agree on what a start reads, and on what the handlers of its parts read. -/
structure InStep (c d : Config) : Prop where
  /-- Production or not. -/
  environment : d.environment = c.environment
  /-- Features. -/
  features : d.features = c.features
  /-- Chains. -/
  chains : d.chains = c.chains
  /-- Relay. -/
  relay : d.relay = c.relay
  /-- Premium accounts. -/
  premium : d.premium = c.premium
  /-- The public feed. -/
  feedEnabled : d.feedEnabled = c.feedEnabled
  /-- Base of the links to tips. -/
  tipShareBase : d.tipShareBase = c.tipShareBase
  /-- Canonical URL of the API. -/
  publicApiUrl : d.publicApiUrl = c.publicApiUrl
  /-- Erasure is on. -/
  erasureEnabled : d.retention.erasureEnabled = c.retention.erasureEnabled
  /-- New wallets pay. -/
  requirePayment : d.registration.payment.requirePayment = c.registration.payment.requirePayment
  /-- Kind of processor. -/
  provider : d.registration.payment.provider = c.registration.payment.provider
  /-- Its URL. -/
  providerUrl : d.registration.payment.providerUrl = c.registration.payment.providerUrl
  /-- Store. -/
  storeId : d.registration.payment.storeId = c.registration.payment.storeId
  /-- Key of the processor. -/
  apiKey : d.registration.payment.apiKey = c.registration.payment.apiKey

theorem InStep.refl (c : Config) : InStep c c :=
  ⟨rfl, rfl, rfl, rfl, rfl, rfl, rfl, rfl, rfl, rfl, rfl, rfl, rfl, rfl⟩

theorem InStep.trans {c d e : Config} (h : InStep c d) (h' : InStep d e) : InStep c e :=
  ⟨h'.1.trans h.1, h'.2.trans h.2, h'.3.trans h.3, h'.4.trans h.4, h'.5.trans h.5, h'.6.trans h.6,
    h'.7.trans h.7, h'.8.trans h.8, h'.9.trans h.9, h'.10.trans h.10, h'.11.trans h.11,
    h'.12.trans h.12, h'.13.trans h.13, h'.14.trans h.14⟩

theorem applySection_of_unsaid {O C : Type} [Serde O] [SparseEdit O] {f : O → C → C}
    (hf : ∀ o c, Serde.fromValue (.obj []) = some o → f o c = c) {o : Option O}
    (h : ∀ name, editField o name = none) (c : C) : applySection f o c = c := by
  have htouched : touchedFields (fieldValue o) = [] := by
    refine List.eq_nil_iff_forall_not_mem.mpr fun name hname => ?_
    rw [mem_touchedFields] at hname
    exact absurd (h name) (Option.isSome_iff_ne_none.mp hname)
  rw [← applySection_touched hf, if_pos htouched]
  rfl

section

variable {patch : SettingsOverlay}

theorem editField_of_anyRestart (hsafe : anyRestart patch = false) (s : SettingsSection)
    (hclass : ∀ name, runtimeClass s.name name = .restartRequired) (name : String) :
    editField (patch.get s) name = none := by
  rw [← SettingsOverlay.field_name]
  exact field_of_anyRestart hsafe (hclass name)

theorem requirePayment_of_anyRestart (hsafe : anyRestart patch = false) {o : RegistrationOverlay}
    (h : patch.registration = some o) : o.requirePayment = none := by
  have hfield := field_of_anyRestart hsafe
    (show runtimeClass SettingsSection.registration.name "require_payment" = _ by decide)
  rw [SettingsOverlay.field_name, show patch.get .registration = some o from h] at hfield
  have hmember : field (SparseEdit.members o) "require_payment" = none := hfield
  simpa [SparseEdit.members, field_cons_of_ne, field_cons_self] using hmember

theorem erasureEnabled_of_anyRestart (hsafe : anyRestart patch = false) {o : RetentionOverlay}
    (h : patch.retention = some o) : o.erasureEnabled = none := by
  have hfield := field_of_anyRestart hsafe
    (show runtimeClass SettingsSection.retention.name "erasure_enabled" = _ by decide)
  rw [SettingsOverlay.field_name, show patch.get .retention = some o from h] at hfield
  have hmember : field (SparseEdit.members o) "erasure_enabled" = none := hfield
  simpa [SparseEdit.members, field_cons_of_ne, field_cons_self] using hmember

/-- **An edit that takes effect at once leaves alone what a start reads.** -/
theorem inStep_edited (hsafe : anyRestart patch = false) {env : ConfigEnv} {c d : Config}
    (h : c.edited env patch = .ok d) : InStep c d := by
  obtain ⟨_, _, registration, -, -, hreg, rfl⟩ := Config.edited_eq_ok_iff.mp h
  have hpayment : ∃ amount currency confirmations minutes, registration.payment =
      { c.registration.payment with
        amount := amount, currency := currency, confirmations := confirmations
        expiresMinutes := minutes } := by
    cases ho : patch.registration with
    | none =>
      rw [ho] at hreg
      obtain rfl := Except.ok.inj hreg
      exact ⟨_, _, _, _, rfl⟩
    | some o =>
      rw [ho] at hreg
      obtain ⟨_, -, rfl⟩ := RegistrationOverlay.apply_eq_ok hreg
      rw [requirePayment_of_anyRestart hsafe ho]
      exact ⟨_, _, _, _, rfl⟩
  obtain ⟨amount, currency, confirmations, minutes, hpayment⟩ := hpayment
  have herasure : (applySection RetentionOverlay.apply patch.retention c.retention).erasureEnabled =
      c.retention.erasureEnabled := by
    cases ho : patch.retention with
    | none => rfl
    | some o =>
      show keep o.erasureEnabled _ = _
      rw [erasureEnabled_of_anyRestart hsafe ho]
      rfl
  exact
    { environment := rfl
      features := applySection_of_unsaid (fun o c h => by cases h; rfl)
        (editField_of_anyRestart hsafe .features fun _ => rfl) _
      chains := rfl
      relay := applySection_of_unsaid (fun o c h => by cases h; rfl)
        (editField_of_anyRestart hsafe .relay fun _ => rfl) _
      premium := applySection_of_unsaid (fun o c h => by cases h; rfl)
        (editField_of_anyRestart hsafe .premium fun _ => rfl) _
      feedEnabled := rfl
      tipShareBase := rfl
      publicApiUrl := rfl
      erasureEnabled := herasure
      requirePayment := by rw [hpayment]
      provider := by rw [hpayment]
      providerUrl := by rw [hpayment]
      storeId := by rw [hpayment]
      apiKey := by rw [hpayment] }

end

theorem InStep.boot_eq {c d : Config} (h : InStep c d) (boot : BootEnv) (env : ConfigEnv)
    (dep : Deployment) : d.boot boot env dep = c.boot boot env dep := by
  have hpayment : Payment.fromConfig boot.http d = Payment.fromConfig boot.http c := by
    simp only [Payment.fromConfig, BtcPayProvider.new, h.requirePayment, h.premium, h.provider,
      h.providerUrl, h.storeId, h.apiKey]
  have hchains : BuiltClients.fromConfig boot.http dep d =
      BuiltClients.fromConfig boot.http dep c := by
    simp only [BuiltClients.fromConfig, h.features, h.chains]
  simp only [Config.boot, hchains, hpayment, Payment.railsFromConfig, h.premium, h.relay,
    h.features, h.erasureEnabled]

theorem inStep_step {env : SettingsEnv} {s s' : AppState} {call : ConfigCall}
    (hstep : (configPuts env).step s call s') : InStep s.config s'.config := by
  obtain ⟨s₁, ⟨-, hconfig⟩, hout⟩ := hstep
  rw [← hconfig]
  cases hresult : call.result with
  | error e =>
    rw [hresult] at hout
    rw [config_of_failed_put hout]
    exact .refl _
  | ok resp =>
    rw [hresult] at hout
    obtain ⟨-, -, -, ⟨-, hsame⟩ | ⟨hsafe, happly⟩⟩ := outcome_adminConfigPut_ok hout
    · rw [hsame]
      exact .refl _
    · exact inStep_edited hsafe (Config.applyOverlay_eq_ok_iff.mp happly).1

theorem inStep_run {env : SettingsEnv} {s₀ s : AppState} {calls : List ConfigCall}
    (hrun : (configPuts env).Run s₀ calls s) : InStep s₀.config s.config :=
  hrun.invariant (I := fun s => InStep s₀.config s.config)
    (fun _ _ _ hstep h => h.trans (inStep_step hstep)) (.refl _)

/-- After any edits, a start from the running configuration would build what is there. -/
theorem boot_of_run {env : SettingsEnv} {s₀ s : AppState} {calls : List ConfigCall}
    (hrun : (configPuts env).Run s₀ calls s) (boot : BootEnv) (dep : Deployment) :
    s.config.boot boot env.config dep = s₀.config.boot boot env.config dep :=
  (inStep_run hrun).boot_eq boot env.config dep

end SmirkBackend
