import SmirkBackend.Admin.Capabilities
import SmirkBackend.Auth.Extension
import SmirkBackend.Tips.Creation
import SmirkBackend.Wallet.GrinRelay

/-!
# What is advertised is there

The capabilities are computed from the running configuration.  What serves them was built when the
instance started.  Nothing is advertised that would be refused for want of its part, and no chain in
production is there without being advertised, whatever an operator has edited since.

What is there for a chain, the tips and premium is `BuiltClients.serves`, `tipDesk` and `Sells`; a
configuration is `Honest` if it advertises nothing else.  A valid configuration is honest about what
it builds (`honest_of_boot`), and so is the running one after any edits (`advertised_is_served`).
-/

namespace SmirkBackend

open Lib (Prog)

/-! ### What is there -/

/-- The client of a chain was built. -/
def BuiltClients.built (clients : BuiltClients) (asset : String) : Bool :=
  match asset with
  | "btc" => clients.btc.isSome
  | "ltc" => clients.ltc.isSome
  | "xmr" => clients.xmr.isSome
  | "wow" => clients.wow.isSome
  | "grin" => clients.grin.isSome
  | _ => false

/-- It was built, with a server to ask or a secret that the server knows. -/
def BuiltClients.serves (clients : BuiltClients) (asset : String) : Bool :=
  match asset with
  | "btc" => clients.btc.any ElectrumHandle.hasServer
  | "ltc" => clients.ltc.any ElectrumHandle.hasServer
  | "xmr" => clients.xmr.any fun client => !client.credential.isEmpty
  | "wow" => clients.wow.any fun client => !client.credential.isEmpty
  | "grin" => clients.grin.any fun client => !client.credential.isEmpty
  | _ => false

/-- The chain, as advertised. -/
def CapabilitiesResponse.chainEnabled (caps : CapabilitiesResponse) (asset : String) : Bool :=
  match asset with
  | "btc" => caps.chains.btc.enabled
  | "ltc" => caps.chains.ltc.enabled
  | "xmr" => caps.chains.xmr.enabled
  | "wow" => caps.chains.wow.enabled
  | "grin" => caps.chains.grin.enabled
  | _ => false

/-- The settings of the tips. -/
def tipDesk (env : ConfigEnv) (dep : Deployment) (c : Config)
    (getUserByUsername : String → Except AppError (Option Uuid)) : TipInstance where
  tips := c.features.tips
  targetedTips := dep.targetedTips
  chains := c.features.chains
  tipShareBase := c.tipShareBase
  lowercase := env.lowercase
  getUserByUsername := getUserByUsername

/-- A processor as a rail of premium. -/
def BtcPayProvider.rail (provider : BtcPayProvider) : PaymentRail :=
  ⟨provider.kind, provider.baseUrl, provider.storeId⟩

/-- The invoice of a plan on a rail, when both were found. -/
def mintOn (processors : Processors) (bearer : Except AppError TokenInfo)
    (plan : Config.PremiumPlan) (rail : PaymentRail) : Handler PremiumPlanned := do
  let user ← extractUserIdFromToken bearer
  let pending ← select fun db => db.countUnconsumedPremiumInvoices user
  if maxPending ≤ pending then
    .fail (.validationError
      ("Too many pending premium invoices; pay or let them expire before minting another."))
  else
    let id ← .ofExcept (processors.createInvoice rail plan (uuidText user))
    return .mint rail ⟨id, user, rail.kind, plan.days, none⟩

/-- What the plans and the rails of an instance sell is what it advertises. -/
def Sells (inst : PremiumInstance) (enabled : Bool) (caps : PremiumCapability) : Prop :=
  ∀ plan ∈ caps.plans, ∀ way ∈ caps.rails, ∃ rail ∈ inst.rails, rail.kind = way.id ∧
    ∀ processors bearer, mintPlan inst enabled processors bearer plan.id (some way.id) =
      mintOn processors bearer plan rail

/-- A relay as it is advertised. -/
structure MessagingCapability.Describes (m : MessagingCapability) (r : Relay) : Prop where
  /-- Its URL. -/
  url : m.relayUrl = r.advertisedUrl
  /-- Who may write. -/
  policy : WritePolicy.parse m.writePolicy = some r.policy
  /-- Difficulty of foreign events. -/
  bits : m.inboundPowBits = r.inboundPowBits

/-- What is advertised is there. -/
structure Honest (boot : BootEnv) (env : ConfigEnv) (dep : Deployment) (parts : BootParts) (c : Config)
    (caps : CapabilitiesResponse) : Prop where
  /-- A chain is advertised if and only if its client was built and can be answered. -/
  chains : ∀ asset, caps.chainEnabled asset = parts.chains.serves asset
  /-- In production every client that was built can. -/
  production : c.isProduction = true → ∀ asset,
    caps.chainEnabled asset = parts.chains.built asset
  /-- The light server of Grin comes with the chain. -/
  grinLws : caps.features.grinLws = (parts.chains.serves "grin" && parts.chains.grinLws.isSome)
  /-- Batches come with a chain. -/
  utxoMulti : caps.features.utxoMultiAddress = true →
    parts.chains.serves "btc" = true ∨ parts.chains.serves "ltc" = true
  /-- Subaddresses come with a chain. -/
  subaddresses : caps.features.xmrSubaddrProvisioning = true →
    parts.chains.serves "xmr" = true ∨ parts.chains.serves "wow" = true
  /-- Tips are accepted, have links, are looked after, and some chain can hold them. -/
  tips : caps.features.tips = true → parts.tipLoops = true ∧ ∀ lookup,
    (tipDesk env dep c lookup).ensureTipsEnabled = .ok () ∧
    (∀ id, ((tipDesk env dep c lookup).shareUrl id).isSome = true) ∧
    ∃ asset, (tipDesk env dep c lookup).supportedTipAsset asset = true ∧
      parts.chains.serves asset = true
  /-- The mailbox is open, and old slatepacks expire. -/
  grinRelay : caps.features.grinRelay = true → parts.slatepackExpiry = true ∧
    ∀ parseUuid, ensureRelayEnabled ⟨c.features.grinRelay, parseUuid⟩ = .ok ()
  /-- Every asset of the price feed is fetched, in the configured currency. -/
  prices : caps.features.prices = true → boot.http = true → c.features.pricesAssets ≠ [] →
    ∃ client, parts.prices = some client ∧ client.currency = c.features.pricesCurrency ∧
      client.feeds.map Prod.fst = c.features.pricesAssets
  /-- Proofs of Nostr keys have a URL to be made for. -/
  nostr : caps.features.nostrIdentity = true → ∀ path, ∃ url, nip98Url c.publicApiUrl path = .ok url
  /-- The relay is the one that was built. -/
  messaging : Option.Rel MessagingCapability.Describes caps.messaging parts.relay
  /-- A relay that is not open has an admission service. -/
  admission : ∀ m, caps.messaging = some m → m.writePolicy ≠ "open" → parts.admission.isSome = true
  /-- The feed is read from that relay. -/
  feed : ∀ f, caps.feed = some f → parts.relay.map Relay.advertisedUrl = some f.relayUrl
  /-- Premium opens that relay, and every plan can be bought on every rail as advertised. -/
  premium : ∀ p, caps.premium = some p →
    (∃ r, parts.relay = some r ∧ r.policy = .premiumPost ∧ r.advertisedUrl = p.relayUrl) ∧
    ∃ inst : PremiumInstance, inst.plans = p.plans ∧
      inst.rails = parts.paymentRails.map BtcPayProvider.rail ∧ Sells inst c.premium.enabled p
  /-- A registration that has to be paid can be paid, at the advertised price. -/
  payment : caps.registration.paymentRequired = true → parts.payment.isSome = true ∧
    ∀ pubkeyHash,
      caps.registration.paymentAmount = some (Payment.registrationInvoice c pubkeyHash).amount ∧
      caps.registration.paymentCurrency = some (Payment.registrationInvoice c pubkeyHash).currency

/-- The plans and the rails are read from the environment. -/
structure Config.SellsFrom (vars : EnvVars) (c : Config) : Prop where
  /-- `PREMIUM_PLANS` -/
  plans : c.premium.plans = parsePremiumPlans (envOr vars "PREMIUM_PLANS" "")
  /-- The variables of the checkout rails. -/
  rails : c.premium.rails = parseCheckoutRails vars


/-! ### The clients that are built -/

theorem any_of_builtIf {α : Type} {on : Bool} {build : Except AppError α} {o : Option α}
    (h : builtIf on build = .ok o) {p : α → Bool} {b : Bool}
    (hp : ∀ x, build = .ok x → p x = b) : o.any p = (on && b) := by
  cases on with
  | false =>
    obtain rfl := Except.ok.inj h
    rfl
  | true =>
    cases hbuild : build with
    | error e => simp [builtIf, hbuild] at h
    | ok x =>
      rw [hbuild] at h
      obtain rfl := Except.ok.inj h
      exact hp x hbuild

theorem isSome_of_builtIf {α : Type} {on : Bool} {build : Except AppError α} {o : Option α}
    (h : builtIf on build = .ok o) : o.isSome = on := by
  have hany := any_of_builtIf h (p := fun _ => true) fun _ _ => rfl
  rw [Bool.and_true] at hany
  rw [← hany]
  cases o <;> rfl

theorem isEmpty_of_mapM {α β ε : Type} {f : α → Except ε β} {xs : List α} {ys : List β}
    (h : xs.mapM f = .ok ys) : ys.isEmpty = xs.isEmpty := by
  cases xs with
  | nil =>
    obtain rfl := Except.ok.inj h
    rfl
  | cons x rest =>
    rw [List.mapM_cons] at h
    obtain ⟨y, -, h⟩ := bind_eq_ok_iff.mp h
    obtain ⟨ys', -, h⟩ := bind_eq_ok_iff.mp h
    obtain rfl := Except.ok.inj h
    rfl

theorem isSome_of_mapM {α β ε : Type} {f : α → Except ε β} {x : Option α} {y : Option β}
    (h : x.mapM f = .ok y) : y.isSome = x.isSome := by
  cases x with
  | none =>
    obtain rfl := Except.ok.inj h
    rfl
  | some a =>
    change some <$> f a = .ok y at h
    cases hvalue : f a with
    | error e =>
      rw [hvalue] at h
      cases h
    | ok b =>
      rw [hvalue] at h
      obtain rfl := Except.ok.inj h
      rfl

theorem hasServer_of_new {network : UtxoNetwork} {cfg : Config.UtxoConfig}
    {client : ElectrumHandle} (h : ElectrumHandle.new network cfg = .ok client) :
    client.hasServer = (cfg.electrumPrimary.isSome || !cfg.electrumFallbacks.isEmpty) := by
  obtain ⟨primary, hprimary, h⟩ := bind_eq_ok_iff.mp h
  obtain ⟨fallbacks, hfallbacks, h⟩ := bind_eq_ok_iff.mp h
  obtain rfl := Except.ok.inj h
  simp only [ElectrumHandle.hasServer, isSome_of_mapM hprimary, isEmpty_of_mapM hfallbacks]

theorem credential_of_new {http : Bool} {name credential : String} {client : HttpHandle}
    (h : HttpHandle.new http name credential = .ok client) : client.credential = credential := by
  unfold HttpHandle.new at h
  split_ifs at h
  obtain rfl := Except.ok.inj h
  rfl

/-- The flag of a chain. -/
def Config.ChainFlags.named (flags : Config.ChainFlags) (asset : String) : Bool :=
  match asset with
  | "btc" => flags.btc
  | "ltc" => flags.ltc
  | "xmr" => flags.xmr
  | "wow" => flags.wow
  | "grin" => flags.grin
  | _ => false

/-- What is known of the clients of a configuration. -/
structure BuiltFrom (dep : Deployment) (c : Config) (clients : BuiltClients) : Prop where
  /-- The chains that are on. -/
  built : ∀ asset, clients.built asset = c.features.chains.named asset
  /-- The chains that can be answered. -/
  serves : ∀ asset, clients.serves asset = chainServiceable c asset
  /-- The light server. -/
  grinLws : clients.grinLws.isSome = (c.features.chains.grin && !(trim dep.grinLwsUrl).isEmpty)

theorem builtFrom_of_fromConfig {http : Bool} {dep : Deployment} {c : Config}
    {clients : BuiltClients} (h : BuiltClients.fromConfig http dep c = .ok clients) :
    BuiltFrom dep c clients := by
  obtain ⟨btc, hbtc, h⟩ := bind_eq_ok_iff.mp h
  obtain ⟨ltc, hltc, h⟩ := bind_eq_ok_iff.mp h
  obtain ⟨xmr, hxmr, h⟩ := bind_eq_ok_iff.mp h
  obtain ⟨wow, hwow, h⟩ := bind_eq_ok_iff.mp h
  obtain ⟨grin, hgrin, h⟩ := bind_eq_ok_iff.mp h
  obtain ⟨grinLws, hlight, h⟩ := bind_eq_ok_iff.mp h
  obtain rfl := Except.ok.inj h
  have hserver {network : Except AppError UtxoNetwork} {cfg : Config.UtxoConfig}
      (client : ElectrumHandle) (hnew : (network >>= fun net => ElectrumHandle.new net cfg) =
        .ok client) :
      client.hasServer = (cfg.electrumPrimary.isSome || !cfg.electrumFallbacks.isEmpty) := by
    obtain ⟨_, -, hnew⟩ := bind_eq_ok_iff.mp hnew
    exact hasServer_of_new hnew
  have hsecret {name credential : String} (client : HttpHandle)
      (hnew : HttpHandle.new http name credential = .ok client) :
      (!client.credential.isEmpty) = !credential.isEmpty := by
    rw [credential_of_new hnew]
  refine ⟨fun asset => ?_, fun asset => ?_, isSome_of_builtIf hlight⟩
  · unfold BuiltClients.built
    split
    · exact isSome_of_builtIf hbtc
    · exact isSome_of_builtIf hltc
    · exact isSome_of_builtIf hxmr
    · exact isSome_of_builtIf hwow
    · exact isSome_of_builtIf hgrin
    · simp_all [Config.ChainFlags.named]
  · unfold BuiltClients.serves
    split
    · exact any_of_builtIf hbtc hserver
    · exact any_of_builtIf hltc hserver
    · exact any_of_builtIf hxmr hsecret
    · exact any_of_builtIf hwow hsecret
    · exact any_of_builtIf hgrin hsecret
    · simp_all [chainServiceable]

/-! ### What validation has checked -/

/-- What is known of a valid configuration. -/
structure Config.Checked (c : Config) : Prop where
  /-- In production no enabled chain misses a setting. -/
  missing : c.isProduction = true → missingChainConfig c.features.chains c.chains = []
  /-- Quoted assets can be quoted. -/
  prices : c.features.prices = true → ∀ asset ∈ c.features.pricesAssets,
    asset ∈ supportedPriceAssets
  /-- A relay has a URL. -/
  relayUrl : c.relay.enabled = true → (trim c.relay.advertisedUrl).isEmpty = false
  /-- Names of plans are distinct. -/
  plans : c.premium.enabled = true → (c.premium.plans.map Config.PremiumPlan.id).Nodup

theorem mem_of_validatePriceAssets {env : ConfigEnv} {assets : List String}
    (h : Config.validatePriceAssets env assets = .ok ()) :
    ∀ asset ∈ assets, asset ∈ Config.supportedPriceAssets := by
  induction assets with
  | nil => simp
  | cons a rest ih =>
    obtain ⟨_, ha, h⟩ := bind_eq_ok_iff.mp h
    rw [refuse_eq_ok_iff] at ha
    exact List.forall_mem_cons.mpr ⟨by simpa using ha, ih h⟩

theorem nodup_of_validatePlans {env : ConfigEnv} {plans : List Config.PremiumPlan}
    {seen : List String} (h : Config.validatePlans env seen plans = .ok ()) :
    (plans.map Config.PremiumPlan.id).Nodup ∧ ∀ p ∈ plans, p.id ∉ seen := by
  induction plans generalizing seen with
  | nil => simp
  | cons plan rest ih =>
    obtain ⟨_, hseen, h⟩ := bind_eq_ok_iff.mp h
    obtain ⟨_, -, h⟩ := bind_eq_ok_iff.mp h
    obtain ⟨_, -, h⟩ := bind_eq_ok_iff.mp h
    rw [refuse_eq_ok_iff] at hseen
    obtain ⟨hnodup, hrest⟩ := ih h
    refine ⟨List.nodup_cons.mpr ⟨fun hmem => ?_, hnodup⟩, List.forall_mem_cons.mpr
      ⟨by simpa using hseen, fun p hp hmem => hrest p hp (List.mem_cons_of_mem _ hmem)⟩⟩
    obtain ⟨p, hp, heq⟩ := List.mem_map.mp hmem
    exact hrest p hp (heq ▸ List.mem_cons_self)

theorem Config.checked {env : ConfigEnv} {c : Config} (hvalid : c.validate env = .ok ()) :
    c.Checked := by
  simp only [Config.validate, bind_eq_ok_iff] at hvalid
  obtain ⟨_, -, _, -, _, -, _, -, _, -, _, -, _, -, _, hprices, _, -, _, hmissing, _, -, _, -, _,
    hrelay, _, -, hpremium⟩ := hvalid
  rw [refuse_eq_ok_iff] at hmissing
  refine ⟨fun hprod => by simpa [hprod] using hmissing, fun hon => ?_, fun hon => ?_, fun hon => ?_⟩
  · rw [Config.whenOn, if_pos hon] at hprices
    obtain ⟨_, -, hprices⟩ := bind_eq_ok_iff.mp hprices
    obtain ⟨_, hassets, -⟩ := bind_eq_ok_iff.mp hprices
    exact mem_of_validatePriceAssets hassets
  · rw [Config.whenOn, if_pos hon] at hrelay
    obtain ⟨_, -, hrelay⟩ := bind_eq_ok_iff.mp hrelay
    obtain ⟨_, hurl, -⟩ := bind_eq_ok_iff.mp hrelay
    exact refuse_eq_ok_iff.mp hurl
  · rw [Config.whenOn, if_pos hon] at hpremium
    simp only [Config.validatePremium, bind_eq_ok_iff] at hpremium
    obtain ⟨_, -, _, -, _, -, _, -, _, -, _, -, _, -, _, -, _, -, _, -, _, -, _, hplans, -⟩ :=
      hpremium
    exact (nodup_of_validatePlans hplans).1

theorem hasServer_of_not_unset (cfg : Config.UtxoConfig) :
    (cfg.electrumPrimary.isSome || !cfg.electrumFallbacks.isEmpty) = !cfg.unset := by
  cases hprimary : cfg.electrumPrimary <;> simp [Config.UtxoConfig.unset, hprimary]

theorem chainServiceable_of_missing {c : Config}
    (h : Config.missingChainConfig c.features.chains c.chains = []) (asset : String) :
    chainServiceable c asset = c.features.chains.named asset := by
  have hon {on miss : Bool} (hmiss : ¬(on && miss) = true) : (on && !miss) = on := by
    cases on <;> simp_all
  simp only [Config.missingChainConfig, List.filterMap_eq_nil_iff, List.forall_mem_cons,
    ite_eq_right_iff, reduceCtorEq, imp_false] at h
  obtain ⟨hbtc, hltc, hxmr, hwow, hgrin, -⟩ := h
  unfold chainServiceable
  split <;> simp only [hasServer_of_not_unset]
  · exact hon hbtc
  · exact hon hltc
  · exact hon hxmr
  · exact hon hwow
  · exact hon hgrin
  · simp only [Config.ChainFlags.named, *]

/-! ### Premium -/

theorem find?_key_of_nodup {α β : Type} [DecidableEq β] {key : α → β} {xs : List α}
    (h : (xs.map key).Nodup) {x : α} (hx : x ∈ xs) :
    xs.find? (fun y => key y = key x) = some x := by
  induction xs with
  | nil => cases hx
  | cons y rest ih =>
    rw [List.map_cons, List.nodup_cons] at h
    rcases List.mem_cons.mp hx with rfl | hx
    · simp
    · have hne : key y ≠ key x := fun heq => h.1 (heq ▸ List.mem_map_of_mem hx)
      rw [List.find?_cons_of_neg (by simpa using hne)]
      exact ih h.2 hx

theorem kind_of_build {http exact : Bool} {kind url storeId apiKey : String}
    {provider : BtcPayProvider}
    (h : BtcPayProvider.build http kind exact url storeId apiKey = .ok provider) :
    provider.kind = kind := by
  unfold BtcPayProvider.build at h
  split_ifs at h
  obtain rfl := Except.ok.inj h
  rfl

theorem kinds_of_checkoutRails {http : Bool} {rails : List Config.PaymentRailConfig}
    {built : List BtcPayProvider} (h : rails.mapM (BtcPayProvider.checkoutRail http) = .ok built) :
    built.map BtcPayProvider.kind = rails.map Config.PaymentRailConfig.kind := by
  induction rails generalizing built with
  | nil =>
    obtain rfl := Except.ok.inj h
    rfl
  | cons r rest ih =>
    rw [List.mapM_cons] at h
    obtain ⟨first, hfirst, h⟩ := bind_eq_ok_iff.mp h
    obtain ⟨others, hothers, h⟩ := bind_eq_ok_iff.mp h
    obtain rfl := Except.ok.inj h
    rw [List.map_cons, List.map_cons, ih hothers, kind_of_build hfirst]

/-- The rails of premium are those that are advertised, and the first is BTCPay. -/
theorem kinds_of_rails {http : Bool} {dep : Deployment} {c : Config}
    {primary : Option BtcPayProvider} {rails : List BtcPayProvider}
    (hon : c.premium.enabled = true) (hprimary : Payment.fromConfig http c = .ok primary)
    (hrails : Payment.railsFromConfig http c primary = .ok rails) :
    rails.map BtcPayProvider.kind = (premiumRails dep c).map PremiumRailInfo.id ∧
      c.registration.payment.provider = "btcpay" := by
  simp only [Payment.fromConfig, hon, Bool.not_true, Bool.and_false, Bool.false_eq_true,
    if_false] at hprimary
  split_ifs at hprimary with hbtcpay
  simp only [Payment.railsFromConfig, hon, Bool.not_true, Bool.false_eq_true, if_false] at hrails
  obtain ⟨checkout, hcheckout, hrails⟩ := bind_eq_ok_iff.mp hrails
  obtain rfl := Except.ok.inj hrails
  cases hnew : BtcPayProvider.new http c.registration.payment with
  | error e => simp [hnew] at hprimary
  | ok provider =>
    rw [hnew] at hprimary
    obtain rfl := Except.ok.inj hprimary
    refine ⟨?_, hbtcpay⟩
    simp only [premiumRails, Option.toList_some, List.singleton_append, List.map_cons,
      List.map_map, Function.comp_def, kinds_of_checkoutRails hcheckout, kind_of_build hnew,
      hbtcpay]

theorem mintPlan_of_found {inst : PremiumInstance} {plan : Config.PremiumPlan} {rail : PaymentRail}
    {id way : String} (hplan : (inst.plans.find? fun p => p.id = id) = some plan)
    (hrail : inst.select (some (trim way)) = some rail) (processors : Processors)
    (bearer : Except AppError TokenInfo) :
    mintPlan inst true processors bearer id (some way) = mintOn processors bearer plan rail := by
  simp only [mintPlan, mintOn, ensurePremiumEnabled, if_true, Prog.ofExcept_ok, Prog.ret_bind, hplan,
    Prog.orFail, Option.map_some, hrail]

theorem trim_way {dep : Deployment} {c : Config} (hsells : c.SellsFrom dep.vars)
    (hbtcpay : c.registration.payment.provider = "btcpay") {way : PremiumRailInfo}
    (h : way ∈ premiumRails dep c) : trim way.id = way.id := by
  have hkinds : ∀ kind ∈ checkoutRails.map Prod.fst, trim kind = kind := by decide
  rcases List.mem_cons.mp h with rfl | h
  · simp only [hbtcpay]
    decide
  · obtain ⟨r, hr, rfl⟩ := List.mem_map.mp h
    rw [hsells.rails] at hr
    exact hkinds _ ((kinds_sublist dep.vars).subset (List.mem_map_of_mem hr))

theorem nodup_premiumRails {dep : Deployment} {c : Config} (hsells : c.SellsFrom dep.vars)
    (hbtcpay : c.registration.payment.provider = "btcpay") :
    ((premiumRails dep c).map PremiumRailInfo.id).Nodup := by
  have hsub := kinds_sublist dep.vars
  rw [← hsells.rails] at hsub
  simp only [premiumRails, List.map_cons, List.map_map, Function.comp_def, hbtcpay]
  refine (List.Sublist.cons_cons "btcpay" hsub).nodup ?_
  decide

section Boot

variable {boot : BootEnv} {env : ConfigEnv} {dep : Deployment} {c : Config} {parts : BootParts}

/-- What is sold on the rails that were built is what is advertised. -/
theorem sells_of_rails (hchecked : c.Checked) (hsells : c.SellsFrom dep.vars)
    (hon : c.premium.enabled = true) {primary : Option BtcPayProvider}
    (hprimary : Payment.fromConfig boot.http c = .ok primary) {rails : List BtcPayProvider}
    (hrails : Payment.railsFromConfig boot.http c primary = .ok rails) :
    ∃ inst : PremiumInstance, inst.plans = c.premium.plans ∧
      inst.rails = rails.map BtcPayProvider.rail ∧
      ∀ plan ∈ c.premium.plans, ∀ way ∈ premiumRails dep c, ∃ rail ∈ inst.rails,
        rail.kind = way.id ∧ ∀ processors bearer,
          mintPlan inst true processors bearer plan.id (some way.id) =
            mintOn processors bearer plan rail := by
  obtain ⟨hkinds, hbtcpay⟩ : rails.map BtcPayProvider.kind =
      (premiumRails dep c).map PremiumRailInfo.id ∧ _ := kinds_of_rails hon hprimary hrails
  have hmap : (rails.map BtcPayProvider.rail).map PaymentRail.kind =
      (premiumRails dep c).map PremiumRailInfo.id := by
    rw [← hkinds, List.map_map]
    rfl
  have hnodup := nodup_premiumRails hsells hbtcpay
  rw [← hmap] at hnodup
  refine ⟨⟨c.premium.plans, _, hsells.plans ▸ days_pos_of_parse, hnodup⟩, rfl, rfl, ?_⟩
  intro plan hplan way hway
  have hmem : way.id ∈ (rails.map BtcPayProvider.rail).map PaymentRail.kind :=
    hmap ▸ List.mem_map_of_mem hway
  obtain ⟨rail, hrail, hkind⟩ := List.mem_map.mp hmem
  refine ⟨rail, hrail, hkind, mintPlan_of_found (find?_key_of_nodup (hchecked.plans hon) hplan) ?_⟩
  rw [trim_way hsells hbtcpay hway, ← hkind]
  exact find?_key_of_nodup hnodup hrail

/-- The relay that is advertised is the one that was built. -/
theorem rel_messaging (hchecked : c.Checked) {relay : Option Relay}
    (hrelay : relayFromConfig env boot.bech32 c.relay dep.relayWriteAllowlist = .ok relay) :
    Option.Rel MessagingCapability.Describes (effectiveCapabilities boot env dep c).messaging
      relay := by
  cases hon : c.relay.enabled with
  | false =>
    rw [relay_eq_none hrelay hon]
    simp only [effectiveCapabilities, relayAdvertised, hon, Bool.false_and, Bool.false_eq_true,
      if_false]
    exact .none
  | true =>
    have hurl := hchecked.relayUrl hon
    simp only [effectiveCapabilities, relayAdvertised, hon, hurl, Bool.not_false, Bool.and_self,
      if_true]
    simp only [relayFromConfig, hon, Bool.not_true, Bool.false_eq_true, if_false] at hrelay
    cases hpolicy : WritePolicy.parse c.relay.writePolicy with
    | none => simp [hpolicy] at hrelay
    | some policy =>
      simp only [hpolicy] at hrelay
      split_ifs at hrelay
      all_goals
        rw [← Except.ok.inj hrelay]
        exact .some ⟨rfl, hpolicy, rfl⟩

theorem relay_of_advertised (hchecked : c.Checked) {relay : Option Relay}
    (hrelay : relayFromConfig env boot.bech32 c.relay dep.relayWriteAllowlist = .ok relay)
    (h : relayAdvertised c = true) :
    ∃ r, relay = some r ∧ r.advertisedUrl = c.relay.advertisedUrl ∧
      WritePolicy.parse c.relay.writePolicy = some r.policy := by
  have hrel : Option.Rel _ (effectiveCapabilities boot env dep c).messaging relay :=
    rel_messaging hchecked hrelay
  simp only [effectiveCapabilities, h, if_true] at hrel
  cases hrel with
  | some hdescribes => exact ⟨_, rfl, hdescribes.url.symm, hdescribes.policy⟩

theorem feeds_of_supported {assets : List String}
    (h : ∀ asset ∈ assets, asset ∈ Config.supportedPriceAssets) :
    (assets.filterMap fun a => coinIds.find? fun coin => coin.1 = a).map Prod.fst = assets := by
  have hcoin : ∀ asset ∈ Config.supportedPriceAssets,
      ∃ coin, coinIds.find? (fun coin => coin.1 = asset) = some coin ∧ coin.1 = asset := by
    decide
  induction assets with
  | nil => rfl
  | cons a rest ih =>
    rw [List.forall_mem_cons] at h
    obtain ⟨coin, hfound, hname⟩ := hcoin a h.1
    simp only [List.filterMap_cons, hfound, List.map_cons, hname, ih h.2]

/-- **A valid configuration is honest about what it builds.** -/
theorem honest_of_boot (hvalid : c.validate env = .ok ()) (hsells : c.SellsFrom dep.vars)
    (hboot : c.boot boot env dep = .ok parts) :
    Honest boot env dep parts c (effectiveCapabilities boot env dep c) := by
  have hchecked := Config.checked hvalid
  obtain ⟨chains, hchains, hboot⟩ := bind_eq_ok_iff.mp hboot
  obtain ⟨payment, hpayment, hboot⟩ := bind_eq_ok_iff.mp hboot
  obtain ⟨rails, hrails, hboot⟩ := bind_eq_ok_iff.mp hboot
  obtain ⟨relay, hrelay, hboot⟩ := bind_eq_ok_iff.mp hboot
  obtain rfl := Except.ok.inj hboot
  have hbuilt := builtFrom_of_fromConfig hchains
  have henabled (asset : String) :
      (effectiveCapabilities boot env dep c).chainEnabled asset = chainServiceable c asset := by
    unfold CapabilitiesResponse.chainEnabled
    split <;> simp_all [chainServiceable, effectiveCapabilities]
  have hserves (asset : String) : chainServiceable c asset = chains.serves asset :=
    (hbuilt.serves asset).symm
  refine
    { chains := fun asset => (henabled asset).trans (hserves asset)
      production := fun hprod asset => ?_
      grinLws := ?_
      utxoMulti := fun hcap => ?_
      subaddresses := fun hcap => ?_
      tips := fun hcap => ?_
      grinRelay := fun hcap => ⟨hcap, fun _ => if_pos hcap⟩
      prices := fun hcap hhttp hassets => ?_
      nostr := fun hcap path => ?_
      messaging := rel_messaging hchecked hrelay
      admission := fun m hm hpolicy => ?_
      feed := fun f hf => ?_
      premium := fun p hp => ?_
      payment := fun hcap => ?_ }
  · rw [henabled, chainServiceable_of_missing (hchecked.missing hprod), hbuilt.built]
  · show (chainServiceable c "grin" && !(trim dep.grinLwsUrl).isEmpty) = _
    rw [hbuilt.grinLws, ← hserves]
    cases hgrin : c.features.chains.grin <;> simp [chainServiceable, hgrin]
  · have hany := (Bool.and_eq_true_iff.mp hcap).2
    rwa [hserves, hserves, Bool.or_eq_true] at hany
  · have hany := (Bool.and_eq_true_iff.mp hcap).2
    rwa [hserves, hserves, Bool.or_eq_true] at hany
  · obtain ⟨hflags, hany⟩ := Bool.and_eq_true_iff.mp hcap
    obtain ⟨htips, hbase⟩ := Bool.and_eq_true_iff.mp hflags
    obtain ⟨asset, -, hasset⟩ := List.any_eq_true.mp hany
    refine ⟨htips, fun lookup => ⟨?_, fun id => ?_, asset, ?_, hserves asset ▸ hasset⟩⟩
    · simp [TipInstance.ensureTipsEnabled, tipDesk, demand, htips]
    · simpa [TipInstance.shareUrl, tipDesk] using hbase
    · unfold chainServiceable at hasset
      show (tipDesk env dep c lookup).supportedTipAsset asset = true
      unfold TipInstance.supportedTipAsset
      split at hasset
      any_goals exact (Bool.and_eq_true_iff.mp hasset).1
      cases hasset
  · have hfeeds := feeds_of_supported (hchecked.prices hcap)
    have hsome : (c.features.pricesAssets.filterMap fun a =>
        coinIds.find? fun coin => coin.1 = a).isEmpty = false := by
      refine Bool.eq_false_iff.mpr fun hempty => hassets ?_
      rw [← hfeeds, List.isEmpty_iff.mp hempty]
      rfl
    refine ⟨⟨c.features.pricesProvider, c.features.pricesCurrency, _⟩, ?_, rfl, hfeeds⟩
    show priceLoop boot.http c.features = _
    have hon : c.features.prices = true := hcap
    simp [priceLoop, hon, hhttp, hsome]
  · obtain ⟨base, hbase⟩ := Option.isSome_iff_exists.mp (Bool.and_eq_true_iff.mp hcap).2
    exact ⟨trimEndSlashes base ++ path, by rw [hbase]; rfl⟩
  · have hrel : Option.Rel _ (effectiveCapabilities boot env dep c).messaging _ :=
      rel_messaging hchecked hrelay
    rw [hm] at hrel
    cases hrel with
    | @some _ r hdescribes =>
      have hclosed : r.policy ≠ .open := fun hopen =>
        hpolicy (parse_eq_open_iff.mp (hopen ▸ hdescribes.policy))
      simp [hclosed]
  · have hon : feedAdvertised c = true := by
      by_contra hoff
      simp [effectiveCapabilities, hoff] at hf
    simp only [effectiveCapabilities, hon, if_true, Option.some.injEq] at hf
    obtain ⟨r, rfl, hurl, -⟩ := relay_of_advertised hchecked hrelay (Bool.and_eq_true_iff.mp hon).2
    rw [← hf, Option.map_some, hurl]
  · have hon : premiumAdvertised c = true := by
      by_contra hoff
      simp [effectiveCapabilities, hoff] at hp
    simp only [effectiveCapabilities, hon, if_true, Option.some.injEq] at hp
    obtain ⟨hpremium, hrelayOn⟩ := Bool.and_eq_true_iff.mp hon
    obtain ⟨r, hr, hurl, hpolicy⟩ := relay_of_advertised hchecked hrelay hrelayOn
    obtain ⟨inst, hplans, hways, hinst⟩ := sells_of_rails hchecked hsells hpremium hpayment hrails
    rw [(relay_of_premium hvalid hpremium).2] at hpolicy
    subst hp
    exact ⟨⟨r, hr, (Option.some.inj hpolicy).symm, hurl⟩, inst, hplans, hways,
      hpremium ▸ hinst⟩
  · have hon : c.registration.payment.requirePayment = true := hcap
    have hprice : ∀ s : String, (if c.registration.payment.requirePayment then some s else none) =
        some s := fun s => if_pos hon
    refine ⟨?_, fun pubkeyHash => ⟨hprice _, hprice _⟩⟩
    simp only [Payment.fromConfig, hon, Bool.not_true, Bool.false_and, Bool.false_eq_true,
      if_false] at hpayment
    split_ifs at hpayment
    cases hnew : BtcPayProvider.new boot.http c.registration.payment with
    | error e => simp [hnew] at hpayment
    | ok provider =>
      rw [hnew] at hpayment
      rw [← Except.ok.inj hpayment]
      rfl

end Boot

/-! ### After any edits -/

theorem Config.SellsFrom.edited {vars : EnvVars} {env : ConfigEnv} {c d : Config}
    {ov : SettingsOverlay} (hsells : c.SellsFrom vars) (h : c.edited env ov = .ok d) :
    d.SellsFrom vars := by
  obtain ⟨_, _, _, -, -, -, rfl⟩ := Config.edited_eq_ok_iff.mp h
  cases hpremium : ov.premium with
  | none => exact ⟨by simpa [applySection, hpremium] using hsells.plans,
      by simpa [applySection, hpremium] using hsells.rails⟩
  | some o => exact ⟨by simpa [applySection, hpremium, PremiumOverlay.apply] using hsells.plans,
      by simpa [applySection, hpremium, PremiumOverlay.apply] using hsells.rails⟩

/-- **What is advertised is served, whatever has been edited.**  An instance starts with what the
environment and the stored settings say, and operators edit the settings while it runs.  At any time
after, a start from the running configuration would build the parts that are there, and what is
advertised is what these parts can do. -/
theorem advertised_is_served {env : SettingsEnv} (hcase : CaseMapping env.config) {boot : BootEnv}
    {dep : Deployment} {s₀ s : AppState} {calls : List ConfigCall} {parts : BootParts}
    (hbooted : Booted env s₀) (hsells : env.base.SellsFrom dep.vars)
    (hparts : s₀.config.boot boot env.config dep = .ok parts)
    (hrun : (configPuts env).Run s₀ calls s) :
    s.config.boot boot env.config dep = .ok parts ∧
    Honest boot env.config dep parts s.config
      (effectiveCapabilities boot env.config dep s.config) := by
  have hsound : RunningSound env s₀.config s.config :=
    hrun.invariant (fun _ _ _ hstep hs => runningSound_step hcase hstep hs) (hbooted.sound hcase)
  have hinstep := inStep_run hrun
  have hboot : s.config.boot boot env.config dep = .ok parts :=
    (boot_of_run hrun boot dep).trans hparts
  have hstart := hsells.edited (Config.applyOverlay_eq_ok_iff.mp hbooted.tracks).1
  refine ⟨hboot, honest_of_boot hsound.valid ⟨?_, ?_⟩ hboot⟩
  · rw [hinstep.premium]
    exact hstart.plans
  · rw [hinstep.premium]
    exact hstart.rails

/-! ### An instance that sells a day -/

/-- Its variables. -/
def sellingVars : EnvVars := fun name => if name = "PREMIUM_PLANS" then some "m:1:1" else none

theorem splitOn_day : "m:1:1".splitOn "," = ["m:1:1"] := by
  rw [String.splitOn, if_neg (by decide)]
  -- no character is a comma
  iterate 5 rw [String.splitOnAux, if_neg (by decide +kernel), if_neg (by decide +kernel)]
  rw [String.splitOnAux, if_pos (by decide +kernel)]
  decide +kernel

theorem parsePremiumPlans_day : parsePremiumPlans "m:1:1" = [⟨"m", 1, "1"⟩] := by
  have hplan : parsePremiumPlan "m:1:1" = some ⟨"m", 1, "1"⟩ := rfl
  rw [parsePremiumPlans, splitOn_day, List.filterMap_cons_some hplan, List.filterMap_nil]

/-- What no check reads. -/
def sellingDeployment : Deployment where
  btcNetwork := "mainnet"
  ltcNetwork := "mainnet"
  grinLwsUrl := ""
  relayWriteAllowlist := []
  targetedTips := false
  nip05Domain := none
  primaryAssets := ["BTC"]
  showOwner := true
  showPremium := true
  ownerNpub := ""
  allowlistNpubs := []
  extraRelays := []
  vars := sellingVars

/-- Its settings: Bitcoin, tips, a relay for members, and registrations that are paid. -/
def sellingSettings : SettingsEnv :=
  { sampleSettings with
    base := { sampleSettings.base with
      tipShareBase := some "https://tips"
      features := { sampleSettings.base.features with
        tips := true
        chains := ⟨true, false, false, false, false⟩ }
      chains := ⟨⟨some "ssl://electrum:50002", []⟩, ⟨none, []⟩, "", "", ""⟩
      relay := ⟨true, "external", "wss://relay", "premium-post", 0, "relay", true, 65536, 30⟩
      premium := ⟨true, "XMR", [⟨"m", 1, "1"⟩], []⟩ } }

/-- It has started. -/
def selling : AppState :=
  { signedIn .empty with config := bootConfig sellingSettings [] }

/-- Libraries that build everything. -/
def sellingLibraries : BootEnv := ⟨true, fun _ => none, fun _ => ""⟩

/-- The price of a registration is doubled. -/
def doublePrice : PutConfigRequest where
  patch := { SettingsOverlay.default with
    registration := some ⟨none, none, none, some "2", none, none, none⟩ }
  expectedVersions _ := none

/-- The answer to that edit. -/
def doublePriceCall : ConfigCall where
  bearer := .ok ⟨"op", "jti"⟩
  req := doublePrice
  result := ((adminConfigPut sellingSettings (.ok ⟨"op", "jti"⟩) doublePrice).run selling).1

/-- The instance after that edit. -/
def priceDoubled : AppState :=
  ((adminConfigPut sellingSettings (.ok ⟨"op", "jti"⟩) doublePrice).run selling).2

theorem booted_selling : Booted sellingSettings selling where
  fromEnv := ⟨sellingSettings.base, rfl⟩
  admin := rfl
  valid := ⟨sellingSettings.base, rfl⟩
  running := rfl

/-- The new price is advertised, and everything is served. -/
theorem doubled_price_advertised : ∃ parts,
    priceDoubled.config.boot sellingLibraries sampleConfigEnv sellingDeployment = .ok parts ∧
    Honest sellingLibraries sampleConfigEnv sellingDeployment parts priceDoubled.config
      (effectiveCapabilities sellingLibraries sampleConfigEnv sellingDeployment
        priceDoubled.config) ∧
    (effectiveCapabilities sellingLibraries sampleConfigEnv sellingDeployment
      priceDoubled.config).registration.paymentAmount = some "2" := by
  have hsells : sellingSettings.base.SellsFrom sellingDeployment.vars :=
    ⟨parsePremiumPlans_day.symm, rfl⟩
  obtain ⟨parts, hparts⟩ : ∃ parts, selling.config.boot sellingLibraries sellingSettings.config
      sellingDeployment = .ok parts := ⟨_, rfl⟩
  have hstep : (configPuts sellingSettings).step selling doublePriceCall priceDoubled :=
    ⟨selling, ⟨rfl, rfl⟩, Prog.outcome_run _ _⟩
  have hserved := advertised_is_served caseMapping_sample booted_selling hsells hparts
    (.cons hstep (.nil _))
  exact ⟨parts, hserved.1, hserved.2, by decide +kernel⟩

end SmirkBackend
