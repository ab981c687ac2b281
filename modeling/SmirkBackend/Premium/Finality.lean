import SmirkBackend.Admin.ConfigPut
import SmirkBackend.Auth.InvoiceBinding
import SmirkBackend.Auth.TokenConservation
import SmirkBackend.Premium.Activation

/-!
# The finality of a payment

The operator sets how many confirmations make a payment final.  A checkout rail is sent that
number; BTCPay knows four speed policies only, which stand for 0, 1, 2 and 6 confirmations.  The
number is to be rounded up to the nearest policy, so that an invoice that is reported as settled
is at least that deep before a registration or premium is granted.  From 3 to 5 it is rounded down.

* `confirmations_ne_zero` : no valid configuration with payments accepts a mempool sighting.
* `neverRoundedDown_iff` : the primary rail rounds 3, 4 and 5 down, and nothing else is.
* `registered_below_finality` : a registration passes at two confirmations where three are set.
-/

namespace SmirkBackend

open Lib (Json Prog)
open Config (PaymentConfig PaymentRailConfig)

/-! ### The adapter -/

/-- `BtcPayCheckout`. -/
structure BtcPayCheckout where
  /-- The bucket of confirmations. -/
  speedPolicy : String
  /-- Minutes until the invoice expires. -/
  expirationMinutes : UInt32
  /-- The exact confirmations, where the processor honours them. -/
  confirmationsRequired : Option UInt32
  deriving DecidableEq

/-- `BtcPayCreateReq`. -/
structure BtcPayCreateReq where
  /-- Price, as a decimal. -/
  amount : String
  /-- Currency of the price. -/
  currency : String
  /-- What the processor keeps with the invoice. -/
  metadata : Json
  /-- The terms of the payment. -/
  checkout : BtcPayCheckout

/-- `BtcPayInvoiceResp`. -/
structure BtcPayInvoiceResp where
  /-- The processor's id. -/
  id : String
  /-- The processor's word for how far the payment is. -/
  status : String
  /-- Hosted checkout page. -/
  checkoutLink : Option String
  /-- A direct address. -/
  address : Option String
  /-- What was kept with the invoice. -/
  metadata : Option Json

/-- `BtcPayProvider`: one store of a processor. -/
structure BtcPayProvider where
  /-- Kind of the rail, as invoice rows name it. -/
  kind : String
  /-- The exact count is sent too. -/
  exactConfirmations : Bool
  /-- URL without a slash at its end. -/
  baseUrl : String
  /-- Store. -/
  storeId : String
  /-- Key of the processor. -/
  apiKey : String
  deriving DecidableEq

namespace BtcPayProvider

/-- `build`, given whether the HTTP client can be built. -/
def build (http : Bool) (kind : String) (exactConfirmations : Bool) (url storeId apiKey : String) :
    Except AppError BtcPayProvider :=
  if http then
    let baseUrl := String.ofList (url.toList.reverse.dropWhile (· = '/')).reverse
    .ok ⟨kind, exactConfirmations, baseUrl, storeId, apiKey⟩
  else .error (.configError "failed to build payment HTTP client")

/-- `new`: the primary rail. -/
def new (http : Bool) (cfg : PaymentConfig) : Except AppError BtcPayProvider :=
  build http "btcpay" false cfg.providerUrl cfg.storeId cfg.apiKey

/-- `checkout_rail`: the same routes, and an exact count of confirmations. -/
def checkoutRail (http : Bool) (rail : PaymentRailConfig) : Except AppError BtcPayProvider :=
  build http rail.kind true rail.providerUrl rail.storeId rail.apiKey

/-- `speed_policy`. -/
def speedPolicy (confirmations : UInt32) : String :=
  if confirmations = 0 then "HighSpeed"
  else if confirmations = 1 then "MediumSpeed"
  else if 2 ≤ confirmations ∧ confirmations ≤ 5 then "LowMediumSpeed"
  else "LowSpeed"

/-- `map_status`: whatever it does not know is pending. -/
def mapStatus (s : String) : InvoiceStatus :=
  if s ∈ ["Settled", "Complete", "Confirmed"] then .settled
  else if s ∈ ["Processing", "Paid"] then .detected
  else if s = "Expired" then .expired
  else if s = "Invalid" then .invalid
  else .pending

/-- The identity in the metadata of an invoice. -/
def smirkBind : Json → Option String
  | .obj members => (members.lookup "smirkBind").bind fun
    | .str s => some s
    | _ => none
  | _ => none

/-- `to_invoice`, as far as a grant reads it. -/
def toInvoice (resp : BtcPayInvoiceResp) : Invoice where
  status := mapStatus resp.status
  bind := resp.metadata.bind smirkBind

/-- The body of `create_invoice`. -/
def createReq (rail : BtcPayProvider) (req : InvoiceRequest) : BtcPayCreateReq where
  amount := req.amount
  currency := req.currency
  metadata := .obj [("smirkBind", .str req.bind)]
  checkout :=
    { speedPolicy := speedPolicy req.confirmations
      expirationMinutes := req.expiresMinutes
      confirmationsRequired :=
        if rail.exactConfirmations then some req.confirmations else none }

end BtcPayProvider

namespace Payment

/-- `from_config`: the processor of the registration gate and of premium. -/
def fromConfig (http : Bool) (c : Config) : Except AppError (Option BtcPayProvider) :=
  let p := c.registration.payment
  if !p.requirePayment && !c.premium.enabled then .ok none
  else if p.provider = "btcpay" then some <$> BtcPayProvider.new http p
  else .error (.configError ("unsupported payment provider: " ++ p.provider))

/-- `rails_from_config`: the primary rail, if there is one, then the checkout rails. -/
def railsFromConfig (http : Bool) (c : Config) (primary : Option BtcPayProvider) :
    Except AppError (List BtcPayProvider) :=
  if !c.premium.enabled then .ok []
  else do
    let rails ← c.premium.rails.mapM (BtcPayProvider.checkoutRail http)
    return primary.toList ++ rails

/-- The request for the invoice of a registration. -/
def registrationInvoice (c : Config) (pubkeyHash : String) : InvoiceRequest :=
  let p := c.registration.payment
  ⟨p.amount, p.currency, p.confirmations, pubkeyHash, p.expiresMinutes⟩

/-- The request for an invoice of a premium plan. -/
def premiumInvoice (c : Config) (plan : Config.PremiumPlan) (user : Uuid) : InvoiceRequest :=
  let p := c.registration.payment
  ⟨plan.amount, c.premium.currency, p.confirmations, uuidText user, p.expiresMinutes⟩

end Payment

/-- A registration asks the processor for this invoice and no other. -/
theorem paymentInvoice_congr {env : AuthEnv} {c : Config} {req : PaymentInvoiceRequest}
    {provider provider' : PaymentProvider} (hkind : provider.kind = provider'.kind)
    (h : provider.createInvoice
        (Payment.registrationInvoice c (env.hashPublicKey (trim req.btcPublicKey))) =
      provider'.createInvoice
        (Payment.registrationInvoice c (env.hashPublicKey (trim req.btcPublicKey)))) :
    paymentInvoice env ⟨c.registration.payment, some provider⟩ req =
      paymentInvoice env ⟨c.registration.payment, some provider'⟩ req := by
  simp only [Payment.registrationInvoice] at h
  simp only [paymentInvoice, hkind, h]

/-! ### What the request stands for -/

/-- The confirmations a speed policy stands for. -/
def policyDepth : String → ℕ
  | "HighSpeed" => 0
  | "MediumSpeed" => 1
  | "LowMediumSpeed" => 2
  | _ => 6

/-- The confirmations that the terms of an invoice stand for: the exact count, or the policy. -/
def BtcPayCheckout.finality (k : BtcPayCheckout) : ℕ :=
  match k.confirmationsRequired with
  | some n => n.toNat
  | none => policyDepth k.speedPolicy

theorem le_policyDepth_iff (n : UInt32) :
    min n.toNat 6 ≤ policyDepth (BtcPayProvider.speedPolicy n) ↔ n ∉ [3, 4, 5] := by
  have h (m : UInt32) : n = m ↔ n.toNat = m.toNat := UInt32.toNat_inj.symm
  have h₀ : policyDepth "HighSpeed" = 0 := rfl
  have h₁ : policyDepth "MediumSpeed" = 1 := rfl
  have h₂ : policyDepth "LowMediumSpeed" = 2 := rfl
  have h₆ : policyDepth "LowSpeed" = 6 := rfl
  simp only [BtcPayProvider.speedPolicy, UInt32.le_iff_toNat_le, h, List.mem_cons,
    List.not_mem_nil, or_false, UInt32.reduceToNat]
  split_ifs <;> simp only [h₀, h₁, h₂, h₆] <;> omega

theorem le_finality_iff (rail : BtcPayProvider) (req : InvoiceRequest) :
    min req.confirmations.toNat 6 ≤ (rail.createReq req).checkout.finality ↔
      rail.exactConfirmations = true ∨ req.confirmations ∉ [3, 4, 5] := by
  cases hexact : rail.exactConfirmations with
  | true => simp [BtcPayProvider.createReq, BtcPayCheckout.finality, hexact]
  | false =>
    rw [← le_policyDepth_iff]
    simp [BtcPayProvider.createReq, BtcPayCheckout.finality, hexact]

/-! ### What a grant relies on -/

/-- An invoice at a processor. -/
structure ProcessorInvoice where
  /-- What the processor answers about it. -/
  resp : BtcPayInvoiceResp
  /-- The terms it was created with. -/
  checkout : BtcPayCheckout
  /-- Confirmations of its payment. -/
  depth : ℕ

/-- A processor, by what it holds under an id. -/
abbrev Processor := String → Except AppError ProcessorInvoice

/-- A processor reports an invoice as settled only at the finality that was asked for. -/
def Processor.Finalizes (p : Processor) : Prop :=
  ∀ id inv, p id = .ok inv → BtcPayProvider.mapStatus inv.resp.status = .settled →
    inv.checkout.finality ≤ inv.depth

/-- `get_invoice`. -/
def Processor.getInvoice (p : Processor) (id : String) : Except AppError Invoice :=
  (fun inv => BtcPayProvider.toInvoice inv.resp) <$> p id

/-- The invoice was asked for on this rail under this configuration. -/
def ProcessorInvoice.AskedOn (inv : ProcessorInvoice) (c : Config) (rail : BtcPayProvider) : Prop :=
  (∃ pubkeyHash, inv.checkout =
      (rail.createReq (Payment.registrationInvoice c pubkeyHash)).checkout) ∨
    ∃ plan user, inv.checkout = (rail.createReq (Payment.premiumInvoice c plan user)).checkout

/-- The depth a configuration is owed: its confirmations, up to the deepest policy. -/
def Config.owedDepth (c : Config) : ℕ := min c.registration.payment.confirmations.toNat 6

/-- What the rail asks for is as deep as the operator set, and so is every payment that a
registration or a premium activation lets pass. -/
structure NeverRoundedDown (c : Config) (rail : BtcPayProvider) : Prop where
  /-- The terms of every invoice. -/
  requested : ∀ inv : ProcessorInvoice, inv.AskedOn c rail → c.owedDepth ≤ inv.checkout.finality
  /-- The check of a registration, whatever else happens meanwhile. -/
  registered : ∀ processor : Processor, processor.Finalizes →
    ∀ gates pubkeyHash invoiceId,
      (verifyPaymentSettled gates processor.getInvoice pubkeyHash invoiceId).Keeps
        (fun _ => True) fun paid => ∀ id inv, paid = some id → processor id = .ok inv →
          inv.AskedOn c rail → c.owedDepth ≤ inv.depth
  /-- The check of an activation, whatever else happens meanwhile. -/
  activated : ∀ processors : PaymentRail → Processor, (∀ r, (processors r).Finalizes) →
    ∀ inst enabled create bearer invoiceId,
      (activationPlan inst enabled ⟨create, fun r => (processors r).getInvoice⟩ bearer
        invoiceId).Keeps (fun _ => True) fun planned => ∀ r id user days inv,
          planned = .activate r id user days → processors r id = .ok inv →
          inv.AskedOn c rail → c.owedDepth ≤ inv.depth


theorem status_of_checkSettled {pubkeyHash id : String} {answer : Except AppError Invoice}
    {paid : Option String} (h : checkSettled pubkeyHash id answer = .ok paid) :
    paid = some id ∧ ∃ inv, answer = .ok inv ∧ inv.status = .settled := by
  cases answer with
  | error e => cases h
  | ok inv =>
    simp only [checkSettled, bind, Except.bind] at h
    split_ifs at h with hstatus hbind
    exact ⟨(Except.ok.inj h).symm, inv, rfl, not_not.mp hstatus⟩

theorem Processor.Finalizes.deep {p : Processor} (h : p.Finalizes) {id : String}
    {inv : ProcessorInvoice} (hinv : p id = .ok inv)
    (hsettled : ∃ answer, p.getInvoice id = .ok answer ∧ answer.status = .settled) :
    inv.checkout.finality ≤ inv.depth := by
  obtain ⟨answer, hanswer, hstatus⟩ := hsettled
  rw [Processor.getInvoice, hinv] at hanswer
  obtain rfl := Except.ok.inj hanswer
  exact h id inv hinv hstatus

theorem keeps_verifyPaymentSettled_settled (cfg : GateConfig)
    (provider : String → Except AppError Invoice) (pubkeyHash : String)
    (paymentInvoiceId : Option String) :
    (verifyPaymentSettled cfg provider pubkeyHash paymentInvoiceId).Keeps (fun _ => True)
      fun paid => ∀ id, paid = some id →
        ∃ inv, provider id = .ok inv ∧ inv.status = .settled := by
  unfold verifyPaymentSettled
  split_ifs
  · intro id h
    cases h
  · trivial
  · cases presented paymentInvoiceId with
    | none => trivial
    | some id =>
      refine (Prog.keeps_of_forall (Q := fun _ => True) (fun _ => trivial) _).bind fun found _ => ?_
      cases found.filter fun r => r.pubkeyHash = pubkeyHash with
      | none => trivial
      | some row =>
        simp only
        split_ifs
        · trivial
        · refine Prog.keeps_ofExcept fun paid hpaid id' hid => ?_
          obtain ⟨rfl, hsettled⟩ := status_of_checkSettled hpaid
          obtain rfl := Option.some.inj hid
          exact hsettled

theorem keeps_activationPlan_settled (inst : PremiumInstance) (enabled : Bool)
    (processors : Processors) (bearer : Except AppError TokenInfo) (invoiceId : String) :
    (activationPlan inst enabled processors bearer invoiceId).Keeps (fun _ => True)
      fun planned => ∀ r id user days, planned = .activate r id user days →
        ∃ inv, processors.getInvoice r id = .ok inv ∧ inv.status = .settled := by
  have hany {α : Type} (p : Handler α) : p.Keeps (fun _ => True) fun _ => True :=
    Prog.keeps_of_forall (fun _ => trivial) p
  refine (hany _).bind fun user _ => (hany _).bind fun _ _ => (hany _).bind fun found _ => ?_
  cases found.filter fun r => r.userId = user with
  | none => trivial
  | some row =>
    simp only
    split_ifs
    · trivial
    · cases inst.forInvoice row.provider with
      | none => trivial
      | some rail =>
        refine (Prog.keeps_ofExcept (Q := fun _ => ∃ inv,
          processors.getInvoice rail (trim invoiceId) = .ok inv ∧ inv.status = .settled)
          fun _ h => status_of_checkPremiumSettled h).bind fun _ hsettled => ?_
        intro r id user days hplan
        cases hplan
        exact hsettled

/-! ### The rounding -/

/-- No valid configuration that takes payments lets a mempool sighting settle an invoice. -/
theorem confirmations_ne_zero {env : ConfigEnv} {c : Config}
    (hvalid : c.validate env = .ok ())
    (hon : c.registration.payment.requirePayment = true ∨ c.premium.enabled = true) :
    c.registration.payment.confirmations ≠ 0 := by
  intro hzero
  unfold Config.validate at hvalid
  simp only [bind_eq_ok_iff] at hvalid
  obtain ⟨_, -, _, -, _, -, _, -, _, -, _, -, _, -, _, -, _, -, _, -, _, -, _, hpayment, _, -, _, -,
    hpremium⟩ := hvalid
  rcases hon with hon | hon
  · rw [Config.whenOn, hon, if_pos rfl] at hpayment
    unfold Config.PaymentConfig.validate at hpayment
    simp [bind_eq_ok_iff, refuse_eq_ok_iff, hzero] at hpayment
  · rw [Config.whenOn, hon, if_pos rfl] at hpremium
    unfold Config.validatePremium at hpremium
    simp [bind_eq_ok_iff, refuse_eq_ok_iff, hzero] at hpremium

theorem exactConfirmations_of_build {http exact : Bool} {kind url storeId apiKey : String}
    {rail : BtcPayProvider}
    (h : BtcPayProvider.build http kind exact url storeId apiKey = .ok rail) :
    rail.exactConfirmations = exact := by
  cases http with
  | false => cases h
  | true =>
    obtain rfl := Except.ok.inj h
    rfl

theorem exactConfirmations_of_fromConfig {http : Bool} {c : Config} {rail : BtcPayProvider}
    (h : Payment.fromConfig http c = .ok (some rail)) : rail.exactConfirmations = false := by
  simp only [Payment.fromConfig] at h
  split_ifs at h
  · cases h
  · cases hnew : BtcPayProvider.new http c.registration.payment with
    | error e => simp [hnew] at h
    | ok rail' =>
      rw [hnew] at h
      obtain rfl := Option.some.inj (Except.ok.inj h)
      exact exactConfirmations_of_build hnew

theorem exactConfirmations_of_checkoutRails {http : Bool} {cfgs : List PaymentRailConfig}
    {rails : List BtcPayProvider} (h : cfgs.mapM (BtcPayProvider.checkoutRail http) = .ok rails) :
    ∀ rail ∈ rails, rail.exactConfirmations = true := by
  induction cfgs generalizing rails with
  | nil =>
    obtain rfl := Except.ok.inj h
    exact fun rail hrail => absurd hrail List.not_mem_nil
  | cons cfg cfgs ih =>
    rw [List.mapM_cons] at h
    obtain ⟨first, hfirst, h⟩ := bind_eq_ok_iff.mp h
    obtain ⟨rest, hrest, h⟩ := bind_eq_ok_iff.mp h
    obtain rfl := Except.ok.inj h
    intro rail hrail
    rcases List.mem_cons.mp hrail with rfl | hrail
    · exact exactConfirmations_of_build hfirst
    · exact ih hrest rail hrail

/-- The primary rail is the one without exact counts. -/
theorem exactConfirmations_iff {http : Bool} {c : Config} {primary : Option BtcPayProvider}
    {rails : List BtcPayProvider} (hprimary : Payment.fromConfig http c = .ok primary)
    (hrails : Payment.railsFromConfig http c primary = .ok rails) {rail : BtcPayProvider}
    (h : rail ∈ primary.toList ++ rails) :
    rail.exactConfirmations = true ↔ primary ≠ some rail := by
  constructor
  · rintro hexact rfl
    rw [exactConfirmations_of_fromConfig hprimary] at hexact
    cases hexact
  · intro hother
    have hnot : rail ∉ primary.toList := fun hmem => hother (Option.mem_toList.mp hmem)
    have hmem := (List.mem_append.mp h).resolve_left hnot
    unfold Payment.railsFromConfig at hrails
    split_ifs at hrails
    · obtain rfl := Except.ok.inj hrails
      exact absurd hmem List.not_mem_nil
    · obtain ⟨checkout, hcheckout, hrails⟩ := bind_eq_ok_iff.mp hrails
      obtain rfl := Except.ok.inj hrails
      exact exactConfirmations_of_checkoutRails hcheckout rail
        ((List.mem_append.mp hmem).resolve_left hnot)

theorem neverRoundedDown_iff_exact (c : Config) (rail : BtcPayProvider) :
    NeverRoundedDown c rail ↔
      rail.exactConfirmations = true ∨ c.registration.payment.confirmations ∉ [3, 4, 5] := by
  constructor
  · intro h
    let req := Payment.registrationInvoice c ""
    have hreq := h.requested ⟨⟨"", "", none, none, none⟩, (rail.createReq req).checkout, 0⟩
      (.inl ⟨"", rfl⟩)
    exact (le_finality_iff rail req).mp hreq
  · intro hcond
    have hasked : ∀ inv : ProcessorInvoice, inv.AskedOn c rail →
        c.owedDepth ≤ inv.checkout.finality := by
      rintro inv (⟨pubkeyHash, hinv⟩ | ⟨plan, user, hinv⟩)
      · rw [hinv]
        exact (le_finality_iff rail (Payment.registrationInvoice c pubkeyHash)).mpr hcond
      · rw [hinv]
        exact (le_finality_iff rail (Payment.premiumInvoice c plan user)).mpr hcond
    refine ⟨hasked, fun processor hfinal gates pubkeyHash invoiceId => ?_,
      fun processors hfinal inst enabled create bearer invoiceId => ?_⟩
    · refine (keeps_verifyPaymentSettled_settled _ _ _ _).mono
        fun paid hpaid id inv hid hinv hon => ?_
      exact (hasked inv hon).trans (hfinal.deep hinv (hpaid id hid))
    · refine (keeps_activationPlan_settled _ _ _ _ _).mono
        fun planned hplanned r id user days inv hplan hinv hon => ?_
      exact (hasked inv hon).trans ((hfinal r).deep hinv (hplanned r id user days hplan))

/-- Under a valid configuration that takes payments, the finality a rail asks for is never rounded
down exactly if it is not the primary rail, or the operator's number is not 3, 4 or 5. -/
theorem neverRoundedDown_iff {env : ConfigEnv} {c : Config} {http : Bool}
    {primary : Option BtcPayProvider} {rails : List BtcPayProvider}
    (hvalid : c.validate env = .ok ())
    (hon : c.registration.payment.requirePayment = true ∨ c.premium.enabled = true)
    (hprimary : Payment.fromConfig http c = .ok primary)
    (hrails : Payment.railsFromConfig http c primary = .ok rails) :
    c.registration.payment.confirmations ≠ 0 ∧ ∀ rail ∈ primary.toList ++ rails,
      (NeverRoundedDown c rail ↔
        primary ≠ some rail ∨ c.registration.payment.confirmations ∉ [3, 4, 5]) := by
  refine ⟨confirmations_ne_zero hvalid hon, fun rail hrail => ?_⟩
  rw [neverRoundedDown_iff_exact, exactConfirmations_iff hprimary hrails hrail]

/-- An instance where new wallets pay, to this many confirmations. -/
def payAtDepth (n : UInt32) : Config :=
  { sampleConfig with registration := { sampleConfig.registration with
      payment := { sampleConfig.registration.payment with confirmations := n } } }

/-- Its only rail. -/
def payRail : BtcPayProvider := ⟨"btcpay", false, "https://pay", "store", "api-key-1"⟩

theorem neverRoundedDown_seven :
    (payAtDepth 7).registration.payment.confirmations ≠ 0 ∧
      NeverRoundedDown (payAtDepth 7) payRail := by
  have hvalid : (payAtDepth 7).validate sampleConfigEnv = .ok () := rfl
  have hprimary : Payment.fromConfig true (payAtDepth 7) = .ok (some payRail) := rfl
  have hrails : Payment.railsFromConfig true (payAtDepth 7) (some payRail) = .ok [] := rfl
  have h := neverRoundedDown_iff hvalid (.inl rfl) hprimary hrails
  exact ⟨h.1, (h.2 payRail (List.mem_singleton.mpr rfl)).mpr (.inr (by decide))⟩

/-- A processor with one invoice, settled at two confirmations as it was asked to. -/
def shallowProcessor : Processor := fun id =>
  if id = "inv-1" then
    .ok ⟨⟨"inv-1", "Settled", none, none, none⟩, ⟨"LowMediumSpeed", 60, none⟩, 2⟩
  else .error (.nodeError "payment processor get_invoice failed (HTTP 404)")

/-- The invoice is bound to a wallet that is about to register. -/
def invoiceMinted : World where
  db := { Db.empty with paymentInvoices := ⟨[⟨"inv-1", "hash", "btcpay", none⟩], by simp⟩ }
  now := 0

/-- Where three confirmations are set, the primary rail asks for two: the registration passes at
that depth. -/
theorem registered_below_finality :
    (payAtDepth 3).validate sampleConfigEnv = .ok () ∧
    Payment.fromConfig true (payAtDepth 3) = .ok (some payRail) ∧
    (payRail.createReq (Payment.registrationInvoice (payAtDepth 3) "hash")).checkout =
      ⟨"LowMediumSpeed", 60, none⟩ ∧
    shallowProcessor.Finalizes ∧
    ((verifyPaymentSettled ⟨.all, false, true, true⟩ shallowProcessor.getInvoice "hash"
      (some "inv-1")).run invoiceMinted).1 = .ok (some "inv-1") ∧
    ¬ NeverRoundedDown (payAtDepth 3) payRail := by
  refine ⟨rfl, rfl, rfl, fun id inv h _ => ?_, rfl, fun h => ?_⟩
  · unfold shallowProcessor at h
    split_ifs at h
    obtain rfl := Except.ok.inj h
    exact le_rfl
  · have hcond := (neverRoundedDown_iff_exact _ _).mp h
    exact absurd hcond (by decide)

end SmirkBackend
