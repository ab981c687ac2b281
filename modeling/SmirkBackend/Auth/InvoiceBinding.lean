import SmirkBackend.Auth.Frames
import SmirkBackend.Auth.GateCompleteness
import SmirkBackend.Auth.PreHijack
import SmirkBackend.Config.Settings
import SmirkBackend.Lib.Rely

/-!
# Who redeems an invoice

`POST /auth/payment-invoice` (`paymentInvoice`) mints an invoice for a BTC key and asks for no proof
of it: only a registration that proves the key shall redeem the invoice.  `POST /auth/extension` asks
for a signature under the BTC key whose hash it compares with the invoice; `POST
/auth/nostr/register` compares the hash of a BTC key that comes along, and nothing proves that key.

Requests that mint and requests that register (`InvoiceCall`) run concurrently, statement by
statement, while the rest of the service changes anything but the invoices.  An invoice stays bound
to the key it was `MintedFor`, and a statement consumes it only for a registration that `Presents`
it together with a key of that hash.  So a run is `BoundToKeys`:

* `invoice_binding` : if no Nostr registration that passes its own checks presents an invoice together
  with the key it was minted for, every invoice is consumed under a signature of its key
* `invoice_without_signature` : a Nostr registration consumes the invoice of another's key
-/

namespace SmirkBackend

open Lib (Table Patch Prog Rely)

/-! ### Minting -/

/-- What a payment processor is asked for. -/
structure InvoiceRequest where
  /-- Price, as a decimal. -/
  amount : String
  /-- Currency of the price. -/
  currency : String
  /-- Confirmations until the payment is final. -/
  confirmations : UInt32
  /-- The identity the invoice is for. -/
  bind : String
  /-- Minutes until it expires. -/
  expiresMinutes : UInt32

/-- A fresh invoice of a processor. -/
structure MintedInvoice where
  /-- The processor's id. -/
  id : String
  /-- Where to pay. -/
  payTo : String

/-- A payment processor, where invoices are minted. -/
structure PaymentProvider where
  /-- Its kind. -/
  kind : String
  /-- `create_invoice`. -/
  createInvoice : InvoiceRequest → Except AppError MintedInvoice

/-- What a request for an invoice meets: the settings and the processor. -/
structure MintAnswers where
  /-- The settings of the payment gate. -/
  payment : Config.PaymentConfig
  /-- The processor, when there is one. -/
  provider : Option PaymentProvider

/-- `PaymentInvoiceRequest`. -/
structure PaymentInvoiceRequest where
  /-- The wallet's BTC key. -/
  btcPublicKey : String

/-- `PaymentInvoiceResponse`. -/
structure PaymentInvoiceResponse where
  /-- The processor's id. -/
  invoiceId : String
  /-- Where to pay. -/
  payTo : String
  /-- Price. -/
  amount : String
  /-- Currency of the price. -/
  currency : String

/-- The light check of a key: printable ASCII of a bounded length. -/
def plausibleKey (key : String) : Bool :=
  !key.isEmpty && key.utf8ByteSize ≤ 200 && key.toList.all fun c => 33 ≤ c.toNat && c.toNat ≤ 126

/-- `insert_payment_invoice`. -/
def insertPaymentInvoice (r : PaymentInvoiceRow) : Handler Unit :=
  execute fun _ db =>
    match db.paymentInvoices.insert? r with
    | some paymentInvoices => (.ok (), { db with paymentInvoices := paymentInvoices })
    | none => (.error uniqueViolation, db)

/-- `payment_invoice`. -/
def paymentInvoice (env : AuthEnv) (a : MintAnswers) (req : PaymentInvoiceRequest) :
    Handler PaymentInvoiceResponse :=
  if !a.payment.requirePayment then
    .fail (.validationError "This instance does not require registration payment.")
  else
    match a.provider with
    | none => .fail (.internal "payment provider not configured")
    | some provider =>
      if !plausibleKey (trim req.btcPublicKey) then
        .fail (.validationError "Invalid BTC public key.")
      else do
        let pubkeyHash := env.hashPublicKey (trim req.btcPublicKey)
        match ← select fun db => db.getUserByPubkeyHash env.pepper pubkeyHash with
        | some _ => .fail (.validationError
            "This wallet is already registered; no payment is required.")
        | none => do
          let invoice ← .ofExcept (provider.createInvoice
            ⟨a.payment.amount, a.payment.currency, a.payment.confirmations, pubkeyHash,
              a.payment.expiresMinutes⟩)
          insertPaymentInvoice ⟨invoice.id, pubkeyHash, provider.kind, none⟩
          return ⟨invoice.id, invoice.payTo, a.payment.amount, a.payment.currency⟩

/-! ### What a statement does to the invoices -/

/-- No invoice disappears or is bound anew, and only allowed ones are consumed. -/
def Redeems (allowed : String → String → Prop) (w w' : World) : Prop :=
  ∀ id r, w.db.paymentInvoices.get? id = some r →
    ∃ r', w'.db.paymentInvoices.get? id = some r' ∧ r'.pubkeyHash = r.pubkeyHash ∧
      (r'.consumedAt = r.consumedAt ∨ allowed id r.pubkeyHash)

/-- New invoices are bound to this identity. -/
def Binds (pubkeyHash : String) (w w' : World) : Prop :=
  ∀ id r', w'.db.paymentInvoices.get? id = some r' →
    w.db.paymentInvoices.get? id = some r' ∨ r'.pubkeyHash = pubkeyHash

section Redeems

variable {allowed : String → String → Prop} {w w' : World}

theorem Redeems.of_same (h : w'.db.paymentInvoices = w.db.paymentInvoices) :
    Redeems allowed w w' :=
  fun id r hr => ⟨r, by rw [h, hr], rfl, .inl rfl⟩

theorem Redeems.refl (w : World) : Redeems allowed w w := .of_same rfl

theorem Redeems.imp {allowed' : String → String → Prop}
    (himp : ∀ id h, allowed id h → allowed' id h) (h : Redeems allowed w w') :
    Redeems allowed' w w' := by
  intro id r hr
  obtain ⟨r', hr', hbound, hconsumed⟩ := h id r hr
  exact ⟨r', hr', hbound, hconsumed.imp_right (himp id _)⟩

theorem Redeems.of_spent {gates : GatedRegistration} {row : UserRow} {now : Timestamp}
    (h : Spent gates row now w w')
    (hplan : ∀ p, gates.payment = some p → allowed p.1 p.2) : Redeems allowed w w' := by
  intro id r hr
  refine ⟨_, by rw [h.invoices id, hr]; rfl, ?_, ?_⟩
  · split_ifs <;> rfl
  · split_ifs with hid
    · obtain ⟨p, hp, rfl⟩ := Option.map_eq_some_iff.mp hid
      obtain ⟨r', hr', husable⟩ := h.invoiceFree p hp
      obtain rfl : r = r' := Option.some.inj (hr.symm.trans hr')
      have hbound : r.pubkeyHash = p.2 := by
        simp only [PaymentInvoiceRow.usable, Bool.and_eq_true, decide_eq_true_eq] at husable
        exact husable.1
      rw [hbound]
      exact .inr (hplan p hp)
    · exact .inl rfl

end Redeems

theorem outsideLogins_paymentInvoices : OutsideLogins fun db => db.paymentInvoices :=
  ⟨fun _ _ => rfl, fun _ _ => rfl, fun _ _ => rfl, fun _ _ => rfl⟩

theorem redeems_of_same {α : Type} {allowed : String → String → Prop} {p : Handler α}
    (h : p.Steps (SamePart fun db => db.paymentInvoices)) : p.Steps (Redeems allowed) :=
  h.mono fun _ _ hsame => .of_same hsame

/-! ### The planned invoice -/

theorem keeps_verifyPaymentSettled_presented {I : World → Prop} (cfg : GateConfig)
    (provider : String → Except AppError Invoice) (pubkeyHash : String)
    (paymentInvoiceId : Option String) :
    (verifyPaymentSettled cfg provider pubkeyHash paymentInvoiceId).Keeps I
      fun paid => ∀ id, paid = some id → presented paymentInvoiceId = some id := by
  unfold verifyPaymentSettled
  split_ifs
  · intro id h
    cases h
  · trivial
  · cases presented paymentInvoiceId with
    | none => trivial
    | some id =>
      refine (Prog.keeps_read (Q := fun _ => True) fun _ _ => trivial).bind fun found _ => ?_
      cases found.filter fun r => r.pubkeyHash = pubkeyHash with
      | none => trivial
      | some row =>
        simp only
        split_ifs
        · trivial
        · refine Prog.keeps_ofExcept fun paid hpaid id' hid' => ?_
          cases hanswer : provider id with
          | error e =>
            rw [hanswer] at hpaid
            cases hpaid
          | ok invoice =>
            rw [hanswer] at hpaid
            simp only [checkSettled, bind, Except.bind] at hpaid
            split_ifs at hpaid
            exact (Except.ok.inj hpaid).trans hid'

/-- The planned invoice is the presented one, for the identity of the registration. -/
def PlansPresented (q : Registration) (g : GatedRegistration) : Prop :=
  ∀ p, g.payment = some p → presented q.paymentInvoiceId = some p.1 ∧ p.2 = q.boundTo

theorem keeps_planGateConsume_presented {I : World → Prop} (q : Registration) :
    (planGateConsume q.gates q.hashInviteCode q.provider q.boundTo q.inviteCode
      q.paymentInvoiceId).Keeps I (PlansPresented q) := by
  have hnone (invite : Option String) : PlansPresented q ⟨invite, none⟩ := fun p hp => nomatch hp
  have hpaid (invite : Option String) :
      (verifyPaymentSettled q.gates q.provider q.boundTo q.paymentInvoiceId >>= fun paid =>
        .ret ⟨invite, paid.map fun id => (id, q.boundTo)⟩).Keeps I (PlansPresented q) := by
    refine (keeps_verifyPaymentSettled_presented _ _ _ _).bind fun paid hpresented => ?_
    intro p hp
    obtain ⟨id, hid, rfl⟩ := Option.map_eq_some_iff.mp hp
    exact ⟨hpresented id hid, rfl⟩
  unfold planGateConsume
  generalize planGates q.gates.gateMode q.gates.requireInvite q.gates.requirePayment
    (presented q.inviteCode).isSome (presented q.paymentInvoiceId).isSome = plan
  cases plan with
  | «open» => exact hnone none
  | all =>
    have hinvite : (plannedInvite q.gates q.hashInviteCode q.inviteCode).Keeps I fun _ => True :=
      (keeps_plannedInvite q.gates q.hashInviteCode q.inviteCode).mono fun _ _ => trivial
    exact hinvite.bind fun invite _ => hpaid invite
  | invite =>
    exact (Prog.keeps_ofExcept (Q := fun _ => True) fun _ _ => trivial).bind fun invite _ =>
      hnone (some invite)
  | payment => exact hpaid none
  | rejectBothPresented => trivial
  | requireOne => trivial

theorem keeps_registrationPlan_presented {I : World → Prop} (q : Registration) :
    (registrationPlan q).Keeps I fun g => PlansPresented q g.1 := by
  refine (keeps_ensureUsernameAvailable _).bind fun _ _ => ?_
  refine (keeps_planGateConsume_presented q).bind fun gates hgates => ?_
  exact (Prog.keeps_ofExcept (Q := fun _ => True) fun _ _ => trivial).bind fun keys _ => hgates

/-- **What a registration consumes**: the invoice it presents, bound to what it submits. -/
theorem steps_registerNew_redeems (q : Registration) (id : Uuid) :
    (registerNew q id).Steps
      (Redeems fun i h => presented q.paymentInvoiceId = some i ∧ h = q.boundTo) := by
  refine (steps_registrationPlan Redeems.refl q).bind_of_keeps
    (keeps_registrationPlan_presented q) fun plan hplan => Prog.steps_query fun w => ?_
  cases h : Lib.replay (consumeGatesScript q.pepper q.new plan.1 plan.2 ⟨w.now, id⟩) w with
  | error e => exact Redeems.refl w
  | ok w' => exact .of_spent (spent_of_replay h) hplan

/-! ### Requests -/

/-- A request that mints an invoice, or registers. -/
inductive InvoiceCall
  | mint (a : MintAnswers) (req : PaymentInvoiceRequest)
  | register (q : RegisterRequest)

/-- A registration presents the invoice and submits, as the identity it is bound to, this one: the
hash of its BTC key, or, for a Nostr registration without one, the Nostr key. -/
def RegisterRequest.Presents (env : NodeEnv) (id pubkeyHash : String) : RegisterRequest → Prop
  | extension _ req _ _ => presented req.paymentInvoiceId = some id ∧
      ∃ key, btcKey req.keys = some key ∧ env.auth.hashPublicKey key.publicKey = pubkeyHash
  | nostr a req _ _ => presented req.paymentInvoiceId = some id ∧
      ∃ pubkey, proveNostr env.auth a req.nostrToken "/auth/nostr/register" "nostr_register"
          req.nonce = .ok pubkey ∧ (req.registration env.auth a pubkey).boundTo = pubkeyHash

/-- A registration carries a valid signature under a BTC key. -/
def RegisterRequest.SignedUnder (env : NodeEnv) (key : String) : RegisterRequest → Prop
  | extension _ req _ _ => (btcKey req.keys).map (fun k => k.publicKey) = some key ∧
      env.auth.verifyBitcoinSignature (authMessage req.signedTimestamp) req.signature key = .ok ()
  | nostr .. => False

/-- The registration authenticates by a Nostr key. -/
def RegisterRequest.isNostr : RegisterRequest → Bool
  | extension .. => false
  | nostr .. => true

/-- A solution is submitted where the gate applies, and one that is looked at is good. -/
def PowAnswered (env : NodeEnv) (now : Int64) (pubkeyHashLc : String) : Option Payload → Prop
  | none => powApplies env.auth.pow pubkeyHashLc = false
  | some payload => env.auth.pow.enabled = true → ∃ result,
      env.verifySolution now payload = .ok result ∧ result.verified ∧ payload.signature.isSome

/-- A Nostr registration passes the checks of what it submits: its name, the proof of its key, and
its solution. -/
def RegisterRequest.NostrAccepted (env : NodeEnv) : RegisterRequest → Prop
  | extension .. => False
  | nostr a req checkedAt solution => validateOptional req.username = .ok () ∧
      ∃ pubkey, proveNostr env.auth a req.nostrToken "/auth/nostr/register" "nostr_register"
          req.nonce = .ok pubkey ∧ PowAnswered env checkedAt pubkey solution

namespace InvoiceCall

/-- The handler of a request. -/
def program (env : NodeEnv) : InvoiceCall → Prog Node AppError Unit
  | mint a req => do
    let _ ← (paymentInvoice env.auth a req).zoom Node.database
    return ()
  | register q => do
    let _ ← q.program env
    return ()

/-- The key a request mints for. -/
def mintsFor : InvoiceCall → Option String
  | mint _ req => some (trim req.btcPublicKey)
  | register _ => none

/-- The invoices a request may consume. -/
def MayConsume (env : NodeEnv) (call : InvoiceCall) (id pubkeyHash : String) : Prop :=
  ∃ q, call = register q ∧ q.Presents env id pubkeyHash ∧
    (q.isNostr = false → ∃ key, q.SignedUnder env key ∧ env.auth.hashPublicKey key = pubkeyHash) ∧
    (q.isNostr = true → q.NostrAccepted env)

/-- What a statement of a request does to the invoices. -/
structure Acts (env : NodeEnv) (call : InvoiceCall) (n n' : Node) : Prop where
  /-- It consumes those it may. -/
  redeems : Redeems (call.MayConsume env) n.world n'.world
  /-- It mints for its key. -/
  binds : ∀ key, call.mintsFor = some key →
    Binds (env.auth.hashPublicKey key) n.world n'.world

variable {env : NodeEnv} {call : InvoiceCall}

theorem Acts.of_same {n n' : Node}
    (h : n'.world.db.paymentInvoices = n.world.db.paymentInvoices) : call.Acts env n n' :=
  ⟨.of_same h, fun _ _ _ _ hr => .inl (h ▸ hr)⟩

theorem Acts.refl (n : Node) : call.Acts env n n := .of_same rfl

theorem acts_of_same {α : Type} {p : Handler α}
    (h : p.Steps (SamePart fun db => db.paymentInvoices)) :
    (p.zoom Node.database).Steps (call.Acts env) :=
  h.zoom.mono fun _ _ hsame => .of_same hsame

/-- The invoice a request mints is bound to its key. -/
theorem steps_mint (a : MintAnswers) (req : PaymentInvoiceRequest) :
    ((mint a req).program env).Steps ((mint a req).Acts env) := by
  refine Prog.Steps.bind ?_ fun _ => trivial
  have hinsert (id provider : String) :
      ((insertPaymentInvoice ⟨id, env.auth.hashPublicKey (trim req.btcPublicKey), provider,
        none⟩).zoom Node.database).Steps ((mint a req).Acts env) := by
    have hsteps : (insertPaymentInvoice ⟨id, env.auth.hashPublicKey (trim req.btcPublicKey),
        provider, none⟩).Steps fun w w' => Redeems (fun _ _ => False) w w' ∧
          Binds (env.auth.hashPublicKey (trim req.btcPublicKey)) w w' := by
      refine Prog.steps_query fun w => ?_
      simp only
      cases hins : w.db.paymentInvoices.insert? ⟨id, env.auth.hashPublicKey
          (trim req.btcPublicKey), provider, none⟩ with
      | none => exact ⟨Redeems.refl w, fun _ _ hr => .inl hr⟩
      | some invoices =>
        refine ⟨fun id' r hr => ⟨r, ?_, rfl, .inl rfl⟩, fun id' r' hr' => ?_⟩
        · -- the new row has an id that no row had
          have hne : id' ≠ id := by
            rintro rfl
            cases hr.symm.trans (Table.insert?_eq_some_iff.mp hins).1
          change invoices.get? id' = some r
          rw [Table.get?_insert? hins, ← hr]
          exact if_neg hne
        · change invoices.get? id' = some r' at hr'
          rw [Table.get?_insert? hins] at hr'
          split_ifs at hr'
          · obtain rfl := Option.some.inj hr'
            exact .inr rfl
          · exact .inl hr'
    refine hsteps.zoom.mono fun n n' h => ⟨h.1.imp fun _ _ h => h.elim, fun key hkey => ?_⟩
    obtain rfl := Option.some.inj hkey
    exact h.2
  unfold paymentInvoice
  split_ifs
  · trivial
  · cases a.provider <;> trivial
  · cases a.provider with
    | none => trivial
    | some provider =>
      simp only
      rw [Prog.zoom_bind]
      refine (acts_of_same (steps_select_same _)).bind fun known => ?_
      cases known with
      | some _ => trivial
      | none =>
        simp only [Prog.zoom_bind]
        refine (acts_of_same (Prog.steps_ofExcept _)).bind fun invoice => ?_
        exact (hinsert _ _).bind fun _ => trivial

theorem acts_of_redeems {α : Type} {q : RegisterRequest} {p : Handler α}
    {allowed : String → String → Prop} (h : p.Steps (Redeems allowed))
    (hq : ∀ id pubkeyHash, allowed id pubkeyHash → (register q).MayConsume env id pubkeyHash) :
    (p.zoom Node.database).Steps ((register q).Acts env) :=
  h.zoom.mono fun _ _ hred => ⟨hred.imp hq, fun _ hkey => nomatch hkey⟩

theorem acts_enforcePowAt (now : Int64) (pubkeyHashLc : String) (returning : Bool)
    (solution : Option Payload) :
    (enforcePowAt env now pubkeyHashLc returning solution).Steps (call.Acts env) :=
  (steps_enforcePowAt env now pubkeyHashLc returning solution).mono fun _ _ hsame =>
    .of_same (congrArg (fun w => w.db.paymentInvoices) hsame)

/-- Who gets past the gate with a new key has answered it. -/
theorem keeps_enforcePowAt (now : Int64) (pubkeyHashLc : String) (solution : Option Payload) :
    (enforcePowAt env now pubkeyHashLc false solution).Keeps (fun _ => True)
      fun _ => PowAnswered env now pubkeyHashLc solution := by
  have hverify (payload : Payload) : (verifyPayload env now payload).Keeps (fun _ => True)
      fun _ => PowAnswered env now pubkeyHashLc (some payload) := by
    unfold verifyPayload
    cases hresult : env.verifySolution now payload with
    | error e => trivial
    | ok result =>
      simp only
      split_ifs with hbad
      · trivial
      · cases hsignature : payload.signature with
        | none => trivial
        | some signature =>
          refine (Prog.keeps_of_forall (fun _ => trivial) _).bind fun fresh (_ : True) => ?_
          split_ifs
          · exact fun _ => ⟨result, hresult, by simpa using hbad, by rw [hsignature]; rfl⟩
          · trivial
  unfold enforcePowAt
  rw [if_neg Bool.false_ne_true]
  cases solution with
  | none =>
    cases happlies : powApplies env.auth.pow pubkeyHashLc with
    | true => trivial
    | false => exact happlies
  | some payload =>
    split_ifs with happlies henabled
    · exact hverify payload
    · exact hverify payload
    · exact fun h => absurd h henabled

end InvoiceCall

/-! ### Registrations -/

theorem steps_getOrRegister_redeems (env : AuthEnv) (a : Answers) (req : ExtensionRegisterRequest)
    (pubkeyHash : String) (existing : Option UserRow) :
    (getOrRegister env a req pubkeyHash existing).Steps
      (Redeems fun id h => presented req.paymentInvoiceId = some id ∧ h = pubkeyHash) := by
  refine (Prog.steps_ofExcept _).bind fun _ => ?_
  refine (steps_fingerprintForRow_of_refl Redeems.refl _ _ _).bind fun fingerprint => ?_
  split_ifs
  · refine redeems_of_same ((outsideLogins_paymentInvoices.steps_getOrCreateUserByPubkeyHash
      _ _ _ _ _).bind fun user => ?_)
    exact outsideLogins_paymentInvoices.steps_keysAndSignIn _ _ _ _ _ _ _ _
  · have hregister := steps_registerNew_redeems (req.registration env a pubkeyHash fingerprint)
      a.userId
    refine hregister.bind fun user => ?_
    exact redeems_of_same (outsideLogins_paymentInvoices.steps_signIn _ _ _ _ _ _ _)

theorem steps_nostrGetOrRegister_redeems (env : AuthEnv) (a : Answers) (req : NostrRegisterRequest)
    (pubkey : String) (existing : Option UserRow) :
    (nostrGetOrRegister env a req pubkey existing).Steps
      (Redeems fun id h => presented req.paymentInvoiceId = some id ∧
        h = (req.registration env a pubkey).boundTo) := by
  refine (Prog.steps_ofExcept _).bind fun _ => ?_
  split_ifs
  · refine redeems_of_same ((outsideLogins_paymentInvoices.steps_getOrCreateUserByNostrPubkey
      _ _ _ _ _).bind fun user => ?_)
    exact outsideLogins_paymentInvoices.steps_keysAndSignIn _ _ _ _ _ _ _ _
  · refine (steps_rejectKnownFingerprint_of_refl Redeems.refl _ _).bind fun _ => ?_
    have hregister := steps_registerNew_redeems (req.registration env a pubkey) a.userId
    refine hregister.bind fun user => ?_
    exact redeems_of_same (outsideLogins_paymentInvoices.steps_signIn _ _ _ _ _ _ _)

namespace InvoiceCall

variable {env : NodeEnv}

/-- A signed registration redeems for the key that signed. -/
theorem steps_extension (a : Answers) (req : ExtensionRegisterRequest) (checkedAt : Int64)
    (solution : Option Payload) :
    (extensionRegisterAt env a checkedAt req solution).Steps
      ((register (.extension a req checkedAt solution)).Acts env) := by
  unfold extensionRegisterAt
  cases hkey : btcKey req.keys with
  | none => trivial
  | some key =>
    refine (Prog.steps_ofExcept _).bind fun _ => (Prog.steps_ofExcept _).bind fun _ => ?_
    refine (Prog.steps_ofExcept _).bind_of_keeps (Prog.keeps_ofExcept fun _ h => h)
      fun _ hsigned => ?_
    have hmay (id h : String) (hid : presented req.paymentInvoiceId = some id ∧
        h = env.auth.hashPublicKey key.publicKey) :
        (register (.extension a req checkedAt solution)).MayConsume env id h := by
      obtain ⟨hid, rfl⟩ := hid
      exact ⟨_, rfl, ⟨hid, key, hkey, rfl⟩,
        fun _ => ⟨key.publicKey, ⟨by rw [hkey]; rfl, hsigned⟩, rfl⟩, fun h => nomatch h⟩
    refine (acts_of_same (steps_select_same _)).bind fun existing => ?_
    have hrest (target : Option UserRow) :
        (enforcePowAt env checkedAt (toLowercase (env.auth.hashPublicKey key.publicKey))
          existing.isSome solution >>= fun _ =>
            match target with
            | some target => (repoint env.auth a req.cleared
                (env.auth.hashPublicKey key.publicKey) target).zoom Node.database
            | none => (getOrRegister env.auth a req.cleared
                (env.auth.hashPublicKey key.publicKey) existing).zoom Node.database).Steps
          ((register (.extension a req checkedAt solution)).Acts env) := by
      refine (acts_enforcePowAt _ _ _ _).bind fun _ => ?_
      cases target with
      | some target =>
        refine acts_of_same ((Prog.steps_ofExcept _).bind fun _ => ?_)
        refine (outsideLogins_paymentInvoices.steps_updatePubkeyHash _ _ _).bind fun _ => ?_
        exact outsideLogins_paymentInvoices.steps_keysAndSignIn _ _ _ _ _ _ _ _
      | none => exact acts_of_redeems (steps_getOrRegister_redeems _ _ _ _ _) hmay
    simp only
    split_ifs
    · exact hrest none
    · refine (acts_of_same ?_).bind hrest
      exact steps_repointTarget_of_refl (SamePart.refl _) _ _ _ _

/-- A Nostr registration that passes its checks redeems for the BTC key it names. -/
theorem steps_nostr (a : Answers) (req : NostrRegisterRequest) (checkedAt : Int64)
    (solution : Option Payload) :
    (nostrRegisterAt env a checkedAt req solution).Steps
      ((register (.nostr a req checkedAt solution)).Acts env) := by
  refine (Prog.steps_ofExcept _).bind_of_keeps (Prog.keeps_ofExcept fun _ h => h) fun _ hname => ?_
  refine (acts_of_same (steps_requireChallenge_same (fun _ _ => rfl) _ _)).bind fun _ => ?_
  refine (Prog.steps_ofExcept _).bind_of_keeps (Prog.keeps_ofExcept fun _ h => h)
    fun pubkey hproven => ?_
  refine (acts_of_same (steps_select_same _)).bind fun existing => ?_
  cases hexisting : existing.isSome with
  | true =>
    -- a known key signs in
    refine (acts_enforcePowAt _ _ _ _).bind fun _ => acts_of_same ?_
    refine (Prog.steps_ofExcept _).bind fun _ => ?_
    rw [if_pos hexisting]
    refine (outsideLogins_paymentInvoices.steps_getOrCreateUserByNostrPubkey _ _ _ _ _).bind
      fun user => ?_
    exact outsideLogins_paymentInvoices.steps_keysAndSignIn _ _ _ _ _ _ _ _
  | false =>
    refine (acts_enforcePowAt _ _ _ _).bind_of_keeps (keeps_enforcePowAt _ _ _) fun _ hpow => ?_
    refine acts_of_redeems (steps_nostrGetOrRegister_redeems _ _ _ _ _) fun id h hid => ?_
    obtain ⟨hid, rfl⟩ := hid
    exact ⟨_, rfl, ⟨hid, pubkey, hproven, rfl⟩, nofun, fun _ => ⟨hname, pubkey, hproven, hpow⟩⟩

/-- **Every statement of a request** does to the invoices what the request may do. -/
theorem steps_program (call : InvoiceCall) : (call.program env).Steps (call.Acts env) := by
  cases call with
  | mint a req => exact steps_mint a req
  | register q =>
    cases q with
    | extension a req checkedAt solution =>
      exact (steps_extension a req checkedAt solution).bind fun _ => trivial
    | nostr a req checkedAt solution =>
      exact (steps_nostr a req checkedAt solution).bind fun _ => trivial

end InvoiceCall

/-! ### Runs -/

/-- The rest of the service leaves the invoices alone. -/
def InvoicesKept (n n' : Node) : Prop :=
  n'.world.db.paymentInvoices = n.world.db.paymentInvoices

/-- Invoices stay bound to what they were bound to. -/
def bindingsKept : Rely Node where
  rel n n' := Redeems (fun _ _ => True) n.world n'.world
  refl n := Redeems.refl n.world
  trans h₁ h₂ := by
    intro id r hr
    obtain ⟨r₁, hr₁, hbound₁, -⟩ := h₁ id r hr
    obtain ⟨r₂, hr₂, hbound₂, -⟩ := h₂ id r₁ hr₁
    exact ⟨r₂, hr₂, hbound₂.trans hbound₁, .inr trivial⟩

theorem InvoicesKept.rel {n n' : Node} (h : InvoicesKept n n') : bindingsKept.rel n n' := by
  change Redeems (fun _ _ => True) n.world n'.world
  exact .of_same h

section Runs

variable {ι : Type} [DecidableEq ι]

/-- One statement consumes the invoice. -/
def ConsumesInvoice (id : String) (n n' : Node) : Prop :=
  ∃ r r', n.world.db.paymentInvoices.get? id = some r ∧ r.consumedAt = none ∧
    n'.world.db.paymentInvoices.get? id = some r' ∧ r'.consumedAt.isSome

/-- The event stores an invoice that a request mints for the key. -/
def MintsInvoice (calls : ι → InvoiceCall) (id key : String) (e : Prog.Event ι Node) : Prop :=
  ∃ i, e.who = some i ∧ (calls i).mintsFor = some key ∧
    e.pre.world.db.paymentInvoices.get? id = none ∧
    (e.post.world.db.paymentInvoices.get? id).isSome

/-- The invoice was minted for the key: before the run, or by one of the events. -/
def MintedFor (env : NodeEnv) (calls : ι → InvoiceCall) (n₀ : Node)
    (es : List (Prog.Event ι Node)) (id key : String) : Prop :=
  (∃ r, n₀.world.db.paymentInvoices.get? id = some r ∧
    r.pubkeyHash = env.auth.hashPublicKey key) ∨ ∃ e ∈ es, MintsInvoice calls id key e

/-- Every invoice is consumed by a registration that carries a signature under its key. -/
def BoundToKeys (env : NodeEnv) (calls : ι → InvoiceCall) (n₀ : Node)
    (es : List (Prog.Event ι Node)) : Prop :=
  ∀ es₁ e es₂ id key, es = es₁ ++ e :: es₂ → MintedFor env calls n₀ es₁ id key →
    ConsumesInvoice id e.pre e.post →
    ∃ i q, e.who = some i ∧ calls i = .register q ∧ q.SignedUnder env key

/-- No other key of the requests has the hash of a key that invoices are minted for. -/
def KeysApart (env : NodeEnv) (calls : ι → InvoiceCall) (n₀ : Node)
    (es : List (Prog.Event ι Node)) : Prop :=
  ∀ id key, MintedFor env calls n₀ es id key → ∀ i q key', calls i = .register q →
    q.SignedUnder env key' → env.auth.hashPublicKey key' = env.auth.hashPublicKey key → key' = key

/-- No Nostr registration that passes its checks presents an invoice together with the BTC key it was
minted for. -/
def NoNostrClaim (env : NodeEnv) (calls : ι → InvoiceCall) (n₀ : Node)
    (es : List (Prog.Event ι Node)) : Prop :=
  ∀ id key, MintedFor env calls n₀ es id key → ∀ i q, calls i = .register q → q.NostrAccepted env →
    ¬ q.Presents env id (env.auth.hashPublicKey key)

theorem acts_of_run {env : NodeEnv} {calls : ι → InvoiceCall} {n₀ : Node}
    {es : List (Prog.Event ι Node)} {c : Node × (ι → Prog Node AppError Unit)}
    (hrun : (Prog.pool InvoicesKept).Run (n₀, fun i => (calls i).program env) es c) :
    ∀ e ∈ es, (e.who = none → InvoicesKept e.pre e.post) ∧
      ∀ i, e.who = some i → (calls i).Acts env e.pre e.post :=
  Prog.guarantees_of_run (R := bindingsKept) (G := fun i => (calls i).Acts env)
    (Q := fun _ _ _ => True) (fun _ _ _ _ _ _ => trivial) (fun _ => InvoiceCall.Acts.refl)
    (fun _ _ _ h => h.redeems.imp fun _ _ _ => trivial)
    (fun _ _ => InvoicesKept.rel) hrun
    fun i => (InvoiceCall.steps_program (calls i)).guarantees (fun _ _ => trivial) n₀

/-- An invoice stays bound to the key it was minted for. -/
theorem bound_of_mintedFor {env : NodeEnv} {calls : ι → InvoiceCall} {n₀ : Node}
    {es : List (Prog.Event ι Node)} {c : Node × (ι → Prog Node AppError Unit)}
    (hrun : (Prog.pool InvoicesKept).Run (n₀, fun i => (calls i).program env) es c)
    {id key : String} (hminted : MintedFor env calls n₀ es id key) :
    ∃ r, c.1.world.db.paymentInvoices.get? id = some r ∧
      r.pubkeyHash = env.auth.hashPublicKey key := by
  have hacts := acts_of_run hrun
  have hkept : ∀ e ∈ es, bindingsKept.rel e.pre e.post := by
    intro e he
    cases hwho : e.who with
    | none => exact InvoicesKept.rel ((hacts e he).1 hwho)
    | some i => exact ((hacts e he).2 i hwho).redeems.imp fun _ _ _ => trivial
  -- the row when it was stored, and what became of it
  obtain ⟨n, r, hlast, hr, hbound⟩ : ∃ n r, bindingsKept.rel n c.1 ∧
      n.world.db.paymentInvoices.get? id = some r ∧
      r.pubkeyHash = env.auth.hashPublicKey key := by
    obtain ⟨r, hr, hbound⟩ | ⟨e, he, i, hwho, hfor, hnone, hsome⟩ := hminted
    · exact ⟨n₀, r, Prog.rel_of_run hrun hkept, hr, hbound⟩
    · obtain ⟨r, hr⟩ := Option.isSome_iff_exists.mp hsome
      refine ⟨e.post, r, Prog.rel_of_mem hrun hkept he, hr, ?_⟩
      rcases ((hacts e he).2 i hwho).binds key hfor id r hr with hold | hbound
      · cases hnone.symm.trans hold
      · exact hbound
  obtain ⟨r', hr', hbound', -⟩ := hlast id r hr
  exact ⟨r', hr', hbound'.trans hbound⟩

/-- **Binding of invoices.** In every run in which no Nostr registration that passes its checks
presents an invoice together with the BTC key it was minted for, every invoice that is consumed is consumed by a
registration with a valid signature under the key it was minted for. -/
theorem invoice_binding {env : NodeEnv} {calls : ι → InvoiceCall} {n₀ : Node}
    {es : List (Prog.Event ι Node)} {c : Node × (ι → Prog Node AppError Unit)}
    (hrun : (Prog.pool InvoicesKept).Run (n₀, fun i => (calls i).program env) es c)
    (hkeys : KeysApart env calls n₀ es) (hnostr : NoNostrClaim env calls n₀ es) :
    BoundToKeys env calls n₀ es := by
  rintro es₁ e es₂ id key rfl hminted ⟨r, r', hr, hfree, hr', hconsumed⟩
  have hacts := acts_of_run hrun e (by simp)
  have hlater : MintedFor env calls n₀ (es₁ ++ e :: es₂) id key :=
    hminted.imp_right fun ⟨e₀, he₀, hmints⟩ => ⟨e₀, by simp [he₀], hmints⟩
  obtain ⟨c₁, _, hbefore, hpre, -, -⟩ := Prog.run_at hrun
  obtain ⟨r₁, hr₁, hbound⟩ := bound_of_mintedFor hbefore hminted
  rw [hpre, hr] at hr₁
  obtain rfl := Option.some.inj hr₁
  cases hwho : e.who with
  | none =>
    -- the rest of the service consumes nothing
    rw [hacts.1 hwho, hr] at hr'
    obtain rfl := Option.some.inj hr'
    simp [hfree] at hconsumed
  | some i =>
    obtain ⟨r₂, hr₂, -, hsame | ⟨q, hq, hpresents, hsigned, haccepted⟩⟩ := (hacts.2 i hwho).redeems id r hr
    · rw [hr'] at hr₂
      obtain rfl := Option.some.inj hr₂
      simp [hsame, hfree] at hconsumed
    · rw [hbound] at hpresents hsigned
      cases hkind : q.isNostr with
      | true => exact (hnostr id key hlater i q hq (haccepted hkind) hpresents).elim
      | false =>
        obtain ⟨key', hkey', hhash⟩ := hsigned hkind
        obtain rfl := hkeys id key hlater i q key' hq hkey' hhash
        exact ⟨i, q, rfl, hq, hkey'⟩

end Runs

/-! ### An invoice for a wallet -/

/-- An instance where new wallets pay. -/
def payingEnv (verify : String → String → String → Except AppError Unit) : NodeEnv where
  auth := { sampleEnv with
    gates := ⟨.all, false, true, true⟩
    verifyBitcoinSignature := verify }
  verifySolution _ _ := .error "no challenge"

/-- The answers to a wallet whose invoice is settled. -/
def settledAnswers : Answers := { sampleAnswers 2 with provider := fun _ => .ok ⟨.settled, none⟩ }

/-- A wallet asks for an invoice for its key. -/
def mintCall : InvoiceCall :=
  .mint ⟨⟨true, "btcpay", "https://pay", "store", "key", "1", "XMR", 1, 60⟩,
    some ⟨"btcpay", fun _ => .ok ⟨"invoice", "https://pay/invoice"⟩⟩⟩ ⟨"K"⟩

/-- The wallet registers with the invoice. -/
def ownerCall : InvoiceCall :=
  .register (.extension settledAnswers
    { walletRequest "K" none with paymentInvoiceId := some "invoice" } 1000 none)

/-- Another party registers a Nostr key with the invoice and the wallet's BTC key. -/
def claimCall : InvoiceCall :=
  .register (.nostr settledAnswers
    { nostrRequest with seedFingerprint := none, paymentInvoiceId := some "invoice" } 1000 none)

/-- The invoice is minted by the one request and presented by the other. -/
def invoiceCalls (redeem : InvoiceCall) : Bool → InvoiceCall
  | true => mintCall
  | false => redeem

/-- A node with a nonce for Nostr registrations. -/
def nonceNode : Node where
  world := ⟨{ Db.empty with
    challenges := ⟨[⟨"nonce", "nostr_register", none, 300⟩], by simp⟩ }, 0⟩
  spent := .empty
  instant := 0

/-- Both requests, at the start. -/
def invoiceStart (verify : String → String → String → Except AppError Unit)
    (redeem : InvoiceCall) : Node × (Bool → Prog Node AppError Unit) :=
  (nonceNode, fun i => (invoiceCalls redeem i).program (payingEnv verify))

/-- The wallet that an invoice was minted for redeems it, with its signature. -/
theorem ownerCall_bound :
    (∃ e ∈ Prog.playTrace [(true, 2), (false, 3)]
        (invoiceStart sampleEnv.verifyBitcoinSignature ownerCall),
      ConsumesInvoice "invoice" e.pre e.post) ∧
    BoundToKeys (payingEnv sampleEnv.verifyBitcoinSignature) (invoiceCalls ownerCall) nonceNode
      (Prog.playTrace [(true, 2), (false, 3)]
        (invoiceStart sampleEnv.verifyBitcoinSignature ownerCall)) := by
  refine ⟨?_, invoice_binding (Prog.run_play InvoicesKept [(true, 2), (false, 3)]
    (invoiceStart sampleEnv.verifyBitcoinSignature ownerCall)) ?_ ?_⟩
  · refine ⟨⟨some false, _, _⟩, List.mem_of_getElem? (i := 4) rfl,
      ⟨"invoice", "K", "btcpay", none⟩, ⟨"invoice", "K", "btcpay", some 0⟩, ?_, rfl, ?_, rfl⟩
    · decide +kernel
    · decide +kernel
  · -- a text is its own hash
    exact fun _ _ _ _ _ _ _ _ hhash => hhash
  · intro id key _ i q hq hnostr
    cases i with
    | true => cases hq
    | false =>
      cases hq
      cases hnostr

/-- A check that no signature passes. -/
def nobodySigns (_ _ _ : String) : Except AppError Unit :=
  .error (.authError "signature verification failed")

/-- The events up to the other party's transaction. -/
def claimEvents : List (Prog.Event Bool Node) :=
  Prog.playTrace [(true, 2), (false, 4)] (invoiceStart nobodySigns claimCall)

/-- **Somebody else redeems it**: the invoice of a wallet, whose key nobody can sign with, is
consumed by a Nostr registration that lists the wallet's public key. -/
theorem invoice_without_signature :
    (∃ c, (Prog.pool InvoicesKept).Run (invoiceStart nobodySigns claimCall) claimEvents c) ∧
      KeysApart (payingEnv nobodySigns) (invoiceCalls claimCall) nonceNode claimEvents ∧
      ¬ BoundToKeys (payingEnv nobodySigns) (invoiceCalls claimCall) nonceNode claimEvents := by
  refine ⟨⟨_, Prog.run_play InvoicesKept [(true, 2), (false, 4)] _⟩,
    fun _ _ _ _ _ _ _ _ hhash => hhash, fun hbound => ?_⟩
  -- the wallet's request has stored the invoice
  have hminted : MintedFor (payingEnv nobodySigns) (invoiceCalls claimCall) nonceNode
      (claimEvents.take 5) "invoice" "K" := by
    refine .inr ⟨⟨some true, _, _⟩, List.mem_of_getElem? (i := 1) rfl, true, rfl, ?_, ?_, ?_⟩
    · decide +kernel
    · decide +kernel
    · decide +kernel
  obtain ⟨i, q, hwho, hcall, hsigned⟩ := hbound (claimEvents.take 5) ⟨some false, _, _⟩ [] "invoice"
    "K" rfl hminted ⟨⟨"invoice", "K", "btcpay", none⟩, ⟨"invoice", "K", "btcpay", some 0⟩,
      by decide +kernel, rfl, by decide +kernel, rfl⟩
  cases hwho
  cases hcall
  exact hsigned

end SmirkBackend
