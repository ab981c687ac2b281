import Mathlib.Data.Setoid.Basic
import SmirkBackend.Auth.Gates
import SmirkBackend.Auth.Nostr
import SmirkBackend.Config.Settings
import SmirkBackend.Lib.Locking

/-!
# Premium invoices

A user buys days of premium: an invoice is minted on a payment rail, paid at its processor, and
activated.  The activation asks the rail that the invoice row names, then consumes the invoice and
extends the user's window in one transaction.  The plans and the rails are read from the
environment at boot and never change after.

A `PremiumInstance` has plans of at least a day and rails of distinct kinds.  The two requests are
`mintPlan` and `activationPlan` and the transactions after them, and `premiumJob` is either.
-/

namespace SmirkBackend

open Lib (Table Patch Prog Stmt)
open Config (PremiumPlan PaymentRailConfig PaymentConfig)

/-! ### Plans and rails -/

/-- The environment variables of the process. -/
abbrev EnvVars := String → Option String

/-- `env_or`: an empty variable counts as unset. -/
def envOr (env : EnvVars) (key default : String) : String :=
  ((env key).filter fun s => !s.isEmpty).getD default

/-- `str::parse::<i32>`. -/
def parseI32 (s : String) : Option Int32 :=
  let negative := s.toList.head? = some '-'
  let digits := if negative || s.toList.head? = some '+' then s.toList.tail else s.toList
  if digits.isEmpty || !digits.all Char.isDigit then none
  else
    let n : ℤ := digits.foldl (fun n c => 10 * n + (c.toNat - 48)) 0
    let z := if negative then -n else n
    if -2 ^ 31 ≤ z ∧ z < 2 ^ 31 then some (Int32.ofInt z) else none

/-- An entry of `PREMIUM_PLANS`: `id:days:amount`. -/
def parsePremiumPlan (entry : String) : Option PremiumPlan := do
  let s := (trim entry).toList
  let (id, rest) := s.span (· ≠ ':')
  let (days, rest) := (← rest.tail?).span (· ≠ ':')
  let amount := trim (String.ofList (← rest.tail?))
  let id := trim (String.ofList id)
  let days ← parseI32 (trim (String.ofList days))
  if !id.isEmpty && !amount.isEmpty && decide (0 < days) then some ⟨id, days, amount⟩ else none

/-- `parse_premium_plans`: malformed entries are dropped. -/
def parsePremiumPlans (s : String) : List PremiumPlan :=
  (s.splitOn ",").filterMap parsePremiumPlan

/-- `CHECKOUT_RAILS`: kind and prefix of the variables. -/
def checkoutRails : List (String × String) :=
  [("xmrcheckout", "PAYMENT_XMRCHECKOUT"), ("wowcheckout", "PAYMENT_WOWCHECKOUT")]

/-- The configuration of one checkout rail, if any of its variables is set. -/
def parseCheckoutRail (env : EnvVars) (r : String × String) : Option PaymentRailConfig :=
  let url := envOr env (r.2 ++ "_URL") ""
  let store := envOr env (r.2 ++ "_STORE_ID") ""
  let key := envOr env (r.2 ++ "_API_KEY") ""
  if !url.isEmpty || !store.isEmpty || !key.isEmpty then some ⟨r.1, url, store, key⟩ else none

/-- `parse_checkout_rails`. -/
def parseCheckoutRails (env : EnvVars) : List PaymentRailConfig :=
  checkoutRails.filterMap (parseCheckoutRail env)

/-- A payment rail: its kind, and the processor and store behind it. -/
structure PaymentRail where
  /-- The kind, as invoice rows name it. -/
  kind : String
  /-- URL of the processor. -/
  baseUrl : String
  /-- Store. -/
  storeId : String
  deriving DecidableEq

/-- `rails_from_config`: the primary rail, then the checkout rails. -/
def railsFromConfig (enabled : Bool) (p : PaymentConfig) (rails : List PaymentRailConfig) :
    Except AppError (List PaymentRail) :=
  if !enabled then .ok []
  else if p.provider = "btcpay" then
    .ok (⟨"btcpay", p.providerUrl, p.storeId⟩ ::
      rails.map fun r => ⟨r.kind, r.providerUrl, r.storeId⟩)
  else .error (.configError ("unsupported payment provider: " ++ p.provider))

/-- What an instance sells, and through which rails. -/
structure PremiumInstance where
  /-- The plans. -/
  plans : List PremiumPlan
  /-- The rails, the primary one first. -/
  rails : List PaymentRail
  /-- Every plan has a day at least. -/
  days_pos : ∀ p ∈ plans, 0 < p.days
  /-- No two rails share a kind. -/
  kinds_nodup : (rails.map PaymentRail.kind).Nodup

theorem days_pos_of_parse {s : String} : ∀ p ∈ parsePremiumPlans s, 0 < p.days := by
  intro p hp
  obtain ⟨entry, -, hparse⟩ := List.mem_filterMap.mp hp
  simp only [parsePremiumPlan, Option.bind_eq_bind, Option.bind_eq_some_iff] at hparse
  obtain ⟨_, -, _, -, days, -, hplan⟩ := hparse
  split_ifs at hplan with hok
  obtain rfl := Option.some.inj hplan
  simp only [Bool.and_eq_true, decide_eq_true_eq] at hok
  exact hok.2

theorem kind_of_parseCheckoutRail {env : EnvVars} {r : String × String} {c : PaymentRailConfig}
    (h : parseCheckoutRail env r = some c) : c.kind = r.1 := by
  simp only [parseCheckoutRail] at h
  split_ifs at h
  obtain rfl := Option.some.inj h
  rfl

theorem kinds_sublist (env : EnvVars) :
    ((parseCheckoutRails env).map PaymentRailConfig.kind).Sublist (checkoutRails.map Prod.fst) := by
  unfold parseCheckoutRails
  induction checkoutRails with
  | nil => exact .slnil
  | cons r rest ih =>
    cases hr : parseCheckoutRail env r with
    | none =>
      rw [List.filterMap_cons_none hr]
      exact .cons _ ih
    | some c =>
      rw [List.filterMap_cons_some hr, List.map_cons, kind_of_parseCheckoutRail hr]
      exact ih.cons_cons _

theorem kinds_nodup_of_config {enabled : Bool} {p : PaymentConfig} {env : EnvVars}
    {rails : List PaymentRail}
    (h : railsFromConfig enabled p (parseCheckoutRails env) = .ok rails) :
    (rails.map PaymentRail.kind).Nodup := by
  unfold railsFromConfig at h
  split_ifs at h
  · obtain rfl := Except.ok.inj h
    simp
  · obtain rfl := Except.ok.inj h
    have hsub := kinds_sublist env
    have hmap : (parseCheckoutRails env).map (fun r => r.kind) =
        (parseCheckoutRails env).map PaymentRailConfig.kind := rfl
    simp only [List.map_cons, List.map_map, Function.comp_def, hmap]
    refine (List.Sublist.cons_cons "btcpay" hsub).nodup ?_
    decide

/-- The instance that a boot gives. -/
def bootPremium (env : EnvVars) (enabled : Bool) (p : PaymentConfig) :
    Except AppError PremiumInstance :=
  match h : railsFromConfig enabled p (parseCheckoutRails env) with
  | .ok rails => .ok
      { plans := parsePremiumPlans (envOr env "PREMIUM_PLANS" "")
        rails := rails
        days_pos := days_pos_of_parse
        kinds_nodup := kinds_nodup_of_config h }
  | .error e => .error e

namespace PremiumInstance

variable (inst : PremiumInstance)

/-- `PaymentRails::select`: the named rail, or the primary one. -/
def select (kind : Option String) : Option PaymentRail :=
  match kind with
  | none => inst.rails.head?
  | some k => inst.rails.find? fun r => r.kind = k

/-- `PaymentRails::for_invoice`. -/
def forInvoice (providerKind : String) : Option PaymentRail :=
  inst.rails.find? fun r => r.kind = providerKind

end PremiumInstance

/-! ### The requests -/

/-- What the processors answer while a request runs. -/
structure Processors where
  /-- Create an invoice that is bound to a text; the answer is its id. -/
  createInvoice : PaymentRail → PremiumPlan → String → Except AppError String
  /-- The state of an invoice. -/
  getInvoice : PaymentRail → String → Except AppError Invoice

/-- A premium request. -/
inductive PremiumRequest
  /-- `POST /premium/invoice`: the plan and the rail, as the client names them. -/
  | invoice (plan : String) (rail : Option String)
  /-- `POST /premium/activate`. -/
  | activate (invoiceId : String)

/-- What a premium request found, and will write. -/
inductive PremiumPlanned
  /-- A minted invoice is to be stored. -/
  | mint (rail : PaymentRail) (row : PremiumInvoiceRow)
  /-- A settled invoice is to be consumed. -/
  | activate (rail : PaymentRail) (id : String) (user : Uuid) (days : Int32)

/-- `ensure_enabled`. -/
def ensurePremiumEnabled (enabled : Bool) : Except AppError Unit :=
  if enabled then .ok () else .error (.validationError "Premium is not available on this instance.")

/-- `MAX_PENDING`. -/
def maxPending : ℕ := 8

/-- `count_unconsumed_premium_invoices`. -/
def Db.countUnconsumedPremiumInvoices (db : Db) (u : Uuid) : ℕ :=
  db.premiumInvoices.rows.countP fun r => r.userId = u && r.consumedAt.isNone

/-- The answer when no rail was found. -/
def noRail : Option String → AppError
  | some _ => .validationError "That payment method is not available."
  | none => .internal "payment provider not configured"

/-- `invoice`, up to the insertion. -/
def mintPlan (inst : PremiumInstance) (enabled : Bool) (processors : Processors)
    (bearer : Except AppError TokenInfo) (plan : String) (rail : Option String) :
    Handler PremiumPlanned := do
  let user ← extractUserIdFromToken bearer
  .ofExcept (ensurePremiumEnabled enabled)
  let p ← .orFail (.validationError "Unknown premium plan.") (inst.plans.find? fun p => p.id = plan)
  let pending ← select fun db => db.countUnconsumedPremiumInvoices user
  if maxPending ≤ pending then
    .fail (.validationError
      ("Too many pending premium invoices; pay or let them expire before minting another."))
  else
    let r ← .orFail (noRail rail) (inst.select (rail.map trim))
    let id ← .ofExcept (processors.createInvoice r p (uuidText user))
    return .mint r ⟨id, user, r.kind, p.days, none⟩

/-- The answer to an invoice that is missing or somebody else's. -/
def unknownPremiumInvoice : AppError := .validationError "Unknown or invalid premium invoice."

/-- The answer to an invoice that was consumed before. -/
def usedPremiumInvoice : AppError :=
  .validationError "This premium invoice has already been used."

/-- Only a settled invoice whose bind, if there is one, is the user's grants. -/
def checkPremiumSettled (user : Uuid) (answer : Except AppError Invoice) : Except AppError Unit := do
  let invoice ← answer
  if invoice.status ≠ .settled then
    throw (.validationError "Payment not yet confirmed. Complete the payment and retry.")
  else if invoice.bind.any fun bound => bound ≠ uuidText user then throw unknownPremiumInvoice
  else pure ()

/-- `activate`, up to the transaction. -/
def activationPlan (inst : PremiumInstance) (enabled : Bool) (processors : Processors)
    (bearer : Except AppError TokenInfo) (invoiceId : String) : Handler PremiumPlanned := do
  let user ← extractUserIdFromToken bearer
  .ofExcept (ensurePremiumEnabled enabled)
  let id := trim invoiceId
  match (← SmirkBackend.select fun db => db.premiumInvoices.get? id).filter
      fun r => r.userId = user with
  | none => .fail unknownPremiumInvoice
  | some row =>
    if row.consumedAt.isSome then .fail usedPremiumInvoice
    else
      match inst.forInvoice row.provider with
      | none => .fail (.validationError
          "This invoice's payment method is currently unavailable. Try again later.")
      | some rail => do
        .ofExcept (checkPremiumSettled user (processors.getInvoice rail id))
        return .activate rail id user row.periodDays

/-! ### The transactions -/

/-- What a statement locks: an invoice, a user, or, for a new invoice, that its user exists. -/
inductive PremiumLock
  | invoice (id : String)
  | user (u : Uuid)
  | keyShare (u : Uuid) (invoice : String)
  deriving DecidableEq

/-- Two states agree on what a lock protects. -/
def premiumSame : PremiumLock → Setoid World
  | .invoice id => Setoid.ker fun w => w.db.premiumInvoices.get? id
  | .user u => Setoid.ker fun w => w.db.users.get? u
  | .keyShare u _ => Setoid.ker fun w => (w.db.users.get? u).isSome

/-- `insert_premium_invoice`. -/
def insertPremiumInvoice (r : PremiumInvoiceRow) : Stmt World PremiumLock AppError where
  locks := [.invoice r.invoiceId, .keyShare r.userId r.invoiceId]
  run w :=
    if (w.db.users.get? r.userId).isNone then .error dbFault
    else
      match w.db.premiumInvoices.insert? r with
      | some t => .ok { w with db := { w.db with premiumInvoices := t } }
      | none => .error dbFault

/-- An invoice that can be consumed by its user. -/
def PremiumInvoiceRow.usable (u : Uuid) (r : PremiumInvoiceRow) : Bool :=
  r.userId = u && r.consumedAt.isNone

theorem PremiumInvoiceRow.key_consume (now : Timestamp) (r : PremiumInvoiceRow) :
    Lib.key { r with consumedAt := some now } = Lib.key r := rfl

/-- A premium invoice, consumed. -/
def consumePremium (now : Timestamp) : Patch PremiumInvoiceRow where
  set r := { r with consumedAt := some now }
  key_set := PremiumInvoiceRow.key_consume now

/-- The window after an extension: the days count from its end, or from now if it is over. -/
def extendWindow (now : Timestamp) (period : ℤ) (premiumUntil : Option Timestamp) : Timestamp :=
  max (premiumUntil.getD now) now + days period

theorem UserRow.key_extend (now : Timestamp) (period : ℤ) (r : UserRow) :
    Lib.key { r with premiumUntil := some (extendWindow now period r.premiumUntil) } =
      Lib.key r := rfl

/-- A user, with the window extended. -/
def extendPremium (now : Timestamp) (period : ℤ) : Patch UserRow where
  set r := { r with premiumUntil := some (extendWindow now period r.premiumUntil) }
  key_set := UserRow.key_extend now period

/-- Consume the invoice, if it is the user's and not consumed. -/
def consumePremiumStmt (now : Timestamp) (id : String) (u : Uuid) :
    Stmt World PremiumLock AppError where
  locks := [.invoice id]
  run w :=
    match w.db.premiumInvoices.updateOne id (PremiumInvoiceRow.usable u) (consumePremium now) with
    | (some _, t) => .ok { w with db := { w.db with premiumInvoices := t } }
    | (none, _) => .error usedPremiumInvoice

/-- Extend the window of the user. -/
def extendPremiumStmt (now : Timestamp) (u : Uuid) (period : Int32) :
    Stmt World PremiumLock AppError where
  locks := [.user u]
  run w :=
    match w.db.users.updateOne u (fun _ => true) (extendPremium now period.toInt) with
    | (some _, t) => .ok { w with db := { w.db with users := t } }
    | (none, _) => .error (.databaseError "no rows returned")

/-- The transaction of a request; `now` is its `NOW()`. -/
def premiumScript : PremiumPlanned → Timestamp → List (Stmt World PremiumLock AppError)
  | .mint _ row, _ => [insertPremiumInvoice row]
  | .activate _ id user period, now =>
    [consumePremiumStmt now id user, extendPremiumStmt now user period]

/-- A request, who sends it, whether premium is on when it runs, and what the processors answer. -/
structure PremiumCall where
  /-- The request. -/
  request : PremiumRequest
  /-- What the header and the token's signature say. -/
  bearer : Except AppError TokenInfo
  /-- `cfg().premium.enabled` -/
  enabled : Bool
  /-- The answers of the processors. -/
  processors : Processors

/-- What a request checks before its transaction. -/
def premiumPlan (inst : PremiumInstance) (q : PremiumCall) : Handler PremiumPlanned :=
  match q.request with
  | .invoice plan rail => mintPlan inst q.enabled q.processors q.bearer plan rail
  | .activate id => activationPlan inst q.enabled q.processors q.bearer id

/-- A request as a job. -/
def premiumJob (inst : PremiumInstance) (q : PremiumCall) :
    Lib.Job World PremiumLock AppError PremiumPlanned Timestamp where
  plan := premiumPlan inst q
  script := premiumScript

end SmirkBackend
