import Mathlib.Data.List.Sort
import SmirkBackend.Chain.Lws
import SmirkBackend.Lib.Remote
import SmirkBackend.Lib.Run

/-!
# Registration of light wallets

A light-wallet server adds an account at the chain tip, whatever birthday the wallet has.  So an
account is imported in three steps: it is added, its subaddresses are provisioned, and its scan
height is lowered to the birthday (`LwsClient.importAccount`).  Every step is an exchange
(`LwsRequest`, `LwsRequest.Reply`) that can fail; the provisioning and the rescan are tried three
times.  An account that is already listed is never rescanned, so that a wallet which registers on
every poll does not reset its own scan.

`RescanDiscipline` says what the exchanges of an import look like, whatever the server answers
(`import_discipline`): what it reads first, when it adds, when and how often it asks to rescan, and
what its success means.
-/

namespace SmirkBackend

open Lib (Exchange Remote)

/-! ### Requests and replies -/

/-- The subaddress ranges of a major index; both ends of a range are included. -/
structure SubaddrRangeEntry where
  /-- Major index. -/
  key : UInt32
  /-- Minor ranges. -/
  value : List (UInt32 × UInt32)
  deriving DecidableEq

/-- The decoded body of `provision_subaddrs`. -/
structure ProvisionSubaddrsResponse where
  /-- The account's ranges. -/
  allSubaddrs : List SubaddrRangeEntry
  deriving DecidableEq

/-- The decoded body of `get_version`. -/
structure LwsVersionResponse where
  /-- Bound on the indices of one account. -/
  maxSubaddresses : UInt32
  deriving DecidableEq

/-- An account of `list_accounts`. -/
structure AccountEntry where
  /-- Its address. -/
  address : String
  /-- Height it is scanned up to. -/
  scanHeight : UInt64
  deriving DecidableEq

/-- The decoded body of `list_accounts`. -/
structure ListAccountsResponse where
  /-- Scanned accounts. -/
  active : List AccountEntry
  /-- Accounts that are not scanned. -/
  hidden : List AccountEntry
  /-- Accounts that are preserved but not scanned. -/
  inactive : List AccountEntry
  deriving DecidableEq

/-- A request to the light-wallet server. -/
inductive LwsRequest
  /-- `get_version`. -/
  | getVersion
  /-- `list_accounts`. -/
  | listAccounts
  /-- `add_account`. -/
  | addAccount (address viewKey : String)
  /-- `provision_subaddrs`. -/
  | provisionSubaddrs (address viewKey : String) (majI minI nMaj nMin : UInt32) (getAll : Bool)
  /-- `rescan`. -/
  | rescan (addresses : List String) (height : UInt64)
  deriving DecidableEq

/-- What a request is answered by; of some only the success is read. -/
abbrev LwsRequest.Reply : LwsRequest → Type
  | getVersion => LwsVersionResponse
  | listAccounts => ListAccountsResponse
  | addAccount _ _ => Unit
  | provisionSubaddrs _ _ _ _ _ _ _ => ProvisionSubaddrsResponse
  | rescan _ _ => Unit

/-- A program of the light-wallet client. -/
abbrev LwsProgram := Remote LwsRequest LwsRequest.Reply AppError

/-- A request with its outcome: a reply, or a transport failure, an error status or an undecodable
body. -/
abbrev LwsExchange := Exchange LwsRequest LwsRequest.Reply AppError

namespace ProvisionSubaddrsResponse

/-- The order of ranges. -/
def rangeLe (a b : UInt32 × UInt32) : Prop := a.1 < b.1 ∨ a.1 = b.1 ∧ a.2 ≤ b.2

instance (a b : UInt32 × UInt32) : Decidable (rangeLe a b) := by
  unfold rangeLe
  infer_instance

/-- Extend a run of indices over the ranges that leave no gap. -/
def extendCeiling (ceiling : UInt32) : List (UInt32 × UInt32) → UInt32
  | [] => ceiling
  | r :: rest =>
    if Lib.saturatingAdd32 ceiling 1 < r.1 then ceiling
    else extendCeiling (max ceiling r.2) rest

/-- `confirmed_minor_max`: the last minor index of the run that starts at 0. -/
def confirmedMinorMax (resp : ProvisionSubaddrsResponse) : Option UInt32 := do
  let entry ← resp.allSubaddrs.find? fun e => e.key = 0
  let ranges := (entry.value.filter fun r => r.1 ≤ r.2).insertionSort rangeLe
  match ranges with
  | [] => none
  | first :: rest => if first.1 ≠ 0 then none else some (extendCeiling first.2 rest)

end ProvisionSubaddrsResponse

/-- The scan height of an address in the first list that has it. -/
def ListAccountsResponse.scanHeight (accounts : ListAccountsResponse) (address : String) :
    Option UInt64 :=
  [accounts.active, accounts.inactive, accounts.hidden].findSome? fun bucket =>
    (bucket.find? fun e => e.address = address).map (·.scanHeight)

/-! ### The client -/

namespace LwsClient

variable (c : LwsClient)

/-- One exchange, which must succeed. -/
def request (q : LwsRequest) : LwsProgram q.Reply := .question q

/-- `max_subaddresses`; `cached` is what the client's cell holds from an earlier probe. -/
def maxSubaddresses (cached : Option UInt32) : LwsProgram UInt32 :=
  match cached with
  | some max => pure max
  | none => do
    let resp ← request .getVersion
    pure resp.maxSubaddresses

/-- `ensure_subaddr_capacity`. -/
def ensureSubaddrCapacity (cached : Option UInt32) (nMin : UInt32) : LwsProgram Unit := do
  let max ← maxSubaddresses cached
  if max < nMin then
    .fail (.nodeError (s!"{c.network} LWS cannot provision subaddresses: it allows " ++
      s!"max_subaddresses={max} but {nMin} are required. Start monero-lws with " ++
      s!"--max-subaddresses {nMin} (or higher), or disable FEATURE_XMR_SUBADDR_PROVISIONING."))
  else pure ()

/-- `provision_subaddrs`. -/
def provisionSubaddrs (address viewKey : String) (majI minI nMin : UInt32) :
    LwsProgram UInt32 := do
  let resp ← request (.provisionSubaddrs address viewKey majI minI 1 nMin true)
  if majI ≠ 0 then
    .fail (c.nodeErr "provision_subaddrs" "only major account 0 can be provisioned")
  else
    match resp.confirmedMinorMax with
    | some ceiling => pure ceiling
    | none => .fail (c.nodeErr "provision_subaddrs"
        "response did not confirm a contiguous minor range for account 0")

/-- `provision_account0_with_retry`. -/
def provisionAccount0WithRetry (cached : Option UInt32) (address viewKey : String)
    (nMin : UInt32) : LwsProgram (Option UInt32) :=
  if nMin = 0 then pure none
  else do
    c.ensureSubaddrCapacity cached nMin
    let confirmed ← (c.provisionSubaddrs address viewKey 0 0 nMin).retry 2
    pure (some confirmed)

/-- `provision_account0_covering`. -/
def provisionAccount0Covering (cached : Option UInt32) (address viewKey : String)
    (nMin : UInt32) : LwsProgram (Option UInt32) := do
  match ← c.provisionAccount0WithRetry cached address viewKey nMin with
  | none => pure none
  | some confirmed =>
    if Lib.saturatingAdd32 confirmed 1 < nMin then
      .fail (c.nodeErr "provision_subaddrs"
        "confirmed subaddress range is narrower than requested")
    else pure (some confirmed)

/-- `account_scan_height`. -/
def accountScanHeight (address : String) : LwsProgram (Option UInt64) := do
  let accounts ← request .listAccounts
  pure (accounts.scanHeight address)

/-- `admin_add_account`. -/
def adminAddAccount (address viewKey : String) : LwsProgram Unit :=
  request (.addAccount address viewKey)

/-- `rescan`. -/
def rescan (addresses : List String) (height : UInt64) : LwsProgram Unit :=
  if addresses.isEmpty then pure () else request (.rescan addresses height)

/-- `rescan_back_to`. -/
def rescanBackTo (address : String) (startHeight : UInt64) : LwsProgram Unit := do
  let height ← accountScanHeight address
  let current := height.getD 18446744073709551615
  if current ≤ startHeight then pure () else (rescan [address] startHeight).retry 2

/-- `import_account`. -/
def importAccount (cached : Option UInt32) (address viewKey : String) (startHeight : UInt64)
    (provisionMinors : UInt32) : LwsProgram Unit := do
  match ← accountScanHeight address with
  | some _ => do
    -- never reset an existing account
    let _ ← c.provisionAccount0Covering cached address viewKey provisionMinors
    pure ()
  | none => do
    adminAddAccount address viewKey
    -- the account exists now: a failed provisioning must not keep it from its rescan
    let provisioned ← (c.provisionAccount0Covering cached address viewKey provisionMinors).held
    let rescanned ← (rescanBackTo address startHeight).held
    .ofExcept rescanned
    let _ ← .ofExcept provisioned
    pure ()

end LwsClient

/-! ### Exchanges of the parts -/

/-- The requests of a provisioning. -/
def LwsRequest.provisions : LwsRequest → Bool
  | .getVersion => true
  | .provisionSubaddrs .. => true
  | _ => false

/-- The requests to rescan. -/
def LwsRequest.rescans : LwsRequest → Bool
  | .rescan .. => true
  | _ => false

/-- The requests to add an account. -/
def LwsRequest.adds : LwsRequest → Bool
  | .addAccount .. => true
  | _ => false

theorem LwsRequest.provisions_only {q : LwsRequest} (h : q.provisions) : ¬ q.rescans ∧ ¬ q.adds := by
  cases q with
  | getVersion => exact ⟨Bool.false_ne_true, Bool.false_ne_true⟩
  | provisionSubaddrs => exact ⟨Bool.false_ne_true, Bool.false_ne_true⟩
  | _ => cases h

/-- A rescan is due when the account is scanned from above the birthday, or is not listed. -/
def RescanDue (startHeight : UInt64) (height : Option UInt64) : Prop :=
  startHeight < height.getD 18446744073709551615

namespace LwsClient

open Lib.Remote (Trace)

variable {c : LwsClient} {cached : Option UInt32} {address viewKey : String}
  {startHeight : UInt64} {nMin : UInt32} {t : List LwsExchange}

@[simp] theorem trace_request {q : LwsRequest} {r : Except AppError q.Reply} :
    Trace (request q) t r ↔ t = [⟨q, r⟩] := Remote.trace_question

theorem trace_accountScanHeight {r : Except AppError (Option UInt64)} :
    Trace (accountScanHeight address) t r ↔ ∃ a : Except AppError ListAccountsResponse,
      t = [⟨.listAccounts, a⟩] ∧ r = a.map fun accounts => accounts.scanHeight address := by
  unfold accountScanHeight
  rw [Remote.trace_bind]
  constructor
  · rintro (⟨e, hask, rfl⟩ | ⟨accounts, t₁, t₂, rfl, hask, hrest⟩)
    · exact ⟨.error e, trace_request.mp hask, rfl⟩
    · obtain ⟨rfl, rfl⟩ := Remote.trace_ret.mp hrest
      rw [trace_request.mp hask]
      exact ⟨.ok accounts, rfl, rfl⟩
  · rintro ⟨a, rfl, rfl⟩
    cases a with
    | error e => exact .inl ⟨e, trace_request.mpr rfl, rfl⟩
    | ok accounts =>
      exact .inr ⟨accounts, _, [], rfl, trace_request.mpr rfl, Remote.trace_ret.mpr ⟨rfl, rfl⟩⟩

/-- One attempt to provision is one exchange, and its ceiling is the confirmed one. -/
theorem trace_provisionSubaddrs {r : Except AppError UInt32}
    (h : Trace (c.provisionSubaddrs address viewKey 0 0 nMin) t r) :
    ∃ a : Except AppError ProvisionSubaddrsResponse,
      t = [⟨.provisionSubaddrs address viewKey 0 0 1 nMin true, a⟩] ∧
      ∀ ceiling, r = .ok ceiling → ∃ resp, a = .ok resp ∧ resp.confirmedMinorMax = some ceiling := by
  unfold provisionSubaddrs at h
  rcases Remote.trace_bind.mp h with ⟨e, hask, rfl⟩ | ⟨resp, t₁, t₂, rfl, hask, hrest⟩
  · exact ⟨.error e, trace_request.mp hask, by rintro _ ⟨⟩⟩
  · rw [if_neg (by decide)] at hrest
    rw [trace_request.mp hask]
    cases hceiling : resp.confirmedMinorMax with
    | none =>
      simp only [hceiling, Remote.trace_fail] at hrest
      obtain ⟨rfl, rfl⟩ := hrest
      exact ⟨.ok resp, rfl, by rintro _ ⟨⟩⟩
    | some ceiling =>
      simp only [hceiling, Remote.pure_eq, Remote.trace_ret] at hrest
      obtain ⟨rfl, rfl⟩ := hrest
      refine ⟨.ok resp, rfl, ?_⟩
      intro _ heq
      obtain rfl := Except.ok.inj heq
      exact ⟨resp, rfl, hceiling⟩

theorem trace_ensureSubaddrCapacity {r : Except AppError Unit}
    (h : Trace (c.ensureSubaddrCapacity cached nMin) t r) : ∀ x ∈ t, x.question.provisions := by
  have hmax : ∀ t r, Trace (maxSubaddresses cached) t r → ∀ x ∈ t, x.question.provisions := by
    intro t r h
    unfold maxSubaddresses at h
    cases cached with
    | some max =>
      obtain ⟨rfl, -⟩ := Remote.trace_ret.mp h
      exact List.forall_mem_nil _
    | none =>
      rcases Remote.trace_bind.mp h with ⟨e, hask, -⟩ | ⟨resp, t₁, t₂, rfl, hask, hrest⟩
      · rw [trace_request.mp hask]
        exact List.forall_mem_singleton.mpr rfl
      · obtain ⟨rfl, -⟩ := Remote.trace_ret.mp hrest
        rw [trace_request.mp hask]
        exact List.forall_mem_singleton.mpr rfl
  unfold ensureSubaddrCapacity at h
  rcases Remote.trace_bind.mp h with ⟨e, hask, -⟩ | ⟨max, t₁, t₂, rfl, hask, hrest⟩
  · exact hmax _ _ hask
  · have ht₂ : t₂ = [] := by
      split at hrest
      · exact (Remote.trace_fail.mp hrest).1
      · exact (Remote.trace_ret.mp hrest).1
    rw [ht₂, List.append_nil]
    exact hmax _ _ hask

/-- A provisioning asks nothing else, and succeeds when nothing is to be provisioned or some reply
confirmed a ceiling that covers the ask. -/
theorem trace_provisionAccount0Covering {r : Except AppError (Option UInt32)}
    (h : Trace (c.provisionAccount0Covering cached address viewKey nMin) t r) :
    (∀ x ∈ t, x.question.provisions) ∧ ∀ m, r = .ok m → nMin = 0 ∨
      ∃ (resp : ProvisionSubaddrsResponse) (ceiling : UInt32),
        (⟨.provisionSubaddrs address viewKey 0 0 1 nMin true, .ok resp⟩ : LwsExchange) ∈ t ∧
        resp.confirmedMinorMax = some ceiling ∧ nMin.toNat ≤ ceiling.toNat + 1 := by
  by_cases hzero : nMin = 0
  · refine ⟨?_, fun _ _ => .inl hzero⟩
    simp only [provisionAccount0Covering, provisionAccount0WithRetry, hzero, if_true,
      Remote.pure_eq, Remote.ret_bind, Remote.trace_ret] at h
    rw [h.1]
    exact List.forall_mem_nil _
  -- what the retries ask and confirm
  have hretry : ∀ t r, Trace ((c.provisionSubaddrs address viewKey 0 0 nMin).retry 2) t r →
      (∀ x ∈ t, x.question.provisions) ∧ ∀ ceiling, r = .ok ceiling →
        ∃ resp : ProvisionSubaddrsResponse,
          (⟨.provisionSubaddrs address viewKey 0 0 1 nMin true, .ok resp⟩ : LwsExchange) ∈ t ∧
          resp.confirmedMinorMax = some ceiling := by
    intro t r h
    obtain ⟨failures, t', rfl, -, -, hfail, hlast⟩ := Remote.trace_retry h
    obtain ⟨a, rfl, hok⟩ := trace_provisionSubaddrs hlast
    constructor
    · intro x hx
      rcases List.mem_append.mp hx with hx | hx
      · obtain ⟨u, hu, hx⟩ := List.mem_flatten.mp hx
        obtain ⟨e, hu⟩ := hfail u hu
        obtain ⟨b, rfl, -⟩ := trace_provisionSubaddrs hu
        rw [List.mem_singleton.mp hx]
        rfl
      · rw [List.mem_singleton.mp hx]
        rfl
    · intro ceiling hr
      obtain ⟨resp, rfl, hceiling⟩ := hok ceiling hr
      exact ⟨resp, List.mem_append_right _ (List.mem_singleton.mpr rfl), hceiling⟩
  -- the retries come after the probe
  have hwith : ∀ t r, Trace (c.provisionAccount0WithRetry cached address viewKey nMin) t r →
      (∀ x ∈ t, x.question.provisions) ∧ ∀ m, r = .ok m → ∃ ceiling, m = some ceiling ∧
        ∃ resp : ProvisionSubaddrsResponse,
          (⟨.provisionSubaddrs address viewKey 0 0 1 nMin true, .ok resp⟩ : LwsExchange) ∈ t ∧
          resp.confirmedMinorMax = some ceiling := by
    intro t r h
    unfold provisionAccount0WithRetry at h
    rw [if_neg hzero] at h
    rcases Remote.trace_bind.mp h with ⟨e, hprobe, rfl⟩ | ⟨_, t₁, t₂, rfl, hprobe, hrest⟩
    · exact ⟨trace_ensureSubaddrCapacity hprobe, by rintro _ ⟨⟩⟩
    · have hquiet := trace_ensureSubaddrCapacity hprobe
      rcases Remote.trace_bind.mp hrest with
        ⟨e, hfail, rfl⟩ | ⟨ceiling, t₃, t₄, rfl, hconfirm, hret⟩
      · exact ⟨List.forall_mem_append.mpr ⟨hquiet, (hretry _ _ hfail).1⟩, by rintro _ ⟨⟩⟩
      · obtain ⟨rfl, rfl⟩ := Remote.trace_ret.mp hret
        obtain ⟨hprovisions, hok⟩ := hretry _ _ hconfirm
        rw [List.append_nil]
        refine ⟨List.forall_mem_append.mpr ⟨hquiet, hprovisions⟩, ?_⟩
        intro m hm
        obtain ⟨resp, hresp, hceiling⟩ := hok ceiling rfl
        exact ⟨ceiling, (Except.ok.inj hm).symm, resp, List.mem_append_right _ hresp, hceiling⟩
  unfold provisionAccount0Covering at h
  rcases Remote.trace_bind.mp h with ⟨e, hfail, rfl⟩ | ⟨m, t₁, t₂, rfl, hconfirm, hrest⟩
  · exact ⟨(hwith _ _ hfail).1, by rintro _ ⟨⟩⟩
  · obtain ⟨hprovisions, hok⟩ := hwith _ _ hconfirm
    obtain ⟨ceiling, rfl, resp, hresp, hceiling⟩ := hok m rfl
    simp only at hrest
    split at hrest
    · obtain ⟨rfl, rfl⟩ := Remote.trace_fail.mp hrest
      rw [List.append_nil]
      exact ⟨hprovisions, by rintro _ ⟨⟩⟩
    · rename_i hwide
      obtain ⟨rfl, rfl⟩ := Remote.trace_ret.mp hrest
      rw [List.append_nil]
      refine ⟨hprovisions, fun _ _ => .inr ⟨resp, ceiling, hresp, hceiling, ?_⟩⟩
      rw [UInt32.lt_iff_toNat_lt, Lib.toNat_saturatingAdd32, UInt32.toNat_one] at hwide
      omega

/-- A rescan reads the scan height, and asks to rescan when that is due: again only after a failure,
three times at most, and it fails only after three. -/
theorem trace_rescanBackTo {r : Except AppError Unit}
    (h : Trace (rescanBackTo address startHeight) t r) :
    (∃ e : AppError, t = [⟨.listAccounts, .error e⟩] ∧ r = .error e) ∨
    (∃ accounts : ListAccountsResponse, t = [⟨.listAccounts, .ok accounts⟩] ∧
      ¬ RescanDue startHeight (accounts.scanHeight address) ∧ r = .ok ()) ∨
    ∃ (accounts : ListAccountsResponse) (failures : List LwsExchange),
      t = ⟨.listAccounts, .ok accounts⟩ :: failures ++ [⟨.rescan [address] startHeight, r⟩] ∧
      RescanDue startHeight (accounts.scanHeight address) ∧ failures.length ≤ 2 ∧
      (∀ e, r = .error e → failures.length = 2) ∧
      ∀ x ∈ failures, ∃ e : AppError, x = ⟨.rescan [address] startHeight, .error e⟩ := by
  unfold rescanBackTo at h
  rcases Remote.trace_bind.mp h with ⟨e, hread, rfl⟩ | ⟨height, t₁, t₂, rfl, hread, hrest⟩
  · obtain ⟨a, rfl, ha⟩ := trace_accountScanHeight.mp hread
    cases a with
    | error e' =>
      obtain rfl := Except.error.inj ha
      exact .inl ⟨e, rfl, rfl⟩
    | ok accounts => cases ha
  · obtain ⟨a, rfl, ha⟩ := trace_accountScanHeight.mp hread
    cases a with
    | error e => cases ha
    | ok accounts =>
      obtain rfl := Except.ok.inj ha
      by_cases hdue : (accounts.scanHeight address).getD 18446744073709551615 ≤ startHeight
      · simp only [if_pos hdue, Remote.pure_eq, Remote.trace_ret] at hrest
        obtain ⟨rfl, rfl⟩ := hrest
        exact .inr (.inl ⟨accounts, rfl, UInt64.not_lt.mpr hdue, rfl⟩)
      · simp only [if_neg hdue] at hrest
        obtain ⟨failures, t', rfl, hlength, hall, hfail, hlast⟩ := Remote.trace_retry hrest
        have hone : ∀ u r, Trace (rescan [address] startHeight) u r →
            u = [⟨.rescan [address] startHeight, r⟩] := fun u r hu => trace_request.mp hu
        -- each failure is one exchange
        have hflat : failures.flatten.length = failures.length := by
          have hsingle : ∀ u ∈ failures, u.length = 1 := by
            intro u hu
            obtain ⟨e, hu⟩ := hfail u hu
            rw [hone _ _ hu]
            rfl
          rw [List.length_flatten, List.map_congr_left hsingle]
          simp
        refine .inr (.inr ⟨accounts, failures.flatten, ?_, UInt64.not_le.mp hdue, ?_, ?_, ?_⟩)
        · rw [hone _ _ hlast]
          rfl
        · rw [hflat]
          exact hlength
        · intro e he
          rw [hflat]
          exact hall e he
        · intro x hx
          obtain ⟨u, hu, hx⟩ := List.mem_flatten.mp hx
          obtain ⟨e, hu⟩ := hfail u hu
          rw [hone _ _ hu] at hx
          exact ⟨e, List.mem_singleton.mp hx⟩

/-- The attempts to rescan that follow the read of the scan height. -/
theorem rescan_attempts {r : Except AppError Unit}
    (h : Trace (rescanBackTo address startHeight) t r) :
    ∃ (a : Except AppError ListAccountsResponse) (attempts : List LwsExchange),
      t = ⟨.listAccounts, a⟩ :: attempts ∧ attempts.length ≤ 3 ∧
      (∀ x ∈ attempts, x.question = .rescan [address] startHeight) ∧
      (attempts ≠ [] → ∃ accounts, a = .ok accounts ∧
        RescanDue startHeight (accounts.scanHeight address)) ∧
      (∀ accounts, a = .ok accounts → RescanDue startHeight (accounts.scanHeight address) →
        attempts ≠ []) ∧
      ((∀ x ∈ attempts, ∃ e, x.answer = .error e) → attempts = [] ∨ attempts.length = 3) ∧
      (r = .ok () → ∃ accounts, a = .ok accounts ∧
        (RescanDue startHeight (accounts.scanHeight address) →
          (⟨.rescan [address] startHeight, .ok ()⟩ : LwsExchange) ∈ attempts)) := by
  rcases trace_rescanBackTo h with ⟨e, rfl, rfl⟩ | ⟨accounts, rfl, hdue, rfl⟩ |
    ⟨accounts, failures, rfl, hdue, hlength, hall, hfail⟩
  · exact ⟨.error e, [], rfl, by simp, by simp, by simp, by rintro _ ⟨⟩, by simp, by rintro ⟨⟩⟩
  · refine ⟨.ok accounts, [], rfl, by simp, by simp, by simp, ?_, by simp, ?_⟩
    · rintro _ ⟨⟩ h
      exact absurd h hdue
    · exact fun _ => ⟨accounts, rfl, fun h => absurd h hdue⟩
  · refine ⟨.ok accounts, failures ++ [⟨.rescan [address] startHeight, r⟩], rfl, ?_, ?_,
      fun _ => ⟨accounts, rfl, hdue⟩, by simp, ?_, ?_⟩
    · rw [List.length_append, List.length_singleton]
      omega
    · intro x hx
      rcases List.mem_append.mp hx with hx | hx
      · obtain ⟨e, rfl⟩ := hfail x hx
        rfl
      · rw [List.mem_singleton.mp hx]
    · intro herrors
      obtain ⟨e, he⟩ := herrors ⟨.rescan [address] startHeight, r⟩ (by simp)
      right
      rw [List.length_append, List.length_singleton, hall e he]
    · rintro rfl
      exact ⟨accounts, rfl, fun _ => List.mem_append_right _ (List.mem_singleton.mpr rfl)⟩

/-- The four shapes of an import: the read fails, the account is listed, the add fails, or the added
account is provisioned and then rescanned. -/
theorem trace_importAccount {r : Except AppError Unit}
    (h : Trace (c.importAccount cached address viewKey startHeight nMin) t r) :
    (∃ e : AppError, t = [⟨.listAccounts, .error e⟩] ∧ r = .error e) ∨
    (∃ (accounts : ListAccountsResponse) (height : UInt64) (tp : List LwsExchange)
        (rp : Except AppError (Option UInt32)),
      accounts.scanHeight address = some height ∧ t = ⟨.listAccounts, .ok accounts⟩ :: tp ∧
      Trace (c.provisionAccount0Covering cached address viewKey nMin) tp rp ∧
      r = rp.map fun _ => ()) ∨
    (∃ (accounts : ListAccountsResponse) (e : AppError), accounts.scanHeight address = none ∧
      t = [⟨.listAccounts, .ok accounts⟩, ⟨.addAccount address viewKey, .error e⟩] ∧
      r = .error e) ∨
    ∃ (accounts : ListAccountsResponse) (tp tr : List LwsExchange)
        (rp : Except AppError (Option UInt32)) (rr : Except AppError Unit),
      accounts.scanHeight address = none ∧
      t = ⟨.listAccounts, .ok accounts⟩ :: ⟨.addAccount address viewKey, .ok ()⟩ :: (tp ++ tr) ∧
      Trace (c.provisionAccount0Covering cached address viewKey nMin) tp rp ∧
      Trace (rescanBackTo address startHeight) tr rr ∧
      r = rr.bind fun _ => rp.map fun _ => () := by
  unfold importAccount at h
  rcases Remote.trace_bind.mp h with ⟨e, hread, rfl⟩ | ⟨height, t₁, t₂, rfl, hread, hrest⟩
  · obtain ⟨a, rfl, ha⟩ := trace_accountScanHeight.mp hread
    cases a with
    | error e' =>
      obtain rfl := Except.error.inj ha
      exact .inl ⟨e, rfl, rfl⟩
    | ok accounts => cases ha
  · obtain ⟨a, rfl, ha⟩ := trace_accountScanHeight.mp hread
    cases a with
    | error e => cases ha
    | ok accounts =>
      replace ha := Except.ok.inj ha
      cases height with
      | some height =>
        refine .inr (.inl ⟨accounts, height, t₂, ?_⟩)
        rcases Remote.trace_bind.mp hrest with ⟨e, hfail, rfl⟩ | ⟨m, t₃, t₄, rfl, hok, hret⟩
        · exact ⟨.error e, ha.symm, rfl, hfail, rfl⟩
        · obtain ⟨rfl, rfl⟩ := Remote.trace_ret.mp hret
          rw [List.append_nil]
          exact ⟨.ok m, ha.symm, rfl, hok, rfl⟩
      | none =>
        rcases Remote.trace_bind.mp hrest with ⟨e, hadd, rfl⟩ | ⟨_, t₃, t₄, rfl, hadd, hrest⟩
        · refine .inr (.inr (.inl ⟨accounts, e, ha.symm, ?_, rfl⟩))
          rw [trace_request.mp hadd]
          rfl
        · -- the held results are surfaced, the rescan first
          rw [trace_request.mp hadd]
          obtain ⟨rp, tp, t₅, rfl, hp, hrest⟩ := Remote.trace_held_bind.mp hrest
          obtain ⟨rr, tr, t₆, rfl, hr, hrest⟩ := Remote.trace_held_bind.mp hrest
          refine .inr (.inr (.inr ⟨accounts, tp, tr, rp, rr, ha.symm, ?_⟩))
          have hsurface : t₆ = [] ∧ r = rr.bind fun _ => rp.map fun _ => () := by
            cases rr with
            | error e => exact Remote.trace_fail.mp hrest
            | ok _ =>
              cases rp with
              | error e => exact Remote.trace_fail.mp hrest
              | ok m => exact Remote.trace_ret.mp hrest
          obtain ⟨rfl, rfl⟩ := hsurface
          rw [List.append_nil]
          exact ⟨rfl, hp, hr, rfl⟩

end LwsClient

/-! ### The discipline -/

/-- What the exchanges of an import of `address` look like. -/
structure RescanDiscipline (address viewKey : String) (startHeight : UInt64) (nMin : UInt32)
    (t : List LwsExchange) (r : Except AppError Unit) : Prop where
  /-- The account is looked up first. -/
  reads : ∃ (a : Except AppError ListAccountsResponse) (rest : List LwsExchange),
    t = ⟨.listAccounts, a⟩ :: rest
  /-- An account that is not listed is added, or the import fails. -/
  adds : ∀ (accounts : ListAccountsResponse) (rest : List LwsExchange),
    t = ⟨.listAccounts, .ok accounts⟩ :: rest → accounts.scanHeight address = none →
    r = .ok () → (⟨.addAccount address viewKey, .ok ()⟩ : LwsExchange) ∈ rest
  /-- A listed account is not rescanned. -/
  listed : ∀ (accounts : ListAccountsResponse) (rest : List LwsExchange),
    t = ⟨.listAccounts, .ok accounts⟩ :: rest → (accounts.scanHeight address).isSome →
    ∀ x ∈ t, ¬ x.question.rescans
  /-- A rescan asks for the birthday, and the scan height read after the add is above it. -/
  lowers : ∀ (before after : List LwsExchange) (x : LwsExchange), t = before ++ x :: after →
    x.question.rescans → x.question = .rescan [address] startHeight ∧
    ∃ (accounts : ListAccountsResponse) (first mid attempts : List LwsExchange),
      before = first ++ ⟨.addAccount address viewKey, .ok ()⟩ :: mid ++
        ⟨.listAccounts, .ok accounts⟩ :: attempts ∧
      (∀ y ∈ attempts, y.question.rescans) ∧
      ∀ height, accounts.scanHeight address = some height → startHeight < height
  /-- It is asked for three times at most. -/
  attempts : t.countP (·.question.rescans) ≤ 3
  /-- It is given up only after three failures. -/
  persists : (∃ x ∈ t, x.question.rescans) →
    (∀ x ∈ t, x.question.rescans → ∃ e, x.answer = .error e) → t.countP (·.question.rescans) = 3
  /-- The provisioning is over by then. -/
  provisioned : ∀ (before after : List LwsExchange) (x : LwsExchange), t = before ++ x :: after →
    x.question.rescans → ∀ y ∈ after, ¬ y.question.provisions
  /-- Once the account is added the rescan is seen to, whatever the provisioning meets. -/
  unprevented : ∀ first rest : List LwsExchange,
    t = first ++ ⟨.addAccount address viewKey, .ok ()⟩ :: rest →
    ∃ (a : Except AppError ListAccountsResponse) (mid tail : List LwsExchange),
      rest = mid ++ ⟨.listAccounts, a⟩ :: tail ∧ (∀ y ∈ mid, y.question.provisions) ∧
      ∀ accounts, a = .ok accounts → RescanDue startHeight (accounts.scanHeight address) →
        ∃ y ∈ tail, y.question.rescans
  /-- Success means that the subaddresses are provisioned. -/
  covered : r = .ok () → nMin = 0 ∨ ∃ (resp : ProvisionSubaddrsResponse) (ceiling : UInt32),
    (⟨.provisionSubaddrs address viewKey 0 0 1 nMin true, .ok resp⟩ : LwsExchange) ∈ t ∧
    resp.confirmedMinorMax = some ceiling ∧ nMin.toNat ≤ ceiling.toNat + 1
  /-- It means that an added account is scanned from the birthday. -/
  rescanned : r = .ok () → ∀ first rest : List LwsExchange,
    t = first ++ ⟨.addAccount address viewKey, .ok ()⟩ :: rest →
    ∃ accounts : ListAccountsResponse, (⟨.listAccounts, .ok accounts⟩ : LwsExchange) ∈ rest ∧
      (RescanDue startHeight (accounts.scanHeight address) →
        (⟨.rescan [address] startHeight, .ok ()⟩ : LwsExchange) ∈ rest)

section Discipline

variable {c : LwsClient} {cached : Option UInt32} {address viewKey : String}
  {startHeight : UInt64} {nMin : UInt32} {t : List LwsExchange} {r : Except AppError Unit}

/-- An import that neither rescans nor adds an account is disciplined, if its success means that
the subaddresses are provisioned. -/
theorem discipline_of_quiet
    (hreads : ∃ (a : Except AppError ListAccountsResponse) (rest : List LwsExchange),
      t = ⟨.listAccounts, a⟩ :: rest)
    (hlisted : ∀ (accounts : ListAccountsResponse) (rest : List LwsExchange),
      t = ⟨.listAccounts, .ok accounts⟩ :: rest → r = .ok () →
      accounts.scanHeight address ≠ none)
    (hrescans : ∀ x ∈ t, ¬ x.question.rescans)
    (hadds : (⟨.addAccount address viewKey, .ok ()⟩ : LwsExchange) ∉ t)
    (hcovered : r = .ok () → nMin = 0 ∨ ∃ (resp : ProvisionSubaddrsResponse) (ceiling : UInt32),
      (⟨.provisionSubaddrs address viewKey 0 0 1 nMin true, .ok resp⟩ : LwsExchange) ∈ t ∧
      resp.confirmedMinorMax = some ceiling ∧ nMin.toNat ≤ ceiling.toNat + 1) :
    RescanDiscipline address viewKey startHeight nMin t r where
  reads := hreads
  adds accounts rest ht hnone hr := absurd hnone (hlisted accounts rest ht hr)
  listed _ _ _ _ := hrescans
  lowers before after x ht hx := absurd hx (hrescans x (by simp [ht]))
  attempts := by
    rw [List.countP_eq_zero.mpr hrescans]
    exact Nat.zero_le 3
  persists := fun ⟨x, hx, hasks⟩ => absurd hasks (hrescans x hx)
  provisioned before after x ht hx := absurd hx (hrescans x (by simp [ht]))
  unprevented first rest ht := absurd (by simp [ht]) hadds
  covered := hcovered
  rescanned _ first rest ht := absurd (by simp [ht]) hadds

/-- The exchanges of an import that adds the account. -/
def addedTrace (address viewKey : String) (accounts : ListAccountsResponse) (tp : List LwsExchange)
    (a : Except AppError ListAccountsResponse) (attempts : List LwsExchange) : List LwsExchange :=
  ⟨.listAccounts, .ok accounts⟩ :: ⟨.addAccount address viewKey, .ok ()⟩ ::
    (tp ++ ⟨.listAccounts, a⟩ :: attempts)

section Added

variable {accounts : ListAccountsResponse} {tp attempts : List LwsExchange}
  {a : Except AppError ListAccountsResponse}

/-- The account is added once. -/
theorem addedTrace_rest (hprovisions : ∀ x ∈ tp, x.question.provisions)
    (hrescans : ∀ x ∈ attempts, x.question.rescans) {first rest : List LwsExchange}
    (h : addedTrace address viewKey accounts tp a attempts =
      first ++ ⟨.addAccount address viewKey, .ok ()⟩ :: rest) :
    rest = tp ++ ⟨.listAccounts, a⟩ :: attempts := by
  have hnone : ∀ x ∈ tp ++ ⟨.listAccounts, a⟩ :: attempts, ¬ x.question.adds := by
    intro x hx
    simp only [List.mem_append, List.mem_cons] at hx
    rcases hx with hx | rfl | hx
    · exact (LwsRequest.provisions_only (hprovisions x hx)).2
    · exact Bool.false_ne_true
    · have hkind := hrescans x hx
      cases hq : x.question with
      | rescan => exact Bool.false_ne_true
      | _ => simp [hq, LwsRequest.rescans] at hkind
  cases first with
  | nil => cases (List.cons.inj h).1
  | cons y first =>
    cases first with
    | nil => exact (List.cons.inj (List.cons.inj h).2).2.symm
    | cons z first =>
      -- a second add would be among the others
      have htail : tp ++ ⟨.listAccounts, a⟩ :: attempts =
          first ++ ⟨.addAccount address viewKey, .ok ()⟩ :: rest :=
        (List.cons.inj (List.cons.inj h).2).2
      exact absurd rfl (hnone ⟨.addAccount address viewKey, .ok ()⟩ (by rw [htail]; simp))

theorem addedTrace_split (hprovisions : ∀ x ∈ tp, x.question.provisions)
    {before after : List LwsExchange} {x : LwsExchange} (hx : x.question.rescans)
    (h : addedTrace address viewKey accounts tp a attempts = before ++ x :: after) :
    ∃ earlier, before = ⟨.listAccounts, .ok accounts⟩ :: ⟨.addAccount address viewKey, .ok ()⟩ ::
        (tp ++ [⟨.listAccounts, a⟩]) ++ earlier ∧ attempts = earlier ++ x :: after := by
  have hquiet : ∀ y ∈ (⟨.listAccounts, .ok accounts⟩ : LwsExchange) ::
      ⟨.addAccount address viewKey, .ok ()⟩ :: (tp ++ [⟨.listAccounts, a⟩]),
      y.question.rescans = false := by
    intro y hy
    simp only [List.mem_cons, List.mem_append, List.not_mem_nil, or_false] at hy
    rcases hy with rfl | rfl | hy | rfl
    · rfl
    · rfl
    · exact Bool.eq_false_iff.mpr (LwsRequest.provisions_only (hprovisions y hy)).1
    · rfl
  exact Lib.split_after (by rw [← h]; simp [addedTrace]) hquiet hx

theorem addedTrace_countP (hprovisions : ∀ x ∈ tp, x.question.provisions)
    (hrescans : ∀ x ∈ attempts, x.question.rescans) :
    (addedTrace address viewKey accounts tp a attempts).countP (·.question.rescans) =
      attempts.length := by
  have hnone : tp.countP (fun x => x.question.rescans) = 0 :=
    List.countP_eq_zero.mpr fun x hx => (LwsRequest.provisions_only (hprovisions x hx)).1
  have hall : attempts.countP (fun x => x.question.rescans) = attempts.length :=
    List.countP_eq_length.mpr hrescans
  have hlist : LwsRequest.listAccounts.rescans = false := rfl
  have hadd : (LwsRequest.addAccount address viewKey).rescans = false := rfl
  simp only [addedTrace, List.countP_cons, List.countP_append, hnone, hall, hlist, hadd,
    Bool.false_eq_true, if_false, Nat.add_zero, Nat.zero_add]

end Added

/-- **The rescan discipline of an import.**  Whatever the server answers, the exchanges of an import
are disciplined. -/
theorem import_discipline
    (h : Lib.Remote.Trace (c.importAccount cached address viewKey startHeight nMin) t r) :
    RescanDiscipline address viewKey startHeight nMin t r := by
  rcases LwsClient.trace_importAccount h with ⟨e, rfl, rfl⟩ |
    ⟨accounts, height, tp, rp, hheight, rfl, hp, rfl⟩ | ⟨accounts, e, -, rfl, rfl⟩ | ⟨accounts, tp, tr, rp, rr, hnone, rfl, hp, hr, rfl⟩
  · exact discipline_of_quiet ⟨_, _, rfl⟩ (by simp)
      (List.forall_mem_singleton.mpr Bool.false_ne_true) (by simp) (by rintro ⟨⟩)
  · -- a listed account is only provisioned
    obtain ⟨hprovisions, hok⟩ := LwsClient.trace_provisionAccount0Covering hp
    refine discipline_of_quiet ⟨_, _, rfl⟩ ?_ ?_ ?_ ?_
    · intro accounts' rest ht _
      have hsame : accounts = accounts' := by simpa using (List.cons.inj ht).1
      rw [← hsame, hheight]
      exact Option.some_ne_none height
    · refine List.forall_mem_cons.mpr ⟨Bool.false_ne_true, fun x hx => ?_⟩
      exact (LwsRequest.provisions_only (hprovisions x hx)).1
    · intro hmem
      rcases List.mem_cons.mp hmem with heq | hmem
      · cases heq
      · exact (LwsRequest.provisions_only (hprovisions _ hmem)).2 rfl
    · intro hr
      cases rp with
      | error e => cases hr
      | ok m =>
        refine (hok m rfl).imp_right ?_
        rintro ⟨resp, ceiling, hresp, hrest⟩
        exact ⟨resp, ceiling, List.mem_cons_of_mem _ hresp, hrest⟩
  · refine discipline_of_quiet ⟨_, _, rfl⟩ (fun _ _ _ => by rintro ⟨⟩) ?_ ?_ (by rintro ⟨⟩)
    · rintro x (_ | ⟨_, _ | ⟨_, ⟨⟩⟩⟩)
      · exact Bool.false_ne_true
      · exact Bool.false_ne_true
    · rintro (_ | ⟨_, _ | ⟨_, ⟨⟩⟩⟩)
  · obtain ⟨hprovisions, hok⟩ := LwsClient.trace_provisionAccount0Covering hp
    obtain ⟨a, attempts, rfl, hlength, hask, hread, hdue, hthree, hrescanned⟩ :=
      LwsClient.rescan_attempts hr
    have hrescans : ∀ x ∈ attempts, x.question.rescans := by
      intro x hx
      rw [hask x hx]
      rfl
    have hresult : (rr.bind fun _ => rp.map fun _ => ()) = .ok () →
        rr = .ok () ∧ ∃ m, rp = .ok m := by
      intro heq
      cases rr with
      | error e => cases heq
      | ok _ =>
        cases rp with
        | error e => cases heq
        | ok m => exact ⟨rfl, m, rfl⟩
    constructor
    · exact ⟨_, _, rfl⟩
    · intro accounts' rest ht _ _
      rw [← (List.cons.inj ht).2]
      exact List.mem_cons_self
    · intro accounts' rest ht hlisted
      have hsame : accounts = accounts' := by simpa using (List.cons.inj ht).1
      rw [← hsame, hnone] at hlisted
      cases hlisted
    · intro before after x ht hx
      obtain ⟨earlier, rfl, hattempts⟩ := addedTrace_split hprovisions hx ht
      have hmem : ∀ y ∈ earlier, y ∈ attempts := fun y hy => by simp [hattempts, hy]
      obtain ⟨accounts', rfl, hd⟩ := hread (by simp [hattempts])
      refine ⟨hask x (by simp [hattempts]), accounts', [⟨.listAccounts, .ok accounts⟩], tp, earlier,
        by simp, fun y hy => hrescans y (hmem y hy), ?_⟩
      intro height hheight
      rw [hheight] at hd
      exact hd
    · exact (addedTrace_countP hprovisions hrescans).trans_le hlength
    · rintro ⟨x, hx, hasks⟩ herrors
      obtain ⟨before, after, hsplit⟩ := List.append_of_mem hx
      obtain ⟨earlier, -, hattempts⟩ := addedTrace_split hprovisions hasks hsplit
      have hfailed := hthree fun y hy => herrors y (by simp [hy]) (hrescans y hy)
      refine (addedTrace_countP hprovisions hrescans).trans (hfailed.resolve_left ?_)
      rw [hattempts]
      simp
    · intro before after x ht hx y hy hprovides
      obtain ⟨earlier, rfl, hattempts⟩ := addedTrace_split hprovisions hx ht
      exact absurd (hrescans y (by simp [hattempts, hy])) (LwsRequest.provisions_only hprovides).1
    · intro first rest ht
      refine ⟨a, tp, attempts, addedTrace_rest hprovisions hrescans ht, hprovisions, ?_⟩
      intro accounts' ha hd
      obtain ⟨y, hy⟩ := List.exists_mem_of_ne_nil attempts (hdue accounts' ha hd)
      exact ⟨y, hy, hrescans y hy⟩
    · intro heq
      obtain ⟨-, m, rfl⟩ := hresult heq
      refine (hok m rfl).imp_right ?_
      rintro ⟨resp, ceiling, hresp, hcovers⟩
      exact ⟨resp, ceiling, by simp [hresp], hcovers⟩
    · intro heq first rest ht
      rw [addedTrace_rest hprovisions hrescans ht]
      obtain ⟨accounts', rfl, hasked⟩ := hrescanned (hresult heq).1
      exact ⟨accounts', by simp, fun hd => by simp [hasked hd]⟩

end Discipline

/-- An answer that lists only the address "4a", at a height. -/
def ListAccountsResponse.sample (height : UInt64) : ListAccountsResponse :=
  ⟨[⟨"4a", height⟩], [], []⟩

/-- The answer of a server without accounts. -/
def ListAccountsResponse.empty : ListAccountsResponse := ⟨[], [], []⟩

/-- The client of a sample. -/
def LwsClient.importSample : LwsClient where
  network := "monero"
  daemonConfigured := false
  addressTxs _ _ := .error (.nodeError "unused")
  getInfo := .error (.nodeError "unused")
  transactions _ := .error (.nodeError "unused")

/-- The ranges of an account whose subaddresses 0 and 1 are provisioned. -/
def ProvisionSubaddrsResponse.sample : ProvisionSubaddrsResponse := ⟨[⟨0, [(0, 1)]⟩]⟩

/-- An import whose first provisioning and first two rescans fail. -/
def importSampleTrace : List LwsExchange :=
  [⟨.listAccounts, .ok .empty⟩, ⟨.addAccount "4a" "77", .ok ()⟩, ⟨.getVersion, .ok ⟨100⟩⟩,
    ⟨.provisionSubaddrs "4a" "77" 0 0 1 2 true, .error (.nodeError "timeout")⟩,
    ⟨.provisionSubaddrs "4a" "77" 0 0 1 2 true, .ok .sample⟩,
    ⟨.listAccounts, .ok (.sample 1000)⟩,
    ⟨.rescan ["4a"] 500, .error (.nodeError "monero LWS rescan failed (HTTP 503)")⟩,
    ⟨.rescan ["4a"] 500, .error (.nodeError "monero LWS rescan failed (HTTP 503)")⟩,
    ⟨.rescan ["4a"] 500, .ok ()⟩]

theorem trace_importSample : Lib.Remote.Trace
    (LwsClient.importSample.importAccount none "4a" "77" 500 2) importSampleTrace (.ok ()) :=
  .ask _ (.ask _ (.ask _ (.ask _ (.ask _ (.ask _ (.ask _ (.ask _ (.ask _ (.ret ())))))))))

/-- The sample is disciplined. -/
theorem importSample_disciplined :
    RescanDiscipline "4a" "77" 500 2 importSampleTrace (.ok ()) ∧
      importSampleTrace.countP (·.question.rescans) = 3 :=
  ⟨import_discipline trace_importSample, by decide⟩

end SmirkBackend
