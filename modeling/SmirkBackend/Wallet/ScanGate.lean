import SmirkBackend.Chain.LwsImport
import SmirkBackend.Lib.RemoteGate
import SmirkBackend.Wallet.DelegatedVerify
import SmirkBackend.Wallet.RestorePricing

/-!
# Scans behind the restore gate

A Grin scan is served by a light server if that is configured and up with the chain, and else by the
operator's wallet.  A light wallet for XMR or WOW is registered at the tip, or from a birthday.  An
old height makes the server scan the chain, so both endpoints read the tip first and let nobody by
who starts too deep or has not paid.

* `scans_admitted` : no scan is started that was not admitted, at a tip read before in that run.
* `grin_scan_attested` : what a Grin scan returns, and that the light server cannot make it fail.
-/

namespace SmirkBackend

open Config (RestoreConfig)
open Lib (Remote)
open Lib.Remote (Trace)

/-! ### Exchanges -/

/-- `GrinLwsRegister`. -/
structure GrinLwsRegister where
  /-- The account is scanned. -/
  registered : Bool
  /-- This call created it. -/
  newAccount : Bool
  /-- Height it is scanned up to. -/
  scanHeight : UInt64
  /-- Height it is scanned from. -/
  startHeight : UInt64
  deriving DecidableEq

/-- `GrinLwsBalance`. -/
structure GrinLwsBalance where
  /-- Unspent total. -/
  total : UInt64
  /-- Spendable total. -/
  unlocked : UInt64
  /-- Number of unspent outputs. -/
  count : UInt64
  /-- Height the account is scanned up to. -/
  scannedHeight : UInt64
  /-- Chain tip. -/
  blockchainHeight : UInt64
  deriving DecidableEq

/-- `GrinLwsUnspentOut`. -/
structure GrinLwsUnspentOut where
  /-- Commitment. -/
  commit : String
  /-- Amount. -/
  value : UInt64
  /-- Height of the block that holds it. -/
  height : UInt64
  /-- Output index. -/
  mmrIndex : UInt64
  /-- A block reward. -/
  isCoinbase : Bool
  /-- Height from which it can be spent. -/
  lockHeight : UInt64
  /-- It can be spent at the tip. -/
  spendable : Bool
  /-- Recovered key id. -/
  keyId : Option String
  /-- Recovered child index. -/
  nChild : Option UInt32
  deriving DecidableEq

/-- `GrinLwsUnspentOuts`. -/
structure GrinLwsUnspentOuts where
  /-- Unspent outputs. -/
  outputs : List GrinLwsUnspentOut
  /-- Chain tip. -/
  blockchainHeight : UInt64
  deriving DecidableEq

/-- `ViewWalletOutputResult`. -/
structure ViewWalletOutputResult where
  /-- Commitment. -/
  commit : String
  /-- Amount. -/
  value : UInt64
  /-- Height of the block that holds it. -/
  height : UInt64
  /-- Output index. -/
  mmrIndex : UInt64
  /-- A block reward. -/
  isCoinbase : Bool
  /-- Height from which it can be spent. -/
  lockHeight : UInt64
  deriving DecidableEq

/-- `ViewWallet`. -/
structure ViewWallet where
  /-- The view credential. -/
  rewindHash : String
  /-- Recognized outputs. -/
  outputResult : List ViewWalletOutputResult
  /-- Their total. -/
  totalBalance : UInt64
  /-- Where the next scan goes on. -/
  lastPmmrIndex : UInt64
  deriving DecidableEq

/-- An exchange of the two endpoints. -/
inductive ScanRead
  /-- `GET /height` of the Grin light server. -/
  | lwsHeight
  /-- `POST /register` there. -/
  | lwsRegister (rewindHash : String) (startHeight : Option UInt64)
  /-- `POST /get_balance` there. -/
  | lwsBalance (rewindHash : String)
  /-- `POST /get_unspent_outs` there. -/
  | lwsUnspentOuts (rewindHash : String)
  /-- `get_status` of the Grin node. -/
  | nodeStatus
  /-- `open_wallet` of the Grin wallet. -/
  | openWallet
  /-- `scan_rewind_hash` of the Grin wallet. -/
  | ownerScan (token rewindHash : String) (startHeight : Option UInt64)
  /-- `get_info` of the daemon of XMR or WOW. -/
  | daemonInfo (asset : String)
  /-- A request to the light-wallet server of XMR or WOW. -/
  | lws (asset : String) (q : LwsRequest)
  deriving DecidableEq

/-- What a request is answered by. -/
abbrev ScanRead.Reply : ScanRead → Type
  | lwsHeight => UInt64
  | lwsRegister _ _ => GrinLwsRegister
  | lwsBalance _ => GrinLwsBalance
  | lwsUnspentOuts _ => GrinLwsUnspentOuts
  | nodeStatus => RpcEnvelope UInt64
  | openWallet => RpcEnvelope String
  | ownerScan _ _ _ => RpcEnvelope ViewWallet
  | daemonInfo _ => GetInfoResponse
  | lws _ q => q.Reply

/-- A program of the handlers. -/
abbrev ScanProgram := Remote ScanRead ScanRead.Reply AppError

/-- A request with its outcome. -/
abbrev ScanExchange := Lib.Exchange ScanRead ScanRead.Reply AppError

/-- One exchange, which must succeed. -/
def ScanRead.ask (q : ScanRead) : ScanProgram q.Reply := .question q

/-! ### Requests and responses -/

/-- `GrinScanRequest`. -/
structure GrinScanRequest where
  /-- The view credential. -/
  rewindHash : String
  /-- Height to scan from. -/
  startHeight : Option UInt64
  /-- The proof of work. -/
  restorePowNonce : Option UInt64

/-- `GrinOutput`. -/
structure GrinOutput where
  /-- Commitment. -/
  commit : String
  /-- Amount. -/
  value : UInt64
  /-- Height of the block that holds it. -/
  height : UInt64
  /-- Output index. -/
  mmrIndex : UInt64
  /-- A block reward. -/
  isCoinbase : Bool
  /-- Height from which it can be spent. -/
  lockHeight : UInt64
  /-- Recovered key id. -/
  keyId : Option String
  /-- Recovered child index. -/
  nChild : Option UInt32
  /-- It can be spent at the tip. -/
  spendable : Option Bool
  deriving DecidableEq

/-- `GrinScanResponse`. -/
structure GrinScanResponse where
  /-- Recognized outputs. -/
  outputs : List GrinOutput
  /-- Their total. -/
  totalBalance : UInt64
  /-- Where the next scan goes on. -/
  lastPmmrIndex : UInt64
  /-- Height the light server has scanned up to. -/
  scannedHeight : Option UInt64
  /-- The light server's chain tip. -/
  blockchainHeight : Option UInt64
  deriving DecidableEq

/-- `RegisterRequest`. -/
structure XmrWow.RegisterRequest where
  /-- `xmr` or `wow`. -/
  asset : String
  /-- Address. -/
  address : String
  /-- Private view key. -/
  viewKey : String
  /-- Birthday of the wallet. -/
  startHeight : Option UInt64
  /-- The proof of work. -/
  restorePowNonce : Option UInt64
  /-- Subaddresses wanted. -/
  subaddrCount : Option UInt32

/-- `ProvisionRequest`. -/
structure ProvisionRequest where
  /-- `xmr` or `wow`. -/
  asset : String
  /-- Address. -/
  address : String
  /-- Private view key. -/
  viewKey : String
  /-- Last subaddress wanted. -/
  maxMinor : Option UInt32

/-- `ProvisionResponse`. -/
structure ProvisionResponse where
  /-- `xmr` or `wow`. -/
  asset : String
  /-- Last confirmed subaddress. -/
  provisionedMinorMax : UInt32
  deriving DecidableEq

/-- `output_dto`: the wallet knows neither derivation paths nor what can be spent. -/
def outputDto (o : ViewWalletOutputResult) : GrinOutput where
  commit := o.commit
  value := o.value
  height := o.height
  mmrIndex := o.mmrIndex
  isCoinbase := o.isCoinbase
  lockHeight := o.lockHeight
  keyId := none
  nChild := none
  spendable := none

/-- `output_dto_lws`. -/
def outputDtoLws (o : GrinLwsUnspentOut) : GrinOutput where
  commit := o.commit
  value := o.value
  height := o.height
  mmrIndex := o.mmrIndex
  isCoinbase := o.isCoinbase
  lockHeight := o.lockHeight
  keyId := o.keyId
  nChild := o.nChild
  spendable := some o.spendable

/-- The response of the light server's scan. -/
def GrinScanResponse.ofLws (bal : GrinLwsBalance) (outs : GrinLwsUnspentOuts) :
    GrinScanResponse where
  outputs := outs.outputs.map outputDtoLws
  totalBalance := bal.total
  lastPmmrIndex := ((outs.outputs.map (·.mmrIndex)).max?).getD 0
  scannedHeight := some bal.scannedHeight
  blockchainHeight := some bal.blockchainHeight

/-- The response of the wallet's scan. -/
def GrinScanResponse.ofWallet (view : ViewWallet) : GrinScanResponse where
  outputs := view.outputResult.map outputDto
  totalBalance := view.totalBalance
  lastPmmrIndex := view.lastPmmrIndex
  scannedHeight := none
  blockchainHeight := none

/-! ### The handlers -/

/-- `SYNC_MARGIN`. -/
def syncMargin : UInt64 := 2

/-- `MAX_PROVISION_MINORS`. -/
def maxProvisionMinors : UInt32 := 200

/-- The part of an instance that the handlers read. -/
structure ScanInstance where
  /-- `str::to_lowercase`. -/
  lowercase : String → String
  /-- The restore policy. -/
  restore : RestoreConfig
  /-- SHA-256. -/
  sha256 : List UInt8 → List UInt8
  /-- The Grin light server is configured. -/
  grinLws : Bool
  /-- The Grin wallet and node are configured. -/
  grin : Bool
  /-- The cached token of the Grin wallet. -/
  sessionToken : Option String
  /-- What is cached after a failed attempt: the token was dropped, and another request may have
  opened the wallet since. -/
  sessionTokenAgain : Option String
  /-- XMR. -/
  xmr : Option LwsClient
  /-- WOW. -/
  wow : Option LwsClient
  /-- The clients' cached bounds on subaddresses. -/
  subaddrCapacity : String → Option UInt32
  /-- `FEATURE_XMR_SUBADDR_PROVISIONING`. -/
  subaddrProvisioning : Bool

namespace ScanInstance

variable (inst : ScanInstance)

/-- `grin_client`. -/
def grinClient : Except AppError Unit :=
  if inst.grin then .ok () else .error (.validationError "grin support is not enabled on this server")

/-- `get_height` of the wallet's node. -/
def nodeHeight : ScanProgram UInt64 := do
  let env ← ScanRead.nodeStatus.ask
  .ofExcept (env.intoResult "grin node")

/-- `grin_tip`: the light server's height, or else the node's. -/
def grinTip : ScanProgram UInt64 :=
  .fallback (if inst.grinLws then some <$> ScanRead.lwsHeight.ask else pure none) do
    .ofExcept inst.grinClient
    nodeHeight

/-- `scan_via_grin_lws`: no answer while the light server is behind. -/
def scanViaGrinLws (req : GrinScanRequest) (startHeight : UInt64) :
    ScanProgram (Option GrinScanResponse) := do
  let _ ← (ScanRead.lwsRegister req.rewindHash (some startHeight)).ask
  let bal ← (ScanRead.lwsBalance req.rewindHash).ask
  if Lib.saturatingAddU bal.scannedHeight syncMargin < bal.blockchainHeight then pure none
  else do
    let outs ← (ScanRead.lwsUnspentOuts req.rewindHash).ask
    pure (some (.ofLws bal outs))

/-- `open_wallet`. -/
def openWallet (cached : Option String) : ScanProgram String :=
  match cached with
  | some token => pure token
  | none => do
    let env ← ScanRead.openWallet.ask
    .ofExcept (env.intoResult "grin wallet")

/-- `scan_attempt`. -/
def scanAttempt (cached : Option String) (rewindHash : String) (startHeight : Option UInt64) :
    ScanProgram ViewWallet := do
  let token ← openWallet cached
  let env ← (ScanRead.ownerScan token rewindHash startHeight).ask
  .ofExcept (env.intoResult "grin wallet")

/-- `scan_rewind_hash`: a failed attempt is made again with a fresh token. -/
def scanRewindHash (rewindHash : String) (startHeight : Option UInt64) : ScanProgram ViewWallet :=
  .fallback (some <$> scanAttempt inst.sessionToken rewindHash startHeight)
    (scanAttempt inst.sessionTokenAgain rewindHash startHeight)

/-- The wallet's scan. -/
def scanViaWallet (req : GrinScanRequest) (startHeight : UInt64) : ScanProgram GrinScanResponse := do
  .ofExcept inst.grinClient
  let view ← inst.scanRewindHash req.rewindHash (some startHeight)
  pure (.ofWallet view)

/-- The height a Grin scan starts from. -/
def grinStart (req : GrinScanRequest) (tip : UInt64) : UInt64 :=
  req.startHeight.getD (inst.restore.minStartHeight "grin" tip)

/-- `scan`. -/
def scan (user : Except AppError Uuid) (req : GrinScanRequest) : ScanProgram GrinScanResponse := do
  let _ ← .ofExcept user
  .ofExcept (validateHex64 req.rewindHash "rewind_hash")
  .gated inst.grinTip
    (inst.restore.grinGate inst.sha256 req.rewindHash req.startHeight · req.restorePowNonce)
    fun tip =>
      .fallback (if inst.grinLws then scanViaGrinLws req (inst.grinStart req tip) else pure none)
        (inst.scanViaWallet req (inst.grinStart req tip))

/-- `height`. -/
def height (user : Except AppError Uuid) : ScanProgram UInt64 := do
  let _ ← .ofExcept user
  inst.grinTip

/-- `lws_for`. -/
def lwsFor (asset : String) : Except AppError LwsClient :=
  let enabled (client : Option LwsClient) :=
    client.elim (.error (.validationError (asset ++ " support is not enabled on this server"))) .ok
  match asset with
  | "xmr" => enabled inst.xmr
  | "wow" => enabled inst.wow
  | other => .error (.validationError
      ("Invalid CryptoNote asset: " ++ other ++ " (expected xmr or wow)"))

/-- `subaddr_provisioning_minors`. -/
def subaddrProvisioningMinors : UInt32 := if inst.subaddrProvisioning then maxProvisionMinors else 0

/-- `effective_provision_minors`. -/
def effectiveProvisionMinors (requested : Option UInt32) : UInt32 :=
  if inst.subaddrProvisioningMinors = 0 then 0
  else max inst.subaddrProvisioningMinors (min (requested.getD 0) maxProvisionMinors)

/-- `provision_width_for`. -/
def provisionWidthFor (maxMinor : Option UInt32) : UInt32 :=
  if !inst.subaddrProvisioning then 0
  else
    match maxMinor with
    | some m => min (Lib.saturatingAdd32 m 1) maxProvisionMinors
    | none => inst.subaddrProvisioningMinors

/-- `get_blockchain_height`. -/
def blockchainHeight (asset : String) (c : LwsClient) : ScanProgram UInt64 :=
  if !c.daemonConfigured then .fail (c.nodeErr "daemon" "daemon URL not configured")
  else do
    let resp ← (ScanRead.daemonInfo asset).ask
    if resp.error then .fail (c.nodeErr "daemon get_info" "daemon returned an error")
    else .ofExcept (resp.result.elim (.error (c.nodeErr "daemon get_info" "no result")) .ok)

end ScanInstance

namespace LwsClient

variable (c : LwsClient)

/-- `register_account`. -/
def registerAccount (cached : Option UInt32) (address viewKey : String) (provisionMinors : UInt32) :
    LwsProgram Unit := do
  match ← accountScanHeight address with
  | some _ => pure ()
  | none => adminAddAccount address viewKey
  if provisionMinors = 0 then pure ()
  else do
    let _ ← c.provisionAccount0Covering cached address viewKey provisionMinors
    pure ()

/-- `provision_account0`. -/
def provisionAccount0 (cached : Option UInt32) (address viewKey : String) (nMin : UInt32) :
    LwsProgram UInt32 := do
  match ← c.provisionAccount0WithRetry cached address viewKey nMin with
  | some confirmed => pure confirmed
  | none => .fail (.validationError "subaddress count must be at least 1")

end LwsClient

namespace ScanInstance

variable (inst : ScanInstance)

/-- `register`. -/
def register (user : Except AppError Uuid) (req : XmrWow.RegisterRequest) : ScanProgram Unit := do
  let _ ← .ofExcept user
  let asset := inst.lowercase req.asset
  let client ← .ofExcept (inst.lwsFor asset)
  .ofExcept (validateCnAddress req.address)
  .ofExcept (validateViewKey req.viewKey)
  let minors := inst.effectiveProvisionMinors req.subaddrCount
  match req.startHeight with
  | some h =>
    .gated (blockchainHeight asset client)
      (inst.restore.importGate asset inst.sha256 req.address (some h) · req.restorePowNonce)
      fun _ => (client.importAccount (inst.subaddrCapacity asset) req.address req.viewKey h
        minors).embed (.lws asset)
  | none => (client.registerAccount (inst.subaddrCapacity asset) req.address req.viewKey
      minors).embed (.lws asset)

/-- `provision_subaddrs`. -/
def provisionSubaddrs (user : Except AppError Uuid) (req : ProvisionRequest) :
    ScanProgram ProvisionResponse := do
  let _ ← .ofExcept user
  let asset := inst.lowercase req.asset
  let client ← .ofExcept (inst.lwsFor asset)
  .ofExcept (validateCnAddress req.address)
  .ofExcept (validateViewKey req.viewKey)
  let confirmed ← (client.provisionAccount0 (inst.subaddrCapacity asset) req.address req.viewKey
    (inst.provisionWidthFor req.maxMinor)).embed (.lws asset)
  pure ⟨asset, confirmed⟩

end ScanInstance

/-! ### Scans -/

/-- A scan of a chain for a view credential. -/
structure ChainScan where
  /-- The chain. -/
  chain : String
  /-- The address or rewind hash. -/
  credential : String
  /-- The height it starts from. -/
  start : UInt64
  deriving DecidableEq

/-- The scans from a height that a request starts; a wallet that is told no height scans all. -/
def ScanRead.scans : ScanRead → List ChainScan
  | lwsRegister rewindHash startHeight => startHeight.toList.map (⟨"grin", rewindHash, ·⟩)
  | ownerScan _ rewindHash startHeight => [⟨"grin", rewindHash, startHeight.getD 0⟩]
  | lws asset (.rescan addresses height) => addresses.map (⟨asset, ·, height⟩)
  | _ => []

/-- An exchange that tells the tip of a chain. -/
inductive TellsTip : ScanExchange → String → UInt64 → Prop
  | lwsHeight (tip : UInt64) : TellsTip ⟨.lwsHeight, .ok tip⟩ "grin" tip
  | nodeStatus {env : RpcEnvelope UInt64} {tip : UInt64} (h : env.intoResult "grin node" = .ok tip) :
      TellsTip ⟨.nodeStatus, .ok env⟩ "grin" tip
  | daemonInfo {asset : String} {resp : GetInfoResponse} {tip : UInt64} (herror : resp.error = false)
      (h : resp.result = some tip) : TellsTip ⟨.daemonInfo asset, .ok resp⟩ asset tip

/-- A scan within the bound on the depth that is paid for. -/
structure Config.RestoreConfig.Admits (cfg : RestoreConfig) (sha256 : List UInt8 → List UInt8)
    (s : ChainScan) (tip : UInt64) (nonce : Option UInt64) : Prop where
  /-- It does not start too deep. -/
  depth : cfg.minStartHeight s.chain tip ≤ s.start
  /-- It is free, or the nonce is work for this very scan. -/
  paid : cfg.requiredRestorePowBits s.chain s.start tip = 0 ∨ ∃ n, nonce = some n ∧
    (cfg.requiredRestorePowBits s.chain s.start tip).toNat ≤
      zeroPrefix (sha256 (restorePowInput s.chain s.credential s.start n))

namespace Config.RestoreConfig

variable {cfg : RestoreConfig} {sha256 : List UInt8 → List UInt8} {chain address : String}
  {tip : UInt64} {nonce : Option UInt64}

theorem importGate_ok_iff {h : UInt64} :
    cfg.importGate chain sha256 address (some h) tip nonce = .ok () ↔
      cfg.Admits sha256 ⟨chain, address, h⟩ tip nonce := by
  simp only [importGate, bind_eq_ok_iff, enforceRestorePow_ok_iff]
  constructor
  · rintro ⟨⟨⟩, hdepth, hpaid⟩
    exact ⟨enforce_ok_iff.mp hdepth, hpaid⟩
  · rintro ⟨hdepth, hpaid⟩
    exact ⟨(), enforce_ok_iff.mpr hdepth, hpaid⟩

theorem grinGate_ok_iff {startHeight : Option UInt64} :
    cfg.grinGate sha256 address startHeight tip nonce = .ok () ↔
      cfg.Admits sha256 ⟨"grin", address, startHeight.getD (cfg.minStartHeight "grin" tip)⟩ tip
        nonce := importGate_ok_iff

end Config.RestoreConfig

/-- Programs that start no scans but those of a set. -/
abbrev ScansOnly (S : ChainScan → Prop) (q : ScanRead) : Prop := ∀ s ∈ q.scans, S s

/-- Programs that start no scan. -/
abbrev ScanRead.Quiet (q : ScanRead) : Prop := q.scans = []

theorem ScanRead.Quiet.scansOnly {q : ScanRead} (h : q.Quiet) (S : ChainScan → Prop) :
    ScansOnly S q := by
  intro s hs
  rw [show q.scans = [] from h] at hs
  cases hs

section Traces

variable {t : List ScanExchange}

@[simp] theorem trace_ask {q : ScanRead} {r : Except AppError q.Reply} :
    Trace q.ask t r ↔ t = [⟨q, r⟩] := Remote.trace_question

/-- **Behind a gate.**  When a program learns the tip without scanning, and works only on scans of
that tip, then every scan comes after the tip and past the check. -/
theorem admitted_of_gated {α : Type} {look : ScanProgram UInt64}
    {check : UInt64 → Except AppError Unit} {work : UInt64 → ScanProgram α} {chain : String}
    {scanAt : UInt64 → ChainScan} {r : Except AppError α} {before after : List ScanExchange}
    {x : ScanExchange}
    (hquiet : look.Asks ScanRead.Quiet)
    (htells : ∀ t tip, Trace look t (.ok tip) → ∃ y ∈ t, TellsTip y chain tip)
    (hwork : ∀ tip, (work tip).Asks (ScansOnly (· = scanAt tip)))
    (h : Trace (.gated look check work) (before ++ x :: after) r) {s : ChainScan}
    (hs : s ∈ x.question.scans) :
    ∃ tip, (∃ y ∈ before, TellsTip y chain tip) ∧ check tip = .ok () ∧ s = scanAt tip := by
  have hsome : ¬ ScanRead.Quiet x.question := fun hquiet => by
    rw [show x.question.scans = [] from hquiet] at hs
    cases hs
  rcases Remote.trace_gated.mp h with ⟨e, hlook, -⟩ | ⟨_, e, hlook, -⟩ |
    ⟨tip, looks, works, heq, hlook, hcheck, hrest⟩
  · exact absurd (hquiet _ _ hlook x (by simp)) hsome
  · exact absurd (hquiet _ _ hlook x (by simp)) hsome
  · -- the scan is not among the looks
    obtain ⟨earlier, rfl, rfl⟩ := Lib.split_after (p := fun y => !y.question.scans.isEmpty) heq.symm
      (fun y hy => by simp [hquiet _ _ hlook y hy]) (by simpa using hsome)
    obtain ⟨y, hy, hytip⟩ := htells _ _ hlook
    exact ⟨tip, ⟨y, List.mem_append_left _ hy, hytip⟩, hcheck, hwork tip _ _ hrest x (by simp) s hs⟩

end Traces

/-! ### What the parts scan -/

namespace LwsClient

variable {c : LwsClient} {cached : Option UInt32} {address viewKey : String} {nMin : UInt32}

theorem asks_accountScanHeight : (accountScanHeight address).Asks (· = .listAccounts) :=
  .bind (Remote.asks_question rfl) fun _ => Remote.asks_ret _

theorem asks_provisionAccount0WithRetry :
    (c.provisionAccount0WithRetry cached address viewKey nMin).Asks (·.provisions) := by
  have hattempt : (c.provisionSubaddrs address viewKey 0 0 nMin).Asks (·.provisions) := by
    intro t r h
    obtain ⟨a, rfl, -⟩ := trace_provisionSubaddrs h
    exact List.forall_mem_singleton.mpr rfl
  unfold provisionAccount0WithRetry
  split
  · exact Remote.asks_ret _
  · exact .bind (fun t r h => trace_ensureSubaddrCapacity h) fun _ =>
      .bind (hattempt.retry 2) fun _ => Remote.asks_ret _

theorem quiet_of_provisions (asset : String) {q : LwsRequest} (h : q.provisions) :
    ScanRead.Quiet (.lws asset q) := by
  cases q with
  | rescan => cases h
  | _ => rfl

theorem asks_rescanBackTo (asset : String) {startHeight : UInt64} :
    (rescanBackTo address startHeight).Asks fun q =>
      ScansOnly (· = ⟨asset, address, startHeight⟩) (.lws asset q) := by
  refine .bind (fun t r h x hx => ?_) fun height => ?_
  · rw [asks_accountScanHeight t r h x hx]
    exact ScanRead.Quiet.scansOnly rfl _
  · dsimp only
    split
    · exact Remote.asks_ret _
    · refine Remote.Asks.retry (Remote.asks_question ?_) 2
      intro s hs
      exact List.mem_singleton.mp hs

theorem asks_importAccount (asset : String) {startHeight : UInt64} :
    (c.importAccount cached address viewKey startHeight nMin).Asks fun q =>
      ScansOnly (· = ⟨asset, address, startHeight⟩) (.lws asset q) := by
  have hprovision : (c.provisionAccount0Covering cached address viewKey nMin).Asks fun q =>
      ScansOnly (· = ⟨asset, address, startHeight⟩) (.lws asset q) := by
    intro t r h x hx
    exact (quiet_of_provisions asset ((trace_provisionAccount0Covering h).1 x hx)).scansOnly _
  refine .bind (fun t r h x hx => ?_) fun height => ?_
  · rw [asks_accountScanHeight t r h x hx]
    exact ScanRead.Quiet.scansOnly rfl _
  · cases height with
    | some listed => exact .bind hprovision fun _ => Remote.asks_ret _
    | none =>
      exact .bind (Remote.asks_question (ScanRead.Quiet.scansOnly rfl _)) fun _ =>
        .bind hprovision.held fun _ => .bind (asks_rescanBackTo asset).held fun _ =>
          .bind (Remote.asks_ofExcept _) fun _ => .bind (Remote.asks_ofExcept _) fun _ =>
            Remote.asks_ret _

theorem asks_registerAccount (asset : String) :
    (c.registerAccount cached address viewKey nMin).Asks fun q => ScanRead.Quiet (.lws asset q) := by
  have hprovision : (c.provisionAccount0Covering cached address viewKey nMin).Asks fun q =>
      ScanRead.Quiet (.lws asset q) := by
    intro t r h x hx
    exact quiet_of_provisions asset ((trace_provisionAccount0Covering h).1 x hx)
  have hrest : (if nMin = 0 then pure () else do
      let _ ← c.provisionAccount0Covering cached address viewKey nMin
      pure () : LwsProgram Unit).Asks fun q => ScanRead.Quiet (.lws asset q) := by
    split
    · exact Remote.asks_ret _
    · exact .bind hprovision fun _ => Remote.asks_ret _
  refine .bind (fun t r h x hx => ?_) fun height => ?_
  · rw [asks_accountScanHeight t r h x hx]
    rfl
  · cases height with
    | some listed => exact hrest
    | none => exact .bind (Remote.asks_question rfl) fun _ => hrest

theorem asks_provisionAccount0 (asset : String) :
    (c.provisionAccount0 cached address viewKey nMin).Asks fun q => ScanRead.Quiet (.lws asset q) := by
  refine .bind (fun t r h x hx => quiet_of_provisions asset
    (asks_provisionAccount0WithRetry t r h x hx)) fun confirmed => ?_
  cases confirmed with
  | some ceiling => exact Remote.asks_ret _
  | none => exact Remote.asks_fail _

end LwsClient

namespace ScanInstance

variable {inst : ScanInstance} {t : List ScanExchange}

theorem asks_blockchainHeight {asset : String} {c : LwsClient} :
    (blockchainHeight asset c).Asks ScanRead.Quiet := by
  unfold blockchainHeight
  split
  · exact Remote.asks_fail _
  · refine .bind (Remote.asks_question rfl) fun resp => ?_
    split
    · exact Remote.asks_fail _
    · exact Remote.asks_ofExcept _

theorem tells_blockchainHeight {asset : String} {c : LwsClient} {tip : UInt64}
    (h : Trace (blockchainHeight asset c) t (.ok tip)) : ∃ y ∈ t, TellsTip y asset tip := by
  unfold blockchainHeight at h
  split at h
  · cases (Remote.trace_fail.mp h).2
  · rcases Remote.trace_bind.mp h with ⟨e, -, hr⟩ | ⟨resp, t₁, t₂, rfl, hask, hrest⟩
    · cases hr
    · rw [trace_ask.mp hask]
      split at hrest
      · cases (Remote.trace_fail.mp hrest).2
      · rename_i herror
        obtain ⟨-, hr⟩ := Remote.trace_ofExcept.mp hrest
        cases hresult : resp.result with
        | none =>
          rw [hresult] at hr
          cases hr
        | some height =>
          rw [hresult] at hr
          cases hr
          exact ⟨_, List.mem_cons_self, .daemonInfo (by simpa using herror) hresult⟩

theorem asks_grinTip : inst.grinTip.Asks ScanRead.Quiet := by
  refine .fallback ?_ (.bind (Remote.asks_ofExcept _) fun _ =>
    .bind (Remote.asks_question rfl) fun _ => Remote.asks_ofExcept _)
  split
  · refine Remote.Asks.map (Remote.asks_question ?_) some
    rfl
  · exact Remote.asks_ret _

/-- The tip is the light server's height, or the node's. -/
theorem tells_grinTip {tip : UInt64} (h : Trace inst.grinTip t (.ok tip)) :
    ∃ y ∈ t, TellsTip y "grin" tip := by
  rcases Remote.trace_fallback.mp h with ⟨height, hlws, hr⟩ | ⟨_, t₁, t₂, rfl, -, -, hnode⟩
  · cases hr
    split at hlws
    · obtain ⟨r, hask, hr⟩ := Remote.trace_map.mp hlws
      rw [trace_ask.mp hask]
      cases r with
      | error e => cases hr
      | ok height =>
        cases hr
        exact ⟨_, List.mem_cons_self, .lwsHeight _⟩
    · cases (Remote.trace_ret.mp hlws).2
  · rcases Remote.trace_ofExcept_bind.mp hnode with ⟨e, -, -, hr⟩ | ⟨_, -, hnode⟩
    · cases hr
    · rcases Remote.trace_bind.mp hnode with ⟨e, -, hr⟩ | ⟨env, u₁, u₂, rfl, hask, hrest⟩
      · cases hr
      · rw [trace_ask.mp hask]
        exact ⟨_, by simp, .nodeStatus (Remote.trace_ofExcept.mp hrest).2.symm⟩

theorem asks_scanAttempt {cached : Option String} {rewindHash : String} {h : UInt64} :
    (scanAttempt cached rewindHash (some h)).Asks (ScansOnly (· = ⟨"grin", rewindHash, h⟩)) := by
  refine .bind ?_ fun token => .bind (Remote.asks_question ?_) fun _ => Remote.asks_ofExcept _
  · cases cached with
    | some token => exact Remote.asks_ret _
    | none => exact .bind (Remote.asks_question (ScanRead.Quiet.scansOnly rfl _)) fun _ =>
        Remote.asks_ofExcept _
  · intro s hs
    exact List.mem_singleton.mp hs

theorem asks_scanViaWallet {req : GrinScanRequest} {h : UInt64} :
    (inst.scanViaWallet req h).Asks (ScansOnly (· = ⟨"grin", req.rewindHash, h⟩)) :=
  .bind (Remote.asks_ofExcept _) fun _ =>
    .bind (.fallback (asks_scanAttempt.map some) asks_scanAttempt) fun _ => Remote.asks_ret _

theorem asks_scanViaGrinLws {req : GrinScanRequest} {h : UInt64} :
    (scanViaGrinLws req h).Asks (ScansOnly (· = ⟨"grin", req.rewindHash, h⟩)) := by
  refine .bind (Remote.asks_question ?_) fun _ =>
    .bind (Remote.asks_question (ScanRead.Quiet.scansOnly rfl _)) fun bal => ?_
  · intro s hs
    exact List.mem_singleton.mp hs
  · split
    · exact Remote.asks_ret _
    · exact .bind (Remote.asks_question (ScanRead.Quiet.scansOnly rfl _)) fun _ => Remote.asks_ret _

end ScanInstance

/-! ### Every scan is admitted -/

/-- A request to the endpoints. -/
inductive RestoreCall
  /-- `POST /wallet/grin/scan`. -/
  | scan (user : Except AppError Uuid) (req : GrinScanRequest)
  /-- `GET /wallet/grin/height`. -/
  | height (user : Except AppError Uuid)
  /-- `POST /wallet/lws/register`. -/
  | register (user : Except AppError Uuid) (req : XmrWow.RegisterRequest)
  /-- `POST /wallet/lws/provision_subaddrs`. -/
  | provisionSubaddrs (user : Except AppError Uuid) (req : ProvisionRequest)

/-- What a request is answered. -/
inductive RestoreReply
  | scanned (resp : GrinScanResponse)
  | height (height : UInt64)
  | registered
  | provisioned (resp : ProvisionResponse)

/-- The endpoint of a request. -/
def ScanInstance.handle (inst : ScanInstance) : RestoreCall → ScanProgram RestoreReply
  | .scan user req => .scanned <$> inst.scan user req
  | .height user => .height <$> inst.height user
  | .register user req => (fun _ => .registered) <$> inst.register user req
  | .provisionSubaddrs user req => .provisioned <$> inst.provisionSubaddrs user req

namespace RestoreCall

/-- The proof of work that came with a request. -/
def nonce : RestoreCall → Option UInt64
  | scan _ req => req.restorePowNonce
  | register _ req => req.restorePowNonce
  | _ => none

/-- The scan that a request asks for, at a tip. -/
def wants (inst : ScanInstance) (tip : UInt64) : RestoreCall → Option ChainScan
  | scan _ req => some ⟨"grin", req.rewindHash, inst.grinStart req tip⟩
  | register _ req => req.startHeight.map (⟨inst.lowercase req.asset, req.address, ·⟩)
  | _ => none

end RestoreCall

namespace ScanInstance

variable {inst : ScanInstance} {before after : List ScanExchange} {x : ScanExchange} {s : ChainScan}
  {user : Except AppError Uuid}

theorem admitted_scan {req : GrinScanRequest} {r : Except AppError GrinScanResponse}
    (h : Trace (inst.scan user req) (before ++ x :: after) r) (hs : s ∈ x.question.scans) :
    ∃ tip, (∃ y ∈ before, TellsTip y "grin" tip) ∧
      inst.restore.Admits inst.sha256 s tip req.restorePowNonce ∧
      s = ⟨"grin", req.rewindHash, inst.grinStart req tip⟩ := by
  rcases Remote.trace_ofExcept_bind.mp h with ⟨_, -, hnil, -⟩ | ⟨_, -, h⟩
  · simp at hnil
  rcases Remote.trace_ofExcept_bind.mp h with ⟨_, -, hnil, -⟩ | ⟨_, -, h⟩
  · simp at hnil
  have hwork : ∀ tip, (Remote.fallback
      (if inst.grinLws then scanViaGrinLws req (inst.grinStart req tip) else pure none)
      (inst.scanViaWallet req (inst.grinStart req tip))).Asks
        (ScansOnly (· = ⟨"grin", req.rewindHash, inst.grinStart req tip⟩)) := by
    intro tip
    refine .fallback ?_ asks_scanViaWallet
    split
    · exact asks_scanViaGrinLws
    · exact Remote.asks_ret _
  obtain ⟨tip, htold, hgate, rfl⟩ :=
    admitted_of_gated asks_grinTip (fun _ _ => tells_grinTip) hwork h hs
  exact ⟨tip, htold, RestoreConfig.grinGate_ok_iff.mp hgate, rfl⟩

theorem admitted_register {req : XmrWow.RegisterRequest} {r : Except AppError Unit}
    (h : Trace (inst.register user req) (before ++ x :: after) r) (hs : s ∈ x.question.scans) :
    ∃ start tip, req.startHeight = some start ∧
      (∃ y ∈ before, TellsTip y (inst.lowercase req.asset) tip) ∧
      inst.restore.Admits inst.sha256 s tip req.restorePowNonce ∧
      s = ⟨inst.lowercase req.asset, req.address, start⟩ := by
  rcases Remote.trace_ofExcept_bind.mp h with ⟨_, -, hnil, -⟩ | ⟨_, -, h⟩
  · simp at hnil
  rcases Remote.trace_ofExcept_bind.mp h with ⟨_, -, hnil, -⟩ | ⟨client, -, h⟩
  · simp at hnil
  rcases Remote.trace_ofExcept_bind.mp h with ⟨_, -, hnil, -⟩ | ⟨_, -, h⟩
  · simp at hnil
  rcases Remote.trace_ofExcept_bind.mp h with ⟨_, -, hnil, -⟩ | ⟨_, -, h⟩
  · simp at hnil
  cases hstart : req.startHeight with
  | none =>
    rw [hstart] at h
    have hquiet := (LwsClient.asks_registerAccount (inst.lowercase req.asset)).embed _ _ h x (by simp)
    rw [show x.question.scans = [] from hquiet] at hs
    cases hs
  | some start =>
    rw [hstart] at h
    obtain ⟨tip, htold, hgate, rfl⟩ := admitted_of_gated asks_blockchainHeight
      (fun _ _ => tells_blockchainHeight)
      (fun _ => (LwsClient.asks_importAccount (inst.lowercase req.asset)).embed) h hs
    exact ⟨start, tip, rfl, htold, RestoreConfig.importGate_ok_iff.mp hgate, rfl⟩

theorem asks_provisionSubaddrs {req : ProvisionRequest} :
    (inst.provisionSubaddrs user req).Asks ScanRead.Quiet :=
  .bind (Remote.asks_ofExcept _) fun _ => .bind (Remote.asks_ofExcept _) fun _ =>
    .bind (Remote.asks_ofExcept _) fun _ => .bind (Remote.asks_ofExcept _) fun _ =>
      .bind (.embed (LwsClient.asks_provisionAccount0 _)) fun _ => Remote.asks_ret _

end ScanInstance

/-- **Every scan is admitted.**  When a request starts a scan from a height, then that is the scan it
asked for, at a tip which the same run has read before; it does not start deeper than the instance
allows, and it is free or paid for by work for that very scan. -/
theorem scans_admitted {inst : ScanInstance} {call : RestoreCall} {before after : List ScanExchange}
    {x : ScanExchange} {r : Except AppError RestoreReply}
    (h : Trace (inst.handle call) (before ++ x :: after) r) {s : ChainScan}
    (hs : s ∈ x.question.scans) :
    ∃ tip, (∃ y ∈ before, TellsTip y s.chain tip) ∧ call.wants inst tip = some s ∧
      inst.restore.Admits inst.sha256 s tip call.nonce := by
  have hnone (hquiet : ScanRead.Quiet x.question) : False := by
    rw [show x.question.scans = [] from hquiet] at hs
    cases hs
  cases call with
  | scan user req =>
    obtain ⟨_, h, -⟩ := Remote.trace_map.mp h
    obtain ⟨tip, htold, hadmits, rfl⟩ := inst.admitted_scan h hs
    exact ⟨tip, htold, rfl, hadmits⟩
  | height user =>
    obtain ⟨_, h, -⟩ := Remote.trace_map.mp h
    have hasks : (inst.height user).Asks ScanRead.Quiet :=
      .bind (Remote.asks_ofExcept _) fun _ => ScanInstance.asks_grinTip
    exact (hnone (hasks _ _ h x (by simp))).elim
  | register user req =>
    obtain ⟨_, h, -⟩ := Remote.trace_map.mp h
    obtain ⟨start, tip, hstart, htold, hadmits, rfl⟩ := inst.admitted_register h hs
    refine ⟨tip, htold, ?_, hadmits⟩
    simp [RestoreCall.wants, hstart]
  | provisionSubaddrs user req =>
    obtain ⟨_, h, -⟩ := Remote.trace_map.mp h
    exact (hnone (ScanInstance.asks_provisionSubaddrs _ _ h x (by simp))).elim

/-- An instance that allows a year, a month of it for free; its hash is that of the nonce below. -/
def ScanInstance.monthly : ScanInstance where
  lowercase := id
  restore := ⟨.bounded, 365, 30, 30, 24⟩
  sha256 _ := [22, 253, 116, 99, 113, 118, 236, 11, 147, 96, 115, 9, 155, 224, 1, 184, 5, 43, 251, 41,
    156, 77, 62, 213, 133, 7, 173, 83, 168, 173, 200, 15]
  grinLws := true
  grin := true
  sessionToken := some "token"
  sessionTokenAgain := none
  xmr := none
  wow := none
  subaddrCapacity _ := none
  subaddrProvisioning := false

/-- A scan of the last hundred days. -/
def GrinScanRequest.hundredDays : GrinScanRequest where
  rewindHash := "abababababababababababababababababababababababababababababababab"
  startHeight := some 2856000
  restorePowNonce := some 1

/-- The light server is behind, and the wallet finds nothing. -/
def ScanRead.behind : (q : ScanRead) → Except AppError q.Reply
  | lwsHeight => .ok 3000000
  | lwsRegister _ _ => .ok ⟨true, true, 2856000, 2856000⟩
  | lwsBalance _ => .ok ⟨0, 0, 0, 2900000, 3000000⟩
  | ownerScan _ rewindHash _ => .ok ⟨some (.ok ⟨rewindHash, [], 0, 7⟩), none⟩
  | _ => .error (.nodeError "unreachable")

/-- The wallet is asked after the height, and the nonce pays for two bits. -/
theorem hundredDays_admitted : ∃ s tip,
    s ∈ (ScanRead.ownerScan "token" GrinScanRequest.hundredDays.rewindHash (some 2856000)).scans ∧
    tip = 3000000 ∧ ScanInstance.monthly.restore.requiredRestorePowBits s.chain s.start tip = 2 ∧
    ScanInstance.monthly.restore.Admits ScanInstance.monthly.sha256 s tip (some 1) := by
  have hasked : (ScanInstance.monthly.handle (.scan (.ok 7) .hundredDays)).asked ScanRead.behind =
      [.lwsHeight, .lwsRegister GrinScanRequest.hundredDays.rewindHash (some 2856000),
        .lwsBalance GrinScanRequest.hundredDays.rewindHash] ++
      .ownerScan "token" GrinScanRequest.hundredDays.rewindHash (some 2856000) :: [] := by
    decide +kernel
  have htrace := Remote.trace_answered (ScanInstance.monthly.handle (.scan (.ok 7) .hundredDays))
    ScanRead.behind
  rw [hasked, List.map_append, List.map_cons] at htrace
  obtain ⟨tip, ⟨y, hy, hytip⟩, -, hadmits⟩ :=
    scans_admitted htrace (s := ⟨"grin", GrinScanRequest.hundredDays.rewindHash, 2856000⟩)
      (List.mem_singleton.mpr rfl)
  have htip : tip = 3000000 := by
    simp only [List.map_cons, List.map_nil, List.mem_cons, List.not_mem_nil, or_false] at hy
    rcases hy with rfl | rfl | rfl
    · cases hytip
      rfl
    · cases hytip
    · cases hytip
  subst htip
  exact ⟨_, _, List.mem_singleton.mpr rfl, rfl, by decide +kernel, hadmits⟩

/-! ### What a Grin scan returns -/

/-- Requests to the Grin wallet that serve a scan. -/
def ScanRead.walletScan : ScanRead → Bool
  | openWallet => true
  | ownerScan _ _ _ => true
  | _ => false

/-- Requests to the Grin light server that serve a scan. -/
def ScanRead.lightScan : ScanRead → Bool
  | lwsRegister _ _ => true
  | lwsBalance _ => true
  | lwsUnspentOuts _ => true
  | _ => false

/-- An exchange with the operator's wallet or node that fails: on the way, or inside the answer. -/
inductive WalletFails : ScanExchange → AppError → Prop
  | nodeLost (e : AppError) : WalletFails ⟨.nodeStatus, .error e⟩ e
  | node {env : RpcEnvelope UInt64} {e : AppError} (h : env.intoResult "grin node" = .error e) :
      WalletFails ⟨.nodeStatus, .ok env⟩ e
  | openLost (e : AppError) : WalletFails ⟨.openWallet, .error e⟩ e
  | open {env : RpcEnvelope String} {e : AppError} (h : env.intoResult "grin wallet" = .error e) :
      WalletFails ⟨.openWallet, .ok env⟩ e
  | scanLost (token rewindHash : String) (start : Option UInt64) (e : AppError) :
      WalletFails ⟨.ownerScan token rewindHash start, .error e⟩ e
  | scan {token rewindHash : String} {start : Option UInt64} {env : RpcEnvelope ViewWallet}
      {e : AppError} (h : env.intoResult "grin wallet" = .error e) :
      WalletFails ⟨.ownerScan token rewindHash start, .ok env⟩ e

/-- What a run of a Grin scan shows of its result. -/
structure GrinScanRun (inst : ScanInstance) (user : Except AppError Uuid) (req : GrinScanRequest)
    (t : List ScanExchange) (r : Except AppError GrinScanResponse) : Prop where
  /-- An answer is a light server's that is up with the chain, or the wallet's. -/
  attested : ∀ resp, r = .ok resp →
    (∃ bal outs, (⟨.lwsBalance req.rewindHash, .ok bal⟩ : ScanExchange) ∈ t ∧
      (⟨.lwsUnspentOuts req.rewindHash, .ok outs⟩ : ScanExchange) ∈ t ∧
      bal.blockchainHeight.toNat ≤ bal.scannedHeight.toNat + 2 ∧ resp = .ofLws bal outs) ∨
    ∃ token start env view,
      (⟨.ownerScan token req.rewindHash (some start), .ok env⟩ : ScanExchange) ∈ t ∧
      env.intoResult "grin wallet" = .ok view ∧ resp = .ofWallet view
  /-- A scan fails for what the caller sent, by the gate, or as the wallet or its node did; never
  as the light server did. -/
  failing : ∀ e, r = .error e → user = .error e ∨
    validateHex64 req.rewindHash "rewind_hash" = .error e ∨
    (∃ tip, (∃ y ∈ t, TellsTip y "grin" tip) ∧ inst.restore.grinGate inst.sha256 req.rewindHash
      req.startHeight tip req.restorePowNonce = .error e) ∨
    inst.grinClient = .error e ∨ ∃ x ∈ t, WalletFails x e
  /-- The wallet does not scan when the light server has given its outputs. -/
  sparing : ∀ outs, (⟨.lwsUnspentOuts req.rewindHash, .ok outs⟩ : ScanExchange) ∈ t →
    ∀ x ∈ t, x.question.walletScan = false

namespace ScanInstance

variable {inst : ScanInstance} {t : List ScanExchange} {user : Except AppError Uuid}

theorem fails_grinTip {e : AppError} (h : Trace inst.grinTip t (.error e)) :
    inst.grinClient = .error e ∨ ∃ x ∈ t, WalletFails x e := by
  rcases Remote.trace_fallback.mp h with ⟨_, -, hr⟩ | ⟨_, t₁, t₂, rfl, -, -, hnode⟩
  · cases hr
  rcases Remote.trace_ofExcept_bind.mp hnode with ⟨e', hoff, -, hr⟩ | ⟨_, -, hnode⟩
  · cases hr
    exact .inl hoff
  rcases Remote.trace_bind.mp hnode with ⟨e', hask, hr⟩ | ⟨env, u₁, u₂, rfl, hask, hrest⟩
  · cases hr
    exact .inr ⟨_, by simp [trace_ask.mp hask], .nodeLost e⟩
  · exact .inr ⟨_, by simp [trace_ask.mp hask], .node (Remote.trace_ofExcept.mp hrest).2.symm⟩

theorem asks_grinTip_only :
    inst.grinTip.Asks fun q => q = .lwsHeight ∨ q = .nodeStatus := by
  refine .fallback ?_ (.bind (Remote.asks_ofExcept _) fun _ =>
    .bind (Remote.asks_question (.inr rfl)) fun _ => Remote.asks_ofExcept _)
  split
  · exact Remote.Asks.map (Remote.asks_question (.inl rfl)) some
  · exact Remote.asks_ret _

/-- An attempt ends in the wallet's view, or in its failure. -/
theorem trace_scanAttempt {cached : Option String} {rewindHash : String} {h : UInt64}
    {r : Except AppError ViewWallet}
    (htrace : Trace (scanAttempt cached rewindHash (some h)) t r) :
    (∃ view token env, r = .ok view ∧
      (⟨.ownerScan token rewindHash (some h), .ok env⟩ : ScanExchange) ∈ t ∧
      env.intoResult "grin wallet" = .ok view) ∨
    ∃ e, r = .error e ∧ ∃ x ∈ t, WalletFails x e := by
  have hopen : ∀ u e, Trace (openWallet cached) u (.error e) → ∃ x ∈ u, WalletFails x e := by
    intro u e hu
    cases cached with
    | some token => cases (Remote.trace_ret.mp hu).2
    | none =>
      rcases Remote.trace_bind.mp hu with ⟨e', hask, hr⟩ | ⟨env, u₁, u₂, rfl, hask, hrest⟩
      · cases hr
        exact ⟨_, by simp [trace_ask.mp hask], .openLost e⟩
      · exact ⟨_, by simp [trace_ask.mp hask], .open (Remote.trace_ofExcept.mp hrest).2.symm⟩
  rcases Remote.trace_bind.mp htrace with ⟨e, hfail, rfl⟩ | ⟨token, t₁, t₂, rfl, -, hrest⟩
  · exact .inr ⟨e, rfl, hopen _ _ hfail⟩
  rcases Remote.trace_bind.mp hrest with ⟨e, hask, rfl⟩ | ⟨env, u₁, u₂, rfl, hask, hrest⟩
  · exact .inr ⟨e, rfl, _, by simp [trace_ask.mp hask], .scanLost token rewindHash (some h) e⟩
  · have hmem : (⟨.ownerScan token rewindHash (some h), .ok env⟩ : ScanExchange) ∈
        t₁ ++ (u₁ ++ u₂) := by simp [trace_ask.mp hask]
    have hr := (Remote.trace_ofExcept.mp hrest).2
    cases hview : env.intoResult "grin wallet" with
    | ok view => exact .inl ⟨view, token, env, hr.trans hview, hmem, hview⟩
    | error e => exact .inr ⟨e, hr.trans hview, _, hmem, .scan hview⟩

/-- The wallet's scan ends in its view, or in its failure. -/
theorem trace_scanViaWallet {req : GrinScanRequest} {h : UInt64}
    {r : Except AppError GrinScanResponse} (htrace : Trace (inst.scanViaWallet req h) t r) :
    (∃ view token env, r = .ok (.ofWallet view) ∧
      (⟨.ownerScan token req.rewindHash (some h), .ok env⟩ : ScanExchange) ∈ t ∧
      env.intoResult "grin wallet" = .ok view) ∨
    ∃ e, r = .error e ∧ (inst.grinClient = .error e ∨ ∃ x ∈ t, WalletFails x e) := by
  have hscan : ∀ u r, Trace (inst.scanRewindHash req.rewindHash (some h)) u r →
      (∃ view token env, r = .ok view ∧
        (⟨.ownerScan token req.rewindHash (some h), .ok env⟩ : ScanExchange) ∈ u ∧
        env.intoResult "grin wallet" = .ok view) ∨ ∃ e, r = .error e ∧ ∃ x ∈ u, WalletFails x e := by
    intro u r hu
    rcases Remote.trace_fallback.mp hu with ⟨view, hfirst, rfl⟩ | ⟨_, u₁, u₂, rfl, -, -, hsecond⟩
    · obtain ⟨r', hfirst, hr'⟩ := Remote.trace_map.mp hfirst
      cases r' with
      | error e => cases hr'
      | ok view' =>
        cases hr'
        exact trace_scanAttempt hfirst
    · -- what the second attempt meets, the whole scan met
      rcases trace_scanAttempt hsecond with ⟨view, token, env, rfl, hmem, hview⟩ | ⟨e, rfl, x, hx, he⟩
      · exact .inl ⟨view, token, env, rfl, List.mem_append_right _ hmem, hview⟩
      · exact .inr ⟨e, rfl, x, List.mem_append_right _ hx, he⟩
  rcases Remote.trace_ofExcept_bind.mp htrace with ⟨e, hoff, -, rfl⟩ | ⟨_, -, htrace⟩
  · exact .inr ⟨e, rfl, .inl hoff⟩
  rcases Remote.trace_bind.mp htrace with ⟨e, hfail, rfl⟩ | ⟨view, t₁, t₂, rfl, hok, hret⟩
  · rcases hscan _ _ hfail with ⟨_, _, _, hr, -⟩ | ⟨e', hr, hx⟩
    · cases hr
    · cases hr
      exact .inr ⟨e, rfl, .inr hx⟩
  · obtain ⟨rfl, rfl⟩ := Remote.trace_ret.mp hret
    rw [List.append_nil]
    rcases hscan _ _ hok with ⟨_, token, env, hr, hmem, hview⟩ | ⟨e', hr, -⟩
    · cases hr
      exact .inl ⟨view, token, env, rfl, hmem, hview⟩
    · cases hr

/-- The light server gives its outputs only when it is up with the chain. -/
theorem trace_scanViaGrinLws {req : GrinScanRequest} {h : UInt64}
    {r : Except AppError (Option GrinScanResponse)} (htrace : Trace (scanViaGrinLws req h) t r) :
    (∃ bal outs, r = .ok (some (.ofLws bal outs)) ∧
      (⟨.lwsBalance req.rewindHash, .ok bal⟩ : ScanExchange) ∈ t ∧
      (⟨.lwsUnspentOuts req.rewindHash, .ok outs⟩ : ScanExchange) ∈ t ∧
      bal.blockchainHeight.toNat ≤ bal.scannedHeight.toNat + 2) ∨
    (∀ resp, r ≠ .ok (some resp)) ∧
      ∀ outs, (⟨.lwsUnspentOuts req.rewindHash, .ok outs⟩ : ScanExchange) ∉ t := by
  rcases Remote.trace_bind.mp htrace with ⟨e, hask, rfl⟩ | ⟨_, t₁, t₂, rfl, hask, hrest⟩
  · exact .inr ⟨by rintro _ ⟨⟩, by simp [trace_ask.mp hask]⟩
  obtain rfl := trace_ask.mp hask
  rcases Remote.trace_bind.mp hrest with ⟨e, hask, rfl⟩ | ⟨bal, u₁, u₂, rfl, hask, htail⟩
  · exact .inr ⟨by rintro _ ⟨⟩, by simp [trace_ask.mp hask]⟩
  obtain rfl := trace_ask.mp hask
  split at htail
  · obtain ⟨rfl, rfl⟩ := Remote.trace_ret.mp htail
    exact .inr ⟨by rintro _ ⟨⟩, by simp⟩
  · rename_i hsynced
    rcases Remote.trace_bind.mp htail with ⟨e, hask, rfl⟩ | ⟨outs, v₁, v₂, rfl, hask, hret⟩
    · exact .inr ⟨by rintro _ ⟨⟩, by simp [trace_ask.mp hask]⟩
    · obtain rfl := trace_ask.mp hask
      obtain ⟨rfl, rfl⟩ := Remote.trace_ret.mp hret
      refine .inl ⟨bal, outs, rfl, by simp, by simp, ?_⟩
      rw [UInt64.lt_iff_toNat_lt, Lib.toNat_saturatingAddU] at hsynced
      have htop := bal.blockchainHeight.toNat_lt
      have hmargin : syncMargin.toNat = 2 := rfl
      omega

/-- The light server's part of a scan, which is nothing where none is configured. -/
theorem trace_light {req : GrinScanRequest} {h : UInt64}
    {r : Except AppError (Option GrinScanResponse)}
    (htrace : Trace (if inst.grinLws then scanViaGrinLws req h else pure none) t r) :
    (∀ x ∈ t, x.question.lightScan) ∧
      ((∃ bal outs, r = .ok (some (.ofLws bal outs)) ∧
        (⟨.lwsBalance req.rewindHash, .ok bal⟩ : ScanExchange) ∈ t ∧
        (⟨.lwsUnspentOuts req.rewindHash, .ok outs⟩ : ScanExchange) ∈ t ∧
        bal.blockchainHeight.toNat ≤ bal.scannedHeight.toNat + 2) ∨
      (∀ resp, r ≠ .ok (some resp)) ∧
        ∀ outs, (⟨.lwsUnspentOuts req.rewindHash, .ok outs⟩ : ScanExchange) ∉ t) := by
  have hlight : (scanViaGrinLws req h).Asks (·.lightScan) := by
    refine .bind (Remote.asks_question rfl) fun _ => .bind (Remote.asks_question rfl) fun bal => ?_
    split
    · exact Remote.asks_ret _
    · exact .bind (Remote.asks_question rfl) fun _ => Remote.asks_ret _
  split at htrace
  · exact ⟨hlight _ _ htrace, trace_scanViaGrinLws htrace⟩
  · obtain ⟨rfl, rfl⟩ := Remote.trace_ret.mp htrace
    exact ⟨List.forall_mem_nil _, .inr ⟨by rintro _ ⟨⟩, fun _ => List.not_mem_nil⟩⟩

theorem asks_scanViaWallet_wallet {req : GrinScanRequest} {h : UInt64} :
    (inst.scanViaWallet req h).Asks (·.walletScan) := by
  have hattempt (cached : Option String) :
      (scanAttempt cached req.rewindHash (some h)).Asks (·.walletScan) := by
    refine .bind ?_ fun token => .bind (Remote.asks_question rfl) fun _ => Remote.asks_ofExcept _
    cases cached with
    | some token => exact Remote.asks_ret _
    | none => exact .bind (Remote.asks_question rfl) fun _ => Remote.asks_ofExcept _
  exact .bind (Remote.asks_ofExcept _) fun _ =>
    .bind (.fallback ((hattempt _).map some) (hattempt _)) fun _ => Remote.asks_ret _

end ScanInstance

theorem ScanRead.lightScan_only {q : ScanRead} (h : q.lightScan) : q.walletScan = false := by
  cases q with
  | openWallet => cases h
  | ownerScan => cases h
  | _ => rfl

/-- **What a Grin scan returns.**  Whatever the light server and the wallet answer, a run shows where
its result comes from. -/
theorem grin_scan_attested {inst : ScanInstance} {user : Except AppError Uuid} {req : GrinScanRequest}
    {t : List ScanExchange} {r : Except AppError GrinScanResponse}
    (h : Trace (inst.scan user req) t r) : GrinScanRun inst user req t r := by
  rcases Remote.trace_ofExcept_bind.mp h with ⟨e, huser, rfl, rfl⟩ | ⟨_, -, h⟩
  · exact ⟨by rintro _ ⟨⟩, by rintro _ ⟨⟩; exact .inl huser, by simp⟩
  rcases Remote.trace_ofExcept_bind.mp h with ⟨e, hhash, rfl, rfl⟩ | ⟨_, -, h⟩
  · exact ⟨by rintro _ ⟨⟩, by rintro _ ⟨⟩; exact .inr (.inl hhash), by simp⟩
  have hlooks : ∀ u r, Trace inst.grinTip u r → ∀ x ∈ u,
      x.question.walletScan = false ∧ x.question.lightScan = false := by
    intro u r hu x hx
    rcases ScanInstance.asks_grinTip_only u r hu x hx with hq | hq
    · simp [hq, ScanRead.walletScan, ScanRead.lightScan]
    · simp [hq, ScanRead.walletScan, ScanRead.lightScan]
  rcases Remote.trace_gated.mp h with ⟨e, hlook, rfl⟩ | ⟨tip, e, hlook, hgate, rfl⟩ |
    ⟨tip, t₁, t₂, rfl, hlook, -, hwork⟩
  · -- the tip is unknown
    refine ⟨by rintro _ ⟨⟩, ?_, fun _ _ x hx => (hlooks _ _ hlook x hx).1⟩
    rintro _ ⟨⟩
    rcases ScanInstance.fails_grinTip hlook with hoff | hx
    · exact .inr (.inr (.inr (.inl hoff)))
    · exact .inr (.inr (.inr (.inr hx)))
  · -- the gate rejects
    refine ⟨by rintro _ ⟨⟩, ?_, fun _ _ x hx => (hlooks _ _ hlook x hx).1⟩
    rintro _ ⟨⟩
    exact .inr (.inr (.inl ⟨tip, ScanInstance.tells_grinTip hlook, hgate⟩))
  · rcases Remote.trace_fallback.mp hwork with ⟨resp, hfirst, rfl⟩ |
      ⟨r₁, u₁, u₂, rfl, hfirst, hnone, hsecond⟩
    · -- the light server answers
      obtain ⟨hlight, ⟨bal, outs, hr, hbal, houts, hsynced⟩ | ⟨hnone, -⟩⟩ :=
        ScanInstance.trace_light hfirst
      · cases hr
        refine ⟨?_, by rintro _ ⟨⟩, fun _ _ x hx => ?_⟩
        · rintro _ ⟨⟩
          exact .inl ⟨bal, outs, List.mem_append_right _ hbal, List.mem_append_right _ houts,
            hsynced, rfl⟩
        · rcases List.mem_append.mp hx with hx | hx
          · exact (hlooks _ _ hlook x hx).1
          · exact ScanRead.lightScan_only (hlight x hx)
      · exact absurd rfl (hnone resp)
    · -- the wallet answers, and the light server has not given its outputs
      obtain ⟨-, ⟨bal, outs, rfl, -⟩ | ⟨-, houts⟩⟩ := ScanInstance.trace_light hfirst
      · exact absurd rfl (hnone _)
      have hsparing : ∀ outs, (⟨.lwsUnspentOuts req.rewindHash, .ok outs⟩ : ScanExchange) ∉
          t₁ ++ (u₁ ++ u₂) := by
        intro outs hmem
        rcases List.mem_append.mp hmem with hmem | hmem
        · cases (hlooks _ _ hlook _ hmem).2
        · rcases List.mem_append.mp hmem with hmem | hmem
          · exact houts outs hmem
          · cases ScanInstance.asks_scanViaWallet_wallet _ _ hsecond _ hmem
      refine ⟨?_, ?_, fun outs hmem => absurd hmem (hsparing outs)⟩
      · rintro resp rfl
        rcases ScanInstance.trace_scanViaWallet hsecond with
          ⟨view, token, env, hr, hmem, hview⟩ | ⟨e, hr, -⟩
        · cases hr
          exact .inr ⟨token, inst.grinStart req tip, env, view, by simp [hmem], hview, rfl⟩
        · cases hr
      · rintro e rfl
        rcases ScanInstance.trace_scanViaWallet hsecond with
          ⟨_, _, _, hr, -⟩ | ⟨e', hr, hoff | ⟨x, hx, he⟩⟩
        · cases hr
        · cases hr
          exact .inr (.inr (.inr (.inl hoff)))
        · cases hr
          exact .inr (.inr (.inr (.inr ⟨x, by simp [hx], he⟩)))

/-- The wallet's view is returned, although the light server was asked first. -/
theorem hundredDays_attested : ∃ t resp, Trace (ScanInstance.monthly.scan (.ok 7) .hundredDays) t
    (.ok resp) ∧ (∃ token start env view,
      (⟨.ownerScan token GrinScanRequest.hundredDays.rewindHash (some start), .ok env⟩ :
        ScanExchange) ∈ t ∧
      env.intoResult "grin wallet" = .ok view ∧ resp = .ofWallet view) := by
  have hanswered : ((ScanInstance.monthly.scan (.ok 7) .hundredDays).answered
      ScanRead.behind).toOption.map (·.scannedHeight) = some none := by decide +kernel
  have htrace := Remote.trace_answered (ScanInstance.monthly.scan (.ok 7) .hundredDays)
    ScanRead.behind
  cases hresult : (ScanInstance.monthly.scan (.ok 7) .hundredDays).answered ScanRead.behind with
  | error e =>
    rw [hresult] at hanswered
    cases hanswered
  | ok resp =>
    rw [hresult] at hanswered htrace
    have hheight : resp.scannedHeight = none := Option.some.inj hanswered
    refine ⟨_, resp, htrace, ?_⟩
    rcases (grin_scan_attested htrace).attested resp rfl with ⟨bal, outs, -, -, -, rfl⟩ | hwallet
    · cases hheight
    · exact hwallet

end SmirkBackend
