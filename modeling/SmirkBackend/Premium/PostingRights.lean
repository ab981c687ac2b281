import SmirkBackend.Admin.ConfigPut
import SmirkBackend.Auth.SignedActions
import SmirkBackend.Premium.Activation
import SmirkBackend.Relay.Admission

/-!
# Posting rights

The premium endpoints tell a user whether they may publish general events on the relay of the
instance.  The flag is computed from the user's row and the relay's policy; the admission service
computes its own answer from the npub of the author.  The two agree for every linked npub.  They
part where there is nobody, or nothing, to post with: without a linked npub, or without a relay, an
active premium window still sets the flag.

`permitsGeneral_iff` is what the admission service says about a linked npub, and
`can_post_general_iff` gives exactly the cases in which the flag is right.
-/

namespace SmirkBackend

open Lib (Table Patch Prog)

/-! ### The endpoints -/

/-- `StatusResp`. -/
structure PremiumStatus where
  /-- The window is not over. -/
  active : Bool
  /-- End of the window. -/
  premiumUntil : Option Timestamp
  /-- The npub is on the operator's list. -/
  writeAllowlisted : Bool
  /-- The user may publish general events. -/
  canPostGeneral : Bool
  deriving DecidableEq

/-- `general_posting_rights`: on the operator's list, and allowed by the policy. -/
def generalPostingRights (relay : Option Relay) (nostrPubkey : Option String) : Bool × Bool :=
  match relay with
  | none => (false, false)
  | some relay =>
    if nostrPubkey.any fun pk => relay.isWriteAllowlisted (toLowercase pk) then (true, true)
    else
      match relay.policy with
      | .open => (false, true)
      | .premiumPost => (false, false)
      | .authorAllowlist | .inboxOutbox => (false, nostrPubkey.isSome)

/-- `get_premium_until`. -/
def getPremiumUntil (user : Uuid) : Handler (Option Timestamp) :=
  select fun db => (db.users.get? user).bind UserRow.premiumUntil

/-- The npub in `get_user_by_id`. -/
def getLinkedNpub (user : Uuid) : Handler (Option String) :=
  select fun db => (db.users.get? user).bind UserRow.nostrPubkey

/-- `status`. -/
def premiumStatus (relay : Option Relay) (bearer : Except AppError TokenInfo) :
    Handler PremiumStatus := do
  let user ← extractUserIdFromToken bearer
  let premiumUntil ← getPremiumUntil user
  let now ← .peek World.now
  let active := premiumUntil.any fun t => now < t
  let npub ← getLinkedNpub user
  let rights := generalPostingRights relay npub
  return ⟨active, premiumUntil, rights.1, active || rights.2⟩

/-- `activate_premium`: consume and extend in one transaction; the answer is the new end. -/
def commitPremium (plan : PremiumPlanned) (user : Uuid) : Handler (Option Timestamp) :=
  .query dbFault fun w =>
    match Lib.replay (premiumScript plan w.now) w with
    | .ok w' => (.ok (w'.premiumUntil user), w')
    | .error e => (.error e, w)

/-- `activate`. -/
def activatePremium (inst : PremiumInstance) (relay : Option Relay) (enabled : Bool)
    (processors : Processors) (bearer : Except AppError TokenInfo) (invoiceId : String) :
    Handler PremiumStatus := do
  match ← activationPlan inst enabled processors bearer invoiceId with
  | .activate rail id user period =>
    let premiumUntil ← commitPremium (.activate rail id user period) user
    let npub ← getLinkedNpub user
    return ⟨true, premiumUntil, (generalPostingRights relay npub).1, true⟩
  | .mint _ _ => .fail unknownPremiumInvoice

/-! ### The instance -/

/-- A validated configuration, the operator's list, and the relay that a boot gives. -/
structure RelayInstance (env : ConfigEnv) (bech32 : Bech32) where
  /-- The configuration. -/
  config : Config
  /-- `RELAY_WRITE_ALLOWLIST_NPUBS` -/
  writeAllowlist : List String
  /-- The relay. -/
  relay : Option Relay
  /-- The configuration is accepted. -/
  valid : config.validate env = .ok ()
  /-- The boot succeeds. -/
  booted : relayFromConfig env bech32 config.relay writeAllowlist = .ok relay

theorem relay_of_premium {env : ConfigEnv} {c : Config} (hvalid : c.validate env = .ok ())
    (hpremium : c.premium.enabled = true) :
    c.relay.enabled = true ∧ c.relay.writePolicy = "premium-post" := by
  simp only [Config.validate, bind_eq_ok_iff] at hvalid
  obtain ⟨_, -, _, -, _, -, _, -, _, -, _, -, _, -, _, -, _, -, _, -, _, -, _, -, _, -, _, -, h⟩ :=
    hvalid
  rw [Config.whenOn, hpremium, if_pos rfl] at h
  simp only [Config.validatePremium, bind_eq_ok_iff, refuse_eq_ok_iff] at h
  obtain ⟨_, -, _, -, _, -, _, -, _, -, _, -, _, -, _, -, _, henabled, _, hpolicy, -⟩ := h
  exact ⟨by simpa using henabled, by simpa using hpolicy⟩

theorem relay_eq_none {env : ConfigEnv} {bech32 : Bech32} {r : Config.RelayConfig}
    {writeAllowlist : List String} {relay : Option Relay}
    (h : relayFromConfig env bech32 r writeAllowlist = .ok relay) (hoff : r.enabled = false) :
    relay = none := by
  simp only [relayFromConfig, hoff, Bool.not_false, if_true, Except.ok.injEq] at h
  exact h.symm

theorem relay_eq_some {env : ConfigEnv} {bech32 : Bech32} {r : Config.RelayConfig}
    {writeAllowlist : List String} {relay : Option Relay}
    (h : relayFromConfig env bech32 r writeAllowlist = .ok relay) (hon : r.enabled = true) :
    ∃ x, relay = some x ∧ WritePolicy.parse r.writePolicy = some x.policy := by
  simp only [relayFromConfig, hon, Bool.not_true, Bool.false_eq_true, if_false] at h
  cases hpolicy : WritePolicy.parse r.writePolicy with
  | none => simp [hpolicy] at h
  | some policy =>
    simp only [hpolicy] at h
    split_ifs at h
    all_goals
      obtain rfl := Except.ok.inj h
      exact ⟨_, rfl, rfl⟩

theorem parse_eq_open_iff {s : String} : WritePolicy.parse s = some .open ↔ s = "open" := by
  unfold WritePolicy.parse
  split <;> simp_all

/-! ### Npubs -/

theorem toLower_of_hexValue {c : Char} {x : ℕ} (h : Lib.hexValue c = some x) :
    c.toLower = Nat.digitChar (x % 16) ∧ x < 16 := by
  have hall : ∀ n < 128, ∀ x ∈ Lib.hexValue (Char.ofNat n),
      (Char.ofNat n).toLower = Nat.digitChar (x % 16) ∧ x < 16 := by decide +kernel
  have hascii : c.toNat < 128 := by
    by_contra hge
    have h0 : '9'.toNat = 57 := rfl
    have hle : ∀ d : Char, d.toNat < 128 → ¬ c ≤ d := fun d hd hcd => by
      have : c.toNat ≤ d.toNat := hcd
      omega
    simp [Lib.hexValue, hle '9' (by decide), hle 'f' (by decide), hle 'F' (by decide)] at h
  have hc := hall c.toNat hascii x
  rw [Char.ofNat_toNat] at hc
  exact hc h

/-- Bytes are written as their text in lower case. -/
theorem toLowercase_of_hexDecode {s : String} {bytes : List UInt8}
    (h : Lib.hexDecode s = some bytes) : toLowercase s = Lib.hexEncode bytes := by
  have hchars : ∀ (cs : List Char) (bytes : List UInt8), Lib.hexBytes cs = some bytes →
      cs.map Char.toLower = bytes.flatMap fun b =>
        [Nat.digitChar (b.toNat / 16), Nat.digitChar (b.toNat % 16)] := by
    intro cs
    fun_induction Lib.hexBytes cs with
    | case1 =>
      rintro _ ⟨⟩
      rfl
    | case2 c =>
      intro _ h
      cases h
    | case3 high low rest ih =>
      intro bytes h
      simp only [Option.bind_eq_bind, Option.bind_eq_some_iff, Option.pure_def,
        Option.some.injEq] at h
      obtain ⟨x, hx, y, hy, tail, htail, rfl⟩ := h
      obtain ⟨hhigh, hx16⟩ := toLower_of_hexValue hx
      obtain ⟨hlow, hy16⟩ := toLower_of_hexValue hy
      have hbyte : (UInt8.ofNat (16 * x + y)).toNat = 16 * x + y := by
        rw [UInt8.toNat_ofNat']
        omega
      have hdiv : (16 * x + y) / 16 = x % 16 := by omega
      have hmod : (16 * x + y) % 16 = y % 16 := by omega
      rw [List.map_cons, List.map_cons, List.flatMap_cons, ih tail htail, hhigh, hlow, hbyte, hdiv,
        hmod]
      rfl
  exact congrArg String.ofList (hchars _ _ h)

theorem toLowercase_hexEncode (bytes : List UInt8) :
    toLowercase (Lib.hexEncode bytes) = Lib.hexEncode bytes :=
  toLowercase_of_hexDecode (Lib.hexDecode_hexEncode bytes)

/-- The text of a key, as it is stored. -/
def CanonicalNpub (s : String) : Prop := ∃ k : List UInt8, k.length = 32 ∧ s = Lib.hexEncode k

/-- The npubs that are stored. -/
def CanonicalNpubs (w : World) : Prop :=
  ∀ r ∈ w.db.users.rows, ∀ s, r.nostrPubkey = some s → CanonicalNpub s

/-- What a verified proof links is canonical. -/
theorem canonicalNpub_of_verify {crypto : Nip98Crypto} (hhex : crypto.hexDecode = Lib.hexDecode)
    {header : String} {b : ActionBinding} {now maxAge : Int64} (hmax : 0 ≤ maxAge.toInt)
    {pubkey : String} (h : verifySignedAction crypto header b now maxAge = .ok pubkey) :
    CanonicalNpub pubkey := by
  obtain ⟨ev, hauth, -, rfl⟩ := verifySignedAction_eq_ok hmax h
  obtain ⟨k, -, -, hk, -, -, hlength, -⟩ := hauth.signed
  rw [hhex] at hk
  exact ⟨k, hlength, toLowercase_of_hexDecode hk⟩

/-! ### What the admission service says -/

/-- The npub of a user. -/
def World.linkedNpub (w : World) (u : Uuid) : Option String :=
  (w.db.users.get? u).bind UserRow.nostrPubkey

/-- The window of a user is not over. -/
def World.premiumActive (w : World) (u : Uuid) : Bool := (w.premiumUntil u).any fun t => w.now < t

/-- The admission service of the relay lets a general event in that the npub has authored. -/
def PermitsGeneral (lowercase : String → String) (relay : Option Relay) (w : World)
    (npub : Option String) : Prop :=
  ∃ r ∈ relay, ∃ s ∈ npub, ∃ event : RelayEvent,
    Lib.hexDecode s = some event.pubkey ∧ r.General event ∧ r.Admits lowercase event w

section Linked

variable {w : World} {u : Uuid} {s : String}

theorem isRegisteredNpub_of_linked (hlinked : w.linkedNpub u = some s) :
    w.db.isRegisteredNpub s = true := by
  obtain ⟨row, hrow, hnpub⟩ := Option.bind_eq_some_iff.mp hlinked
  exact List.any_eq_true.mpr ⟨row, Table.mem_of_get? hrow, by simpa using hnpub⟩

theorem isPremiumNpub_of_linked (huniq : UniqueOn UserRow.nostrPubkey w.db.users.rows)
    (hlinked : w.linkedNpub u = some s) : w.db.isPremiumNpub w.now s = w.premiumActive u := by
  obtain ⟨row, hrow, hnpub⟩ := Option.bind_eq_some_iff.mp hlinked
  have hmem := Table.mem_of_get? hrow
  rw [Bool.eq_iff_iff]
  simp only [Db.isPremiumNpub, List.any_eq_true, Bool.and_eq_true, decide_eq_true_eq,
    World.premiumActive, World.premiumUntil, hrow, Option.bind_some]
  constructor
  · rintro ⟨r, hr, hnpub', hactive⟩
    obtain rfl := huniq r hr row hmem s hnpub' hnpub
    exact hactive
  · exact fun hactive => ⟨row, hmem, hnpub, hactive⟩

/-- The admission service and the operator's list, and the policy for the user's row. -/
theorem permitsGeneral_iff {lowercase : String → String} {relay : Option Relay}
    (huniq : UniqueOn UserRow.nostrPubkey w.db.users.rows) (hcanonical : CanonicalNpub s)
    (hlinked : w.linkedNpub u = some s) :
    PermitsGeneral lowercase relay w (some s) ↔
      ∃ r ∈ relay, r.isWriteAllowlisted s = true ∨
        r.policy.mayPost true (w.premiumActive u) = true := by
  obtain ⟨k, -, rfl⟩ := hcanonical
  have hadmits : ∀ (r : Relay) (event : RelayEvent), event.pubkey = k → r.General event →
      (r.Admits lowercase event w ↔ r.isWriteAllowlisted (Lib.hexEncode k) = true ∨
        r.policy.mayPost true (w.premiumActive u) = true) := by
    rintro r event rfl hgeneral
    rw [Relay.admits_general_iff hgeneral, Relay.authorAllowlisted, RelayEvent.authorHex,
      isRegisteredNpub_of_linked hlinked, isPremiumNpub_of_linked huniq hlinked]
  constructor
  · rintro ⟨r, hr, s, hs, event, hauthor, hgeneral, hpermit⟩
    obtain rfl := Option.mem_some_iff.mp hs
    rw [Lib.hexDecode_hexEncode, Option.some.injEq] at hauthor
    exact ⟨r, hr, (hadmits r event hauthor.symm hgeneral).mp hpermit⟩
  · rintro ⟨r, hr, hcan⟩
    have hgeneral : r.General ⟨[], k, 1, "", []⟩ := ⟨rfl, Nat.zero_le _⟩
    exact ⟨r, hr, _, rfl, ⟨[], k, 1, "", []⟩, Lib.hexDecode_hexEncode k, hgeneral,
      (hadmits r _ rfl hgeneral).mpr hcan⟩

end Linked

theorem not_permitsGeneral_none {lowercase : String → String} {relay : Option Relay} {w : World} :
    ¬ PermitsGeneral lowercase relay w none := by
  rintro ⟨r, -, s, hs, -⟩
  cases hs

theorem generalPostingRights_snd (relay : Option Relay) (npub : Option String) :
    (generalPostingRights relay npub).2 = relay.any fun r =>
      (npub.any fun pk => r.isWriteAllowlisted (toLowercase pk)) ||
        r.policy.mayPost npub.isSome false := by
  cases relay with
  | none => rfl
  | some r =>
    simp only [generalPostingRights, Option.any_some]
    split_ifs with hlisted
    · rw [hlisted, Bool.true_or]
    · rw [Bool.eq_false_iff.mpr hlisted, Bool.false_or]
      cases r.policy <;> rfl

theorem mayPost_registered (policy : WritePolicy) (premium : Bool) :
    policy.mayPost true premium = (premium || policy.mayPost true false) := by
  cases policy <;> cases premium <;> rfl

/-! ### What the endpoints answer -/

theorem outcome_extractUserIdFromToken {bearer : Except AppError TokenInfo} {w w' : World}
    {u : Uuid} (h : (extractUserIdFromToken bearer).Outcome w (.ok u) w') :
    w' = w ∧ ∃ info, bearer = .ok info ∧ u = info.userId := by
  have hread := steps_extractUserIdFromToken (R := fun w w' => w' = w) (fun _ => rfl) bearer
  have hkeeps := keeps_extractUserIdFromToken (I := fun _ => True) bearer
  exact ⟨hread.outcome_eq h, (hkeeps.outcome h trivial).2 u rfl⟩

theorem premiumStatus_eq_ok {relay : Option Relay} {info : TokenInfo} {w w' : World}
    {resp : PremiumStatus} (h : (premiumStatus relay (.ok info)).Outcome w (.ok resp) w') :
    w' = w ∧ resp.canPostGeneral =
      (w.premiumActive info.userId ||
        (generalPostingRights relay (w.linkedNpub info.userId)).2) := by
  rcases Prog.outcome_bind h with ⟨e, -, he⟩ | ⟨u, w₁, huser, h⟩
  · cases he
  obtain ⟨rfl, info', hinfo, rfl⟩ := outcome_extractUserIdFromToken huser
  obtain rfl := Except.ok.inj hinfo
  rcases Prog.outcome_read_bind h with ⟨hr, -⟩ | h
  · cases hr
  rcases Prog.outcome_peek_bind.mp h with h
  rcases Prog.outcome_read_bind h with ⟨hr, -⟩ | h
  · cases hr
  cases h
  exact ⟨rfl, rfl⟩

/-- What an activation plans. -/
theorem activationPlan_eq_ok {inst : PremiumInstance} {enabled : Bool} {processors : Processors}
    {info : TokenInfo} {id : String} {w w' : World} {plan : PremiumPlanned}
    (h : (activationPlan inst enabled processors (.ok info) id).Outcome w (.ok plan) w') :
    w' = w ∧ enabled = true ∧ ∃ rail row, w.db.premiumInvoices.get? (trim id) = some row ∧
      plan = .activate rail (trim id) info.userId row.periodDays := by
  rcases Prog.outcome_bind h with ⟨e, -, he⟩ | ⟨u, w₁, huser, h⟩
  · cases he
  obtain ⟨rfl, info', hinfo, rfl⟩ := outcome_extractUserIdFromToken huser
  obtain rfl := Except.ok.inj hinfo
  rcases Prog.outcome_ofExcept_bind h with ⟨e, he, -⟩ | ⟨_, henabled, h⟩
  · cases he
  have hon : enabled = true := by
    by_contra hoff
    simp [ensurePremiumEnabled, hoff] at henabled
  rcases Prog.outcome_read_bind h with ⟨hr, -⟩ | h
  · cases hr
  cases hrow : (w₁.db.premiumInvoices.get? (trim id)).filter fun r => r.userId = info.userId with
  | none =>
    rw [hrow] at h
    cases h
  | some row =>
    obtain ⟨hget, -⟩ := Option.filter_eq_some_iff.mp hrow
    simp only [hrow] at h
    split_ifs at h
    · cases h
    · cases hrail : inst.forInvoice row.provider with
      | none =>
        rw [hrail] at h
        cases h
      | some rail =>
        simp only [hrail] at h
        rcases Prog.outcome_ofExcept_bind h with ⟨e, he, -⟩ | ⟨_, -, h⟩
        · cases he
        cases h
        exact ⟨rfl, hon, rail, row, hget, rfl⟩

/-- An activation that succeeds has set the flag, and extended the window at one instant. -/
theorem activatePremium_eq_ok {inst : PremiumInstance} {relay : Option Relay} {enabled : Bool}
    {processors : Processors} {info : TokenInfo} {id : String} {w w' : World}
    {resp : PremiumStatus}
    (h : (activatePremium inst relay enabled processors (.ok info) id).Outcome w (.ok resp) w') :
    enabled = true ∧ resp.canPostGeneral = true ∧
      ∃ rail row, w.db.premiumInvoices.get? (trim id) = some row ∧
        PremiumEffect (.activate rail (trim id) info.userId row.periodDays) w.now w w' := by
  rcases Prog.outcome_bind h with ⟨e, -, he⟩ | ⟨plan, w₁, hplan, h⟩
  · cases he
  obtain ⟨rfl, hon, rail, row, hrow, rfl⟩ := activationPlan_eq_ok hplan
  simp only at h
  rcases Prog.outcome_bind h with ⟨e, -, he⟩ | ⟨_, w₂, hcommit, h⟩
  · cases he
  rcases Prog.outcome_read_bind h with ⟨hr, -⟩ | h
  · cases hr
  cases h
  refine ⟨hon, rfl, rail, row, hrow, ?_⟩
  rcases Prog.outcome_query hcommit with ⟨hr, hw'⟩ | ⟨hr, -⟩
  · cases hreplay : Lib.replay
        (premiumScript (.activate rail (trim id) info.userId row.periodDays) w₁.now) w₁ with
    | error e => simp [hreplay] at hr
    | ok w₂ =>
      rw [hw', hreplay]
      exact effect_of_replay hreplay
  · cases hr

/-! ### Agreement -/

section Agreement

variable {env : ConfigEnv} {bech32 : Bech32} (inst : RelayInstance env bech32)

/-- The status is right: there is a relay and an npub to post with, or there is neither an active
window nor a relay that is open to all. -/
def StatusAgrees (w : World) (u : Uuid) : Prop :=
  (inst.config.relay.enabled = true ∧ (w.linkedNpub u).isSome) ∨
    (w.premiumActive u = false ∧
      ¬ (inst.config.relay.enabled = true ∧ inst.config.relay.writePolicy = "open"))

/-- The answer to an activation of so many days is right: an npub is linked, and it is on the
operator's list or the days lead beyond now. -/
def ActivateAgrees (w : World) (u : Uuid) (period : Int32) : Prop :=
  ∃ npub ∈ w.linkedNpub u, (∃ r ∈ inst.relay, r.isWriteAllowlisted npub = true) ∨
    0 < period.toInt ∨ ∃ t ∈ w.premiumUntil u, w.now < t + days period.toInt

variable {inst}

theorem status_agrees_iff {w : World} {u : Uuid}
    (huniq : UniqueOn UserRow.nostrPubkey w.db.users.rows) (hcanonical : CanonicalNpubs w) :
    ((w.premiumActive u || (generalPostingRights inst.relay (w.linkedNpub u)).2) = true ↔
        PermitsGeneral env.lowercase inst.relay w (w.linkedNpub u)) ↔ StatusAgrees inst w u := by
  unfold StatusAgrees
  rw [generalPostingRights_snd]
  cases henabled : inst.config.relay.enabled with
  | false =>
    have hnone := relay_eq_none inst.booted henabled
    have hnot : ¬ PermitsGeneral env.lowercase none w (w.linkedNpub u) := by
      rintro ⟨r, hr, -⟩
      cases hr
    simp [hnone, hnot]
  | true =>
    obtain ⟨r, hr, hpolicy⟩ := relay_eq_some inst.booted henabled
    have hopen : inst.config.relay.writePolicy = "open" ↔ r.policy = .open := by
      rw [← parse_eq_open_iff, hpolicy, Option.some.injEq]
    cases hlinked : w.linkedNpub u with
    | none =>
      have hmay : r.policy.mayPost false false = true ↔ r.policy = .open := by
        cases r.policy <;> simp [WritePolicy.mayPost]
      simp [hr, hopen, not_permitsGeneral_none, hmay]
    | some s =>
      obtain ⟨row, hrow, hnpub⟩ := Option.bind_eq_some_iff.mp hlinked
      have hs := hcanonical row (Table.mem_of_get? hrow) s hnpub
      rw [permitsGeneral_iff huniq hs hlinked]
      obtain ⟨k, -, rfl⟩ := hs
      simp [hr, toLowercase_hexEncode, mayPost_registered r.policy (w.premiumActive u), or_left_comm]

/-- A column that an update keeps stays unique. -/
theorem uniqueOn_updateOne {column : UserRow → Option String} {t : Table UserRow}
    (h : UniqueOn column t.rows) {k : Uuid} {guard : UserRow → Bool} {f : Patch UserRow}
    (hf : ∀ r, column (f.set r) = column r) :
    UniqueOn column (t.updateOne k guard f).2.rows := by
  -- every row was there, with the same key and the same value
  have hold : ∀ r ∈ (t.updateOne k guard f).2.rows,
      ∃ r₀ ∈ t.rows, Lib.key r₀ = Lib.key r ∧ column r₀ = column r := by
    intro r hr
    have hget := Table.get?_of_mem hr
    rw [Table.get?_updateOne] at hget
    obtain ⟨r₀, hr₀, heq⟩ := Option.map_eq_some_iff.mp hget
    refine ⟨r₀, Table.mem_of_get? hr₀, Table.key_of_get? hr₀, ?_⟩
    rw [← heq]
    split_ifs
    · exact (hf r₀).symm
    · rfl
  intro r hr r' hr' v hv hv'
  obtain ⟨r₀, hr₀, hkey, hcol⟩ := hold r hr
  obtain ⟨r₀', hr₀', hkey', hcol'⟩ := hold r' hr'
  obtain rfl := h r₀ hr₀ r₀' hr₀' v (hcol.trans hv) (hcol'.trans hv')
  exact Table.eq_of_mem_of_key hr hr' (hkey.symm.trans hkey')

theorem lt_extendWindow_iff {now : Timestamp} {d : ℤ} {premiumUntil : Option Timestamp} :
    now < extendWindow now d premiumUntil ↔ 0 < d ∨ ∃ t ∈ premiumUntil, now < t + days d := by
  have hdays : 0 < days d ↔ 0 < d := by
    simp only [days, seconds]
    omega
  cases premiumUntil with
  | none => simp [extendWindow, hdays]
  | some t =>
    simp only [extendWindow, Option.getD_some, Option.mem_some_iff, exists_eq_left', ← hdays]
    rcases le_total t now with hle | hle
    · rw [max_eq_right hle, lt_add_iff_pos_right]
      exact (or_iff_left_of_imp fun hlt =>
        (lt_add_iff_pos_right now).mp (hlt.trans_le (add_le_add_left hle _))).symm
    · rw [max_eq_left hle]
      exact (or_iff_right_of_imp fun hpos => hle.trans_lt (lt_add_of_pos_right t hpos)).symm

theorem activate_agrees_iff {w w' : World} {u : Uuid} {rail : PaymentRail} {id : String}
    {period : Int32} (huniq : UniqueOn UserRow.nostrPubkey w.db.users.rows)
    (hcanonical : CanonicalNpubs w) (hpremium : inst.config.premium.enabled = true)
    (heffect : PremiumEffect (.activate rail id u period) w.now w w') :
    PermitsGeneral env.lowercase inst.relay w' (w'.linkedNpub u) ↔ ActivateAgrees inst w u period := by
  unfold ActivateAgrees
  obtain ⟨henabled, hpolicy⟩ := relay_of_premium inst.valid hpremium
  obtain ⟨r, hr, hparse⟩ := relay_eq_some inst.booted henabled
  have hpost : r.policy = .premiumPost := by
    rw [hpolicy] at hparse
    exact (Option.some.inj hparse).symm
  have hnow : w'.now = w.now := by
    cases heffect
    rfl
  have hlinked' : w'.linkedNpub u = w.linkedNpub u := by
    cases heffect
    simp only [World.linkedNpub, Table.get?_updateOne]
    cases w.db.users.get? u with
    | none => rfl
    | some row => simp [extendPremium]
  have huniq' : UniqueOn UserRow.nostrPubkey w'.db.users.rows := by
    cases heffect
    exact uniqueOn_updateOne huniq fun _ => rfl
  have hactive : w'.premiumActive u = true ↔
      0 < period.toInt ∨ ∃ t ∈ w.premiumUntil u, w.now < t + days period.toInt := by
    rw [World.premiumActive, heffect.premiumUntil_eq u, PremiumPlanned.daysFor, if_pos rfl, hnow]
    simp only [Option.elim_some, Option.any_some, decide_eq_true_eq]
    exact lt_extendWindow_iff
  cases hlinked : w.linkedNpub u with
  | none => simp [hlinked', hlinked, not_permitsGeneral_none]
  | some s =>
    obtain ⟨row, hrow, hnpub⟩ := Option.bind_eq_some_iff.mp hlinked
    have hs := hcanonical row (Table.mem_of_get? hrow) s hnpub
    rw [hlinked', hlinked, permitsGeneral_iff huniq' hs (hlinked'.trans hlinked)]
    simp [hr, hpost, WritePolicy.mayPost, hactive]

/-- **Status and admission**: the flag that a premium endpoint reports is the decision of the
admission service in exactly the cases of `StatusAgrees` and `ActivateAgrees`. -/
theorem can_post_general_iff (inst : RelayInstance env bech32) {w : World}
    (huniq : UsersUnique w.db.users) (hcanonical : CanonicalNpubs w) (info : TokenInfo) :
    (∀ resp w', (premiumStatus inst.relay (.ok info)).Outcome w (.ok resp) w' →
      ((resp.canPostGeneral = true ↔
          PermitsGeneral env.lowercase inst.relay w' (w'.linkedNpub info.userId)) ↔
        StatusAgrees inst w info.userId)) ∧
      ∀ premium processors id row resp w', w.db.premiumInvoices.get? (trim id) = some row →
        (activatePremium premium inst.relay inst.config.premium.enabled processors (.ok info)
          id).Outcome w (.ok resp) w' →
        ((resp.canPostGeneral = true ↔
            PermitsGeneral env.lowercase inst.relay w' (w'.linkedNpub info.userId)) ↔
          ActivateAgrees inst w info.userId row.periodDays) := by
  constructor
  · intro resp w' h
    obtain ⟨rfl, hflag⟩ := premiumStatus_eq_ok h
    rw [hflag]
    exact status_agrees_iff huniq.nostrPubkey hcanonical
  · intro premium processors id row resp w' hrow h
    obtain ⟨hon, hflag, rail, row', hrow', heffect⟩ := activatePremium_eq_ok h
    obtain rfl := Option.some.inj (hrow.symm.trans hrow')
    rw [hflag, eq_self_iff_true, true_iff]
    exact activate_agrees_iff huniq.nostrPubkey hcanonical hon heffect

/-! ### A window without an npub -/

/-- An instance that sells posting rights on its relay. -/
def postingConfig : Config :=
  { sampleConfig with
    relay := ⟨true, "external", "wss://relay", "premium-post", 0, "127.0.0.1:7777", true, 65536, 30⟩
    premium := ⟨true, "XMR", [⟨"quarter", 90, "1"⟩], []⟩ }

/-- The relay of that instance. -/
def postingRelay : Relay := ⟨"external", "wss://relay", .premiumPost, 0, 65536, []⟩

/-- That instance, booted. -/
def postingInstance : RelayInstance sampleConfigEnv fun _ => none where
  config := postingConfig
  writeAllowlist := []
  relay := some postingRelay
  valid := by decide +kernel
  booted := rfl

/-- A user with an active window. -/
def premiumUser (npub : Option String) : UserRow :=
  ⟨1, none, none, npub, none, none, none, none, some 10⟩

/-- Two users with an active window: the first has no npub. -/
def postersWorld : World where
  db := { Db.empty with users :=
    ⟨[premiumUser none, { premiumUser (some (Lib.hexEncode (List.replicate 32 7))) with id := 2 }],
      by decide⟩ }
  now := 0

theorem usersUnique_postersWorld : UsersUnique postersWorld.db.users := by
  constructor <;> simp [UniqueOn, postersWorld, premiumUser]

theorem canonicalNpubs_postersWorld : CanonicalNpubs postersWorld := by
  intro r hr s hs
  simp only [postersWorld, List.mem_cons, List.not_mem_nil, or_false] at hr
  rcases hr with rfl | rfl
  · cases hs
  · exact ⟨List.replicate 32 7, by simp, (Option.some.inj hs).symm⟩

theorem can_post_general_linked :
    (premiumStatus postingInstance.relay (.ok ⟨2, none⟩)).Outcome postersWorld
      (.ok ⟨true, some 10, false, true⟩) postersWorld ∧
    PermitsGeneral sampleConfigEnv.lowercase postingInstance.relay postersWorld
      (postersWorld.linkedNpub 2) := by
  have hrun := Prog.outcome_run (premiumStatus postingInstance.relay (.ok ⟨2, none⟩)) postersWorld
  have hagrees := (can_post_general_iff postingInstance usersUnique_postersWorld
    canonicalNpubs_postersWorld ⟨2, none⟩).1 ⟨true, some 10, false, true⟩ postersWorld hrun
  exact ⟨hrun, (hagrees.mpr (.inl ⟨rfl, rfl⟩)).mp rfl⟩

theorem can_post_general_misleads :
    ¬ ∀ (env : ConfigEnv) (bech32 : Bech32) (inst : RelayInstance env bech32) (w : World),
      UsersUnique w.db.users → CanonicalNpubs w → ∀ (info : TokenInfo) resp w',
        (premiumStatus inst.relay (.ok info)).Outcome w (.ok resp) w' →
        (resp.canPostGeneral = true ↔
          PermitsGeneral env.lowercase inst.relay w' (w'.linkedNpub info.userId)) := by
  intro hclaim
  have hrun := Prog.outcome_run (premiumStatus postingInstance.relay (.ok ⟨1, none⟩)) postersWorld
  have hpermit := (hclaim _ _ postingInstance postersWorld usersUnique_postersWorld
    canonicalNpubs_postersWorld ⟨1, none⟩ ⟨true, some 10, false, true⟩ postersWorld hrun).mp rfl
  exact not_permitsGeneral_none hpermit

end Agreement

end SmirkBackend
