import SmirkBackend.Admin.Mac
import SmirkBackend.Auth.KeyIdentity
import SmirkBackend.Relay.Admission

/-!
# The price of a restore

A wallet that is restored from an old height makes the server scan the chain from there.  The
operator bounds the depth and asks for proof of work, one more bit for every so many days beyond a
free window, up to a cap.  The work is a nonce under which a hash of the restore begins with so many
zero bits.

The number of priced steps is narrowed to 32 bits before the cap, so a restore `2 ^ 32` steps deep
is free again.

* `leadingZeroBitsOf_eq` : the loop counts the zero bits at the front.
* `restorePowInput_inj` : the hashed bytes determine the restore and the nonce.
* `priced_exactly_iff` : the restores that are priced exactly.
-/

namespace SmirkBackend

open Config (RestoreConfig)

/-! ### Proof of work -/

/-- The text of the domain. -/
def restorePowDomain : String := "smirk-restore-pow-v1"

/-- `challenge_input`. -/
def challengeInput (asset address : String) (startHeight : UInt64) : List UInt8 :=
  restorePowDomain.toUTF8.data.toList ++ [0x1f] ++ asset.toUTF8.data.toList ++ [0x1f] ++
    address.toUTF8.data.toList ++ [0x1f] ++ leBytes startHeight.toNat 8

/-- What is hashed for a nonce. -/
def restorePowInput (asset address : String) (startHeight nonce : UInt64) : List UInt8 :=
  challengeInput asset address startHeight ++ leBytes nonce.toNat 8

/-- `restore_pow::verify`.  Its `leading_zero_bits` is the loop of the relay's. -/
def restorePowVerify (sha256 : List UInt8 → List UInt8) (asset address : String)
    (startHeight nonce : UInt64) (requiredBits : UInt32) : Bool :=
  if requiredBits = 0 then true
  else requiredBits.toNat ≤
    leadingZeroBitsOf (sha256 (restorePowInput asset address startHeight nonce))

/-- The bits of a byte, the highest first. -/
def bitsOf (b : UInt8) : List Bool := (List.range 8).map fun i => b.toNat.testBit (7 - i)

/-- The number of zero bits at the front. -/
def zeroPrefix (bytes : List UInt8) : ℕ := ((bytes.flatMap bitsOf).takeWhile (!·)).length

theorem takeWhile_bitsOf {b : UInt8} (h : b ≠ 0) (rest : List Bool) :
    ((bitsOf b ++ rest).takeWhile (!·)).length = 7 - b.toNat.log2 := by
  have hall : ∀ n < 256, n ≠ 0 →
      (((List.range 8).map fun i => n.testBit (7 - i)).takeWhile (!·)).length = 7 - n.log2 ∧
        ∃ i < 8, n.testBit (7 - i) = true := by decide +kernel
  have hne : b.toNat ≠ 0 := fun hzero => h (UInt8.toNat_inj.mp hzero)
  obtain ⟨hlen, i, hi, hbit⟩ := hall b.toNat b.toNat_lt hne
  -- a bit is set, so the prefix ends within the byte
  rw [List.takeWhile_append, if_neg, bitsOf, hlen]
  intro heq
  have hfull := (List.takeWhile_prefix (p := (!·)) (l := bitsOf b)).eq_of_length heq
  have hclear := List.all_takeWhile (p := (!·)) (l := bitsOf b)
  rw [hfull, List.all_eq_true] at hclear
  simpa using hclear true (List.mem_map.mpr ⟨i, List.mem_range.mpr hi, hbit⟩)

/-- The loop counts the zero bits at the front. -/
theorem leadingZeroBitsOf_eq (bytes : List UInt8) : leadingZeroBitsOf bytes = zeroPrefix bytes := by
  unfold zeroPrefix
  induction bytes with
  | nil => rfl
  | cons b rest ih =>
    rw [leadingZeroBitsOf, List.flatMap_cons]
    split_ifs with hzero
    · have hbits : bitsOf b = List.replicate 8 false := by
        rw [hzero]
        decide
      rw [hbits, List.takeWhile_append_of_pos (by simp), List.length_append, List.length_replicate,
        ih]
    · exact (takeWhile_bitsOf hzero _).symm

theorem restorePowVerify_iff {sha256 : List UInt8 → List UInt8} {asset address : String}
    {startHeight nonce : UInt64} {bits : UInt32} :
    restorePowVerify sha256 asset address startHeight nonce bits ↔
      bits = 0 ∨ bits.toNat ≤ zeroPrefix (sha256 (restorePowInput asset address startHeight nonce)) := by
  unfold restorePowVerify
  rw [← leadingZeroBitsOf_eq]
  split_ifs with hzero
  · simp [hzero]
  · simp [hzero]

/-- The bytes of a text. -/
def utf8 (s : String) : List UInt8 := s.toUTF8.data.toList

theorem utf8_injective : Function.Injective utf8 := by
  intro s s' h
  simp only [utf8, String.toUTF8_eq_toByteArray] at h
  exact String.toByteArray_inj.mp (ByteArray.ext (Array.toList_inj.mp h))

/-- The hashed bytes determine the restore and the nonce. -/
theorem restorePowInput_inj {asset asset' address address' : String}
    {start start' nonce nonce' : UInt64} (hasset : 0x1f ∉ utf8 asset) (hasset' : 0x1f ∉ utf8 asset')
    (h : restorePowInput asset address start nonce = restorePowInput asset' address' start' nonce') :
    asset = asset' ∧ address = address' ∧ start = start' ∧ nonce = nonce' := by
  have hword {x y : UInt64} (h : leBytes x.toNat 8 = leBytes y.toNat 8) : x = y :=
    UInt64.toNat_inj.mp (leBytes_inj x.toNat_lt y.toNat_lt h)
  unfold restorePowInput at h
  obtain ⟨hchallenge, hnonce⟩ := List.append_inj' h (by simp only [length_leBytes])
  unfold challengeInput at hchallenge
  obtain ⟨htexts, hstart⟩ := List.append_inj' hchallenge (by simp only [length_leBytes])
  -- the asset ends at the first separator behind the domain
  have htexts := List.append_cancel_right htexts
  simp only [List.append_assoc, List.singleton_append] at htexts
  have htail := (List.cons.inj (List.append_cancel_left htexts)).2
  obtain ⟨hassets, haddresses⟩ := split_first hasset hasset' htail
  exact ⟨utf8_injective hassets, utf8_injective haddresses, hword hstart, hword hnonce⟩

/-! ### The restore policy -/

/-- `blocks_per_day`. -/
def blocksPerDay (chain : String) : UInt64 :=
  match chain with
  | "xmr" | "wow" => 720
  | "grin" => 1440
  | "btc" => 144
  | "ltc" => 576
  | _ => 720

namespace Config.RestoreConfig

variable (cfg : RestoreConfig) (chain : String)

/-- `min_start_height`: the earliest height the instance scans from. -/
def minStartHeight (tip : UInt64) : UInt64 :=
  match cfg.policy with
  | .unlimited => 0
  | .createOnly => Lib.saturatingSubU tip (Lib.saturatingMulU 1 (blocksPerDay chain))
  | .bounded =>
    Lib.saturatingSubU tip (Lib.saturatingMulU cfg.maxDepthDays.toUInt64 (blocksPerDay chain))

/-- `enforce`. -/
def enforce (startHeight tip : UInt64) : Except AppError Unit :=
  if cfg.policy = .unlimited || cfg.minStartHeight chain tip ≤ startHeight then .ok ()
  else
    match cfg.policy with
    | .createOnly => .error (.validationError
        ("this instance accepts new-wallet registration only (create-only); a restore " ++
          "scan from an earlier height is not permitted here"))
    | .bounded => .error (.validationError
        ("restore depth exceeds this instance's limit of " ++ toString cfg.maxDepthDays ++ " days"))
    | .unlimited => .error (.internal "internal error: entered unreachable code")

/-- `required_restore_pow_bits`: the number of steps is narrowed before the cap. -/
def requiredRestorePowBits (startHeight tip : UInt64) : UInt32 :=
  if cfg.powDaysPerBit = 0 then 0
  else
    let depthDays := Lib.saturatingSubU tip startHeight / max (blocksPerDay chain) 1
    let beyond := Lib.saturatingSubU depthDays cfg.powFreeDays.toUInt64
    min (beyond / cfg.powDaysPerBit.toUInt64).toUInt32 cfg.powMaxBits

/-- `enforce_restore_pow`. -/
def enforceRestorePow (sha256 : List UInt8 → List UInt8) (address : String)
    (startHeight tip : UInt64) (nonce : Option UInt64) : Except AppError Unit :=
  let bits := cfg.requiredRestorePowBits chain startHeight tip
  if bits = 0 then .ok ()
  else
    match nonce with
    | none => .error (.validationError
        ("this restore depth requires a " ++ toString bits ++ "-bit proof-of-work nonce; " ++
          "upgrade to a newer Smirk client"))
    | some nonce =>
      if restorePowVerify sha256 chain address startHeight nonce bits then .ok ()
      else .error (.validationError
        "restore proof-of-work is insufficient for the requested depth")

/-- The checks of `import_wallet` and its siblings: a new wallet is not checked. -/
def importGate (sha256 : List UInt8 → List UInt8) (address : String)
    (startHeight : Option UInt64) (tip : UInt64) (nonce : Option UInt64) : Except AppError Unit :=
  match startHeight with
  | none => .ok ()
  | some h => do
    cfg.enforce chain h tip
    cfg.enforceRestorePow chain sha256 address h tip nonce

/-- The checks of the Grin scan: an omitted height stands for the deepest one permitted. -/
def grinGate (sha256 : List UInt8 → List UInt8) (rewindHash : String)
    (startHeight : Option UInt64) (tip : UInt64) (nonce : Option UInt64) : Except AppError Unit := do
  let h := startHeight.getD (cfg.minStartHeight "grin" tip)
  cfg.enforce "grin" h tip
  cfg.enforceRestorePow "grin" sha256 rewindHash h tip nonce

theorem enforce_ok_iff {cfg : RestoreConfig} {chain : String} {start tip : UInt64} :
    cfg.enforce chain start tip = .ok () ↔ cfg.minStartHeight chain tip ≤ start := by
  unfold enforce
  by_cases hle : cfg.minStartHeight chain tip ≤ start
  · simp [hle]
  · have hpolicy : cfg.policy ≠ .unlimited := by
      intro hpolicy
      refine hle (UInt64.le_iff_toNat_le.mpr ?_)
      simp [minStartHeight, hpolicy]
    refine iff_of_false ?_ hle
    rw [if_neg (by simp [hpolicy, hle])]
    split
    · exact nofun
    · exact nofun
    · exact nofun

theorem enforceRestorePow_ok_iff {cfg : RestoreConfig} {sha256 : List UInt8 → List UInt8}
    {chain address : String} {start tip : UInt64} {nonce : Option UInt64} :
    cfg.enforceRestorePow chain sha256 address start tip nonce = .ok () ↔
      cfg.requiredRestorePowBits chain start tip = 0 ∨ ∃ n, nonce = some n ∧
        (cfg.requiredRestorePowBits chain start tip).toNat ≤
          zeroPrefix (sha256 (restorePowInput chain address start n)) := by
  unfold enforceRestorePow
  by_cases hzero : cfg.requiredRestorePowBits chain start tip = 0
  · simp [hzero]
  · cases nonce with
    | none => simp [hzero]
    | some n => simp [hzero, restorePowVerify_iff]

/-- An omitted height is not too deep, and it is priced. -/
theorem grinGate_none (sha256 : List UInt8 → List UInt8) (rewindHash : String) (tip : UInt64)
    (nonce : Option UInt64) : cfg.grinGate sha256 rewindHash none tip nonce =
      cfg.enforceRestorePow "grin" sha256 rewindHash (cfg.minStartHeight "grin" tip) tip nonce := by
  have hfloor : cfg.enforce "grin" (cfg.minStartHeight "grin" tip) tip = .ok () :=
    enforce_ok_iff.mpr (UInt64.le_refl _)
  simp only [grinGate, Option.getD_none, hfloor]
  rfl

/-! ### Exact prices -/

/-- The steps beyond the free window, in exact arithmetic. -/
def pricedSteps (startHeight tip : UInt64) : ℕ :=
  ((tip.toNat - startHeight.toNat) / (blocksPerDay chain).toNat - cfg.powFreeDays.toNat) /
    cfg.powDaysPerBit.toNat

/-- The price in exact arithmetic. -/
def exactBits (startHeight tip : UInt64) : ℕ :=
  if cfg.powDaysPerBit = 0 then 0
  else min cfg.powMaxBits.toNat (cfg.pricedSteps chain startHeight tip)

theorem toNat_requiredRestorePowBits (start tip : UInt64) :
    (cfg.requiredRestorePowBits chain start tip).toNat =
      if cfg.powDaysPerBit = 0 then 0
      else min cfg.powMaxBits.toNat (cfg.pricedSteps chain start tip % 2 ^ 32) := by
  have hday : max (blocksPerDay chain) 1 = blocksPerDay chain := by
    unfold blocksPerDay
    split <;> decide
  have hmin (a b : UInt32) : (min a b).toNat = min a.toNat b.toNat := by
    change (if a ≤ b then a else b).toNat = _
    split_ifs with h
    · have hle := UInt32.le_iff_toNat_le.mp h
      omega
    · have hlt := mt UInt32.le_iff_toNat_le.mpr h
      omega
  unfold requiredRestorePowBits pricedSteps
  split_ifs with hoff
  · rfl
  · simp only [hday, hmin, UInt64.toNat_toUInt32, UInt64.toNat_div, Lib.toNat_saturatingSubU,
      UInt32.toNat_toUInt64]
    exact Nat.min_comm _ _

theorem pricedSteps_anti {start start' : UInt64} (h : start ≤ start') (tip : UInt64) :
    cfg.pricedSteps chain start' tip ≤ cfg.pricedSteps chain start tip := by
  have hle := UInt64.le_iff_toNat_le.mp h
  unfold pricedSteps
  gcongr

/-- A restore is priced as by exact arithmetic. -/
structure PricedExactly (start tip : UInt64) : Prop where
  /-- The difficulty is the exact one. -/
  exact : (cfg.requiredRestorePowBits chain start tip).toNat = cfg.exactBits chain start tip
  /-- A later start costs no more. -/
  monotone : ∀ start', start ≤ start' →
    cfg.requiredRestorePowBits chain start' tip ≤ cfg.requiredRestorePowBits chain start tip
  /-- The bound on the depth is the earliest height. -/
  depth : cfg.enforce chain start tip = .ok () ↔ cfg.minStartHeight chain tip ≤ start
  /-- A price is paid by a nonce. -/
  paid : ∀ (sha256 : List UInt8 → List UInt8) (address : String) (nonce : Option UInt64),
    cfg.enforceRestorePow chain sha256 address start tip nonce = .ok () ↔
      cfg.requiredRestorePowBits chain start tip = 0 ∨ ∃ n, nonce = some n ∧
        (cfg.requiredRestorePowBits chain start tip).toNat ≤
          zeroPrefix (sha256 (restorePowInput chain address start n))
  /-- The nonce is bound to the restore. -/
  bound : ∀ (chain' address address' : String) (start' nonce nonce' : UInt64),
    0x1f ∉ utf8 chain → 0x1f ∉ utf8 chain' →
    restorePowInput chain address start nonce = restorePowInput chain' address' start' nonce' →
    chain = chain' ∧ address = address' ∧ start = start' ∧ nonce = nonce'

end Config.RestoreConfig

/-- **Restores are priced exactly** unless the narrowing drops the number of steps below the cap. -/
theorem priced_exactly_iff (cfg : RestoreConfig) (chain : String) (start tip : UInt64) :
    cfg.PricedExactly chain start tip ↔
      cfg.powDaysPerBit = 0 ∨ cfg.pricedSteps chain start tip < 2 ^ 32 ∨
        cfg.powMaxBits.toNat ≤ cfg.pricedSteps chain start tip % 2 ^ 32 := by
  have hbits := cfg.toNat_requiredRestorePowBits chain
  have hmax := cfg.powMaxBits.toNat_lt
  constructor
  · intro h
    by_cases hoff : cfg.powDaysPerBit = 0
    · exact .inl hoff
    · have hexact := h.exact
      rw [hbits, RestoreConfig.exactBits, if_neg hoff, if_neg hoff] at hexact
      omega
  · intro h
    have hexact : (cfg.requiredRestorePowBits chain start tip).toNat =
        cfg.exactBits chain start tip := by
      rw [hbits, RestoreConfig.exactBits]
      split_ifs with hoff
      · rfl
      · have hcases := h.resolve_left hoff
        have hmod := Nat.mod_le (cfg.pricedSteps chain start tip) (2 ^ 32)
        rcases hcases with hword | hcap
        · rw [Nat.mod_eq_of_lt hword]
        · omega
    refine ⟨hexact, fun start' hle => ?_, RestoreConfig.enforce_ok_iff,
      fun _ _ _ => RestoreConfig.enforceRestorePow_ok_iff,
      fun _ _ _ _ _ _ hchain hchain' => restorePowInput_inj hchain hchain'⟩
    rw [UInt32.le_iff_toNat_le, hexact, hbits, RestoreConfig.exactBits]
    split_ifs with hoff
    · exact Nat.le_refl 0
    · have hsteps := cfg.pricedSteps_anti chain hle tip
      have hmod := Nat.mod_le (cfg.pricedSteps chain start' tip) (2 ^ 32)
      omega

/-- One bit for each day, at most 20. -/
def dailyBit : RestoreConfig := ⟨.unlimited, 0, 0, 1, 20⟩

/-- A restore `2 ^ 32` days deep is free, while one a day less deep costs 20 bits. -/
theorem dailyBit_free : dailyBit.requiredRestorePowBits "xmr" 0 3092376453120 = 0 ∧
    dailyBit.requiredRestorePowBits "xmr" 720 3092376453120 = 20 ∧
    ¬ dailyBit.PricedExactly "xmr" 0 3092376453120 := by
  have hfree : dailyBit.requiredRestorePowBits "xmr" 0 3092376453120 = 0 := by decide +kernel
  have hpriced : dailyBit.requiredRestorePowBits "xmr" 720 3092376453120 = 20 := by decide +kernel
  refine ⟨hfree, hpriced, fun h => ?_⟩
  have hle := h.monotone 720 (by decide)
  rw [hfree, hpriced] at hle
  exact absurd hle (by decide)

end SmirkBackend
