import SmirkBackend.Config.Merge

/-!
# Applied edits

What an edit does to a configuration, field by field.  An edit after another is their merge; the
values of the editable fields afterwards are those of before, merged with the edit as it is
normalised; and a normalised configuration is its own edit.

* `Config.edited_merge` : an edit after another is their merge.
* `Config.editableOverlay_edited` : the editable fields after an edit.
* `Config.edited_editableOverlay` : the fields of a configuration edit nothing.

Of the mapping of letter case only `CaseMapping` is asked.
-/

namespace SmirkBackend

open Config

/-! ### An edit after another -/

/-- The edited configuration, before it is checked. -/
def Config.edited (env : ConfigEnv) (c : Config) (ov : SettingsOverlay) : Except AppError Config := do
  let restore ← applySectionM (RestoreOverlay.apply env) ov.restore c.restore
  let restartApplyMode ← applySectionM (ConsoleOverlay.apply env) ov.console c.restartApplyMode
  let registration ←
    applySectionM (RegistrationOverlay.apply env) ov.registration c.registration
  return { c with
    landing := applySection LandingOverlay.apply ov.landing c.landing
    retention := applySection RetentionOverlay.apply ov.retention c.retention
    restore := restore
    restartApplyMode := restartApplyMode
    registration := registration
    pow := applySection PowOverlay.apply ov.pow c.pow
    features := applySection (FeaturesOverlay.apply env) ov.features c.features
    relay := applySection (RelayOverlay.apply env) ov.relay c.relay
    premium := applySection (PremiumOverlay.apply env) ov.premium c.premium }

/-- What an edit that is read does. -/
theorem Config.edited_eq_ok_iff {env : ConfigEnv} {c d : Config} {ov : SettingsOverlay} :
    c.edited env ov = .ok d ↔ ∃ restore mode registration,
      applySectionM (RestoreOverlay.apply env) ov.restore c.restore = .ok restore ∧
      applySectionM (ConsoleOverlay.apply env) ov.console c.restartApplyMode = .ok mode ∧
      applySectionM (RegistrationOverlay.apply env) ov.registration c.registration =
        .ok registration ∧
      d = { c with
        landing := applySection LandingOverlay.apply ov.landing c.landing
        retention := applySection RetentionOverlay.apply ov.retention c.retention
        restore := restore
        restartApplyMode := mode
        registration := registration
        pow := applySection PowOverlay.apply ov.pow c.pow
        features := applySection (FeaturesOverlay.apply env) ov.features c.features
        relay := applySection (RelayOverlay.apply env) ov.relay c.relay
        premium := applySection (PremiumOverlay.apply env) ov.premium c.premium } := by
  unfold edited
  constructor
  · intro h
    cases hrestore : applySectionM (RestoreOverlay.apply env) ov.restore c.restore with
    | error e => simp [hrestore, bind, Except.bind] at h
    | ok restore =>
      cases hmode : applySectionM (ConsoleOverlay.apply env) ov.console c.restartApplyMode with
      | error e => simp [hrestore, hmode, bind, Except.bind] at h
      | ok mode =>
        cases hreg : applySectionM (RegistrationOverlay.apply env) ov.registration
            c.registration with
        | error e => simp [hrestore, hmode, hreg, bind, Except.bind] at h
        | ok registration =>
          rw [hrestore, hmode, hreg] at h
          exact ⟨restore, mode, registration, rfl, rfl, rfl, (Except.ok.inj h).symm⟩
  · rintro ⟨restore, mode, registration, hrestore, hmode, hreg, rfl⟩
    rw [hrestore, hmode, hreg]
    rfl

theorem Config.applyOverlay_eq (env : ConfigEnv) (c : Config) (ov : SettingsOverlay) :
    c.applyOverlay env ov = c.edited env ov >>= fun d => d.validate env >>= fun _ => .ok d := by
  unfold applyOverlay edited
  cases applySectionM (RestoreOverlay.apply env) ov.restore c.restore with
  | error e => rfl
  | ok restore =>
    cases applySectionM (ConsoleOverlay.apply env) ov.console c.restartApplyMode with
    | error e => rfl
    | ok mode =>
      cases applySectionM (RegistrationOverlay.apply env) ov.registration c.registration with
      | error e => rfl
      | ok registration => rfl

theorem Config.applyOverlay_eq_ok_iff {env : ConfigEnv} {c d : Config} {ov : SettingsOverlay} :
    c.applyOverlay env ov = .ok d ↔ c.edited env ov = .ok d ∧ d.validate env = .ok () := by
  rw [applyOverlay_eq]
  cases c.edited env ov with
  | error e => simp [bind, Except.bind]
  | ok d' =>
    cases hvalid : d'.validate env with
    | error e =>
      simp only [bind, Except.bind, hvalid, Except.ok.injEq, reduceCtorEq, false_iff, not_and]
      rintro rfl
      simp [hvalid]
    | ok u =>
      simp only [bind, Except.bind, hvalid, Except.ok.injEq]
      constructor
      · rintro rfl
        exact ⟨rfl, hvalid⟩
      · exact And.left

theorem keep_or {α : Type} (edit current : Option α) (x : α) :
    keep (edit.or current) x = keep edit (keep current x) := by
  cases edit <;> rfl

theorem keepNamed_or {α : Type} {edit current : Option String} {read : String → Except AppError α}
    {x y : α} (h : keepNamed current read x = .ok y) :
    keepNamed (edit.or current) read x = keepNamed edit read y := by
  cases edit with
  | none => exact h
  | some name => rfl

section

variable {O C : Type} [Serde O] [SparseEdit O]

theorem applySection_merge {edit : O → C → C}
    (h : ∀ o p c, edit (SparseEdit.merge o p) c = edit p (edit o c)) (current patch : Option O)
    (c : C) : applySection edit (mergeEdit current patch) c =
      applySection edit patch (applySection edit current c) := by
  cases current with
  | none => rfl
  | some o => cases patch with
    | none => rfl
    | some p => exact h o p c

theorem applySectionM_merge {edit : O → C → Except AppError C}
    (h : ∀ o p c d, edit o c = .ok d → edit (SparseEdit.merge o p) c = edit p d)
    {current : Option O} (patch : Option O) {c d : C} (hd : applySectionM edit current c = .ok d) :
    applySectionM edit (mergeEdit current patch) c = applySectionM edit patch d := by
  cases current with
  | none =>
    obtain rfl := Except.ok.inj hd
    rfl
  | some o => cases patch with
    | none => exact hd
    | some p => exact h o p c d hd

end

theorem LandingOverlay.apply_merge (o p : LandingOverlay) (c : LandingConfig) :
    (SparseEdit.merge o p).apply c = p.apply (o.apply c) := by
  simp [LandingOverlay.apply, SparseEdit.merge, keep_or, Option.map_or]

theorem RetentionOverlay.apply_merge (o p : RetentionOverlay) (c : RetentionConfig) :
    (SparseEdit.merge o p).apply c = p.apply (o.apply c) := by
  simp [RetentionOverlay.apply, SparseEdit.merge, keep_or]

theorem RestoreOverlay.apply_eq_ok {env : ConfigEnv} {o : RestoreOverlay} {c d : RestoreConfig}
    (h : o.apply env c = .ok d) :
    ∃ policy, keepNamed o.policy (restorePolicyNamed env) c.policy = .ok policy ∧
      d = ⟨policy, keep o.maxDepthDays c.maxDepthDays, keep o.powFreeDays c.powFreeDays,
        keep o.powDaysPerBit c.powDaysPerBit, keep o.powMaxBits c.powMaxBits⟩ := by
  unfold RestoreOverlay.apply at h
  cases hpolicy : keepNamed o.policy (restorePolicyNamed env) c.policy with
  | error e => simp [hpolicy, bind, Except.bind] at h
  | ok policy =>
    rw [hpolicy] at h
    exact ⟨policy, rfl, (Except.ok.inj h).symm⟩

theorem RestoreOverlay.apply_merge (env : ConfigEnv) (o p : RestoreOverlay) (c d : RestoreConfig)
    (h : o.apply env c = .ok d) : (SparseEdit.merge o p).apply env c = p.apply env d := by
  obtain ⟨policy, hpolicy, rfl⟩ := RestoreOverlay.apply_eq_ok h
  simp only [RestoreOverlay.apply, SparseEdit.merge, keep_or, keepNamed_or hpolicy]

theorem ConsoleOverlay.apply_merge (env : ConfigEnv) (o p : ConsoleOverlay)
    (c d : RestartApplyMode) (h : o.apply env c = .ok d) :
    (SparseEdit.merge o p).apply env c = p.apply env d :=
  keepNamed_or h

theorem RegistrationOverlay.apply_eq_ok {env : ConfigEnv} {o : RegistrationOverlay}
    {c d : RegistrationConfig} (h : o.apply env c = .ok d) :
    ∃ mode, keepNamed o.gateMode (gateModeNamed env) c.gateMode = .ok mode ∧
      d = { requireInvite := keep o.requireInvite c.requireInvite
            gateMode := mode
            payment := { c.payment with
              requirePayment := keep o.requirePayment c.payment.requirePayment
              amount := keep o.paymentAmount c.payment.amount
              currency := keep (o.paymentCurrency.map env.uppercase) c.payment.currency
              confirmations := keep o.paymentConfirmations c.payment.confirmations
              expiresMinutes := keep o.paymentExpiresMinutes c.payment.expiresMinutes } } := by
  unfold RegistrationOverlay.apply at h
  cases hmode : keepNamed o.gateMode (gateModeNamed env) c.gateMode with
  | error e => simp [hmode, bind, Except.bind] at h
  | ok mode =>
    rw [hmode] at h
    exact ⟨mode, rfl, (Except.ok.inj h).symm⟩

theorem RegistrationOverlay.apply_merge (env : ConfigEnv) (o p : RegistrationOverlay)
    (c d : RegistrationConfig) (h : o.apply env c = .ok d) :
    (SparseEdit.merge o p).apply env c = p.apply env d := by
  obtain ⟨mode, hmode, rfl⟩ := RegistrationOverlay.apply_eq_ok h
  simp only [RegistrationOverlay.apply, SparseEdit.merge, keep_or, Option.map_or,
    keepNamed_or hmode]

theorem PowOverlay.apply_merge (o p : PowOverlay) (c : Config.PowConfig) :
    (SparseEdit.merge o p).apply c = p.apply (o.apply c) := by
  simp [PowOverlay.apply, SparseEdit.merge, keep_or]

theorem FeaturesOverlay.apply_merge (env : ConfigEnv) (o p : FeaturesOverlay) (c : FeatureFlags) :
    (SparseEdit.merge o p).apply env c = p.apply env (o.apply env c) := by
  simp [FeaturesOverlay.apply, SparseEdit.merge, keep_or, Option.map_or]

theorem RelayOverlay.apply_merge (env : ConfigEnv) (o p : RelayOverlay) (c : RelayConfig) :
    (SparseEdit.merge o p).apply env c = p.apply env (o.apply env c) := by
  simp [RelayOverlay.apply, SparseEdit.merge, keep_or, Option.map_or]

theorem PremiumOverlay.apply_merge (env : ConfigEnv) (o p : PremiumOverlay) (c : PremiumConfig) :
    (SparseEdit.merge o p).apply env c = p.apply env (o.apply env c) := by
  simp [PremiumOverlay.apply, SparseEdit.merge, keep_or, Option.map_or]

/-- An edit after another is their merge. -/
theorem Config.edited_merge {env : ConfigEnv} {c d : Config} {ov : SettingsOverlay}
    (h : c.edited env ov = .ok d) (edit : SettingsOverlay) :
    c.edited env (ov.merge edit) = d.edited env edit := by
  obtain ⟨restore, mode, registration, hrestore, hmode, hreg, rfl⟩ := edited_eq_ok_iff.mp h
  have hrestore' := applySectionM_merge (RestoreOverlay.apply_merge env) edit.restore
    hrestore
  have hmode' := applySectionM_merge (ConsoleOverlay.apply_merge env) edit.console hmode
  have hreg' := applySectionM_merge (RegistrationOverlay.apply_merge env)
    edit.registration hreg
  unfold edited
  rw [show (ov.merge edit).restore = mergeEdit ov.restore edit.restore from rfl, hrestore',
    show (ov.merge edit).console = mergeEdit ov.console edit.console from rfl, hmode',
    show (ov.merge edit).registration = mergeEdit ov.registration edit.registration from rfl,
    hreg', show (ov.merge edit).landing = mergeEdit ov.landing edit.landing from rfl,
    applySection_merge LandingOverlay.apply_merge,
    show (ov.merge edit).retention = mergeEdit ov.retention edit.retention from rfl,
    applySection_merge RetentionOverlay.apply_merge,
    show (ov.merge edit).pow = mergeEdit ov.pow edit.pow from rfl,
    applySection_merge PowOverlay.apply_merge,
    show (ov.merge edit).features = mergeEdit ov.features edit.features from rfl,
    applySection_merge (FeaturesOverlay.apply_merge env),
    show (ov.merge edit).relay = mergeEdit ov.relay edit.relay from rfl,
    applySection_merge (RelayOverlay.apply_merge env),
    show (ov.merge edit).premium = mergeEdit ov.premium edit.premium from rfl,
    applySection_merge (PremiumOverlay.apply_merge env)]

/-! ### The values of the editable fields -/

/-- An edit as the configuration takes it: letter case is normalised. -/
def SettingsOverlay.normalise (env : ConfigEnv) (ov : SettingsOverlay) : SettingsOverlay :=
  { ov with
    registration := ov.registration.map fun o => { o with
      gateMode := o.gateMode.map env.lowercase
      paymentCurrency := o.paymentCurrency.map env.uppercase }
    features := ov.features.map fun o => { o with
      pricesProvider := o.pricesProvider.map env.lowercase
      pricesCurrency := o.pricesCurrency.map env.lowercase }
    relay := ov.relay.map fun o => { o with
      mode := o.mode.map env.lowercase
      writePolicy := o.writePolicy.map env.lowercase }
    premium := ov.premium.map fun o => { o with currency := o.currency.map env.uppercase } }

theorem some_keep {α : Type} (edit : Option α) (x : α) : some (keep edit x) = edit.or (some x) := by
  cases edit <;> rfl

theorem some_keepNamed {α : Type} {edit : Option String} {read : String → Except AppError α}
    {x y : α} (h : keepNamed edit read x = .ok y) {asStr : α → String} {norm : String → String}
    (hread : ∀ name z, read name = .ok z → asStr z = norm name) :
    some (asStr y) = (edit.map norm).or (some (asStr x)) := by
  cases edit with
  | none =>
    obtain rfl := Except.ok.inj h
    rfl
  | some name => exact congrArg some (hread name y h)

theorem some_title (edit title : Option String) :
    some ((keep (edit.map fun v => if v.isEmpty then none else some v) title).getD "") =
      edit.or (some (title.getD "")) := by
  cases edit with
  | none => rfl
  | some v =>
    by_cases hv : v = ""
    · simp [keep, hv]
    · simp [keep, hv]

theorem asStr_restorePolicyNamed {env : ConfigEnv} {name : String} {policy : RestorePolicy}
    (h : restorePolicyNamed env name = .ok policy) : policy.asStr = name := by
  unfold restorePolicyNamed at h
  split at h <;> cases h <;> rfl

theorem asStr_restartApplyModeNamed {env : ConfigEnv} {name : String} {mode : RestartApplyMode}
    (h : restartApplyModeNamed env name = .ok mode) : mode.asStr = name := by
  unfold restartApplyModeNamed at h
  split at h <;> cases h <;> rfl

theorem asStr_gateModeNamed {env : ConfigEnv} {name : String} {mode : GateMode}
    (h : gateModeNamed env name = .ok mode) : mode.asStr = env.lowercase name := by
  unfold gateModeNamed at h
  split at h
  · next heq => cases h; exact heq.symm
  · next heq => cases h; exact heq.symm
  · cases h

/-- The values of the editable fields after an edit. -/
theorem Config.editableOverlay_edited {env : ConfigEnv} {c d : Config} {ov : SettingsOverlay}
    (h : c.edited env ov = .ok d) :
    d.editableOverlay = c.editableOverlay.merge (ov.normalise env) := by
  obtain ⟨restore, mode, registration, hrestore, hmode, hreg, rfl⟩ := edited_eq_ok_iff.mp h
  refine SettingsOverlay.ext_get fun s => ?_
  rw [SettingsOverlay.get_merge]
  cases s with
  | landing =>
    show some _ = mergeEdit (some _) ov.landing
    cases ov.landing with
    | none => rfl
    | some o =>
      have htitle := some_title o.title c.landing.title
      simp only [applySection, mergeEdit, SparseEdit.merge, LandingOverlay.apply, some_keep, htitle]
  | retention =>
    show some _ = mergeEdit (some _) ov.retention
    cases ov.retention with
    | none => rfl
    | some o =>
      simp only [applySection, mergeEdit, SparseEdit.merge, RetentionOverlay.apply, some_keep]
  | restore =>
    show some _ = mergeEdit (some _) ov.restore
    cases hov : ov.restore with
    | none =>
      rw [hov] at hrestore
      obtain rfl := Except.ok.inj hrestore
      rfl
    | some o =>
      rw [hov] at hrestore
      obtain ⟨policy, hpolicy, rfl⟩ := RestoreOverlay.apply_eq_ok hrestore
      have hname := some_keepNamed hpolicy fun _ _ => asStr_restorePolicyNamed
      simp only [mergeEdit, SparseEdit.merge, some_keep, hname, Option.map_id']
  | console =>
    show some _ = mergeEdit (some _) ov.console
    cases hov : ov.console with
    | none =>
      rw [hov] at hmode
      obtain rfl := Except.ok.inj hmode
      rfl
    | some o =>
      rw [hov] at hmode
      have hname := some_keepNamed hmode fun _ _ => asStr_restartApplyModeNamed
      simp only [mergeEdit, SparseEdit.merge, hname, Option.map_id']
  | registration =>
    show some _ = mergeEdit (O := RegistrationOverlay) (some _) (ov.registration.map _)
    cases hov : ov.registration with
    | none =>
      rw [hov] at hreg
      obtain rfl := Except.ok.inj hreg
      rfl
    | some o =>
      rw [hov] at hreg
      obtain ⟨mode, hmode, rfl⟩ := RegistrationOverlay.apply_eq_ok hreg
      have hname := some_keepNamed hmode fun _ _ => asStr_gateModeNamed
      simp only [Option.map_some, mergeEdit, SparseEdit.merge, some_keep, hname]
  | pow =>
    show some _ = mergeEdit (some _) ov.pow
    cases ov.pow with
    | none => rfl
    | some o => simp only [applySection, mergeEdit, SparseEdit.merge, PowOverlay.apply, some_keep]
  | features =>
    show some _ = mergeEdit (O := FeaturesOverlay) (some _) (ov.features.map _)
    cases ov.features with
    | none => rfl
    | some o =>
      simp only [applySection, Option.map_some, mergeEdit, SparseEdit.merge, FeaturesOverlay.apply,
        some_keep]
  | relay =>
    show some _ = mergeEdit (O := RelayOverlay) (some _) (ov.relay.map _)
    cases ov.relay with
    | none => rfl
    | some o =>
      simp only [applySection, Option.map_some, mergeEdit, SparseEdit.merge, RelayOverlay.apply,
        some_keep]
  | premium =>
    show some _ = mergeEdit (O := PremiumOverlay) (some _) (ov.premium.map _)
    cases ov.premium with
    | none => rfl
    | some o =>
      simp only [applySection, Option.map_some, mergeEdit, SparseEdit.merge, PremiumOverlay.apply,
        some_keep]

/-! ### Normalised configurations -/

/-- What is asked of the mapping of letter case. -/
structure CaseMapping (env : ConfigEnv) : Prop where
  /-- Lower case stays. -/
  lowercase_lowercase : ∀ s, env.lowercase (env.lowercase s) = env.lowercase s
  /-- Upper case stays. -/
  uppercase_uppercase : ∀ s, env.uppercase (env.uppercase s) = env.uppercase s
  /-- The small letters of ASCII are in lower case. -/
  lowercase_ascii : ∀ s : String, (∀ ch ∈ s.toList, 'a' ≤ ch ∧ ch ≤ 'z') → env.lowercase s = s

/-- Texts as start-up and edits leave them. -/
structure Config.Normal (env : ConfigEnv) (c : Config) : Prop where
  /-- No title is none. -/
  title : c.landing.title ≠ some ""
  /-- The currency of the registration price. -/
  paymentCurrency : env.uppercase c.registration.payment.currency = c.registration.payment.currency
  /-- Where prices come from. -/
  pricesProvider : env.lowercase c.features.pricesProvider = c.features.pricesProvider
  /-- The quoted currency. -/
  pricesCurrency : env.lowercase c.features.pricesCurrency = c.features.pricesCurrency
  /-- Kind of relay. -/
  relayMode : env.lowercase c.relay.mode = c.relay.mode
  /-- Who may write. -/
  writePolicy : env.lowercase c.relay.writePolicy = c.relay.writePolicy
  /-- The currency of the plans. -/
  premiumCurrency : env.uppercase c.premium.currency = c.premium.currency

theorem keep_map {α : Type} {f : α → α} (hf : ∀ x, f (f x) = f x) {edit : Option α} {x : α}
    (hx : f x = x) : f (keep (edit.map f) x) = keep (edit.map f) x := by
  cases edit with
  | none => exact hx
  | some y => exact hf y

/-- Edits leave texts normalised. -/
theorem Config.Normal.edited {env : ConfigEnv} (hcase : CaseMapping env) {c d : Config}
    (hc : c.Normal env) {ov : SettingsOverlay} (h : c.edited env ov = .ok d) : d.Normal env := by
  obtain ⟨restore, mode, registration, -, -, hreg, rfl⟩ := edited_eq_ok_iff.mp h
  have hlower := hcase.lowercase_lowercase
  have hupper := hcase.uppercase_uppercase
  constructor
  · show (applySection LandingOverlay.apply ov.landing c.landing).title ≠ some ""
    cases ov.landing with
    | none => exact hc.title
    | some o =>
      simp only [applySection, LandingOverlay.apply]
      cases o.title with
      | none => exact hc.title
      | some v => by_cases hv : v = "" <;> simp [keep, hv]
  · show env.uppercase registration.payment.currency = registration.payment.currency
    cases hov : ov.registration with
    | none =>
      rw [hov] at hreg
      obtain rfl := Except.ok.inj hreg
      exact hc.paymentCurrency
    | some o =>
      rw [hov] at hreg
      obtain ⟨mode, -, rfl⟩ := RegistrationOverlay.apply_eq_ok hreg
      exact keep_map hupper hc.paymentCurrency
  · show env.lowercase (applySection (FeaturesOverlay.apply env) ov.features c.features).pricesProvider = _
    cases ov.features with
    | none => exact hc.pricesProvider
    | some o => exact keep_map hlower hc.pricesProvider
  · show env.lowercase (applySection (FeaturesOverlay.apply env) ov.features c.features).pricesCurrency = _
    cases ov.features with
    | none => exact hc.pricesCurrency
    | some o => exact keep_map hlower hc.pricesCurrency
  · show env.lowercase (applySection (RelayOverlay.apply env) ov.relay c.relay).mode = _
    cases ov.relay with
    | none => exact hc.relayMode
    | some o => exact keep_map hlower hc.relayMode
  · show env.lowercase (applySection (RelayOverlay.apply env) ov.relay c.relay).writePolicy = _
    cases ov.relay with
    | none => exact hc.writePolicy
    | some o => exact keep_map hlower hc.writePolicy
  · show env.uppercase (applySection (PremiumOverlay.apply env) ov.premium c.premium).currency = _
    cases ov.premium with
    | none => exact hc.premiumCurrency
    | some o => exact keep_map hupper hc.premiumCurrency

theorem keep_title {title : Option String} (h : title ≠ some "") :
    keep (some (if (title.getD "").isEmpty then none else some (title.getD ""))) title = title := by
  cases title with
  | none => rfl
  | some v =>
    have hv : v ≠ "" := fun hv => h (by rw [hv])
    simp [keep, hv]

/-- The fields of a normalised configuration edit nothing. -/
theorem Config.edited_editableOverlay {env : ConfigEnv} (hcase : CaseMapping env) {c : Config}
    (hc : c.Normal env) : c.edited env c.editableOverlay = .ok c := by
  have hrestore : applySectionM (RestoreOverlay.apply env) c.editableOverlay.restore c.restore =
      .ok c.restore := by
    cases h : c.restore with
    | mk policy =>
      simp only [editableOverlay, applySectionM, h]
      cases policy <;> rfl
  have hmode : applySectionM (ConsoleOverlay.apply env) c.editableOverlay.console
      c.restartApplyMode = .ok c.restartApplyMode := by
    simp only [editableOverlay, applySectionM]
    cases c.restartApplyMode <;> rfl
  have hgate : gateModeNamed env c.registration.gateMode.asStr = .ok c.registration.gateMode := by
    have hall := hcase.lowercase_ascii "all" (by simp)
    have hany := hcase.lowercase_ascii "any" (by simp)
    cases c.registration.gateMode <;> simp [gateModeNamed, GateMode.asStr, hall, hany]
  have hreg : applySectionM (RegistrationOverlay.apply env) c.editableOverlay.registration
      c.registration = .ok c.registration := by
    simp only [editableOverlay, applySectionM, RegistrationOverlay.apply, keepNamed, hgate,
      Option.map_some, hc.paymentCurrency]
    rfl
  refine edited_eq_ok_iff.mpr ⟨_, _, _, hrestore, hmode, hreg, ?_⟩
  simp only [editableOverlay, applySection, LandingOverlay.apply, RetentionOverlay.apply,
    PowOverlay.apply, FeaturesOverlay.apply, RelayOverlay.apply, PremiumOverlay.apply,
    keep_title hc.title, Option.map_some, hc.pricesProvider, hc.pricesCurrency, hc.relayMode,
    hc.writePolicy, hc.premiumCurrency]
  rfl

/-! ### The configuration of start-up -/

/-- The values read by `from_env`: letter case is normalised and an empty title is none. Lists are
normalised as they are read. -/
def Config.normalised (env : ConfigEnv) (read : Config) : Config :=
  { read with
    features := { read.features with
      pricesProvider := env.lowercase read.features.pricesProvider
      pricesCurrency := env.lowercase read.features.pricesCurrency }
    landing := { read.landing with
      title := read.landing.title.filter fun title => !title.isEmpty }
    registration := { read.registration with
      payment := { read.registration.payment with
        provider := env.lowercase read.registration.payment.provider
        currency := env.uppercase read.registration.payment.currency } }
    relay := { read.relay with
      mode := env.lowercase read.relay.mode
      writePolicy := env.lowercase read.relay.writePolicy }
    premium := { read.premium with currency := env.uppercase read.premium.currency } }

/-- `from_env`, from the values read. -/
def Config.fromEnv (env : ConfigEnv) (read : Config) : Except AppError Config := do
  (read.normalised env).validate env
  return read.normalised env

theorem Config.normal_normalised {env : ConfigEnv} (hcase : CaseMapping env) (read : Config) :
    (read.normalised env).Normal env where
  title h := by
    have hempty := (Option.filter_eq_some_iff.mp h).2
    simp at hempty
  paymentCurrency := hcase.uppercase_uppercase _
  pricesProvider := hcase.lowercase_lowercase _
  pricesCurrency := hcase.lowercase_lowercase _
  relayMode := hcase.lowercase_lowercase _
  writePolicy := hcase.lowercase_lowercase _
  premiumCurrency := hcase.uppercase_uppercase _

theorem Config.fromEnv_spec {env : ConfigEnv} (hcase : CaseMapping env) {read c : Config}
    (h : Config.fromEnv env read = .ok c) : c.validate env = .ok () ∧ c.Normal env := by
  unfold fromEnv at h
  cases hvalid : (read.normalised env).validate env with
  | error e => simp [hvalid, bind, Except.bind] at h
  | ok u =>
    rw [hvalid] at h
    obtain rfl := Except.ok.inj h
    exact ⟨hvalid, normal_normalised hcase read⟩

end SmirkBackend
