import SmirkBackend.Admin.SettingsStore
import SmirkBackend.LetterCase

/-!
# The running configuration and the stored settings

An instance starts with the configuration of its environment and the stored settings.  Edits that
take effect at once change the stored settings and the running configuration alike: as long as all
edits are such and succeed, the running configuration is the one the next start would have.  This
fails for an edit in a table with a row that cannot be read, which hides the other rows.

`running_tracks_overlay` gives the running configuration of an instance that has started (`Booted`)
after any sequence of edits.
-/

namespace SmirkBackend

open Lib (Table System Json Prog)

/-! ### The start -/

/-- The settings that a start reads. -/
def bootOverlay (env : SettingsEnv) (rows : List OperatorSettingRow) : SettingsOverlay :=
  if env.base.admin.keyIntegritySecret.isEmpty then .default else loadSettingsOverlay env rows

/-- `main`: the configuration of a start. Stored settings that are no longer valid are ignored. -/
def bootConfig (env : SettingsEnv) (rows : List OperatorSettingRow) : Config :=
  match env.base.applyOverlay env.config (bootOverlay env rows) with
  | .ok effective => effective
  | .error _ => env.base

/-- An instance that has started with valid settings. -/
structure Booted (env : SettingsEnv) (s : AppState) : Prop where
  /-- The configuration of the environment. -/
  fromEnv : ∃ read, Config.fromEnv env.config read = .ok env.base
  /-- The operator's surface is on if the configuration says so. -/
  admin : env.admin.enabled = env.base.admin.enabled
  /-- The stored settings are valid. -/
  valid : ∃ c,
    env.base.applyOverlay env.config (bootOverlay env s.db.operatorSettings.rows) = .ok c
  /-- The configuration of the start. -/
  running : s.config = bootConfig env s.db.operatorSettings.rows

/-- An operator's surface has a secret. -/
theorem secret_of_validate {env : ConfigEnv} {c : Config} (h : c.validate env = .ok ())
    (hon : c.admin.enabled = true) : c.admin.keyIntegritySecret.isEmpty = false := by
  unfold Config.validate at h
  obtain ⟨_, -, h⟩ := bind_eq_ok_iff.mp h
  obtain ⟨_, -, h⟩ := bind_eq_ok_iff.mp h
  obtain ⟨_, -, h⟩ := bind_eq_ok_iff.mp h
  obtain ⟨_, -, h⟩ := bind_eq_ok_iff.mp h
  obtain ⟨_, -, h⟩ := bind_eq_ok_iff.mp h
  obtain ⟨_, -, h⟩ := bind_eq_ok_iff.mp h
  obtain ⟨_, hadmin, -⟩ := bind_eq_ok_iff.mp h
  rw [Config.whenOn, hon, if_pos rfl] at hadmin
  unfold Config.AdminConfig.validate at hadmin
  obtain ⟨_, -, h⟩ := bind_eq_ok_iff.mp hadmin
  obtain ⟨_, hsecret, -⟩ := bind_eq_ok_iff.mp h
  obtain ⟨_, hlength, -⟩ := bind_eq_ok_iff.mp hsecret
  rw [refuse_eq_ok_iff] at hlength
  by_contra hempty
  rw [Bool.not_eq_false, String.isEmpty_iff] at hempty
  rw [hempty] at hlength
  exact absurd hlength (by decide)

/-! ### Edits one after the other -/

/-- An edit and its answer. -/
structure ConfigCall where
  /-- What the header and the token's signature say. -/
  bearer : Except AppError AdminTokenInfo
  /-- The edit. -/
  req : PutConfigRequest
  /-- The answer. -/
  result : Except AppError PutConfigResponse

/-- An edit that takes effect at once, and succeeded. -/
def ConfigCall.AppliedNow (call : ConfigCall) : Prop :=
  anyRestart call.req.patch = false ∧ ∃ resp, call.result = .ok resp

/-- Other handlers have run: settings and configuration are the same. -/
def SameSettings (s s' : AppState) : Prop :=
  s'.db.operatorSettings = s.db.operatorSettings ∧ s'.config = s.config

/-- Edits one after the other, with other handlers in between. -/
def configPuts (env : SettingsEnv) : System AppState ConfigCall where
  step s call s' := ∃ s₁, SameSettings s s₁ ∧
    (adminConfigPut env call.bearer call.req).Outcome s₁ call.result s'

/-- Fields that need a restart are the same. -/
def RestartFieldsKept (c d : Config) : Prop :=
  ∀ sec name, runtimeClass sec name = .restartRequired →
    d.editableOverlay.field sec name = c.editableOverlay.field sec name

theorem field_of_anyRestart {patch : SettingsOverlay} (h : anyRestart patch = false)
    {sec name : String} (hclass : runtimeClass sec name = .restartRequired) :
    patch.field sec name = none := by
  by_contra hsome
  obtain ⟨fields, hmem, hname⟩ :=
    mem_touchedSections.mpr (Option.isSome_iff_ne_none.mpr hsome)
  rw [anyRestart, List.any_eq_false] at h
  have hfield := h _ hmem
  rw [Bool.not_eq_true, List.any_eq_false] at hfield
  exact hfield name hname (decide_eq_true hclass)

theorem restartFieldsKept_edited {env : ConfigEnv} {c d : Config} {patch : SettingsOverlay}
    (hsafe : anyRestart patch = false) (h : c.edited env patch = .ok d) : RestartFieldsKept c d := by
  intro sec name hclass
  have hnone : (patch.normalise env).field sec name = none := by
    have hsome := patch.isSome_field_normalise env sec name
    rw [field_of_anyRestart hsafe hclass] at hsome
    exact Option.not_isSome_iff_eq_none.mp (by simp [hsome])
  rw [Config.editableOverlay_edited h, SettingsOverlay.field_merge, hnone, Option.none_or]

/-- What holds of the running configuration after any edits. -/
structure RunningSound (env : SettingsEnv) (c₀ c : Config) : Prop where
  /-- It passes the checks. -/
  valid : c.validate env.config = .ok ()
  /-- Its texts are normalised. -/
  normal : c.Normal env.config
  /-- Fields that need a restart are those of the start. -/
  kept : RestartFieldsKept c₀ c

/-- The running configuration is the one that the next start would have. -/
def TracksOverlay (env : SettingsEnv) (s : AppState) : Prop :=
  env.base.applyOverlay env.config (bootOverlay env s.db.operatorSettings.rows) = .ok s.config

theorem Booted.tracks {env : SettingsEnv} {s : AppState} (h : Booted env s) :
    TracksOverlay env s := by
  obtain ⟨c, hc⟩ := h.valid
  have hrunning := h.running
  rw [bootConfig, hc] at hrunning
  rw [TracksOverlay, hrunning]
  exact hc

theorem Booted.sound {env : SettingsEnv} (hcase : CaseMapping env.config) {s : AppState}
    (h : Booted env s) : RunningSound env s.config s.config := by
  obtain ⟨hedited, hvalid⟩ := Config.applyOverlay_eq_ok_iff.mp h.tracks
  obtain ⟨read, hread⟩ := h.fromEnv
  exact ⟨hvalid, (Config.fromEnv_spec hcase hread).2.edited hcase hedited, fun _ _ _ => rfl⟩

/-- An edit leaves the running configuration sound. -/
theorem runningSound_step {env : SettingsEnv} (hcase : CaseMapping env.config) {c₀ : Config}
    {s s' : AppState} {call : ConfigCall} (hstep : (configPuts env).step s call s')
    (hs : RunningSound env c₀ s.config) : RunningSound env c₀ s'.config := by
  obtain ⟨s₁, ⟨-, hconfig⟩, hout⟩ := hstep
  rw [← hconfig] at hs
  cases hresult : call.result with
  | error e =>
    rw [hresult] at hout
    rwa [config_of_failed_put hout]
  | ok resp =>
    rw [hresult] at hout
    obtain ⟨-, -, -, ⟨-, hsame⟩ | ⟨hsafe, happly⟩⟩ := outcome_adminConfigPut_ok hout
    · rwa [hsame]
    · obtain ⟨hedited, hvalid⟩ := Config.applyOverlay_eq_ok_iff.mp happly
      refine ⟨hvalid, hs.normal.edited hcase hedited, fun sec name hclass => ?_⟩
      exact (restartFieldsKept_edited hsafe hedited sec name hclass).trans
        (hs.kept sec name hclass)

/-- An instance whose operators have signed in has a secret, so that a start reads the settings. -/
theorem bootOverlay_of_enabled {env : SettingsEnv} {s₀ : AppState} (hboot : Booted env s₀)
    (hcase : CaseMapping env.config) (hon : env.admin.enabled = true)
    (rows : List OperatorSettingRow) : bootOverlay env rows = loadSettingsOverlay env rows := by
  obtain ⟨read, hread⟩ := hboot.fromEnv
  have hsecret := secret_of_validate (Config.fromEnv_spec hcase hread).1 (hboot.admin ▸ hon)
  rw [bootOverlay, hsecret]
  rfl

/-- An edit that takes effect at once changes what is stored as it changes what is running, if the
sections that it leaves alone are read from their own rows. -/
theorem tracksOverlay_step {env : SettingsEnv} (hcase : CaseMapping env.config) {s₀ s s' : AppState}
    (hboot : Booted env s₀) {call : ConfigCall} (hstep : (configPuts env).step s call s')
    (hothers : ReadsOthers env s.db.operatorSettings call.req.patch) (hnow : call.AppliedNow)
    (hs : TracksOverlay env s) : TracksOverlay env s' := by
  obtain ⟨s₁, ⟨hrows, hconfig⟩, hout⟩ := hstep
  obtain ⟨hsafe, resp, hresult⟩ := hnow
  rw [hresult] at hout
  obtain ⟨hon, -, hstored, heffect⟩ := outcome_adminConfigPut_ok hout
  obtain ⟨hrestart, -⟩ | ⟨-, happly⟩ := heffect
  · rw [hsafe] at hrestart
    cases hrestart
  have hload := bootOverlay_of_enabled hboot hcase hon
  rw [hrows] at hstored
  rw [TracksOverlay, hload, ← hconfig] at hs
  obtain ⟨hedited, -⟩ := Config.applyOverlay_eq_ok_iff.mp hs
  rw [TracksOverlay, hload, (loadSettingsOverlay_stored hothers hstored).1]
  rw [Config.applyOverlay_eq_ok_iff] at happly ⊢
  refine ⟨?_, happly.2⟩
  calc env.base.edited env.config
        ((loadSettingsOverlay env s.db.operatorSettings.rows).merge call.req.patch.touched)
      = s₁.config.edited env.config call.req.patch.touched := Config.edited_merge hedited _
    _ = s₁.config.edited env.config call.req.patch := Config.edited_touched _ _ _
    _ = .ok s'.config := happly.1

/-- **The running configuration tracks the stored settings.** After any edits it passes the checks,
its fields that need a restart are those of the start, and its own fields edit nothing.  Edits are
merged as they are applied.  In every run in which the sections that an edit leaves alone are read
from their own rows, edits that take effect at once and succeed leave the running configuration
that the next start would have. -/
theorem running_tracks_overlay {env : SettingsEnv} (hcase : CaseMapping env.config)
    {s₀ s : AppState} {calls : List ConfigCall} (hboot : Booted env s₀)
    (hrun : (configPuts env).Run s₀ calls s) :
    s.config.validate env.config = .ok () ∧ RestartFieldsKept s₀.config s.config ∧
    s.config.applyOverlay env.config s.config.editableOverlay = .ok s.config ∧
    (∀ (c d : Config) (o p : SettingsOverlay), c.applyOverlay env.config o = .ok d →
      ∃ m, mergedOverlay o p = .ok m ∧
        c.applyOverlay env.config m = d.applyOverlay env.config p) ∧
    (((configPuts env).only fun s call _ =>
        ReadsOthers env s.db.operatorSettings call.req.patch).Run s₀ calls s →
      (∀ call ∈ calls, call.AppliedNow) →
      env.base.applyOverlay env.config (bootOverlay env s.db.operatorSettings.rows) =
        .ok s.config) := by
  have hsound : RunningSound env s₀.config s.config :=
    hrun.invariant (fun _ _ _ hstep hs => runningSound_step hcase hstep hs) (hboot.sound hcase)
  refine ⟨hsound.valid, hsound.kept, ?_, ?_, ?_⟩
  · exact Config.applyOverlay_eq_ok_iff.mpr
      ⟨Config.edited_editableOverlay hcase hsound.normal, hsound.valid⟩
  · intro c d o p h
    obtain ⟨hedited, -⟩ := Config.applyOverlay_eq_ok_iff.mp h
    refine ⟨o.merge p, mergedOverlay_eq o p, ?_⟩
    rw [Config.applyOverlay_eq, Config.edited_merge hedited, ← Config.applyOverlay_eq]
  · intro honly hnow
    refine honly.history
      (I := fun past s => (∀ call ∈ past, call.AppliedNow) → TracksOverlay env s)
      (fun _ => hboot.tracks) ?_ hnow
    intro past s₁ call s₂ hstep ih hpast
    exact tracksOverlay_step hcase hboot hstep.1 hstep.2
      (hpast call (by simp)) (ih fun c hc => hpast c (by simp [hc]))

/-- From a table that can be read, the sections that an edit leaves alone are read from their own
rows as long as all edits succeed at once. -/
theorem readsOthers_of_readable {env : SettingsEnv} {s s' : AppState} {calls : List ConfigCall}
    (hrun : (configPuts env).Run s calls s') (hnow : ∀ call ∈ calls, call.AppliedNow)
    (hreadable : ∀ sec, ¬ Unreadable env s.db.operatorSettings sec) :
    ((configPuts env).only fun s call _ =>
      ReadsOthers env s.db.operatorSettings call.req.patch).Run s calls s' := by
  induction hrun with
  | nil s => exact .nil s
  | @cons s s₁ s' call calls hstep _ ih =>
    have hothers : ReadsOthers env s.db.operatorSettings call.req.patch := fun sec _ =>
      ⟨hreadable sec, get_loadSettingsOverlay hreadable sec⟩
    obtain ⟨hfirst, hrest⟩ := List.forall_mem_cons.mp hnow
    refine .cons ⟨hstep, hothers⟩ (ih hrest ?_)
    obtain ⟨sb, ⟨hrows, -⟩, hout⟩ := hstep
    obtain ⟨-, resp, hresult⟩ := hfirst
    rw [hresult] at hout
    have hstored := (outcome_adminConfigPut_ok hout).2.2.1
    rw [hrows] at hstored
    exact (loadSettingsOverlay_stored hothers hstored).2

/-! ### Edits of an instance -/

theorem toUpper_toUpper (c : Char) : c.toUpper.toUpper = c.toUpper := by
  by_cases hsmall : 'a'.val ≤ c.val ∧ c.val ≤ 'z'.val
  · have hval : c.toUpper.val = c.val + ('A'.val - 'a'.val) := by
      rw [show c.toUpper = _ from dif_pos hsmall]
    have hcap : ¬ ('a'.val ≤ c.toUpper.val ∧ c.toUpper.val ≤ 'z'.val) := by
      rw [hval]
      simp [UInt32.le_iff_toNat_le] at hsmall ⊢
      omega
    exact dif_neg hcap
  · rw [show c.toUpper = c from dif_neg hsmall]
    exact dif_neg hsmall

theorem toLower_of_small {c : Char} (h : 'a' ≤ c) : c.toLower = c := by
  refine dif_neg fun hcap => ?_
  exact absurd (UInt32.le_trans h hcap.2) (by decide)

theorem caseMapping_sample : CaseMapping sampleConfigEnv where
  lowercase_lowercase s := by
    simp [sampleConfigEnv, toLowercase, Function.comp_def, toLower_toLower]
  uppercase_uppercase s := by
    simp [sampleConfigEnv, Function.comp_def, toUpper_toUpper]
  lowercase_ascii s h := by
    show String.ofList (s.toList.map Char.toLower) = s
    rw [List.map_congr_left fun ch hch => toLower_of_small (h ch hch).1, List.map_id',
      String.ofList_toList]

/-- The instance has started with these settings. -/
def started (rows : Table OperatorSettingRow) : AppState :=
  { signedIn rows with config := bootConfig sampleSettings rows.rows }

/-- An edit by the operator, and its answer. -/
def editCall (s : AppState) (req : PutConfigRequest) : ConfigCall where
  bearer := .ok ⟨"op", "jti"⟩
  req := req
  result := ((adminConfigPut sampleSettings (.ok ⟨"op", "jti"⟩) req).run s).1

/-- The instance after that edit. -/
def afterEdit (s : AppState) (req : PutConfigRequest) : AppState :=
  ((adminConfigPut sampleSettings (.ok ⟨"op", "jti"⟩) req).run s).2

/-- The page is switched on. -/
def showLanding : PutConfigRequest where
  patch := { SettingsOverlay.default with
    landing := some ⟨some true, none, none, none, none, none, none, none, none⟩ }
  expectedVersions _ := none

/-- The page gets a title, and a solution costs more. -/
def nameLanding : PutConfigRequest where
  patch := { SettingsOverlay.default with
    landing := some ⟨none, some "Pay", none, none, none, none, none, none, none⟩
    pow := some ⟨none, none, some 5⟩ }
  expectedVersions sec := if sec = "landing" then some 1 else none

theorem booted_started {rows : Table OperatorSettingRow}
    (hvalid : (sampleSettings.base.applyOverlay sampleConfigEnv
      (bootOverlay sampleSettings rows.rows)).isOk) : Booted sampleSettings (started rows) where
  fromEnv := ⟨sampleSettings.base, rfl⟩
  admin := rfl
  valid := by
    cases h : sampleSettings.base.applyOverlay sampleConfigEnv
        (bootOverlay sampleSettings rows.rows) with
    | error e => simp [h, Except.isOk, Except.toBool] at hvalid
    | ok c => exact ⟨c, h⟩
  running := rfl

theorem step_editCall (s : AppState) (req : PutConfigRequest) :
    (configPuts sampleSettings).step s (editCall s req) (afterEdit s req) :=
  ⟨s, ⟨rfl, rfl⟩, Prog.outcome_run _ _⟩

theorem appliedNow_editCall {s : AppState} {req : PutConfigRequest}
    (hsafe : anyRestart req.patch = false) (hok : (editCall s req).result.isOk) :
    (editCall s req).AppliedNow := by
  refine ⟨hsafe, ?_⟩
  cases h : (editCall s req).result with
  | error e => simp [h, Except.isOk, Except.toBool] at hok
  | ok resp => exact ⟨resp, rfl⟩

/-- Two edits of the page, the second of which also raises the cost of a solution: a start after
them would have the configuration that is running. -/
theorem edits_shown_after_start :
    (afterEdit (afterEdit (started .empty) showLanding) nameLanding).config.landing.title =
      some "Pay" ∧
    (afterEdit (afterEdit (started .empty) showLanding) nameLanding).config.landing.enabled = true ∧
    (afterEdit (afterEdit (started .empty) showLanding) nameLanding).config.pow.cost = 5 ∧
    sampleSettings.base.applyOverlay sampleConfigEnv (bootOverlay sampleSettings
      (afterEdit (afterEdit (started .empty) showLanding) nameLanding).db.operatorSettings.rows) =
        .ok (afterEdit (afterEdit (started .empty) showLanding) nameLanding).config := by
  have hboot : Booted sampleSettings (started .empty) := booted_started (by decide +kernel)
  have hnone : ∀ s, ¬ Unreadable sampleSettings .empty s := by
    rintro s ⟨r, hr, -⟩
    cases hr
  have hrun : (configPuts sampleSettings).Run (started .empty)
      [editCall (started .empty) showLanding,
        editCall (afterEdit (started .empty) showLanding) nameLanding]
      (afterEdit (afterEdit (started .empty) showLanding) nameLanding) :=
    .cons (step_editCall _ _) (.cons (step_editCall _ _) (.nil _))
  have hnow : ∀ call ∈ [editCall (started .empty) showLanding,
      editCall (afterEdit (started .empty) showLanding) nameLanding], call.AppliedNow := by
    intro call hcall
    simp only [List.mem_cons, List.not_mem_nil, or_false] at hcall
    rcases hcall with rfl | rfl
    · exact appliedNow_editCall (by decide +kernel) (by decide +kernel)
    · exact appliedNow_editCall (by decide +kernel) (by decide +kernel)
  exact ⟨by decide +kernel, by decide +kernel, by decide +kernel,
    (running_tracks_overlay caseMapping_sample hboot hrun).2.2.2.2
      (readsOthers_of_readable hrun hnow hnone) hnow⟩

/-- With a row that cannot be read, the page is switched on but a start would not switch it on. -/
theorem unreadable_cost_hides_edit :
    Booted sampleSettings (started ⟨[costAsText], by simp⟩) ∧
    (configPuts sampleSettings).Run (started ⟨[costAsText], by simp⟩)
      [editCall (started ⟨[costAsText], by simp⟩) showLanding]
      (afterEdit (started ⟨[costAsText], by simp⟩) showLanding) ∧
    (editCall (started ⟨[costAsText], by simp⟩) showLanding).AppliedNow ∧
    ¬ sampleSettings.base.applyOverlay sampleConfigEnv (bootOverlay sampleSettings
      (afterEdit (started ⟨[costAsText], by simp⟩) showLanding).db.operatorSettings.rows) =
        .ok (afterEdit (started ⟨[costAsText], by simp⟩) showLanding).config := by
  refine ⟨booted_started (by decide +kernel), .cons (step_editCall _ _) (.nil _),
    appliedNow_editCall (by decide +kernel) (by decide +kernel), fun h => ?_⟩
  have hrunning : (afterEdit (started ⟨[costAsText], by simp⟩) showLanding).config.landing.enabled =
      true := by
    decide +kernel
  have hnext : (sampleSettings.base.applyOverlay sampleConfigEnv (bootOverlay sampleSettings
      (afterEdit (started ⟨[costAsText], by simp⟩) showLanding).db.operatorSettings.rows)
        ).toOption.map (·.landing.enabled) = some false := by
    decide +kernel
  rw [h] at hnext
  simp [Except.toOption, hrunning] at hnext

end SmirkBackend
