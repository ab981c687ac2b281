import SmirkBackend.Admin.Login
import SmirkBackend.Auth.Takeover
import SmirkBackend.Config.Json

/-!
# Editing the settings

An operator's edit is merged into the stored overlay and the result is validated on the
configuration of start-up.  The changed sections are then stored, each with its audit row in a
transaction of its own.  If no changed field needs a restart, the edit is validated again on the
running configuration, which takes it over.

An edit that fails should have changed nothing (`PutAtomic`).  It has not if its first section was
not stored; if it was (`FirstWriteCommits`), only an edit that changes one section and, where it
takes effect at once, is valid on the running configuration too.  `adminConfigPut_atomic_iff` says
so.

Storing a section is one step (`putSettingAudited`).  In the source this is what the row lock of the
version's query is for, which locks nothing as long as the section has no row; that two first edits
of a section overlap between the query and the write is left out.
-/

namespace SmirkBackend

open Lib (Table Patch Prog Json)

/-! ### The store -/

/-- What the settings handlers take from the instance. -/
structure SettingsEnv where
  /-- The operator's surface. -/
  admin : AdminEnv
  /-- Libraries of the validation. -/
  config : ConfigEnv
  /-- The configuration of start-up. -/
  base : Config
  /-- `settings_mac` under the instance's secret: section, version and overlay. -/
  settingsMac : String → Int64 → Json → String

/-- `verify_settings_mac`. -/
def verifySettingsMac (env : SettingsEnv) (r : OperatorSettingRow) : Bool :=
  env.settingsMac r.section r.version r.doc = r.integrityMac

/-- `load_settings_overlay`: sections with a wrong hash are left out; if the rest cannot be read,
nothing is edited. -/
def loadSettingsOverlay (env : SettingsEnv) (rows : List OperatorSettingRow) : SettingsOverlay :=
  (SettingsOverlay.fromMembers
    ((rows.filter (verifySettingsMac env)).map fun r => (r.section, r.doc))).getD .default

/-- The version of a section. -/
def Db.settingVersion (db : Db) (sec : String) : Int64 :=
  ((db.operatorSettings.get? sec).map OperatorSettingRow.version).getD 0

/-- An edit of a section that another operator has changed. -/
def staleSetting (sec : String) (expected found : Int64) : AppError :=
  .conflict ("settings section '" ++ sec ++ "' changed concurrently (expected v" ++
    toString expected.toInt ++ ", found v" ++ toString found.toInt ++ "); reload and retry")

/-- A row of the settings, overwritten. -/
def replaceSetting (new : OperatorSettingRow) : Patch OperatorSettingRow where
  set r := { new with «section» := r.section }

/-- `put_setting_audited`: the section and the audit row, or neither. -/
def putSettingAudited (env : SettingsEnv) (sec : String) (doc : Json) (updatedBy : Uuid)
    (expected : Option Int64) (entry : NewAdminAudit) : Handler Int64 :=
  execute fun now db =>
    let cur := db.settingVersion sec
    match expected with
    | some v => if cur ≠ v then (.error (staleSetting sec v cur), db) else put now db cur
    | none => put now db cur
where
  /-- The write, when the version is the expected one. -/
  put (now : Timestamp) (db : Db) (cur : Int64) : Except AppError Int64 × Db :=
    if 2 ^ 63 ≤ cur.toInt + 1 then (.error (.internal "attempt to add with overflow"), db)
    else if (db.adminKeys.get? updatedBy).isNone then
      (.error (.databaseError "insert or update violates foreign key constraint"), db)
    else
      let version := cur + 1
      let row : OperatorSettingRow :=
        ⟨sec, doc, version, some updatedBy, env.settingsMac sec version doc⟩
      match appendAdminAudit env.admin.chainHash now entry db.adminAuditLogs with
      | .ok logs => (.ok version, { db with
          operatorSettings := db.operatorSettings.upsert row (replaceSetting row)
          adminAuditLogs := logs })
      | .error e => (.error e, db)

/-! ### The handlers -/

/-- The database, the clock and the running configuration. -/
structure AppState where
  /-- The tables. -/
  db : Db
  /-- The time. -/
  now : Timestamp
  /-- The running configuration. -/
  config : Config

/-- The database and the clock of an instance. -/
def AppState.world : Prog.Part AppState World where
  get s := ⟨s.db, s.now⟩
  set w s := { s with db := w.db, now := w.now }
  get_set _ _ := rfl
  set_set _ _ _ := rfl
  set_get _ := rfl

/-- A verified access token of an operator. -/
structure AdminTokenInfo where
  /-- The operator's key. -/
  pubkey : String
  /-- Identifier of the token. -/
  jti : String

/-- `AdminContext`. -/
structure AdminContext where
  /-- The operator's key. -/
  pubkey : String
  /-- The allowlist entry. -/
  adminKeyId : Uuid
  /-- The session. -/
  sessionId : Uuid

/-- `find_active_admin_session_by_jti`. -/
def Db.findActiveAdminSessionByJti (db : Db) (now : Timestamp) (jti : String) :
    Option AdminSessionRow :=
  db.adminSessions.rows.find? fun s => s.accessJti = jti && s.revokedAt.isNone && now < s.expiresAt

/-- `admin_guard`; `bearer` is what the header and the token's signature say. -/
def adminGuard (env : AdminEnv) (bearer : Except AppError AdminTokenInfo) :
    Handler AdminContext := do
  .ofExcept ((adminManager env).mapError fun _ => adminAuthFail)
  let info ← .ofExcept (bearer.mapError fun _ => adminAuthFail)
  match ← .read dbFault fun w => w.db.findActiveAdminSessionByJti w.now info.jti with
  | none => .fail adminAuthFail
  | some session =>
    match (← select fun db => db.getActiveAdminKey env.keyMac info.pubkey).filter
        fun k => k.activatedAt.isSome with
    | none => .fail adminAuthFail
    | some key => return ⟨info.pubkey, key.id, session.id⟩

/-- `PutConfigRequest`. -/
structure PutConfigRequest where
  /-- The edit. -/
  patch : SettingsOverlay
  /-- Versions the operator has seen, by section. -/
  expectedVersions : String → Option Int64

/-- `PutConfigResponse`. -/
structure PutConfigResponse where
  /-- `runtime` or `restart-required`. -/
  applied : String
  /-- A change waits for a restart. -/
  restartPending : Bool

/-- `overlay_restart_pending`. -/
def overlayRestartPending (env : ConfigEnv) (base : Config) (persisted : SettingsOverlay)
    (running : Config) : Bool :=
  match base.applyOverlay env persisted with
  | .ok p => p.editableOverlay ≠ running.editableOverlay
  | .error _ => false

/-- The stored overlay with the edit, as JSON. -/
def mergedValue (persisted patch : SettingsOverlay) : Json :=
  jsonMergeSkipNull persisted.toValue patch.toValue

/-- The stored overlay with the edit. Reading it back never fails. -/
def mergedOverlay (persisted patch : SettingsOverlay) : Except AppError SettingsOverlay :=
  match SettingsOverlay.fromValue (mergedValue persisted patch) with
  | some merged => .ok merged
  | none => .error (.validationError "bad settings: invalid value")

/-- The sections an edit changes, in order. -/
def changedSections (patch : SettingsOverlay) : List String :=
  (touchedSections patch.toValue).map Prod.fst

/-- A changed field needs a restart. -/
def anyRestart (patch : SettingsOverlay) : Bool :=
  (touchedSections patch.toValue).any fun s =>
    s.2.any fun field => runtimeClass s.1 field = .restartRequired

/-- A section of an overlay. -/
def sectionDoc (merged : Json) (sec : String) : Json :=
  match merged with
  | .obj members => (member members sec).getD (.obj [])
  | _ => .obj []

/-- The audit row of a changed section. -/
def configUpdated (ctx : AdminContext) (sec : String) : NewAdminAudit where
  action := "config_updated"
  actorKind := "admin"
  actorPubkeyPrefix := some (pubkeyPrefix ctx.pubkey)
  target := some sec
  details := some (.obj [("section", .str sec)])
  ipAddress := none

/-- Store the changed sections, one after the other. -/
def persistSections (env : SettingsEnv) (ctx : AdminContext) (req : PutConfigRequest)
    (merged : Json) : List String → Handler Unit
  | [] => .ret ()
  | sec :: rest => do
    let _ ← putSettingAudited env sec (sectionDoc merged sec) ctx.adminKeyId
      (req.expectedVersions sec) (configUpdated ctx sec)
    persistSections env ctx req merged rest

/-- `Display` of an error. -/
def AppError.display : AppError → String
  | configError msg => "Configuration error: " ++ msg
  | databaseError msg => "Database error: " ++ msg
  | authError msg => "Authentication error: " ++ msg
  | nodeError msg => "Node error: " ++ msg
  | validationError msg => "Validation error: " ++ msg
  | notFound msg => "Not found: " ++ msg
  | forbidden msg => "Forbidden: " ++ msg
  | conflict msg => "Conflict: " ++ msg
  | paymentPending msg => "Payment pending: " ++ msg
  | rateLimited => "Rate limited"
  | internal msg => "Internal error: " ++ msg

/-- The running configuration with the edit. -/
def hotSwap (env : ConfigEnv) (running : Config) (patch : SettingsOverlay) :
    Except AppError Config :=
  (running.applyOverlay env patch).mapError fun e =>
    .internal ("hot-swap re-validate failed: " ++ e.display)

/-- The part of `admin_config_put` after the sections are stored. -/
def applyEdit (env : SettingsEnv) (req : PutConfigRequest) (merged : SettingsOverlay) :
    Prog AppState AppError PutConfigResponse :=
  if anyRestart req.patch then .ret ⟨"restart-required", true⟩
  else do
    let running ← .peek AppState.config
    let hot ← .ofExcept (hotSwap env.config running req.patch)
    .poke fun s => { s with config := hot }
    return ⟨"runtime", overlayRestartPending env.config env.base merged hot⟩

/-- `admin_config_put`. In automatic mode the instance also restarts soon after the answer. -/
def adminConfigPut (env : SettingsEnv) (bearer : Except AppError AdminTokenInfo)
    (req : PutConfigRequest) : Prog AppState AppError PutConfigResponse := do
  let ctx ← (adminGuard env.admin bearer).zoom AppState.world
  let persisted ←
    (select fun db => loadSettingsOverlay env db.operatorSettings.rows).zoom AppState.world
  let merged ← .ofExcept (mergedOverlay persisted req.patch)
  let _ ← .ofExcept (env.base.applyOverlay env.config merged)
  if (changedSections req.patch).isEmpty then .fail (.validationError "empty config patch")
  else do
    (persistSections env ctx req (mergedValue persisted req.patch) (changedSections req.patch)).zoom
      AppState.world
    applyEdit env req merged

/-! ### What the parts do -/

/-- The guard admits the request. -/
def Authorised (env : AdminEnv) (bearer : Except AppError AdminTokenInfo) (w : World)
    (ctx : AdminContext) : Prop :=
  env.enabled = true ∧ ∃ info session key, bearer = .ok info ∧
    w.db.findActiveAdminSessionByJti w.now info.jti = some session ∧
    (w.db.getActiveAdminKey env.keyMac info.pubkey).filter (fun k => k.activatedAt.isSome) =
      some key ∧
    ctx = ⟨info.pubkey, key.id, session.id⟩

/-- The guard only reads. -/
theorem outcome_adminGuard {env : AdminEnv} {bearer : Except AppError AdminTokenInfo}
    {w w' : World} {r : Except AppError AdminContext} (h : (adminGuard env bearer).Outcome w r w') :
    w' = w ∧ ∀ ctx, r = .ok ctx → Authorised env bearer w ctx := by
  rcases Prog.outcome_ofExcept_bind h with ⟨e, rfl, rfl⟩ | ⟨_, henabled, h⟩
  · exact ⟨rfl, fun _ h => nomatch h⟩
  rcases Prog.outcome_ofExcept_bind h with ⟨e, rfl, rfl⟩ | ⟨info, hinfo, h⟩
  · exact ⟨rfl, fun _ h => nomatch h⟩
  rcases Prog.outcome_read_bind h with ⟨rfl, rfl⟩ | h
  · exact ⟨rfl, fun _ h => nomatch h⟩
  have hon : env.enabled = true := by
    cases hon : env.enabled with
    | true => rfl
    | false => simp [adminManager, hon, Except.mapError] at henabled
  cases hsession : w.db.findActiveAdminSessionByJti w.now info.jti with
  | none =>
    simp only [hsession] at h
    cases h
    exact ⟨rfl, fun _ h => nomatch h⟩
  | some session =>
    simp only [hsession] at h
    rcases Prog.outcome_read_bind h with ⟨rfl, rfl⟩ | h
    · exact ⟨rfl, fun _ h => nomatch h⟩
    cases hkey : (w.db.getActiveAdminKey env.keyMac info.pubkey).filter
        (fun k => k.activatedAt.isSome) with
    | none =>
      simp only [hkey] at h
      cases h
      exact ⟨rfl, fun _ h => nomatch h⟩
    | some key =>
      simp only [hkey] at h
      cases h
      refine ⟨rfl, fun ctx hctx => ⟨hon, info, session, key, mapError_eq_ok_iff.mp hinfo, hsession,
        hkey, (Except.ok.inj hctx).symm⟩⟩

theorem steps_adminGuard (env : AdminEnv) (bearer : Except AppError AdminTokenInfo) :
    (adminGuard env bearer).Steps fun w w' => w' = w := by
  refine (Prog.steps_ofExcept _).bind fun _ => (Prog.steps_ofExcept _).bind fun info => ?_
  refine Prog.Steps.bind (Prog.steps_read fun _ => rfl) fun session => ?_
  cases session with
  | none => trivial
  | some session =>
    refine Prog.Steps.bind (Prog.steps_read fun _ => rfl) fun key => ?_
    cases key.filter fun k => k.activatedAt.isSome <;> trivial

theorem Authorised.outcome {env : AdminEnv} {bearer : Except AppError AdminTokenInfo} {w : World}
    {ctx : AdminContext} (h : Authorised env bearer w ctx) :
    (adminGuard env bearer).Outcome w (.ok ctx) w := by
  obtain ⟨hon, info, session, key, rfl, hsession, hkey, rfl⟩ := h
  have hrun : (adminGuard env (.ok info)).run w = (.ok ⟨info.pubkey, key.id, session.id⟩, w) := by
    simp [adminGuard, adminManager, hon, Except.mapError, Prog.read, Prog.run, select, hsession,
      hkey]
  have hout := Prog.outcome_run (adminGuard env (.ok info)) w
  rwa [hrun] at hout

theorem Authorised.key_isSome {env : AdminEnv} {bearer : Except AppError AdminTokenInfo} {w : World}
    {ctx : AdminContext} (h : Authorised env bearer w ctx) :
    (w.db.adminKeys.get? ctx.adminKeyId).isSome := by
  obtain ⟨-, info, session, key, -, -, hkey, rfl⟩ := h
  have hactive := (Option.filter_eq_some_iff.mp hkey).1
  have hfound := (Option.filter_eq_some_iff.mp hactive).1
  rw [show w.db.adminKeys.get? key.id = some key from
    Table.get?_of_mem (List.mem_of_find?_eq_some hfound)]
  rfl

/-- A section can be stored: it has the expected version and no counter is exhausted. -/
structure SettingWritable (db : Db) (sec : String) (expected : Option Int64) : Prop where
  /-- The expected version is the stored one. -/
  current : ∀ v, expected = some v → db.settingVersion sec = v
  /-- There is a next version. -/
  version : (db.settingVersion sec).toInt + 1 < 2 ^ 63
  /-- There is a next place in the audit chain. -/
  audit : ¬ AuditExhausted db.adminAuditLogs

/-- The write of a section, at the expected version, fails only when a counter is exhausted. -/
theorem put_cases (env : SettingsEnv) (sec : String) (doc : Json) (key : Uuid)
    (entry : NewAdminAudit) (now : Timestamp) {db : Db} {expected : Option Int64}
    (hcur : ∀ v, expected = some v → db.settingVersion sec = v) :
    (∃ e, putSettingAudited.put env sec doc key entry now db (db.settingVersion sec) =
      (.error e, db)) ∨
    (∃ v, (putSettingAudited.put env sec doc key entry now db (db.settingVersion sec)).1 = .ok v) ∧
      SettingWritable db sec expected := by
  unfold putSettingAudited.put
  split_ifs with hover hfk
  · exact .inl ⟨_, rfl⟩
  · exact .inl ⟨_, rfl⟩
  · obtain ⟨hexhausted, hfree⟩ :=
      appendAdminAudit_spec env.admin.chainHash now entry db.adminAuditLogs
    by_cases haudit : AuditExhausted db.adminAuditLogs
    · obtain ⟨e, he⟩ := hexhausted haudit
      exact .inl ⟨e, by simp only [he]⟩
    · obtain ⟨logs, row, hlogs, -⟩ := hfree haudit
      refine .inr ⟨⟨db.settingVersion sec + 1, ?_⟩, hcur, by omega, haudit⟩
      simp only [hlogs]

/-- A section is stored with an audit row, or nothing happens. -/
theorem outcome_putSettingAudited {env : SettingsEnv} {sec : String} {doc : Json} {key : Uuid}
    {expected : Option Int64} {entry : NewAdminAudit} {w w' : World} {r : Except AppError Int64}
    (h : (putSettingAudited env sec doc key expected entry).Outcome w r w') :
    (∃ e, r = .error e ∧ w' = w) ∨ (∃ v, r = .ok v) ∧ SettingWritable w.db sec expected := by
  have hdone : ∀ x : Except AppError Int64 × Db, ((∃ e, x = (.error e, w.db)) ∨
      (∃ v, x.1 = .ok v) ∧ SettingWritable w.db sec expected) → r = x.1 → w' = { w with db := x.2 } →
      (∃ e, r = .error e ∧ w' = w) ∨ (∃ v, r = .ok v) ∧ SettingWritable w.db sec expected := by
    rintro x (⟨e, rfl⟩ | ⟨⟨v, hv⟩, hwritable⟩) hr hw
    · exact .inl ⟨e, hr, hw⟩
    · exact .inr ⟨⟨v, hr.trans hv⟩, hwritable⟩
  rcases Prog.outcome_query h with ⟨hr, hw⟩ | ⟨hr, hw⟩
  · refine hdone _ ?_ hr hw
    cases expected with
    | none => exact put_cases env sec doc key entry w.now (by simp)
    | some exp =>
      simp only
      split_ifs with hcur
      · exact .inl ⟨_, rfl⟩
      · refine put_cases env sec doc key entry w.now fun v hv => ?_
        rw [← Option.some.inj hv]
        exact not_not.mp hcur
  · exact .inl ⟨_, hr, hw⟩

/-- A section that can be stored is stored, with an audit row, unless the statement faults. -/
theorem SettingWritable.outcome {env : SettingsEnv} {sec : String} {expected : Option Int64}
    {w : World} (h : SettingWritable w.db sec expected) (doc : Json) {key : Uuid}
    (hkey : (w.db.adminKeys.get? key).isSome) (entry : NewAdminAudit) :
    ∃ v w' row, (putSettingAudited env sec doc key expected entry).Outcome w (.ok v) w' ∧
      w'.db.adminAuditLogs.rows = w.db.adminAuditLogs.rows ++ [row] := by
  obtain ⟨logs, row, hlogs, hrows, -⟩ :=
    (appendAdminAudit_spec env.admin.chainHash w.now entry w.db.adminAuditLogs).2 h.audit
  have hover : ¬ 2 ^ 63 ≤ (w.db.settingVersion sec).toInt + 1 := by
    have := h.version
    omega
  have hfk : ¬ (w.db.adminKeys.get? key).isNone := by
    simpa [← Option.isSome_iff_ne_none] using hkey
  obtain ⟨v, db', hput, hdb'⟩ : ∃ v db', putSettingAudited.put env sec doc key entry w.now w.db
      (w.db.settingVersion sec) = (.ok v, db') ∧ db'.adminAuditLogs = logs := by
    unfold putSettingAudited.put
    rw [if_neg hover, if_neg hfk]
    simp only [hlogs]
    exact ⟨_, _, rfl, rfl⟩
  have hrun : (putSettingAudited env sec doc key expected entry).run w =
      (.ok v, { w with db := db' }) := by
    cases expected with
    | none => simp [putSettingAudited, execute, Prog.query, Prog.run, hput]
    | some exp =>
      have hcur := h.current exp rfl
      subst hcur
      simp [putSettingAudited, execute, Prog.query, Prog.run, hput]
  have hout := Prog.outcome_run (putSettingAudited env sec doc key expected entry) w
  rw [hrun] at hout
  exact ⟨v, _, row, hout, by simp only [hdb', hrows]⟩

/-! ### When a failed edit changes nothing -/

/-- An edit that fails leaves settings, audit rows and the running configuration alone. -/
def PutAtomic (env : SettingsEnv) (bearer : Except AppError AdminTokenInfo)
    (req : PutConfigRequest) (s : AppState) : Prop :=
  ∀ e s', (adminConfigPut env bearer req).Outcome s (.error e) s' →
    s'.db.operatorSettings = s.db.operatorSettings ∧
    s'.db.adminAuditLogs = s.db.adminAuditLogs ∧ s'.config = s.config

/-- Everything before the first write passes: the operator, the merged settings and the first
section. -/
structure FirstWriteCommits (env : SettingsEnv) (bearer : Except AppError AdminTokenInfo)
    (req : PutConfigRequest) (s : AppState) : Prop where
  /-- The guard admits the operator. -/
  operator : ∃ ctx, Authorised env.admin bearer ⟨s.db, s.now⟩ ctx
  /-- The merged settings are valid on the configuration of start-up. -/
  valid : ∃ merged c,
    mergedOverlay (loadSettingsOverlay env s.db.operatorSettings.rows) req.patch = .ok merged ∧
      env.base.applyOverlay env.config merged = .ok c
  /-- The first section can be stored. -/
  first : ∃ sec rest, changedSections req.patch = sec :: rest ∧
    SettingWritable s.db sec (req.expectedVersions sec)

theorem outcome_world {α : Type} {p : Handler α} {s s' : AppState} {r : Except AppError α}
    (h : (p.zoom AppState.world).Outcome s r s') :
    p.Outcome ⟨s.db, s.now⟩ r ⟨s'.db, s'.now⟩ ∧ s'.config = s.config := by
  obtain ⟨hout, hrest⟩ := Prog.outcome_zoom h
  exact ⟨hout, by rw [hrest]; rfl⟩

theorem eq_of_outcome_world {α : Type} {p : Handler α} {s s' : AppState} {r : Except AppError α}
    (h : (p.zoom AppState.world).Outcome s r s') (hw : (⟨s'.db, s'.now⟩ : World) = ⟨s.db, s.now⟩) :
    s' = s := by
  have hconfig := (outcome_world h).2
  injection hw with hdb hnow
  cases s
  cases s'
  simp_all

theorem outcome_adminGuard_world {env : SettingsEnv} {bearer : Except AppError AdminTokenInfo}
    {s s' : AppState} {r : Except AppError AdminContext}
    (h : ((adminGuard env.admin bearer).zoom AppState.world).Outcome s r s') :
    s' = s ∧ ∀ ctx, r = .ok ctx → Authorised env.admin bearer ⟨s.db, s.now⟩ ctx := by
  obtain ⟨hsame, hauth⟩ := outcome_adminGuard (outcome_world h).1
  exact ⟨eq_of_outcome_world h hsame, hauth⟩

theorem outcome_select_world {α : Type} {f : Db → α} {s s' : AppState} {r : Except AppError α}
    (h : ((select f).zoom AppState.world).Outcome s r s') :
    s' = s ∧ (r = .ok (f s.db) ∨ r = .error dbFault) := by
  obtain ⟨hr, hsame⟩ := Prog.outcome_read (outcome_world h).1
  exact ⟨eq_of_outcome_world h hsame, hr⟩

/-- A failed edit has changed nothing, or has stored its first section. -/
theorem outcome_adminConfigPut {env : SettingsEnv} {bearer : Except AppError AdminTokenInfo}
    {req : PutConfigRequest} {s s' : AppState} {e : AppError}
    (h : (adminConfigPut env bearer req).Outcome s (.error e) s') :
    s' = s ∨ FirstWriteCommits env bearer req s ∧ ∃ ctx merged doc sec rest s₁,
      changedSections req.patch = sec :: rest ∧ s₁.config = s.config ∧
      ((persistSections env ctx req doc rest).zoom AppState.world >>= fun _ =>
        applyEdit env req merged).Outcome s₁ (.error e) s' := by
  rcases Prog.outcome_bind h with ⟨_, hguard, -⟩ | ⟨ctx, s₁, hguard, hload⟩
  · exact .inl (outcome_adminGuard_world hguard).1
  obtain ⟨rfl, hauth⟩ := outcome_adminGuard_world hguard
  rcases Prog.outcome_bind hload with ⟨_, hsel, -⟩ | ⟨persisted, s₂, hsel, hmerge⟩
  · exact .inl (outcome_select_world hsel).1
  obtain ⟨rfl, hpersisted | hpersisted⟩ := outcome_select_world hsel
  swap
  · cases hpersisted
  obtain rfl := Except.ok.inj hpersisted
  rcases Prog.outcome_ofExcept_bind hmerge with ⟨_, -, rfl⟩ | ⟨merged, hmerged, hcheck⟩
  · exact .inl rfl
  rcases Prog.outcome_ofExcept_bind hcheck with ⟨_, -, rfl⟩ | ⟨c, hvalid, hrest⟩
  · exact .inl rfl
  cases hsections : changedSections req.patch with
  | nil =>
    simp only [hsections, List.isEmpty_nil, if_true] at hrest
    cases hrest
    exact .inl rfl
  | cons sec rest =>
    simp only [hsections, List.isEmpty_cons, Bool.false_eq_true, if_false] at hrest
    rw [persistSections, Prog.zoom_bind, Prog.bind_bind] at hrest
    rcases Prog.outcome_bind hrest with ⟨_, hfirst, -⟩ | ⟨v, s₁, hfirst, hrest⟩
    · rcases outcome_putSettingAudited (outcome_world hfirst).1 with ⟨_, -, hsame⟩ | ⟨⟨v, hv⟩, -⟩
      · exact .inl (eq_of_outcome_world hfirst hsame)
      · cases hv
    · rcases outcome_putSettingAudited (outcome_world hfirst).1 with ⟨_, hv, -⟩ | ⟨-, hwritable⟩
      · cases hv
      · exact .inr ⟨⟨⟨ctx, hauth ctx rfl⟩, ⟨merged, c, hmerged, hvalid⟩, sec, rest, hsections,
          hwritable⟩, ctx, merged, _, sec, rest, s₁, rfl, (outcome_world hfirst).2, hrest⟩

/-- After its first section, an edit with everything ahead of it can still fail. -/
theorem FirstWriteCommits.outcome {env : SettingsEnv} {bearer : Except AppError AdminTokenInfo}
    {req : PutConfigRequest} {s : AppState} (h : FirstWriteCommits env bearer req s) {e : AppError}
    (hlater : ∀ ctx merged doc sec rest s₁, changedSections req.patch = sec :: rest →
      s₁.config = s.config → ∃ s', s'.db.adminAuditLogs = s₁.db.adminAuditLogs ∧
        ((persistSections env ctx req doc rest).zoom AppState.world >>= fun _ =>
          applyEdit env req merged).Outcome s₁ (.error e) s') :
    ¬ PutAtomic env bearer req s := by
  obtain ⟨⟨ctx, hauth⟩, ⟨merged, c, hmerged, hvalid⟩, sec, rest, hsections, hwritable⟩ := h
  intro hatomic
  obtain ⟨v, w₁, row, hfirst, hrows⟩ := @SettingWritable.outcome env _ _
    ⟨s.db, s.now⟩ hwritable
    (sectionDoc (mergedValue (loadSettingsOverlay env s.db.operatorSettings.rows) req.patch) sec)
    _ hauth.key_isSome (configUpdated ctx sec)
  have hfirst' := hfirst.zoom AppState.world (t := s) rfl
  obtain ⟨s', hlogs, hrest⟩ := hlater ctx merged
    (mergedValue (loadSettingsOverlay env s.db.operatorSettings.rows) req.patch) sec rest
    (AppState.world.set w₁ s) hsections rfl
  have hout : (adminConfigPut env bearer req).Outcome s (.error e) s' := by
    refine (hauth.outcome.zoom AppState.world (t := s) rfl).bind ?_
    have hload : ((select fun db => loadSettingsOverlay env db.operatorSettings.rows).zoom
        AppState.world).Outcome s (.ok (loadSettingsOverlay env s.db.operatorSettings.rows)) s :=
      .act (.ret _ _)
    refine hload.bind ?_
    simp only [hmerged, hvalid, hsections, Prog.ofExcept_ok, Prog.ret_bind, List.isEmpty_cons,
      Bool.false_eq_true, if_false]
    rw [persistSections, Prog.zoom_bind, Prog.bind_bind]
    exact hfirst'.bind hrest
  have hsame := (hatomic e s' hout).2.1
  rw [hlogs] at hsame
  have hlen := congrArg (fun t => t.rows.length) hsame
  simp only [show (AppState.world.set w₁ s).db = w₁.db from rfl, hrows, List.length_append,
    List.length_singleton] at hlen
  omega

/-- Once the sections are stored, only the running configuration can refuse the edit. -/
theorem outcome_applyEdit_error {env : SettingsEnv} {req : PutConfigRequest}
    {merged : SettingsOverlay} {s s' : AppState} {e : AppError} :
    (applyEdit env req merged).Outcome s (.error e) s' ↔
      anyRestart req.patch = false ∧ hotSwap env.config s.config req.patch = .error e ∧ s' = s := by
  unfold applyEdit
  cases anyRestart req.patch with
  | true =>
    simp only [if_true, Bool.true_eq_false, false_and, iff_false]
    intro h
    cases h
  | false =>
    simp only [Bool.false_eq_true, if_false, Prog.outcome_peek_bind, true_and]
    cases hotSwap env.config s.config req.patch with
    | error e' =>
      constructor
      · intro h
        cases h
        exact ⟨rfl, rfl⟩
      · rintro ⟨he, rfl⟩
        rw [Except.error.inj he]
        exact .fail _ _
    | ok hot =>
      simp only [Prog.ofExcept_ok, Prog.ret_bind, Prog.outcome_poke_bind, reduceCtorEq, false_and,
        iff_false]
      intro h
      cases h

/-- **When a failed edit changes nothing.** Unless the first section is stored, always; otherwise
exactly if it is the only section, and the edit needs a restart or is valid on the running
configuration. -/
theorem adminConfigPut_atomic_iff (env : SettingsEnv) (bearer : Except AppError AdminTokenInfo)
    (req : PutConfigRequest) (s : AppState) :
    PutAtomic env bearer req s ↔ (FirstWriteCommits env bearer req s →
      (changedSections req.patch).length = 1 ∧
      (anyRestart req.patch = true ∨ ∃ c, s.config.applyOverlay env.config req.patch = .ok c)) := by
  constructor
  · intro hatomic hcommits
    have hone : (changedSections req.patch).length = 1 := by
      by_contra hmany
      refine hcommits.outcome (e := dbFault) (fun ctx merged doc sec rest s₁ hsections _ => ?_)
        hatomic
      cases rest with
      | nil => simp [hsections] at hmany
      | cons sec' rest =>
        -- the statement of the second section may fault
        refine ⟨s₁, rfl, ?_⟩
        rw [persistSections, Prog.zoom_bind, Prog.bind_bind]
        exact .fault (.fail _ _)
    refine ⟨hone, ?_⟩
    by_contra hinvalid
    rw [not_or, Bool.not_eq_true] at hinvalid
    cases happly : s.config.applyOverlay env.config req.patch with
    | ok c => exact hinvalid.2 ⟨c, happly⟩
    | error e =>
      refine hcommits.outcome (e := .internal ("hot-swap re-validate failed: " ++ e.display))
        (fun ctx merged doc sec rest s₁ hsections hconfig => ?_) hatomic
      obtain rfl : rest = [] := by simpa [hsections] using hone
      refine ⟨s₁, rfl, outcome_applyEdit_error.mpr ⟨hinvalid.1, ?_, rfl⟩⟩
      rw [hconfig, hotSwap, happly]
      rfl
  · intro hcond e s' hout
    rcases outcome_adminConfigPut hout with rfl | ⟨hcommits, ctx, merged, doc, sec, rest, s₁,
      hsections, hconfig, hrest⟩
    · exact ⟨rfl, rfl, rfl⟩
    · -- the only section is stored, and what follows cannot fail
      obtain ⟨hone, happly⟩ := hcond hcommits
      obtain rfl : rest = [] := by simpa [hsections] using hone
      obtain ⟨hsafe, hswap, -⟩ := outcome_applyEdit_error.mp hrest
      obtain ⟨c, hc⟩ := happly.resolve_left (by simp [hsafe])
      rw [hconfig, hotSwap, hc] at hswap
      cases hswap

/-! ### Edits that fail halfway -/

/-- Libraries that know one URL and no names. -/
def sampleConfigEnv : ConfigEnv where
  parseUrl s := if s = "https://pay" then some ⟨"https", some (.domain "pay")⟩ else none
  resolve _ := none
  lowercase := toLowercase
  uppercase s := String.ofList (s.toList.map Char.toUpper)
  quoted s := "\"" ++ s ++ "\""

/-- A secret that is long enough. -/
def sampleSecret : String := "0123456789abcdef0123456789abcdef"

/-- An instance where new wallets pay. -/
def sampleConfig : Config where
  environment := "development"
  tipShareBase := none
  jwtSecret := sampleSecret
  publicApiUrl := none
  secrets := ⟨sampleSecret, sampleSecret, sampleSecret⟩
  rateLimit := ⟨500, 20, 100, 60⟩
  features := ⟨⟨false, false, false, false, false⟩, false, "neroswap", 60, [], "usd", false, false,
    false⟩
  chains := ⟨⟨none, []⟩, ⟨none, []⟩, "", "", ""⟩
  pow := ⟨false, "", false, 0, []⟩
  admin := ⟨true, "https://pay", sampleSecret, sampleSecret⟩
  landing := ⟨false, none, false, false, false, false, false, 24, 10⟩
  retention := ⟨90, 365, false, false, 3, 72⟩
  restore := ⟨.unlimited, 0, 0, 0, 0⟩
  registration :=
    ⟨false, ⟨true, "btcpay", "https://pay", "store", "api-key-1", "1", "XMR", 1, 60⟩, .all⟩
  relay := ⟨false, "external", "", "open", 0, "", false, 65536, 30⟩
  premium := ⟨false, "", [], []⟩
  feedEnabled := false
  restartApplyMode := .manual

/-- The settings of that instance. -/
def sampleSettings : SettingsEnv where
  admin := ⟨sampleEnv, true, "https://pay", id, fun k => k.pubkey, fun _ _ _ _ => "hash", days 30⟩
  config := sampleConfigEnv
  base := sampleConfig
  settingsMac sec _ _ := sec

/-- An operator is signed in, and this is stored. -/
def signedIn (settings : Table OperatorSettingRow) : AppState where
  db := { Db.empty with
    adminKeys := ⟨[⟨1, "op", "admin", 0, some 0, none, none, none, "op"⟩], by simp⟩
    adminSessions := ⟨[⟨2, 1, "op", "refresh", "jti", none, 1000, none⟩], by simp⟩
    operatorSettings := settings }
  now := 0
  config := sampleConfig

/-- Two sections, the second at a version that is not there. -/
def twoSections : PutConfigRequest where
  patch := { SettingsOverlay.default with
    landing := some ⟨some true, none, none, none, none, none, none, none, none⟩
    pow := some ⟨none, none, some 5⟩ }
  expectedVersions sec := if sec = "pow" then some 3 else none

/-- Payment was switched off, which needs a restart. -/
def paymentOff : OperatorSettingRow :=
  ⟨"registration", .obj [("require_payment", .bool false)], 1, some 1, "registration"⟩

/-- No confirmations, which is valid while nobody pays. -/
def noConfirmations : PutConfigRequest where
  patch := { SettingsOverlay.default with
    registration := some ⟨none, none, none, none, none, some 0, none⟩ }
  expectedVersions _ := none

theorem not_putAtomic_of_run {env : SettingsEnv} {bearer : Except AppError AdminTokenInfo}
    {req : PutConfigRequest} {s : AppState}
    (hfails : ((adminConfigPut env bearer req).run s).1.isOk = false)
    (hlogs : ((adminConfigPut env bearer req).run s).2.db.adminAuditLogs.rows.length ≠
      s.db.adminAuditLogs.rows.length) : ¬ PutAtomic env bearer req s := by
  intro hatomic
  have hout := Prog.outcome_run (adminConfigPut env bearer req) s
  cases hr : ((adminConfigPut env bearer req).run s).1 with
  | ok resp => simp [hr, Except.isOk, Except.toBool] at hfails
  | error e =>
    rw [hr] at hout
    exact hlogs (congrArg (fun t => t.rows.length) (hatomic e _ hout).2.1)

/-- A stale second section leaves the first one stored; so does an edit that is valid on the stored
settings but not on the running ones. -/
theorem failed_edits_are_stored :
    ¬ PutAtomic sampleSettings (.ok ⟨"op", "jti"⟩) twoSections (signedIn .empty) ∧
    ¬ PutAtomic sampleSettings (.ok ⟨"op", "jti"⟩) noConfirmations
      (signedIn ⟨[paymentOff], by simp⟩) := by
  constructor
  · exact not_putAtomic_of_run (by decide +kernel) (by decide +kernel)
  · exact not_putAtomic_of_run (by decide +kernel) (by decide +kernel)

end SmirkBackend
