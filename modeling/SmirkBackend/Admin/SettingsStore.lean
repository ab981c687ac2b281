import SmirkBackend.Admin.SettingsLoad
import SmirkBackend.Config.Fields

/-!
# What an edit stores

An edit that succeeds has stored, for each section that it changes, the section of the stored
overlay with the edit, under a right hash; the other rows are as they were.  If the sections that it
leaves alone were read from their own rows, the settings are now read as the stored overlay with the
edit.

This is `outcome_adminConfigPut_ok` for the rows (`DocsStored`) and `loadSettingsOverlay_stored` for
the settings that are read from them.
-/

namespace SmirkBackend

open Lib (Table Patch Prog Json)

/-! ### Stored documents -/

/-- The document of a section, if its hash is right. -/
def storedDoc (env : SettingsEnv) (t : Table OperatorSettingRow) (s : SettingsSection) :
    Option Json :=
  (checkedRow env t s).map (·.doc)

theorem ownEdit_eq (env : SettingsEnv) (t : Table OperatorSettingRow) (s : SettingsSection) :
    ownEdit env t s = (storedDoc env t s).bind fun doc => (docEdit s doc).getD none := by
  rw [ownEdit, storedDoc]
  cases checkedRow env t s <;> rfl

theorem unreadable_iff {env : SettingsEnv} {t : Table OperatorSettingRow} {s : SettingsSection} :
    Unreadable env t s ↔ ∃ doc, storedDoc env t s = some doc ∧ docEdit s doc = none := by
  rw [Unreadable, storedDoc]
  cases checkedRow env t s <;> simp

/-- The documents of these sections are replaced, and no others. -/
def DocsStored (env : SettingsEnv) (secs : List String) (doc : String → Json)
    (t t' : Table OperatorSettingRow) : Prop :=
  ∀ s : SettingsSection, storedDoc env t' s =
    if s.name ∈ secs then some (doc s.name) else storedDoc env t s

theorem DocsStored.nil (env : SettingsEnv) (doc : String → Json) (t : Table OperatorSettingRow) :
    DocsStored env [] doc t t := by
  intro s
  simp

theorem DocsStored.trans {env : SettingsEnv} {secs secs' : List String} {doc : String → Json}
    {t t₁ t' : Table OperatorSettingRow} (h : DocsStored env secs doc t t₁)
    (h' : DocsStored env secs' doc t₁ t') : DocsStored env (secs ++ secs') doc t t' := by
  intro s
  rw [h' s, h s]
  by_cases hs : s.name ∈ secs <;> by_cases hs' : s.name ∈ secs' <;> simp [hs, hs']

theorem DocsStored.congr {env : SettingsEnv} {secs : List String} {doc doc' : String → Json}
    {t t' : Table OperatorSettingRow} (h : DocsStored env secs doc t t')
    (hdoc : ∀ sec ∈ secs, doc sec = doc' sec) : DocsStored env secs doc' t t' := by
  intro s
  rw [h s]
  by_cases hs : s.name ∈ secs
  · simp [hs, hdoc]
  · simp [hs]

/-- The row of a write. -/
def settingRow (env : SettingsEnv) (sec : String) (doc : Json) (version : Int64) (key : Uuid) :
    OperatorSettingRow :=
  ⟨sec, doc, version, some key, env.settingsMac sec version doc⟩

/-- A row with a right hash replaces the document of its section. -/
theorem stored_upsert (env : SettingsEnv) (t : Table OperatorSettingRow) (sec : String) (doc : Json)
    (version : Int64) (key : Uuid) :
    DocsStored env [sec] (fun _ => doc) t
      (t.upsert (settingRow env sec doc version key)
        (replaceSetting (settingRow env sec doc version key))) := by
  intro s
  have hget := t.get?_upsert (settingRow env sec doc version key)
    (replaceSetting (settingRow env sec doc version key)) s.name
  rw [storedDoc, checkedRow, hget]
  by_cases hs : s.name = sec
  · have hmac : verifySettingsMac env (settingRow env sec doc version key) = true :=
      decide_eq_true rfl
    rw [if_pos (show s.name = Lib.key (settingRow env sec doc version key) from hs),
      if_pos (List.mem_singleton.mpr hs)]
    cases hrow : t.get? s.name with
    | none =>
      simp only [Option.elim_none, Option.filter, hmac, if_true, Option.map_some]
      rfl
    | some r =>
      have hset : (replaceSetting (settingRow env sec doc version key)).set r =
          settingRow env sec doc version key := by
        have hkey : r.section = sec := (Table.key_of_get? hrow).trans hs
        simp [replaceSetting, settingRow, hkey]
      simp only [Option.elim_some, hset, Option.filter, hmac, if_true, Option.map_some]
      rfl
  · rw [if_neg (show ¬ s.name = Lib.key (settingRow env sec doc version key) from hs),
      if_neg fun h => hs (List.mem_singleton.mp h)]
    rfl

theorem put_ok {env : SettingsEnv} {sec : String} {doc : Json} {key : Uuid} {entry : NewAdminAudit}
    {now : Timestamp} {db : Db} {cur v : Int64}
    (h : (putSettingAudited.put env sec doc key entry now db cur).1 = .ok v) :
    DocsStored env [sec] (fun _ => doc) db.operatorSettings
      (putSettingAudited.put env sec doc key entry now db cur).2.operatorSettings := by
  unfold putSettingAudited.put at h ⊢
  split_ifs at h ⊢ with hover hfk
  cases hlogs : appendAdminAudit env.admin.chainHash now entry db.adminAuditLogs with
  | error e => simp [hlogs] at h
  | ok logs => exact stored_upsert env db.operatorSettings sec doc (cur + 1) key

/-- A write that succeeds gives its section another version, and no other section. -/
theorem settingVersion_put_ne_iff {env : SettingsEnv} {sec : String} {doc : Json} {key : Uuid}
    {entry : NewAdminAudit} {now : Timestamp} {db : Db} {v : Int64}
    (h : (putSettingAudited.put env sec doc key entry now db (db.settingVersion sec)).1 = .ok v)
    (sec' : String) :
    (putSettingAudited.put env sec doc key entry now db
      (db.settingVersion sec)).2.settingVersion sec' ≠ db.settingVersion sec' ↔ sec' = sec := by
  unfold putSettingAudited.put at h ⊢
  split_ifs at h ⊢ with hover hfk
  cases hlogs : appendAdminAudit env.admin.chainHash now entry db.adminAuditLogs with
  | error e => simp [hlogs] at h
  | ok logs =>
    simp only [Db.settingVersion, Table.get?_upsert]
    by_cases hsec : sec' = sec
    · subst hsec
      rw [if_pos (show sec' = Lib.key (OperatorSettingRow.mk sec' _ _ _ _) from rfl)]
      refine iff_of_true ?_ rfl
      cases db.operatorSettings.get? sec' with
      | none =>
        show (0 : Int64) + 1 ≠ 0
        decide
      | some r =>
        show r.version + 1 ≠ r.version
        grind
    · rw [if_neg (show ¬ sec' = Lib.key (OperatorSettingRow.mk sec _ _ _ _) from hsec)]
      simp [hsec]

/-! ### An edit that succeeds -/

/-- A change of the instance gives this section another version. -/
def StoresAt (sec : String) (x : AppState × AppState) : Prop :=
  x.2.db.settingVersion sec ≠ x.1.db.settingVersion sec

instance (sec : String) : DecidablePred (StoresAt sec) := fun x =>
  inferInstanceAs (Decidable (x.2.db.settingVersion sec ≠ x.1.db.settingVersion sec))

/-- A change of the instance that stores this document, under a new version of this section, and
leaves the running configuration alone. -/
structure StoresSection (env : SettingsEnv) (sec : String) (doc : Json) (x : AppState × AppState) :
    Prop where
  /-- The document. -/
  stored : DocsStored env [sec] (fun _ => doc) x.1.db.operatorSettings x.2.db.operatorSettings
  /-- The version. -/
  version : ∀ sec', StoresAt sec' x ↔ sec' = sec
  /-- The running configuration. -/
  config : x.2.config = x.1.config

theorem path_putSettingAudited {env : SettingsEnv} {sec : String} {doc : Json} {key : Uuid}
    {expected : Option Int64} {entry : NewAdminAudit} {t : List (AppState × AppState)} {v : Int64}
    (h : ((putSettingAudited env sec doc key expected entry).zoom AppState.world).Path t (.ok v)) :
    ∃ x, t = [x] ∧ StoresSection env sec doc x := by
  have hrest := Prog.path_zoom_rest h
  obtain ⟨w, ⟨ht, hv⟩ | ⟨-, hv⟩⟩ := Prog.path_query (Prog.path_zoom h)
  swap
  · cases hv
  obtain ⟨x, rfl, hx⟩ := List.map_eq_singleton_iff.mp ht
  obtain ⟨hbefore, hafter⟩ := Prod.mk.inj hx
  have hstate : x.1.db = w.db ∧ x.2.db = _ :=
    ⟨congrArg World.db hbefore, congrArg World.db hafter⟩
  have hrows : DocsStored env [sec] (fun _ => doc) x.1.db.operatorSettings x.2.db.operatorSettings ∧
      ∀ sec', StoresAt sec' x ↔ sec' = sec := by
    unfold StoresAt
    rw [hstate.1, hstate.2]
    simp only at hv ⊢
    cases expected with
    | none => exact ⟨put_ok hv.symm, settingVersion_put_ne_iff hv.symm⟩
    | some exp =>
      simp only at hv ⊢
      split_ifs at hv ⊢
      exact ⟨put_ok hv.symm, settingVersion_put_ne_iff hv.symm⟩
  refine ⟨x, rfl, hrows.1, hrows.2, ?_⟩
  rw [hrest x (List.mem_singleton_self x)]
  rfl

theorem path_persistSections {env : SettingsEnv} {ctx : AdminContext} {req : PutConfigRequest}
    {merged : Json} {secs : List String} {t : List (AppState × AppState)}
    (h : ((persistSections env ctx req merged secs).zoom AppState.world).Path t (.ok ())) :
    List.Forall₂ (fun sec => StoresSection env sec (sectionDoc merged sec)) secs t := by
  induction secs generalizing t with
  | nil =>
    cases h
    exact .nil
  | cons sec rest ih =>
    rw [persistSections, Prog.zoom_bind] at h
    obtain ⟨t₁, t₂, v, rfl, hfirst, hrest⟩ := Prog.path_bind_ok h
    obtain ⟨x, rfl, hx⟩ := path_putSettingAudited hfirst
    exact .cons hx (ih hrest)

/-- What an edit does after it has read what is stored: it stores its sections, one after the
other, and takes effect if no changed field needs a restart. -/
structure PutPath (env : SettingsEnv) (req : PutConfigRequest) (persisted : SettingsOverlay)
    (writes swap : List (AppState × AppState)) : Prop where
  /-- The stored overlay with the edit is valid. -/
  valid : ∃ c, env.base.applyOverlay env.config (persisted.merge req.patch) = .ok c
  /-- The sections are stored. -/
  writes : List.Forall₂
    (fun sec => StoresSection env sec (sectionDoc (mergedValue persisted req.patch) sec))
    (changedSections req.patch) writes
  /-- Something is changed. -/
  changed : changedSections req.patch ≠ []
  /-- The running configuration takes the edit over. -/
  swap : anyRestart req.patch = true ∧ swap = [] ∨
    anyRestart req.patch = false ∧ ∃ s₁ s₂ hot,
      s₁.config.applyOverlay env.config req.patch = .ok hot ∧
      swap = [(s₁, s₁), (s₂, { s₂ with config := hot })]

theorem mergedOverlay_eq (persisted patch : SettingsOverlay) :
    mergedOverlay persisted patch = .ok (persisted.merge patch) := by
  rw [mergedOverlay, mergedValue, SettingsOverlay.fromValue_merge]

theorem path_applyEdit_ok {env : SettingsEnv} {req : PutConfigRequest} {merged : SettingsOverlay}
    {t : List (AppState × AppState)} {resp : PutConfigResponse}
    (h : (applyEdit env req merged).Path t (.ok resp)) :
    anyRestart req.patch = true ∧ t = [] ∨
    anyRestart req.patch = false ∧ ∃ s₁ s₂ hot,
      s₁.config.applyOverlay env.config req.patch = .ok hot ∧
      t = [(s₁, s₁), (s₂, { s₂ with config := hot })] := by
  unfold applyEdit at h
  cases hrestart : anyRestart req.patch with
  | true =>
    rw [hrestart, if_pos rfl] at h
    cases h
    exact .inl ⟨rfl, rfl⟩
  | false =>
    simp only [hrestart, Bool.false_eq_true, if_false] at h
    obtain ⟨t₁, t₂, running, rfl, hpeek, h₁⟩ := Prog.path_bind_ok h
    obtain ⟨s₁, rfl, hrunning⟩ := Prog.path_peek hpeek
    obtain rfl := Except.ok.inj hrunning
    obtain ⟨t₃, t₄, hot, rfl, hswap, h₂⟩ := Prog.path_bind_ok h₁
    obtain ⟨rfl, hhot⟩ := Prog.path_ofExcept hswap
    obtain ⟨t₅, t₆, u, rfl, hpoke, h₃⟩ := Prog.path_bind_ok h₂
    obtain ⟨s₂, rfl, -⟩ := Prog.path_poke hpoke
    cases h₃
    refine .inr ⟨rfl, s₁, s₂, hot, mapError_eq_ok_iff.mp hhot.symm, rfl⟩

theorem path_adminGuard_ok {env : AdminEnv} {bearer : Except AppError AdminTokenInfo}
    {t : List (AppState × AppState)} {ctx : AdminContext}
    (h : ((adminGuard env bearer).zoom AppState.world).Path t (.ok ctx)) : env.enabled = true := by
  cases hon : env.enabled with
  | true => rfl
  | false =>
    simp only [adminGuard, adminManager, hon, Bool.false_eq_true, if_false, Except.mapError,
      Prog.ofExcept_error, Prog.fail_bind, Prog.zoom] at h
    cases h

/-- **What an edit that succeeds does.** -/
theorem path_adminConfigPut_ok {env : SettingsEnv} {bearer : Except AppError AdminTokenInfo}
    {req : PutConfigRequest} {t : List (AppState × AppState)} {resp : PutConfigResponse}
    (h : (adminConfigPut env bearer req).Path t (.ok resp)) :
    env.admin.enabled = true ∧ ∃ guard s writes swap, t = guard ++ (s, s) :: (writes ++ swap) ∧
      (∀ x ∈ guard, x.2 = x.1) ∧
      PutPath env req (loadSettingsOverlay env s.db.operatorSettings.rows) writes swap := by
  obtain ⟨t₁, t₂, ctx, rfl, hguard, h₁⟩ := Prog.path_bind_ok h
  obtain ⟨t₃, t₄, persisted, rfl, hload, h₂⟩ := Prog.path_bind_ok h₁
  obtain ⟨t₅, t₆, merged, rfl, hmerge, h₃⟩ := Prog.path_bind_ok h₂
  obtain ⟨rfl, hmerged⟩ := Prog.path_ofExcept hmerge
  obtain ⟨t₇, t₈, c, rfl, hcheck, h₄⟩ := Prog.path_bind_ok h₃
  obtain ⟨rfl, hvalid⟩ := Prog.path_ofExcept hcheck
  -- the guard and the load only read
  have hguard' : ∀ x ∈ t₁, x.2 = x.1 := by
    intro x hx
    have hsame : AppState.world.get x.2 = AppState.world.get x.1 :=
      Prog.path_steps (R := fun w w' => w' = w) (fun _ => rfl) (steps_adminGuard env.admin bearer)
        (Prog.path_zoom hguard) _ (List.mem_map_of_mem hx)
    rw [Prog.path_zoom_rest hguard x hx, hsame]
    exact AppState.world.set_get x.1
  obtain ⟨s, rfl, hpersisted⟩ : ∃ s, t₃ = [(s, s)] ∧
      persisted = loadSettingsOverlay env s.db.operatorSettings.rows := by
    have hrest := Prog.path_zoom_rest hload
    obtain ⟨w, ht, hr⟩ := Prog.path_read (Prog.path_zoom hload)
    obtain ⟨x, rfl, hx⟩ := List.map_eq_singleton_iff.mp ht
    have hsame : x.2 = x.1 := by
      rw [hrest x (List.mem_singleton_self x), (Prod.mk.inj hx).2, ← (Prod.mk.inj hx).1]
      rfl
    refine ⟨x.1, ?_, ?_⟩
    · exact congrArg (fun y => [y]) (Prod.ext rfl hsame)
    · rcases hr with hr | hr
      · rw [Except.ok.inj hr, ← (Prod.mk.inj hx).1]
        rfl
      · cases hr
  rw [mergedOverlay_eq] at hmerged
  obtain rfl := Except.ok.inj hmerged
  subst hpersisted
  by_cases hchanged : (changedSections req.patch).isEmpty
  · rw [if_pos hchanged] at h₄
    cases h₄
  · rw [if_neg hchanged] at h₄
    obtain ⟨t₉, swap, u, rfl, hwrites, h₅⟩ := Prog.path_bind_ok h₄
    refine ⟨path_adminGuard_ok hguard, t₁, s, t₉, swap, by simp, hguard', ⟨c, hvalid.symm⟩, path_persistSections hwrites, ?_,
      path_applyEdit_ok h₅⟩
    intro hnil
    simp [hnil] at hchanged

theorem stored_of_chained {env : SettingsEnv} {doc : String → Json} {secs : List String}
    {writes : List (AppState × AppState)}
    (h : List.Forall₂ (fun sec => StoresSection env sec (doc sec)) secs writes) {s s' : AppState}
    (hchain : Prog.Chained s writes s') :
    DocsStored env secs doc s.db.operatorSettings s'.db.operatorSettings ∧ s'.config = s.config := by
  induction h generalizing s with
  | nil =>
    cases hchain
    exact ⟨.nil env doc _, rfl⟩
  | @cons sec x secs writes hx _ ih =>
    cases hchain with
    | cons hchain =>
      obtain ⟨hstored, hconfig⟩ := ih hchain
      have hfirst : DocsStored env [sec] doc _ _ := hx.stored.congr (by simp)
      exact ⟨hfirst.trans hstored, hconfig.trans hx.config⟩

/-- An edit that succeeds, alone. -/
theorem outcome_adminConfigPut_ok {env : SettingsEnv} {bearer : Except AppError AdminTokenInfo}
    {req : PutConfigRequest} {s s' : AppState} {resp : PutConfigResponse}
    (h : (adminConfigPut env bearer req).Outcome s (.ok resp) s') :
    env.admin.enabled = true ∧
    (∃ c, env.base.applyOverlay env.config
      ((loadSettingsOverlay env s.db.operatorSettings.rows).merge req.patch) = .ok c) ∧
    DocsStored env (changedSections req.patch)
      (sectionDoc (mergedValue (loadSettingsOverlay env s.db.operatorSettings.rows) req.patch))
      s.db.operatorSettings s'.db.operatorSettings ∧
    (anyRestart req.patch = true ∧ s'.config = s.config ∨
      anyRestart req.patch = false ∧
        s.config.applyOverlay env.config req.patch = .ok s'.config) := by
  obtain ⟨t, hpath, hchain⟩ := h.path
  obtain ⟨henabled, guard, s₁, writes, swap, rfl, hguard, hput⟩ := path_adminConfigPut_ok hpath
  obtain ⟨s₂, hchain₁, hchain₂⟩ := Prog.chained_append.mp hchain
  obtain rfl := Prog.chained_idle hchain₁ hguard
  cases hchain₂ with
  | cons hchain₂ =>
    obtain ⟨s₃, hchain₃, hchain₄⟩ := Prog.chained_append.mp hchain₂
    obtain ⟨hstored, hconfig⟩ := stored_of_chained hput.writes hchain₃
    rcases hput.swap with ⟨hrestart, rfl⟩ | ⟨hsafe, s₄, s₅, hot, hhot, rfl⟩
    · cases hchain₄
      exact ⟨henabled, hput.valid, hstored, .inl ⟨hrestart, hconfig⟩⟩
    · cases hchain₄ with
      | cons hchain₄ => cases hchain₄ with
        | cons hchain₄ =>
          cases hchain₄
          rw [hconfig] at hhot
          exact ⟨henabled, hput.valid, hstored, .inr ⟨hsafe, hhot⟩⟩

theorem config_of_failed_put {env : SettingsEnv} {bearer : Except AppError AdminTokenInfo}
    {req : PutConfigRequest} {s s' : AppState} {e : AppError}
    (h : (adminConfigPut env bearer req).Outcome s (.error e) s') : s'.config = s.config := by
  rcases outcome_adminConfigPut h with rfl | ⟨-, ctx, merged, doc, sec, rest, s₁, -, hconfig, hrest⟩
  · rfl
  rcases Prog.outcome_bind hrest with ⟨_, hwrites, -⟩ | ⟨u, s₂, hwrites, hedit⟩
  · exact (outcome_world hwrites).2.trans hconfig
  · obtain ⟨-, -, rfl⟩ := outcome_applyEdit_error.mp hedit
    exact (outcome_world hwrites).2.trans hconfig

/-! ### Reading the settings afterwards -/

/-- The sections that an edit leaves alone are read from their own rows. -/
def ReadsOthers (env : SettingsEnv) (t : Table OperatorSettingRow) (patch : SettingsOverlay) :
    Prop :=
  ∀ s : SettingsSection, s.name ∉ changedSections patch →
    ¬ Unreadable env t s ∧ (loadSettingsOverlay env t.rows).get s = ownEdit env t s

theorem docEdit_sectionDoc (persisted patch : SettingsOverlay) (s : SettingsSection) :
    docEdit s (sectionDoc (mergedValue persisted patch) s.name) =
      some ((persisted.merge patch).get s) := by
  rw [← persisted.readField_merge patch s, mergedValue, persisted.merge_toValue patch, sectionDoc]
  obtain ⟨doc, hdoc⟩ : ∃ doc,
      member (mergeMembers persisted.members patch.members) s.name = some doc := by
    rw [member_mergeMembers patch.nodup, persisted.member_members, patch.member_members]
    split <;> exact ⟨_, rfl⟩
  simp only [hdoc, Option.getD_some, docEdit, readField, member_cons, if_true]

/-- After an edit, the settings are read as the stored overlay with the edit. -/
theorem loadSettingsOverlay_stored {env : SettingsEnv} {t t' : Table OperatorSettingRow}
    {patch : SettingsOverlay} (hothers : ReadsOthers env t patch)
    (hstored : DocsStored env (changedSections patch)
      (sectionDoc (mergedValue (loadSettingsOverlay env t.rows) patch)) t t') :
    loadSettingsOverlay env t'.rows = (loadSettingsOverlay env t.rows).merge patch.touched ∧
      ∀ s, ¬ Unreadable env t' s := by
  have hreadable : ∀ s, ¬ Unreadable env t' s := by
    intro s hs
    obtain ⟨doc, hdoc, hread⟩ := unreadable_iff.mp hs
    rw [hstored s] at hdoc
    by_cases hchanged : s.name ∈ changedSections patch
    · rw [if_pos hchanged] at hdoc
      rw [← Option.some.inj hdoc, docEdit_sectionDoc] at hread
      cases hread
    · rw [if_neg hchanged] at hdoc
      exact (hothers s hchanged).1 (unreadable_iff.mpr ⟨doc, hdoc, hread⟩)
  refine ⟨SettingsOverlay.ext_get fun s => ?_, hreadable⟩
  rw [get_loadSettingsOverlay hreadable, ownEdit_eq, hstored s, SettingsOverlay.get_merge,
    SettingsOverlay.touched, SettingsOverlay.get_ofSections]
  by_cases hchanged : s.name ∈ changedSections patch
  · rw [if_pos hchanged, if_neg (mem_map_touchedSections.mp hchanged), Option.bind_some,
      docEdit_sectionDoc, Option.getD_some, SettingsOverlay.get_merge]
  · have huntouched : touchedFields (fieldValue (patch.get s)) = [] := by
      by_contra h
      exact hchanged (mem_map_touchedSections.mpr h)
    rw [if_neg hchanged, if_pos huntouched, ← ownEdit_eq, ← (hothers s hchanged).2]
    cases (loadSettingsOverlay env t.rows).get s <;> rfl

end SmirkBackend
