import SmirkBackend.Admin.RunningConfig
import SmirkBackend.Lib.Solo

/-!
# Concurrent edits

Operators edit the settings at the same time.  An edit stores each section that it changes as it
found it when it loaded the settings, with its own values, and replaces the running configuration by
the one it has read, with its own values.  So the values of the last edits are kept if nothing that
an edit has read and left alone has changed when it writes:

* `FreshEdits` : what must not have changed, read off what each write depends on.
* `concurrent_edits_kept` : fresh edits are kept (`EditsKept`), which compares every field that is
  stored or running with what the last write of its section said of it (`lastSaid`).
* `freshEdits_of_quietWindow` : edits are fresh if no other edit stores a section or takes effect
  between when an edit loads the settings and its last event.
-/

namespace SmirkBackend

open Lib (Table System Json Prog)
open Lib.Prog (Event eventsOf)

/-! ### What a write says -/

/-- The settings that are stored. -/
def storedOverlay (env : SettingsEnv) (s : AppState) : SettingsOverlay :=
  loadSettingsOverlay env s.db.operatorSettings.rows

/-- Every section can be read. -/
def Readable (env : SettingsEnv) (s : AppState) : Prop :=
  ∀ sec, ¬ Unreadable env s.db.operatorSettings sec

/-- A stored section can be read, and says what the edit says, and else what was loaded. -/
theorem storedOverlay_of_storesSection {env : SettingsEnv} {sec : String}
    {loaded patch : SettingsOverlay} {x : AppState × AppState}
    (h : StoresSection env sec (sectionDoc (mergedValue loaded patch) sec) x)
    (hread : Readable env x.1) :
    Readable env x.2 ∧ ∀ s : SettingsSection, (storedOverlay env x.2).get s =
      if s.name = sec then (loaded.merge patch).get s else (storedOverlay env x.1).get s := by
  have hreadable : Readable env x.2 := by
    intro s hs
    obtain ⟨doc, hdoc, hnone⟩ := unreadable_iff.mp hs
    rw [h.stored s] at hdoc
    by_cases hsec : s.name = sec
    · rw [if_pos (List.mem_singleton.mpr hsec)] at hdoc
      rw [← Option.some.inj hdoc, ← hsec, docEdit_sectionDoc] at hnone
      cases hnone
    · rw [if_neg fun h => hsec (List.mem_singleton.mp h)] at hdoc
      exact hread s (unreadable_iff.mpr ⟨doc, hdoc, hnone⟩)
  refine ⟨hreadable, fun s => ?_⟩
  rw [storedOverlay, get_loadSettingsOverlay hreadable, ownEdit_eq, h.stored s]
  by_cases hsec : s.name = sec
  · rw [if_pos (List.mem_singleton.mpr hsec), if_pos hsec, Option.bind_some, ← hsec,
      docEdit_sectionDoc, Option.getD_some]
  · rw [if_neg fun h => hsec (List.mem_singleton.mp h), if_neg hsec, ← ownEdit_eq,
      storedOverlay, get_loadSettingsOverlay hread]

/-- A write of a section that has not changed since it was loaded, but for the fields of the edit,
sets the fields of the edit. -/
theorem field_of_storesSection {env : SettingsEnv} {sec : String}
    {loaded patch : SettingsOverlay} {x : AppState × AppState}
    (h : StoresSection env sec (sectionDoc (mergedValue loaded patch) sec) x)
    (hread : Readable env x.1) (hfresh : ∀ name, patch.field sec name = none →
      (storedOverlay env x.1).field sec name = loaded.field sec name) (sec' name : String) :
    (storedOverlay env x.2).field sec' name =
      (if sec' = sec then patch.field sec' name else none).or
        ((storedOverlay env x.1).field sec' name) := by
  have hget := (storedOverlay_of_storesSection h hread).2
  by_cases hsec : sec' = sec
  · subst hsec
    have hmerge : (storedOverlay env x.2).field sec' name =
        (loaded.merge patch).field sec' name := by
      unfold SettingsOverlay.field
      cases hs : SettingsSection.named sec' with
      | none => rfl
      | some s =>
        rw [Option.bind_some, hget s, if_pos (SettingsSection.name_of_named hs), Option.bind_some]
    rw [hmerge, SettingsOverlay.field_merge, if_pos rfl]
    cases hfield : patch.field sec' name with
    | none => rw [Option.none_or, Option.none_or, hfresh name hfield]
    | some v => rfl
  · rw [if_neg hsec, Option.none_or]
    unfold SettingsOverlay.field
    cases hs : SettingsSection.named sec' with
    | none => rfl
    | some s =>
      rw [Option.bind_some, hget s, if_neg fun h => hsec ((SettingsSection.name_of_named hs).symm.trans h),
        Option.bind_some]

/-- The write of one section is an edit of that section. -/
theorem storedOverlay_eq_merge_only {env : SettingsEnv} {sec : String}
    {loaded patch : SettingsOverlay} {x : AppState × AppState}
    (h : StoresSection env sec (sectionDoc (mergedValue loaded patch) sec) x)
    (hchanged : sec ∈ changedSections patch)
    (hread : Readable env x.1) (hfresh : ∀ name, patch.field sec name = none →
      (storedOverlay env x.1).field sec name = loaded.field sec name) :
    storedOverlay env x.2 = (storedOverlay env x.1).merge (patch.only sec) := by
  refine SettingsOverlay.ext_get fun s => ?_
  have hget := (storedOverlay_of_storesSection h hread).2 s
  rw [SettingsOverlay.get_merge, SettingsOverlay.only, SettingsOverlay.get_ofSections]
  by_cases hsec : s.name = sec
  · rw [if_pos hsec] at hget ⊢
    subst hsec
    have htouched := mem_map_touchedSections.mp hchanged
    rw [SettingsOverlay.get_merge] at hget
    cases hedit : patch.get s with
    | none => simp [hedit, fieldValue, touchedFields] at htouched
    | some p =>
      rw [hget, hedit]
      refine mergeEdit_congr fun name hfield => ?_
      rw [← SettingsOverlay.field_name, ← SettingsOverlay.field_name]
      refine (hfresh name ?_).symm
      rw [SettingsOverlay.field_name, hedit, hfield]
  · rw [if_neg hsec] at hget ⊢
    rw [hget]
    cases (storedOverlay env x.1).get s <;> rfl

/-! ### The events of an edit -/

/-- An edit and who sends it. -/
structure ConfigEdit where
  /-- What the header and the token's signature say. -/
  bearer : Except AppError AdminTokenInfo
  /-- The edit. -/
  req : PutConfigRequest

namespace ConfigEdit

/-- The fields of an edit. -/
def patch (edit : ConfigEdit) : SettingsOverlay := edit.req.patch

/-- The handler. -/
def handler (env : SettingsEnv) (edit : ConfigEdit) : Prog AppState AppError PutConfigResponse :=
  adminConfigPut env edit.bearer edit.req

/-- The edit takes effect at once. -/
def Immediate (edit : ConfigEdit) : Prop := anyRestart edit.patch = false

instance : DecidablePred Immediate := fun edit => decEq (anyRestart edit.patch) false

end ConfigEdit

/-- A change of the instance stores a section. -/
def Stores (x : AppState × AppState) : Prop := ∃ sec, StoresAt sec x

/-- The settings were loaded from this state: it is the last one before the first section is
stored. -/
def Loads (t : List (AppState × AppState)) (s : AppState) : Prop :=
  ∃ before x after, t = before ++ (s, s) :: x :: after ∧ (∀ y ∈ before, ¬ Stores y) ∧ Stores x

/-- The events of an edit that succeeds. -/
structure EditTrace (env : SettingsEnv) (edit : ConfigEdit) (t : List (AppState × AppState))
    (s : AppState) (writes swap : List (AppState × AppState)) : Prop where
  /-- It is admitted and loads the settings; it stores its sections; it takes effect. -/
  split : ∃ guard, t = (guard ++ [(s, s)]) ++ (writes ++ swap) ∧ ∀ x ∈ guard, x.2 = x.1
  /-- What it stores and how it takes effect. -/
  put : PutPath env edit.req (storedOverlay env s) writes swap

theorem editTrace_of_path {env : SettingsEnv} {edit : ConfigEdit} {t : List (AppState × AppState)}
    {resp : PutConfigResponse} (h : (edit.handler env).Path t (.ok resp)) :
    ∃ s writes swap, EditTrace env edit t s writes swap := by
  obtain ⟨-, guard, s, writes, swap, rfl, hguard, hput⟩ := path_adminConfigPut_ok h
  exact ⟨s, writes, swap, ⟨guard, by simp, hguard⟩, hput⟩

theorem not_stores_of_eq {x : AppState × AppState} (h : x.2 = x.1) : ¬ Stores x := by
  rintro ⟨sec, hsec⟩
  exact hsec (by rw [h])

theorem not_storesAt_of_settings {x : AppState × AppState}
    (h : x.2.db.operatorSettings = x.1.db.operatorSettings) (sec : String) : ¬ StoresAt sec x := by
  intro hstores
  exact hstores (by rw [Db.settingVersion, Db.settingVersion, h])

theorem PutPath.not_stores_swap {env : SettingsEnv} {req : PutConfigRequest}
    {persisted : SettingsOverlay} {writes swap : List (AppState × AppState)}
    (h : PutPath env req persisted writes swap) {x : AppState × AppState} (hx : x ∈ swap) :
    ¬ Stores x := by
  rintro ⟨sec, hsec⟩
  rcases h.swap with ⟨-, rfl⟩ | ⟨-, s₁, s₂, hot, -, rfl⟩
  · cases hx
  · refine not_storesAt_of_settings ?_ sec hsec
    simp only [List.mem_cons, List.not_mem_nil, or_false] at hx
    rcases hx with rfl | rfl <;> rfl

namespace EditTrace

variable {env : SettingsEnv} {edit : ConfigEdit} {t : List (AppState × AppState)} {s : AppState}
  {writes swap : List (AppState × AppState)}

theorem writes_ne_nil (h : EditTrace env edit t s writes swap) : writes ≠ [] := by
  rintro rfl
  exact h.put.changed (List.forall₂_nil_right_iff.mp h.put.writes)

theorem mem_writes (h : EditTrace env edit t s writes swap) {x : AppState × AppState}
    (hx : x ∈ writes) : ∃ sec ∈ changedSections edit.patch,
      StoresSection env sec (sectionDoc (mergedValue (storedOverlay env s) edit.patch) sec) x := by
  obtain ⟨n, hn, rfl⟩ := List.getElem_of_mem hx
  have hlen := h.put.writes.length_eq
  exact ⟨_, List.getElem_mem (hlen ▸ hn), List.forall₂_iff_get.mp h.put.writes |>.2 n (hlen ▸ hn) hn⟩

theorem exists_write (h : EditTrace env edit t s writes swap) {sec : String}
    (hsec : sec ∈ changedSections edit.patch) : ∃ x ∈ t, StoresAt sec x := by
  obtain ⟨n, hn, rfl⟩ := List.getElem_of_mem hsec
  have hlen := h.put.writes.length_eq
  have hstore := List.forall₂_iff_get.mp h.put.writes |>.2 n hn (hlen ▸ hn)
  obtain ⟨guard, rfl, -⟩ := h.split
  refine ⟨_, ?_, (hstore.version _).mpr rfl⟩
  exact List.mem_append_right _ (List.mem_append_left _ (List.getElem_mem _))

theorem loads (h : EditTrace env edit t s writes swap) : Loads t s := by
  obtain ⟨guard, rfl, hguard⟩ := h.split
  obtain ⟨x, rest, rfl⟩ := List.exists_cons_of_ne_nil h.writes_ne_nil
  obtain ⟨sec, -, hstore⟩ := h.mem_writes (List.mem_cons_self)
  refine ⟨guard, x, rest ++ swap, by simp, fun y hy => not_stores_of_eq (hguard y hy), sec, ?_⟩
  exact (hstore.version sec).mpr rfl

theorem mem_of_stores (h : EditTrace env edit t s writes swap) {x : AppState × AppState}
    (hx : x ∈ t) (hstores : Stores x) : x ∈ writes := by
  obtain ⟨guard, rfl, hguard⟩ := h.split
  simp only [List.mem_append, List.mem_singleton] at hx
  rcases hx with (hx | rfl) | hx | hx
  · exact absurd hstores (not_stores_of_eq (hguard x hx))
  · exact absurd hstores (not_stores_of_eq rfl)
  · exact hx
  · exact absurd hstores (h.put.not_stores_swap hx)

end EditTrace

/-- What an event of an edit does. -/
inductive EditEvent (env : SettingsEnv) (edit : ConfigEdit) (s : AppState)
    (before : List (AppState × AppState)) (x : AppState × AppState)
    (after : List (AppState × AppState)) : Prop
  /-- It reads. -/
  | idle : x.2 = x.1 → (edit.Immediate → after ≠ []) → EditEvent env edit s before x after
  /-- It stores a section. -/
  | store (sec : String) : sec ∈ changedSections edit.patch →
      StoresSection env sec (sectionDoc (mergedValue (storedOverlay env s) edit.patch) sec) x →
      (edit.Immediate → after ≠ []) → EditEvent env edit s before x after
  /-- It replaces the running configuration. -/
  | swap (rest : List (AppState × AppState)) (read : AppState) (hot : Config) :
      edit.Immediate → before = rest ++ [(read, read)] →
      read.config.applyOverlay env.config edit.patch = .ok hot →
      x.2 = { x.1 with config := hot } → after = [] → EditEvent env edit s before x after

theorem EditTrace.event {env : SettingsEnv} {edit : ConfigEdit} {s : AppState}
    {writes swap before after : List (AppState × AppState)} {x : AppState × AppState}
    (h : EditTrace env edit (before ++ x :: after) s writes swap) :
    EditEvent env edit s before x after := by
  obtain ⟨guard, ht, hguard⟩ := h.split
  rcases Lib.split_append ht with ⟨l, hl, rfl⟩ | ⟨l, hbefore, hl⟩
  · have hmem : x ∈ guard ++ [(s, s)] := hl ▸ by simp
    refine .idle ?_ fun _ => by simp [h.writes_ne_nil]
    rcases List.mem_append.mp hmem with hx | hx
    · exact hguard x hx
    · rw [List.mem_singleton.mp hx]
  · rcases Lib.split_append hl.symm with ⟨l', rfl, rfl⟩ | ⟨l', rfl, hswap⟩
    · obtain ⟨sec, hsec, hstore⟩ := h.mem_writes (x := x) (by simp)
      refine .store sec hsec hstore fun himmediate => ?_
      rcases h.put.swap with ⟨hrestart, -⟩ | ⟨-, s₁, s₂, hot, -, rfl⟩
      · exact absurd (himmediate.symm.trans hrestart) (by decide)
      · simp
    · rcases h.put.swap with ⟨-, rfl⟩ | ⟨himmediate, s₁, s₂, hot, happly, rfl⟩
      · simp at hswap
      · cases l' with
        | nil =>
          obtain ⟨rfl, rfl⟩ := List.cons.inj hswap
          exact .idle rfl fun _ => by simp
        | cons y l' =>
          obtain ⟨rfl, hlast⟩ := List.cons.inj hswap
          cases l' with
          | nil =>
            obtain ⟨rfl, rfl⟩ := List.cons.inj hlast
            exact .swap (guard ++ [(s, s)] ++ writes) s₁ hot himmediate (by simp [hbefore]) happly
              rfl rfl
          | cons z l' => simp at hlast

/-! ### What is said of a field -/

section

variable {ι : Type}

/-- What an event says of a field: it stores the section, and the edit sets the field. -/
def saidAt (patch : ι → SettingsOverlay) (sec name : String) (e : Event ι AppState) :
    Option Json :=
  e.who.bind fun i => if StoresAt sec (e.pre, e.post) then (patch i).field sec name else none

/-- What the last write of a section said of a field. -/
def lastSaid (patch : ι → SettingsOverlay) (sec name : String) (es : List (Event ι AppState)) :
    Option Json :=
  (es.filterMap (saidAt patch sec name)).getLast?

theorem lastSaid_append_singleton (patch : ι → SettingsOverlay) (sec name : String)
    (es : List (Event ι AppState)) (e : Event ι AppState) :
    lastSaid patch sec name (es ++ [e]) =
      (saidAt patch sec name e).or (lastSaid patch sec name es) := by
  unfold lastSaid
  cases h : saidAt patch sec name e <;> simp [h]

theorem lastSaid_congr {patch patch' : ι → SettingsOverlay} {sec name : String}
    {es : List (Event ι AppState)} (h : ∀ e ∈ es, ∀ i, e.who = some i →
      (patch i).field sec name = (patch' i).field sec name) :
    lastSaid patch sec name es = lastSaid patch' sec name es := by
  unfold lastSaid
  rw [List.filterMap_congr fun e he => ?_]
  unfold saidAt
  cases hwho : e.who with
  | none => rfl
  | some i => simp only [Option.bind_some, h e he i hwho]

theorem lastSaid_eq_some {patch : ι → SettingsOverlay} {sec name : String}
    {l₁ l₂ : List (Event ι AppState)} {e : Event ι AppState} {v : Json}
    (hsaid : saidAt patch sec name e = some v)
    (hlater : ∀ y ∈ l₂, ∀ w, saidAt patch sec name y = some w → w = v) :
    lastSaid patch sec name (l₁ ++ e :: l₂) = some v := by
  unfold lastSaid
  rw [List.filterMap_append, List.filterMap_cons_some hsaid, List.getLast?_append]
  have hlast := List.getLast?_eq_some_getLast (List.cons_ne_nil v (l₂.filterMap (saidAt patch sec name)))
  rw [hlast, Option.some_or, Option.some.injEq]
  rcases List.mem_cons.mp (List.getLast_mem (List.cons_ne_nil v _)) with h | h
  · exact h
  · obtain ⟨y, hy, hw⟩ := List.mem_filterMap.mp h
    exact hlater y hy _ hw

theorem saidAt_of_not_storesAt {patch : ι → SettingsOverlay} {sec name : String}
    {e : Event ι AppState} (h : ¬ StoresAt sec (e.pre, e.post)) : saidAt patch sec name e = none := by
  unfold saidAt
  cases e.who with
  | none => rfl
  | some i => rw [Option.bind_some, if_neg h]

/-- What an edit changes in the running configuration. -/
def ConfigEdit.effect (env : SettingsEnv) (edit : ConfigEdit) : SettingsOverlay :=
  if edit.Immediate then edit.patch.normalise env.config else .default

/-- The values of the last edits are kept. -/
structure EditsKept (env : SettingsEnv) (edit : ι → ConfigEdit) (s₀ : AppState)
    (es : List (Event ι AppState)) (s : AppState) : Prop where
  /-- The last value of each field is stored. -/
  stored : ∀ sec name, (storedOverlay env s).field sec name =
    (lastSaid (fun i => (edit i).patch) sec name es).or ((storedOverlay env s₀).field sec name)
  /-- What is stored is valid. -/
  valid : ∃ c, env.base.applyOverlay env.config (storedOverlay env s) = .ok c
  /-- The last value that takes effect at once is running. -/
  running : ∀ sec name, s.config.editableOverlay.field sec name =
    (lastSaid (fun i => (edit i).effect env) sec name es).or
      (s₀.config.editableOverlay.field sec name)

variable [DecidableEq ι]

/-- All events of an edit are past. -/
def EditEnded (es past : List (Event ι AppState)) (i : ι) : Prop := eventsOf i past = eventsOf i es

/-- Nothing that an edit has read has changed when it writes. -/
structure FreshEdits (env : SettingsEnv) (edit : ι → ConfigEdit) (es : List (Event ι AppState)) :
    Prop where
  /-- When a section is stored, its fields that the edit leaves alone are as they were loaded. -/
  fields : ∀ i s x sec name, Loads (eventsOf i es) s → x ∈ eventsOf i es → StoresAt sec x →
    (edit i).patch.field sec name = none →
      (storedOverlay env x.1).field sec name = (storedOverlay env s).field sec name
  /-- When the last section is stored, what is then stored is what the edit has checked, or the
  check would succeed on it. -/
  checked : ∀ i s before x after sec, Loads (eventsOf i es) s →
    eventsOf i es = before ++ x :: after → StoresAt sec x → (∀ y ∈ after, ¬ Stores y) →
    (storedOverlay env x.1).merge ((edit i).patch.only sec) ≠
      (storedOverlay env s).merge (edit i).patch →
      ∃ c, env.base.applyOverlay env.config
        ((storedOverlay env x.1).merge ((edit i).patch.only sec)) = .ok c
  /-- When an edit takes effect, the fields that it leaves alone are as it has read them. -/
  running : ∀ i before read x, (edit i).Immediate →
    eventsOf i es = before ++ [(read, read), x] → ∀ sec name, (edit i).patch.field sec name = none →
      x.1.config.editableOverlay.field sec name = read.config.editableOverlay.field sec name
  /-- Of two edits of a field, the one that stores it first takes effect first. -/
  order : ∀ i j sec name past e rest, es = past ++ e :: rest → e.who = some j →
    StoresAt sec (e.pre, e.post) → (∃ x ∈ eventsOf i past, StoresAt sec x) →
    ((edit i).effect env).field sec name ≠ none → ((edit j).effect env).field sec name ≠ none →
      ∀ before, before <+: es → EditEnded es before j → EditEnded es before i

/-! ### What holds during a run -/

open Classical in
/-- What the edits that have taken effect change in the running configuration. -/
noncomputable def effectSoFar (env : SettingsEnv) (edit : ι → ConfigEdit)
    (es past : List (Event ι AppState)) (i : ι) : SettingsOverlay :=
  if EditEnded es past i then (edit i).effect env else .default

/-- What holds after some events. -/
structure KeptSoFar (env : SettingsEnv) (edit : ι → ConfigEdit) (s₀ : AppState)
    (es past : List (Event ι AppState)) (s : AppState) : Prop where
  /-- Every section can be read. -/
  readable : Readable env s
  /-- The last value of each field is stored. -/
  stored : ∀ sec name, (storedOverlay env s).field sec name =
    (lastSaid (fun i => (edit i).patch) sec name past).or ((storedOverlay env s₀).field sec name)
  /-- Of the edits that have taken effect, the last value is running. -/
  running : ∀ sec name, s.config.editableOverlay.field sec name =
    (lastSaid (effectSoFar env edit es past) sec name past).or
      (s₀.config.editableOverlay.field sec name)

theorem effectSoFar_append {env : SettingsEnv} {edit : ι → ConfigEdit}
    {es past : List (Event ι AppState)} {e : Event ι AppState}
    (h : ∀ i, e.who = some i → (edit i).Immediate → ¬ EditEnded es (past ++ [e]) i)
    (hbefore : ∀ i, e.who = some i → ¬ EditEnded es past i) :
    effectSoFar env edit es (past ++ [e]) = effectSoFar env edit es past := by
  funext k
  by_cases hk : e.who = some k
  · unfold effectSoFar
    rw [if_neg (hbefore k hk)]
    split_ifs with hended
    · rw [ConfigEdit.effect, if_neg fun himmediate => h k hk himmediate hended]
    · rfl
  · have hevents : eventsOf k (past ++ [e]) = eventsOf k past := by simp [eventsOf, hk]
    rw [effectSoFar, effectSoFar, EditEnded, EditEnded, hevents]

/-- An event that leaves settings and configuration alone keeps everything. -/
theorem KeptSoFar.idle {env : SettingsEnv} {edit : ι → ConfigEdit} {s₀ : AppState}
    {es past : List (Event ι AppState)} {e : Event ι AppState}
    (hs : KeptSoFar env edit s₀ es past e.pre) (hsame : SameSettings e.pre e.post)
    (heffect : effectSoFar env edit es (past ++ [e]) = effectSoFar env edit es past) :
    KeptSoFar env edit s₀ es (past ++ [e]) e.post := by
  have hsilent : ∀ (patch : ι → SettingsOverlay) sec name, saidAt patch sec name e = none :=
    fun _ sec _ => saidAt_of_not_storesAt (not_storesAt_of_settings hsame.1 sec)
  refine ⟨?_, fun sec name => ?_, fun sec name => ?_⟩
  · intro sec
    rw [hsame.1]
    exact hs.readable sec
  · rw [lastSaid_append_singleton, hsilent, Option.none_or, storedOverlay, hsame.1]
    exact hs.stored sec name
  · rw [lastSaid_append_singleton, hsilent, Option.none_or, hsame.2, heffect]
    exact hs.running sec name

/-- A section that is stored keeps everything, if its other fields are as they were loaded. -/
theorem KeptSoFar.store {env : SettingsEnv} {edit : ι → ConfigEdit} {s₀ : AppState}
    {es past : List (Event ι AppState)} {e : Event ι AppState} {i : ι} {loaded : AppState}
    {sec : String} (hs : KeptSoFar env edit s₀ es past e.pre) (hwho : e.who = some i)
    (hstore : StoresSection env sec
      (sectionDoc (mergedValue (storedOverlay env loaded) (edit i).patch) sec) (e.pre, e.post))
    (hfresh : ∀ name, (edit i).patch.field sec name = none →
      (storedOverlay env e.pre).field sec name = (storedOverlay env loaded).field sec name)
    (hended : ¬ EditEnded es past i)
    (heffect : effectSoFar env edit es (past ++ [e]) = effectSoFar env edit es past) :
    KeptSoFar env edit s₀ es (past ++ [e]) e.post := by
  refine ⟨(storedOverlay_of_storesSection hstore hs.readable).1, fun sec' name => ?_,
    fun sec' name => ?_⟩
  · have hfield := field_of_storesSection hstore hs.readable hfresh sec' name
    have hsaid : saidAt (fun i => (edit i).patch) sec' name e =
        if sec' = sec then (edit i).patch.field sec' name else none := by
      simp only [saidAt, hwho, Option.bind_some, hstore.version sec']
    rw [lastSaid_append_singleton, hsaid, Option.or_assoc, ← hs.stored sec' name]
    exact hfield
  · have hsilent : saidAt (effectSoFar env edit es past) sec' name e = none := by
      simp [saidAt, hwho, effectSoFar, hended]
    rw [lastSaid_append_singleton, heffect, hsilent, Option.none_or]
    rw [show e.post.config = e.pre.config from hstore.config]
    exact hs.running sec' name

theorem eventsOf_last {es past rest : List (Event ι AppState)} {e : Event ι AppState} {i : ι}
    (hes : es = past ++ e :: rest) (hwho : e.who = some i) (hlast : eventsOf i rest = []) :
    eventsOf i es = eventsOf i past ++ [(e.pre, e.post)] := by
  rw [hes, Prog.eventsOf_append, Prog.eventsOf_cons_self hwho, hlast]

theorem not_editEnded_of_event {es past rest : List (Event ι AppState)} {e : Event ι AppState} {i : ι}
    (hes : es = past ++ e :: rest) (hwho : e.who = some i) : ¬ EditEnded es past i := by
  intro h
  rw [EditEnded, hes, Prog.eventsOf_append, Prog.eventsOf_cons_self hwho] at h
  have hlength := congrArg List.length h
  simp at hlength

/-- When an edit takes effect, its values are the last ones, if no edit that has stored one of its
fields later has taken effect. -/
theorem lastSaid_swap {env : SettingsEnv} {edit : ι → ConfigEdit}
    {es past rest : List (Event ι AppState)} {e : Event ι AppState} {i : ι} {sec name : String}
    (hes : es = past ++ e :: rest) (hwho : e.who = some i) (hlast : eventsOf i rest = [])
    (hwritten : (((edit i).effect env).field sec name).isSome →
      ∃ x ∈ eventsOf i past, StoresAt sec x)
    (horder : ∀ j past₁ y rest₁, es = past₁ ++ y :: rest₁ → y.who = some j →
      StoresAt sec (y.pre, y.post) → (∃ x ∈ eventsOf i past₁, StoresAt sec x) →
      ((edit i).effect env).field sec name ≠ none → ((edit j).effect env).field sec name ≠ none →
        EditEnded es past j → EditEnded es past i) :
    lastSaid (effectSoFar env edit es (past ++ [e])) sec name past =
      (((edit i).effect env).field sec name).or
        (lastSaid (effectSoFar env edit es past) sec name past) := by
  have hnot : ¬ EditEnded es past i := not_editEnded_of_event hes hwho
  have hself : effectSoFar env edit es (past ++ [e]) i = (edit i).effect env := by
    rw [effectSoFar, if_pos]
    rw [EditEnded, eventsOf_last hes hwho hlast, Prog.eventsOf_append, Prog.eventsOf_cons_self hwho]
    rfl
  have hothers : ∀ k, k ≠ i → effectSoFar env edit es (past ++ [e]) k =
      effectSoFar env edit es past k := by
    intro k hk
    have hsame : eventsOf k (past ++ [e]) = eventsOf k past := by
      simp [eventsOf, hwho, Ne.symm hk]
    rw [effectSoFar, effectSoFar, EditEnded, EditEnded, hsame]
  cases hfield : ((edit i).effect env).field sec name with
  | none =>
    rw [Option.none_or]
    refine lastSaid_congr fun y hy k hk => ?_
    by_cases hki : k = i
    · subst hki
      rw [hself, hfield, effectSoFar, if_neg hnot, SettingsOverlay.field_default]
    · rw [hothers k hki]
  | some v =>
    -- the write of the section is past, and whoever wrote it later has not taken effect
    obtain ⟨x, hx, hstores⟩ := hwritten (by rw [hfield]; rfl)
    obtain ⟨w, hw, hwhow, rfl⟩ := Prog.mem_eventsOf.mp hx
    obtain ⟨l₁, l₂, rfl⟩ := List.append_of_mem hw
    have hsaid : saidAt (effectSoFar env edit es (l₁ ++ w :: l₂ ++ [e])) sec name w = some v := by
      rw [saidAt, hwhow, Option.bind_some, if_pos hstores, hself, hfield]
    rw [lastSaid_eq_some hsaid, Option.some_or]
    intro y hy u hu
    obtain ⟨k, hk, hvalue⟩ := Option.bind_eq_some_iff.mp hu
    split_ifs at hvalue with hstoresy
    by_cases hki : k = i
    · subst hki
      rw [hself, hfield] at hvalue
      exact (Option.some.inj hvalue).symm
    · exfalso
      rw [hothers k hki, effectSoFar] at hvalue
      split_ifs at hvalue with hended
      · obtain ⟨l₃, l₄, rfl⟩ := List.append_of_mem hy
        refine hnot (horder k (l₁ ++ w :: l₃) y (l₄ ++ e :: rest) (by simp [hes]) hk
          hstoresy ⟨_, Prog.mem_eventsOf.mpr ⟨w, by simp, hwhow, rfl⟩, hstores⟩ ?_ ?_ hended)
        · simp [hfield]
        · simp [hvalue]
      · simp at hvalue

/-- A running configuration that is replaced keeps everything, if its other fields are as the edit
has read them and the values of the edit are the last ones. -/
theorem KeptSoFar.swap {env : SettingsEnv} {edit : ι → ConfigEdit} {s₀ : AppState}
    {es past : List (Event ι AppState)} {e : Event ι AppState} {i : ι} {read : AppState}
    {hot : Config} (hs : KeptSoFar env edit s₀ es past e.pre) (himmediate : (edit i).Immediate)
    (happly : read.config.applyOverlay env.config (edit i).patch = .ok hot)
    (hpost : e.post = { e.pre with config := hot })
    (hfresh : ∀ sec name, (edit i).patch.field sec name = none →
      e.pre.config.editableOverlay.field sec name = read.config.editableOverlay.field sec name)
    (hlast : ∀ sec name, lastSaid (effectSoFar env edit es (past ++ [e])) sec name past =
      (((edit i).effect env).field sec name).or
        (lastSaid (effectSoFar env edit es past) sec name past)) :
    KeptSoFar env edit s₀ es (past ++ [e]) e.post := by
  have hsettings : e.post.db.operatorSettings = e.pre.db.operatorSettings := by rw [hpost]
  have hsilent : ∀ (patch : ι → SettingsOverlay) sec name, saidAt patch sec name e = none :=
    fun _ sec _ => saidAt_of_not_storesAt (not_storesAt_of_settings hsettings sec)
  obtain ⟨hedited, -⟩ := Config.applyOverlay_eq_ok_iff.mp happly
  have heffect : (edit i).effect env = (edit i).patch.normalise env.config := if_pos himmediate
  refine ⟨?_, fun sec name => ?_, fun sec name => ?_⟩
  · intro sec
    rw [hsettings]
    exact hs.readable sec
  · rw [lastSaid_append_singleton, hsilent, Option.none_or, storedOverlay, hsettings]
    exact hs.stored sec name
  · rw [lastSaid_append_singleton, hsilent, Option.none_or, hlast, Option.or_assoc,
      ← hs.running sec name, hpost]
    show hot.editableOverlay.field sec name = _
    rw [Config.editableOverlay_edited hedited, SettingsOverlay.field_merge, ← heffect]
    cases hfield : ((edit i).effect env).field sec name with
    | some v => rfl
    | none =>
      rw [heffect] at hfield
      have hsome := (edit i).patch.isSome_field_normalise env.config sec name
      rw [hfield] at hsome
      rw [Option.none_or, Option.none_or,
        hfresh sec name (Option.not_isSome_iff_eq_none.mp (by simp [← hsome]))]

/-! ### Runs of fresh edits -/

/-- Every edit of a run succeeds. -/
def AllTraced (env : SettingsEnv) (edit : ι → ConfigEdit) (es : List (Event ι AppState)) : Prop :=
  ∀ i, ∃ s writes swap, EditTrace env (edit i) (eventsOf i es) s writes swap

theorem allTraced_of_run {env : SettingsEnv} {edit : ι → ConfigEdit} {s₀ : AppState}
    {es : List (Event ι AppState)} {c : AppState × (ι → Prog AppState AppError PutConfigResponse)}
    (hrun : (Prog.pool SameSettings).Run (s₀, fun i => (edit i).handler env) es c)
    (hok : ∀ i, ∃ resp, c.2 i = .ret resp) : AllTraced env edit es := by
  intro i
  obtain ⟨resp, hresp⟩ := hok i
  have hpath := Prog.path_of_run hrun i (t := []) (r := .ok resp) (by rw [hresp]; exact .ret resp)
  rw [List.append_nil] at hpath
  exact editTrace_of_path hpath

/-- An event keeps what holds after the events before it. -/
theorem keptSoFar_step {env : SettingsEnv} {edit : ι → ConfigEdit} {s₀ : AppState}
    {es past rest : List (Event ι AppState)} {e : Event ι AppState} (hes : es = past ++ e :: rest)
    (htraced : AllTraced env edit es) (hfresh : FreshEdits env edit es)
    (hothers : e.who = none → SameSettings e.pre e.post)
    (hs : KeptSoFar env edit s₀ es past e.pre) :
    KeptSoFar env edit s₀ es (past ++ [e]) e.post := by
  cases hwho : e.who with
  | none => exact hs.idle (hothers hwho) (effectSoFar_append (by simp [hwho]) (by simp [hwho]))
  | some i =>
    have hsplit : eventsOf i es = eventsOf i past ++ (e.pre, e.post) :: eventsOf i rest := by
      rw [hes, Prog.eventsOf_append, Prog.eventsOf_cons_self hwho]
    have hnot : ¬ EditEnded es past i := not_editEnded_of_event hes hwho
    have heffect : ((edit i).Immediate → eventsOf i rest ≠ []) →
        effectSoFar env edit es (past ++ [e]) = effectSoFar env edit es past := by
      intro hafter
      refine effectSoFar_append (fun k hk himmediate hended => ?_) fun k hk => ?_
      · obtain rfl := Option.some.inj (hwho.symm.trans hk)
        rw [EditEnded, hsplit, Prog.eventsOf_append, Prog.eventsOf_cons_self hwho] at hended
        exact hafter himmediate (by simpa [eventsOf] using hended.symm)
      · obtain rfl := Option.some.inj (hwho.symm.trans hk)
        exact hnot
    obtain ⟨s, writes, swap, htrace⟩ := htraced i
    rw [hsplit] at htrace
    cases htrace.event with
    | idle hsame hafter =>
      obtain hsame : e.post = e.pre := hsame
      exact hs.idle ⟨by rw [hsame], by rw [hsame]⟩ (heffect hafter)
    | store sec hsec hstore hafter =>
      refine hs.store hwho hstore (fun name hname => ?_) hnot (heffect hafter)
      rw [← hsplit] at htrace
      exact hfresh.fields i s (e.pre, e.post) sec name htrace.loads (by rw [hsplit]; simp)
        ((hstore.version sec).mpr rfl) hname
    | swap before read hot himmediate hbefore happly hpost hlast =>
      refine hs.swap himmediate happly hpost (fun sec name hname => ?_) fun sec name => ?_
      · refine hfresh.running i before read (e.pre, e.post) himmediate ?_ sec name hname
        rw [hsplit, hlast, hbefore]
        simp
      · refine lastSaid_swap hes hwho hlast (fun hsome => ?_) ?_
        · have hsec : sec ∈ changedSections (edit i).patch := by
            rw [ConfigEdit.effect, if_pos himmediate,
              SettingsOverlay.isSome_field_normalise env.config] at hsome
            obtain ⟨fields, hmem, -⟩ := mem_touchedSections.mpr hsome
            exact List.mem_map.mpr ⟨_, hmem, rfl⟩
          obtain ⟨x, hx, hstores⟩ := htrace.exists_write hsec
          rw [hlast, List.mem_append, List.mem_singleton] at hx
          refine ⟨x, hx.resolve_right ?_, hstores⟩
          rintro rfl
          refine not_storesAt_of_settings ?_ sec hstores
          rw [hpost]
        · intro j past₁ y rest₁ hy hj hstores hearlier hi hjsays
          exact hfresh.order i j sec name past₁ y rest₁ hy hj hstores hearlier hi hjsays past
            (hes ▸ List.prefix_append past _)

theorem keptSoFar_of_run {env : SettingsEnv} {edit : ι → ConfigEdit} {s₀ : AppState}
    {es : List (Event ι AppState)} (htraced : AllTraced env edit es) (hread : Readable env s₀) (hfresh : FreshEdits env edit es)
    {past rest : List (Event ι AppState)} (hes : es = past ++ rest)
    {c₁ : AppState × (ι → Prog AppState AppError PutConfigResponse)}
    (hpast : (Prog.pool SameSettings).Run (s₀, fun i => (edit i).handler env) past c₁) :
    KeptSoFar env edit s₀ es past c₁.1 := by
  refine hpast.history (I := fun past c => past <+: es → KeptSoFar env edit s₀ es past c.1)
    (fun _ => ?_) ?_ (hes ▸ List.prefix_append past rest)
  · exact ⟨hread, fun _ _ => rfl, fun _ _ => rfl⟩
  · rintro past c₁ e c₂ ⟨hpre, hpost, hwho⟩ ih ⟨rest, hes⟩
    rw [hpost]
    have hsplit : es = past ++ e :: rest := by rw [← hes]; simp
    refine keptSoFar_step hsplit htraced hfresh (fun hnone => ?_) ?_
    · rw [hnone] at hwho
      exact hwho.1
    · rw [← hpre]
      exact ih ⟨e :: rest, by rw [← hes]; simp⟩

theorem settings_of_event {env : SettingsEnv} {edit : ι → ConfigEdit}
    {es past rest : List (Event ι AppState)} {e : Event ι AppState} (hes : es = past ++ e :: rest)
    (htraced : AllTraced env edit es) (hothers : e.who = none → SameSettings e.pre e.post)
    (h : ¬ Stores (e.pre, e.post)) : e.post.db.operatorSettings = e.pre.db.operatorSettings := by
  cases hwho : e.who with
  | none => exact (hothers hwho).1
  | some i =>
    obtain ⟨s, writes, swap, htrace⟩ := htraced i
    rw [hes, Prog.eventsOf_append, Prog.eventsOf_cons_self hwho] at htrace
    cases htrace.event with
    | idle hsame => rw [show e.post = e.pre from hsame]
    | store sec _ hstore => exact absurd ⟨sec, (hstore.version sec).mpr rfl⟩ h
    | swap _ _ _ _ _ _ hpost => rw [show e.post = _ from hpost]

/-- What fresh edits store is valid, if there are any. -/
theorem valid_of_run [Nonempty ι] {env : SettingsEnv} {edit : ι → ConfigEdit} {s₀ : AppState}
    {es : List (Event ι AppState)} {c : AppState × (ι → Prog AppState AppError PutConfigResponse)}
    (hrun : (Prog.pool SameSettings).Run (s₀, fun i => (edit i).handler env) es c)
    (htraced : AllTraced env edit es) (hread : Readable env s₀) (hfresh : FreshEdits env edit es) :
    ∃ conf, env.base.applyOverlay env.config (storedOverlay env c.1) = .ok conf := by
  -- the last event that stores a section
  obtain ⟨past, e, rest, rfl, hstores, hnone⟩ : ∃ l₁ e l₂, es = l₁ ++ e :: l₂ ∧
      Stores (e.pre, e.post) ∧ ∀ y ∈ l₂, ¬ Stores (y.pre, y.post) := by
    refine Lib.split_last (p := fun e : Event ι AppState => Stores (e.pre, e.post)) ?_
    obtain ⟨s, writes, swap, htrace⟩ := htraced (Classical.arbitrary ι)
    obtain ⟨before, x, after, ht, -, hx⟩ := htrace.loads
    have hmem : x ∈ eventsOf (Classical.arbitrary ι) es := by
      rw [ht]
      simp
    obtain ⟨e, he, -, rfl⟩ := Prog.mem_eventsOf.mp hmem
    exact ⟨e, he, hx⟩
  obtain ⟨c₁, hpast, htail⟩ := hrun.split
  obtain ⟨c₂, ⟨hpre, hpost, hothers⟩, hrest⟩ := System.Run.cons_iff.mp htail
  have hkept := keptSoFar_of_run htraced hread hfresh rfl hpast
  rw [hpre] at hkept
  -- nothing is stored after it
  have hsettings : c.1.db.operatorSettings = e.post.db.operatorSettings := by
    refine hrest.history (I := fun later c => later <+: rest →
      c.1.db.operatorSettings = e.post.db.operatorSettings) (fun _ => by rw [hpost]) ?_
      (List.prefix_refl rest)
    rintro later d₁ y d₂ ⟨hy, hy', hwho⟩ ih ⟨tail, rfl⟩
    have hmem : y ∈ later ++ [y] ++ tail := by simp
    have hsplit : past ++ e :: (later ++ [y] ++ tail) = (past ++ e :: later) ++ y :: tail := by simp
    rw [hy', settings_of_event hsplit htraced
      (fun hnobody => by rw [hnobody] at hwho; exact hwho.1) (hnone y hmem), ← hy]
    exact ih ⟨y :: tail, by simp⟩
  rw [storedOverlay, hsettings, ← storedOverlay]
  cases hwho : e.who with
  | none =>
    obtain ⟨sec, hsec⟩ := hstores
    rw [hwho] at hothers
    exact absurd hsec (not_storesAt_of_settings hothers.1.1 sec)
  | some i =>
    obtain ⟨s, writes, swap, htrace⟩ := htraced i
    have hsplit : eventsOf i (past ++ e :: rest) =
        eventsOf i past ++ (e.pre, e.post) :: eventsOf i rest := by
      rw [Prog.eventsOf_append, Prog.eventsOf_cons_self hwho]
    have hloads := htrace.loads
    rw [hsplit] at htrace
    cases htrace.event with
    | idle hsame => exact absurd hstores (not_stores_of_eq hsame)
    | swap _ _ _ _ _ _ hpost =>
      obtain ⟨sec, hsec⟩ := hstores
      exact absurd hsec (not_storesAt_of_settings (by rw [hpost]) sec)
    | store sec hsec hstore =>
      have hversion : StoresAt sec (e.pre, e.post) := (hstore.version sec).mpr rfl
      have hlast : ∀ y ∈ eventsOf i rest, ¬ Stores y := by
        intro y hy
        obtain ⟨e', he', -, rfl⟩ := Prog.mem_eventsOf.mp hy
        exact hnone e' he'
      have hmerge := storedOverlay_eq_merge_only hstore hsec hkept.readable fun name hname =>
        hfresh.fields i s _ sec name hloads (by rw [hsplit]; simp) hversion hname
      rw [show storedOverlay env e.post = _ from hmerge]
      by_cases hsame : (storedOverlay env e.pre).merge ((edit i).patch.only sec) =
          (storedOverlay env s).merge (edit i).patch
      · rw [hsame]
        exact htrace.put.valid
      · exact hfresh.checked i s _ _ _ sec hloads hsplit hversion hlast hsame

/-- **Fresh edits are kept.** However edits that succeed interleave: if every section can be read,
the fields that an edit leaves alone are as it has read them when it writes, its check would still
succeed, and edits of a field take effect in the order in which they store it, then the last value
of each field is stored, what is stored is valid, and of the edits that take effect at once the last
value of each field is running. -/
theorem concurrent_edits_kept [Nonempty ι] {env : SettingsEnv} {edit : ι → ConfigEdit}
    {s₀ : AppState} {es : List (Event ι AppState)}
    {c : AppState × (ι → Prog AppState AppError PutConfigResponse)}
    (hrun : (Prog.pool SameSettings).Run (s₀, fun i => (edit i).handler env) es c)
    (hok : ∀ i, ∃ resp, c.2 i = .ret resp) (hread : Readable env s₀)
    (hfresh : FreshEdits env edit es) : EditsKept env edit s₀ es c.1 := by
  have htraced := allTraced_of_run hrun hok
  have hkept := keptSoFar_of_run htraced hread hfresh (List.append_nil es).symm hrun
  refine ⟨hkept.stored, valid_of_run hrun htraced hread hfresh, fun sec name => ?_⟩
  rw [hkept.running sec name]
  congr 1
  refine lastSaid_congr fun e _ i _ => ?_
  rw [effectSoFar, if_pos (show EditEnded es es i from rfl)]

/-! ### Quiet windows -/

/-- What edits read and change. -/
def AppState.operated (s : AppState) : Table OperatorSettingRow × Config :=
  (s.db.operatorSettings, s.config)

theorem readable_congr {env : SettingsEnv} {s s' : AppState} (h : s.operated = s'.operated)
    (hread : Readable env s) : Readable env s' := by
  intro sec
  rw [← show s.db.operatorSettings = s'.db.operatorSettings from congrArg Prod.fst h]
  exact hread sec

theorem storedOverlay_congr (env : SettingsEnv) {s s' : AppState} (h : s.operated = s'.operated) :
    storedOverlay env s = storedOverlay env s' := by
  rw [storedOverlay, show s.db.operatorSettings = s'.db.operatorSettings from congrArg Prod.fst h]
  rfl

/-- What sections that are stored one after the other say, when others leave the settings alone. -/
theorem storedOverlay_of_writes {env : SettingsEnv} {loaded patch : SettingsOverlay}
    {secs : List String} {writes : List (AppState × AppState)}
    (h : List.Forall₂ (fun sec => StoresSection env sec (sectionDoc (mergedValue loaded patch) sec))
      secs writes) {s s' : AppState} (hchain : Prog.ChainedOn AppState.operated s writes s')
    (hread : Readable env s) :
    Readable env s' ∧ ∀ z : SettingsSection, (storedOverlay env s').get z =
      if z.name ∈ secs then (loaded.merge patch).get z else (storedOverlay env s).get z := by
  induction h generalizing s with
  | nil =>
    cases hchain with
    | nil hsame => exact ⟨readable_congr hsame hread, fun z => by simp [storedOverlay_congr env hsame]⟩
  | @cons sec x secs writes hx _ ih =>
    cases hchain with
    | cons hsame hrest =>
      obtain ⟨hread₁, hget₁⟩ := storedOverlay_of_storesSection hx (readable_congr hsame hread)
      obtain ⟨hread', hget'⟩ := ih hrest hread₁
      refine ⟨hread', fun z => ?_⟩
      rw [hget' z, hget₁ z, storedOverlay_congr env hsame]
      by_cases hz : z.name = sec <;> by_cases hzs : z.name ∈ secs <;> simp [hz, hzs]

/-- From when edit `i` loads the settings to its last event, others leave the settings and the
running configuration alone. -/
def QuietWindow (es : List (Event ι AppState)) (i : ι) : Prop :=
  ∃ l₁ l l₂ x t, es = l₁ ++ (l ++ l₂) ∧ eventsOf i l = x :: t ∧ eventsOf i l₂ = [] ∧
    (∀ y ∈ eventsOf i l₁ ++ [x], ¬ Stores y) ∧
    ∀ e ∈ l, e.who ≠ some i → SameSettings e.pre e.post

/-- An edit loads the settings once. -/
theorem EditTrace.loads_unique {env : SettingsEnv} {edit : ConfigEdit}
    {t : List (AppState × AppState)} {s s' : AppState} {writes swap : List (AppState × AppState)}
    (h : EditTrace env edit t s writes swap) (hloads : Loads t s') : s' = s := by
  obtain ⟨before, y, after, rfl, hbefore, hy⟩ := hloads
  obtain ⟨guard, hsplit, hguard⟩ := h.split
  obtain ⟨x, rest, rfl⟩ := List.exists_cons_of_ne_nil h.writes_ne_nil
  obtain ⟨sec, -, hstore⟩ := h.mem_writes List.mem_cons_self
  have hfirst : before ++ [(s', s')] = guard ++ [(s, s)] := by
    have hplaces : before ++ [(s', s')] ++ y :: after = guard ++ [(s, s)] ++ x :: (rest ++ swap) := by
      simpa using hsplit
    refine Lib.split_first_unique (p := Stores) hplaces ?_ ?_ hy
      ⟨sec, (hstore.version sec).mpr rfl⟩
    · refine List.forall_mem_append.mpr ⟨hbefore, ?_⟩
      exact List.forall_mem_singleton.mpr (not_stores_of_eq rfl)
    · refine List.forall_mem_append.mpr ⟨fun y hy => not_stores_of_eq (hguard y hy), ?_⟩
      exact List.forall_mem_singleton.mpr (not_stores_of_eq rfl)
  have hlast := (List.append_inj' hfirst rfl).2
  simp only [List.cons.injEq, Prod.mk.injEq, and_true] at hlast
  exact hlast.1

/-- The last section that an edit stores. -/
theorem EditTrace.writes_eq_concat {env : SettingsEnv} {edit : ConfigEdit}
    {t before after : List (AppState × AppState)} {s : AppState} {x : AppState × AppState}
    {writes swap : List (AppState × AppState)} (h : EditTrace env edit t s writes swap)
    (ht : t = before ++ x :: after) (hx : Stores x) (hlast : ∀ y ∈ after, ¬ Stores y) :
    ∃ w₁, writes = w₁ ++ [x] := by
  have hwrites : ∀ y ∈ writes, Stores y := by
    intro y hy
    obtain ⟨sec, -, hstore⟩ := h.mem_writes hy
    exact ⟨sec, (hstore.version sec).mpr rfl⟩
  obtain ⟨guard, hsplit, hguard⟩ := h.split
  rw [ht] at hsplit
  rcases Lib.split_append hsplit with ⟨l, hload, -⟩ | ⟨l, -, hrest⟩
  · have hidle : x ∈ guard ++ [(s, s)] := by rw [hload]; simp
    rcases List.mem_append.mp hidle with hg | hs
    · exact absurd hx (not_stores_of_eq (hguard x hg))
    · exact absurd hx (not_stores_of_eq (by rw [List.mem_singleton.mp hs]))
  · rcases Lib.split_append hrest.symm with ⟨l', rfl, rfl⟩ | ⟨l', rfl, hswap⟩
    · cases l' with
      | nil => exact ⟨l, rfl⟩
      | cons y l' => exact absurd (hwrites y (by simp)) (hlast y (by simp))
    · refine absurd hx (h.put.not_stores_swap ?_)
      rw [hswap]
      simp

/-- In a quiet window, what an edit stores follows on what it has loaded. -/
theorem chainedOn_of_quietWindow {env : SettingsEnv} {edit : ι → ConfigEdit} {s₀ : AppState}
    {es : List (Event ι AppState)} {c : AppState × (ι → Prog AppState AppError PutConfigResponse)}
    (hrun : (Prog.pool SameSettings).Run (s₀, fun i => (edit i).handler env) es c) {i : ι}
    (hquiet : QuietWindow es i) {s : AppState} {writes swap : List (AppState × AppState)}
    (h : EditTrace env (edit i) (eventsOf i es) s writes swap) :
    ∃ s', Prog.ChainedOn AppState.operated s (writes ++ swap) s' := by
  classical
  obtain ⟨l₁, l, l₂, x, t, rfl, hl, hl₂, hnone, hothers⟩ := hquiet
  obtain ⟨guard, hsplit, hguard⟩ := h.split
  obtain ⟨w, rest, rfl⟩ := List.exists_cons_of_ne_nil h.writes_ne_nil
  obtain ⟨sec, -, hstore⟩ := h.mem_writes List.mem_cons_self
  obtain ⟨c₁, -, hrest⟩ := hrun.split
  obtain ⟨c₂, hwindow, -⟩ := hrest.split
  have hchain := Prog.chainedOn_of_run (f := AppState.operated) hwindow fun e he hwho =>
    Prod.ext (hothers e he hwho).1 (hothers e he hwho).2
  -- the window begins before the first section is stored
  have hplaces : eventsOf i l₁ ++ [x] ++ t = guard ++ [(s, s)] ++ w :: (rest ++ swap) := by
    rw [Prog.eventsOf_append, Prog.eventsOf_append, hl, hl₂] at hsplit
    simpa using hsplit
  obtain ⟨l₃, hload, ht⟩ := Lib.split_after (p := fun y => decide (Stores y)) hplaces
    (fun y hy => decide_eq_false (hnone y hy))
    (decide_eq_true ⟨sec, (hstore.version sec).mpr rfl⟩)
  have hends : guard ++ [(s, s)] = eventsOf i l₁ ++ x :: l₃ := by
    simpa using hload
  obtain ⟨l₄, hl₄⟩ := Lib.exists_concat_of_append hends (List.cons_ne_nil x l₃)
  have hevents : eventsOf i l = l₄ ++ (s, s) :: (w :: rest ++ swap) := by
    rw [hl, ht, ← List.cons_append, hl₄]
    simp
  rw [hevents] at hchain
  obtain ⟨s₁, -, hafter⟩ := hchain.split
  cases hafter with
  | cons _ hafter => exact ⟨_, hafter⟩

/-- Every section can be read throughout a run of edits. -/
theorem readable_of_run {env : SettingsEnv} {edit : ι → ConfigEdit} {s₀ : AppState}
    {es : List (Event ι AppState)} (htraced : AllTraced env edit es) (hread : Readable env s₀)
    {past rest : List (Event ι AppState)} (hes : es = past ++ rest)
    {c₁ : AppState × (ι → Prog AppState AppError PutConfigResponse)}
    (hpast : (Prog.pool SameSettings).Run (s₀, fun i => (edit i).handler env) past c₁) :
    Readable env c₁.1 := by
  refine hpast.history (I := fun past c => past <+: es → Readable env c.1) (fun _ => hread) ?_
    (hes ▸ List.prefix_append past rest)
  rintro past c₁ e c₂ ⟨hpre, hpost, hwho⟩ ih ⟨rest, hes⟩
  have hbefore : Readable env e.pre := hpre ▸ ih ⟨e :: rest, by rw [← hes]; simp⟩
  rw [hpost]
  cases hi : e.who with
  | none =>
    rw [hi] at hwho
    intro sec
    rw [hwho.1.1]
    exact hbefore sec
  | some i =>
    obtain ⟨s, writes, swap, htrace⟩ := htraced i
    rw [← hes, List.append_assoc, List.singleton_append, Prog.eventsOf_append,
      Prog.eventsOf_cons_self hi] at htrace
    cases htrace.event with
    | idle hsame => rwa [show e.post = e.pre from hsame]
    | store sec _ hstore => exact (storedOverlay_of_storesSection hstore hbefore).1
    | swap _ _ _ _ _ _ hpost =>
      rw [show e.post = _ from hpost]
      exact hbefore

omit [DecidableEq ι] in
theorem EditEnded.mono [DecidableEq ι] {es past past' : List (Event ι AppState)} {i : ι}
    (h : EditEnded es past i) (hpast : past <+: past') (hes : past' <+: es) :
    EditEnded es past' i := by
  obtain ⟨l, rfl⟩ := hpast
  obtain ⟨l', rfl⟩ := hes
  unfold EditEnded at h ⊢
  simp only [Prog.eventsOf_append, List.append_assoc, List.self_eq_append_right,
    List.append_eq_nil_iff] at h
  simp [Prog.eventsOf_append, h.1, h.2]

section QuietWindows

variable {env : SettingsEnv} {edit : ι → ConfigEdit} {s₀ : AppState} {es : List (Event ι AppState)}
  {c : AppState × (ι → Prog AppState AppError PutConfigResponse)} {i : ι} {s : AppState}
  {writes swap : List (AppState × AppState)}

/-- What an edit loads can be read. -/
theorem readable_of_loaded
    (hrun : (Prog.pool SameSettings).Run (s₀, fun i => (edit i).handler env) es c)
    (htraced : AllTraced env edit es) (hread : Readable env s₀)
    (htrace : EditTrace env (edit i) (eventsOf i es) s writes swap) : Readable env s := by
  obtain ⟨guard, hsplit, -⟩ := htrace.split
  obtain ⟨past, e, rest, rfl, -, hpair, -⟩ := Prog.eventsOf_split
    (show eventsOf i es = guard ++ (s, s) :: (writes ++ swap) by rw [hsplit]; simp)
  obtain ⟨c₁, -, hpast, hpre, -⟩ := Prog.run_at hrun
  have hstate := readable_of_run htraced hread rfl hpast
  rwa [hpre, (Prod.mk.inj hpair).1] at hstate

/-- When an edit with a quiet window stores a section, the settings are those that it has loaded,
but for sections that it has stored. -/
theorem storedOverlay_at_write
    (hrun : (Prog.pool SameSettings).Run (s₀, fun i => (edit i).handler env) es c)
    (hquiet : QuietWindow es i) (hread : Readable env s)
    (htrace : EditTrace env (edit i) (eventsOf i es) s writes swap)
    {w₁ w₂ : List (AppState × AppState)} {x : AppState × AppState} (hwrites : writes = w₁ ++ x :: w₂) :
    Readable env x.1 ∧ ∃ secs : List String, ∀ z : SettingsSection,
      (storedOverlay env x.1).get z = if z.name ∈ secs then
        ((storedOverlay env s).merge (edit i).patch).get z else (storedOverlay env s).get z := by
  subst hwrites
  obtain ⟨s', hchain⟩ := chainedOn_of_quietWindow hrun hquiet htrace
  rw [List.append_assoc] at hchain
  obtain ⟨s₁, hbefore, hafter⟩ := hchain.split
  have hsame : s₁.operated = x.1.operated := by
    cases hafter with
    | cons hsame _ => exact hsame
  obtain ⟨hread₁, hget⟩ := storedOverlay_of_writes
    (List.forall₂_take_append _ w₁ (x :: w₂) htrace.put.writes) hbefore hread
  exact ⟨readable_congr hsame hread₁, _, fun z => storedOverlay_congr env hsame ▸ hget z⟩

/-- So the fields that it leaves alone are as they were loaded. -/
theorem field_at_write
    (hrun : (Prog.pool SameSettings).Run (s₀, fun i => (edit i).handler env) es c)
    (hquiet : QuietWindow es i) (hread : Readable env s)
    (htrace : EditTrace env (edit i) (eventsOf i es) s writes swap) {x : AppState × AppState}
    {sec name : String} (hx : x ∈ eventsOf i es) (hstores : StoresAt sec x)
    (hname : (edit i).patch.field sec name = none) :
    (storedOverlay env x.1).field sec name = (storedOverlay env s).field sec name := by
  obtain ⟨w₁, w₂, hwrites⟩ := List.append_of_mem (htrace.mem_of_stores hx ⟨sec, hstores⟩)
  obtain ⟨-, secs, hget⟩ := storedOverlay_at_write hrun hquiet hread htrace hwrites
  unfold SettingsOverlay.field at hname ⊢
  cases hz : SettingsSection.named sec with
  | none => rfl
  | some z =>
    rw [hz, Option.bind_some] at hname
    rw [Option.bind_some, Option.bind_some, hget z]
    split_ifs
    · rw [SettingsOverlay.get_merge, editField_mergeEdit, hname, Option.none_or]
    · rfl

/-- With its last section the whole edit is stored. -/
theorem storedOverlay_after_writes
    (hrun : (Prog.pool SameSettings).Run (s₀, fun i => (edit i).handler env) es c)
    (hquiet : QuietWindow es i) (hread : Readable env s)
    (htrace : EditTrace env (edit i) (eventsOf i es) s writes swap)
    {w₁ : List (AppState × AppState)} {x : AppState × AppState} (hwrites : writes = w₁ ++ [x]) :
    storedOverlay env x.2 = (storedOverlay env s).merge (edit i).patch.touched := by
  subst hwrites
  obtain ⟨s₁, hchain⟩ := chainedOn_of_quietWindow hrun hquiet htrace
  obtain ⟨s₂, hwritten, -⟩ := hchain.split
  have hsame : s₂.operated = x.2.operated := by
    obtain ⟨s₃, -, hend⟩ := hwritten.split
    cases hend with
    | cons _ hend => cases hend with
      | nil hsame => exact hsame.symm
  rw [← storedOverlay_congr env hsame]
  refine SettingsOverlay.ext_get fun z => ?_
  rw [(storedOverlay_of_writes htrace.put.writes hwritten hread).2 z,
    SettingsOverlay.get_merge, SettingsOverlay.get_merge, SettingsOverlay.touched,
    SettingsOverlay.get_ofSections]
  by_cases hz : z.name ∈ changedSections (edit i).req.patch
  · have hsays : touchedFields (fieldValue ((edit i).patch.get z)) ≠ [] :=
      mem_map_touchedSections.mp hz
    rw [if_pos hz, if_neg hsays]
    rfl
  · have huntouched : touchedFields (fieldValue ((edit i).patch.get z)) = [] := by
      by_contra h
      exact hz (mem_map_touchedSections.mpr h)
    rw [if_neg hz, if_pos huntouched]
    cases (storedOverlay env s).get z <;> rfl

/-- Nothing comes between the last section that an edit stores and its taking effect. -/
theorem config_at_swap
    (hrun : (Prog.pool SameSettings).Run (s₀, fun i => (edit i).handler env) es c)
    (hquiet : QuietWindow es i)
    (htrace : EditTrace env (edit i) (eventsOf i es) s writes swap)
    {before : List (AppState × AppState)} {read : AppState} {x : AppState × AppState}
    (himmediate : anyRestart (edit i).patch = false)
    (hevents : eventsOf i es = before ++ [(read, read), x]) : x.1.config = read.config := by
  obtain ⟨s', hchain⟩ := chainedOn_of_quietWindow hrun hquiet htrace
  obtain ⟨guard, hsplit, -⟩ := htrace.split
  rcases htrace.put.swap with ⟨hrestart, -⟩ | ⟨-, s₁, s₂, hot, -, rfl⟩
  · exact absurd (himmediate.symm.trans hrestart) (by decide)
  · rw [hevents, ← List.append_assoc] at hsplit
    have hend := (List.append_inj' hsplit rfl).2
    simp only [List.cons.injEq, Prod.mk.injEq, and_true, and_self] at hend
    obtain ⟨rfl, rfl⟩ := hend
    obtain ⟨s₃, -, hafter⟩ := hchain.split
    cases hafter with
    | cons _ hafter =>
      cases hafter with
      | cons hsame _ => exact (congrArg Prod.snd hsame).symm

/-- What another edit stores after the first section of an edit is not in its window, so it has
ended. -/
theorem QuietWindow.ended (hquiet : QuietWindow es i) {j : ι} (hij : j ≠ i) {sec : String}
    {past rest : List (Event ι AppState)} {e : Event ι AppState} (hes : es = past ++ e :: rest)
    (hwho : e.who = some j) (hstores : StoresAt sec (e.pre, e.post))
    (hearlier : ∃ y ∈ eventsOf i past, StoresAt sec y) : EditEnded es past i := by
  obtain ⟨l₁, l, l₂, x, t, hwindow, hl, hl₂, hnone, hothers⟩ := hquiet
  rw [hes] at hwindow
  rcases Lib.split_append hwindow with ⟨l₃, rfl, -⟩ | ⟨l₃, hpast, hrest⟩
  · obtain ⟨y, hy, hystores⟩ := hearlier
    refine absurd ⟨sec, hystores⟩ (hnone y ?_)
    simp [Prog.eventsOf_append, hy]
  · rcases Lib.split_append hrest.symm with ⟨l₄, rfl, -⟩ | ⟨l₄, rfl, rfl⟩
    · refine absurd hstores (not_storesAt_of_settings (hothers e (by simp) ?_).1 sec)
      rw [hwho]
      exact fun h => hij (Option.some.inj h)
    · rw [Prog.eventsOf_append, List.append_eq_nil_iff] at hl₂
      rw [EditEnded, hes, Prog.eventsOf_append, hl₂.2, List.append_nil]

/-- **Edits with quiet windows are fresh.**  If no other edit stores a section or takes effect
between when an edit loads the settings and its last event, nothing that it has read has changed
when it writes. -/
theorem freshEdits_of_quietWindow
    (hrun : (Prog.pool SameSettings).Run (s₀, fun i => (edit i).handler env) es c)
    (hok : ∀ i, ∃ resp, c.2 i = .ret resp) (hread : Readable env s₀)
    (hquiet : ∀ i, QuietWindow es i) : FreshEdits env edit es := by
  have htraced := allTraced_of_run hrun hok
  have hfields : ∀ i s x sec name, Loads (eventsOf i es) s → x ∈ eventsOf i es → StoresAt sec x →
      (edit i).patch.field sec name = none →
      (storedOverlay env x.1).field sec name = (storedOverlay env s).field sec name := by
    intro i s x sec name hloads hx hstores hname
    obtain ⟨s', writes, swap, htrace⟩ := htraced i
    obtain rfl := htrace.loads_unique hloads
    exact field_at_write hrun (hquiet i) (readable_of_loaded hrun htraced hread htrace) htrace hx
      hstores hname
  refine ⟨hfields, ?_, ?_, ?_⟩
  · intro i s before x after sec hloads hevents hstores hlast _
    obtain ⟨s', writes, swap, htrace⟩ := htraced i
    obtain rfl := htrace.loads_unique hloads
    have hloaded := readable_of_loaded hrun htraced hread htrace
    have hx : x ∈ eventsOf i es := by rw [hevents]; simp
    obtain ⟨w₁, rfl⟩ := htrace.writes_eq_concat hevents ⟨sec, hstores⟩ hlast
    obtain ⟨sec', hchanged, hstore⟩ := htrace.mem_writes (x := x) (by simp)
    obtain rfl := (hstore.version sec).mp hstores
    obtain ⟨hreadable, -⟩ := storedOverlay_at_write hrun (hquiet i) hloaded htrace rfl
    have hmerge := storedOverlay_eq_merge_only hstore hchanged hreadable fun name hname =>
      hfields i s x sec name hloads hx hstores hname
    obtain ⟨conf, hvalid⟩ := htrace.put.valid
    refine ⟨conf, ?_⟩
    rw [← hmerge, storedOverlay_after_writes hrun (hquiet i) hloaded htrace rfl,
      Config.applyOverlay_eq, Config.edited_merge_touched, ← Config.applyOverlay_eq]
    exact hvalid
  · intro i before read x himmediate hevents sec name _
    obtain ⟨s, writes, swap, htrace⟩ := htraced i
    rw [config_at_swap hrun (hquiet i) htrace himmediate hevents]
  · intro i j sec name past e rest hes hwho hstores hearlier _ _ before hbefore hended
    by_cases hij : j = i
    · exact hij ▸ hended
    rcases List.prefix_or_prefix_of_prefix hbefore (hes ▸ List.prefix_append past _) with hle | hle
    · exact absurd (hended.mono hle (hes ▸ List.prefix_append past _))
        (not_editEnded_of_event hes hwho)
    · exact ((hquiet i).ended hij hes hwho hstores hearlier).mono hle hbefore

end QuietWindows

end

/-! ### Two edits of a section at the same time -/

/-- One operator switches the page on, the other gives it a title. -/
def landingEdits (title : Bool) : ConfigEdit where
  bearer := .ok ⟨"op", "jti"⟩
  req := if title then
      { patch := { SettingsOverlay.default with
          landing := some ⟨none, some "Wallets", none, none, none, none, none, none, none⟩ }
        expectedVersions := fun _ => none }
    else showLanding

/-- Before the edits. -/
def editsStart : AppState × (Bool → Prog AppState AppError PutConfigResponse) :=
  (started .empty, fun i => (landingEdits i).handler sampleSettings)

/-- The second operator edits while the first one is still being admitted. -/
def windowTurns : List (Bool × ℕ) := [(false, 2), (true, 6), (false, 4)]

theorem quietWindow_edits : ∀ i, QuietWindow (Prog.playTrace windowTurns editsStart) i := by
  have hidle {l : List (AppState × AppState)} (h : l.map Prod.snd = l.map Prod.fst) :
      ∀ y ∈ l, ¬ Stores y := fun y hy => not_stores_of_eq (List.map_inj_left.mp h y hy)
  rintro (_ | _)
  · refine ⟨Prog.playTrace [(false, 2), (true, 6)] editsStart, _, [], _, _,
      (Prog.playTrace_append [(false, 2), (true, 6)] false 4 editsStart).trans
        (congrArg _ (List.append_nil _).symm), rfl, rfl, hidle rfl, ?_⟩
    exact fun e he hwho => absurd (Prog.who_of_trace e he) hwho
  · have hrest : Prog.playTrace windowTurns editsStart = Prog.playTrace [(false, 2)] editsStart ++
        (Prog.trace true 6 (editsStart.2 true) (Prog.play [(false, 2)] editsStart).1 ++
          Prog.playTrace [(false, 4)] (Prog.play [(false, 2), (true, 6)] editsStart)) := rfl
    refine ⟨_, _, _, _, _, hrest, rfl, rfl, hidle rfl, ?_⟩
    exact fun e he hwho => absurd (Prog.who_of_trace e he) hwho

/-- Overlapping edits of one section are both kept: none has read what the other changes. -/
theorem overlapping_edits_kept :
    EditsKept sampleSettings landingEdits (started .empty)
      (Prog.playTrace windowTurns editsStart) (Prog.play windowTurns editsStart).1 ∧
    ∀ name ∈ ["enabled", "title"], ((storedOverlay sampleSettings
      (Prog.play windowTurns editsStart).1).field "landing" name).isSome := by
  have hok : ∀ i, ∃ resp, (Prog.play windowTurns editsStart).2 i = .ret resp := by
    intro i
    cases i <;> exact ⟨_, rfl⟩
  have hread : Readable sampleSettings (started .empty) := by
    rintro s ⟨r, hr, -⟩
    cases hr
  have hrun := Prog.run_play SameSettings windowTurns editsStart
  refine ⟨concurrent_edits_kept hrun hok hread
    (freshEdits_of_quietWindow hrun hok hread quietWindow_edits), ?_⟩
  decide +kernel

/-- Both load the settings, and then each stores its section and takes effect. -/
def editTurns : List (Bool × ℕ) := [(false, 3), (true, 3), (false, 3), (true, 3)]

/-- Both edits succeed, but the value of the first is not stored. -/
theorem edits_lost :
    (Prog.pool SameSettings).Run editsStart (Prog.playTrace editTurns editsStart)
      (Prog.play editTurns editsStart) ∧
    (∀ i, ∃ resp, (Prog.play editTurns editsStart).2 i = .ret resp) ∧
    Readable sampleSettings (started .empty) ∧
    ¬ EditsKept sampleSettings landingEdits (started .empty)
      (Prog.playTrace editTurns editsStart) (Prog.play editTurns editsStart).1 := by
  refine ⟨Prog.run_play _ _ _, ?_, ?_, fun h => ?_⟩
  · intro i
    cases i <;> exact ⟨_, rfl⟩
  · rintro s ⟨r, hr, -⟩
    cases hr
  · have hlast : (lastSaid (fun i => (landingEdits i).patch) "landing" "enabled"
        (Prog.playTrace editTurns editsStart)).isSome := by
      decide +kernel
    have hlost : ((storedOverlay sampleSettings (Prog.play editTurns editsStart).1).field
        "landing" "enabled").isSome = false := by
      decide +kernel
    rw [h.stored, Option.isSome_or, hlast] at hlost
    cases hlost

end SmirkBackend
