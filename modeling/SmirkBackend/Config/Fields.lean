import SmirkBackend.Config.Application

/-!
# Fields by name

What an overlay says of a field, by the names of the section and the field.  Merged overlays say
what the later one says, or else what the earlier one does; an edit touches the fields of which it
says something.

These are `SettingsOverlay.field_merge` and `mem_touchedSections`; `Config.edited_touched` : only
the touched fields have an effect.
-/

namespace SmirkBackend

open Lib (Json)

/-! ### What an overlay says of a field -/

/-- What an edit of a section says of a field. -/
def editField {O : Type} [Serde O] [SparseEdit O] (edit : Option O) (name : String) : Option Json :=
  edit.bind fun o => field (SparseEdit.members o) name

theorem editField_mergeEdit {O : Type} [Serde O] [SparseEdit O] (current edit : Option O)
    (name : String) : editField (mergeEdit current edit) name =
      (editField edit name).or (editField current name) := by
  cases current with
  | none => simp [mergeEdit, editField]
  | some o => cases edit with
    | none => simp [mergeEdit, editField]
    | some p => exact (SparseEdit.merged o p).field name

/-- The section with this name. -/
def SettingsSection.named (name : String) : Option SettingsSection :=
  [landing, retention, restore, console, registration, pow, features, relay, premium].find?
    fun s => s.name = name

theorem SettingsSection.named_name (s : SettingsSection) : named s.name = some s := by
  cases s <;> decide

theorem SettingsSection.name_of_named {name : String} {s : SettingsSection}
    (h : named name = some s) : s.name = name := by
  have hname := List.find?_some h
  exact of_decide_eq_true hname

/-- What an overlay says of a field, by the names of the section and the field. -/
def SettingsOverlay.field (ov : SettingsOverlay) (sec name : String) : Option Json :=
  (SettingsSection.named sec).bind fun s => editField (ov.get s) name

theorem SettingsOverlay.field_name (ov : SettingsOverlay) (s : SettingsSection) (name : String) :
    ov.field s.name name = editField (ov.get s) name := by
  rw [field, SettingsSection.named_name, Option.bind_some]

/-- Of a field, merged overlays say what the later one says, or else what the earlier one does. -/
theorem SettingsOverlay.field_merge (ov edit : SettingsOverlay) (sec name : String) :
    (ov.merge edit).field sec name = (edit.field sec name).or (ov.field sec name) := by
  unfold field
  cases SettingsSection.named sec with
  | none => rfl
  | some s => simp only [Option.bind_some, get_merge, editField_mergeEdit]

@[simp] theorem SettingsOverlay.field_default (sec name : String) :
    SettingsOverlay.default.field sec name = none := by
  unfold field
  cases SettingsSection.named sec with
  | none => rfl
  | some s => rw [Option.bind_some, get_default]; rfl

theorem SparseEdit.ext_field {O : Type} [Serde O] [SparseEdit O] {o p : O}
    (h : ∀ name, SmirkBackend.field (members o) name = SmirkBackend.field (members p) name) :
    o = p := by
  have hread := SparseEdit.fromValue_congr (O := O) h
  rw [fromValue_members, fromValue_members] at hread
  exact Option.some.inj hread

/-- A merged edit depends on the fields that the later edit leaves alone. -/
theorem mergeEdit_congr {O : Type} [Serde O] [SparseEdit O] {current current' : Option O} {edit : O}
    (h : ∀ name, editField (some edit) name = none →
      editField current name = editField current' name) :
    mergeEdit current (some edit) = mergeEdit current' (some edit) := by
  obtain ⟨o, ho⟩ : ∃ o, mergeEdit current (some edit) = some o := by
    cases current <;> exact ⟨_, rfl⟩
  obtain ⟨o', ho'⟩ : ∃ o', mergeEdit current' (some edit) = some o' := by
    cases current' <;> exact ⟨_, rfl⟩
  rw [ho, ho', Option.some.injEq]
  refine SparseEdit.ext_field fun name => ?_
  show editField (some o) name = editField (some o') name
  rw [← ho, ← ho', editField_mergeEdit, editField_mergeEdit]
  cases hfield : editField (some edit) name with
  | none => exact h name hfield
  | some v => rfl

/-- One section of an edit. -/
def SettingsOverlay.only (ov : SettingsOverlay) (sec : String) : SettingsOverlay :=
  .ofSections fun s => if s.name = sec then ov.get s else none

/-! ### Normalised edits -/

/-- Members with the same names, of which the same say something. -/
inductive SameShape : List (String × Json) → List (String × Json) → Prop
  | nil : SameShape [] []
  | cons {α : Type} [Serde α] [LawfulSerde α] {name : String} {x y : Option α}
      {ms ms' : List (String × Json)} : x.isSome = y.isSome → SameShape ms ms' →
      SameShape ((name, fieldValue x) :: ms) ((name, fieldValue y) :: ms')

theorem SameShape.isSome_field {ms ms' : List (String × Json)} (h : SameShape ms ms')
    (name : String) : (field ms name).isSome = (field ms' name).isSome := by
  induction h with
  | nil => rfl
  | @cons _ _ _ name' x y _ _ hshape _ ih =>
    by_cases hname : name' = name
    · subst hname
      simpa [field_cons_self] using hshape
    · simp [field_cons_of_ne, hname, ih]

/-- Normalised, an edit touches the same fields. -/
theorem SettingsOverlay.isSome_field_normalise (env : ConfigEnv) (ov : SettingsOverlay)
    (sec name : String) :
    ((ov.normalise env).field sec name).isSome = (ov.field sec name).isSome := by
  unfold field
  cases SettingsSection.named sec with
  | none => rfl
  | some s =>
    simp only [Option.bind_some]
    cases s with
    | registration =>
      show (editField (ov.registration.map _) name).isSome = (editField ov.registration name).isSome
      cases ov.registration with
      | none => rfl
      | some o =>
        apply SameShape.isSome_field
        repeat first | exact .nil | refine .cons (by simp) ?_
    | features =>
      show (editField (ov.features.map _) name).isSome = (editField ov.features name).isSome
      cases ov.features with
      | none => rfl
      | some o =>
        apply SameShape.isSome_field
        repeat first | exact .nil | refine .cons (by simp) ?_
    | relay =>
      show (editField (ov.relay.map _) name).isSome = (editField ov.relay name).isSome
      cases ov.relay with
      | none => rfl
      | some o =>
        apply SameShape.isSome_field
        repeat first | exact .nil | refine .cons (by simp) ?_
    | premium =>
      show (editField (ov.premium.map _) name).isSome = (editField ov.premium name).isSome
      cases ov.premium with
      | none => rfl
      | some o =>
        apply SameShape.isSome_field
        repeat first | exact .nil | refine .cons (by simp) ?_
    | _ => rfl

/-! ### Touched fields -/

theorem member_eq_some_iff {members : List (String × Json)}
    (hnodup : (members.map Prod.fst).Nodup) {name : String} {value : Json} :
    member members name = some value ↔ (name, value) ∈ members := by
  induction members with
  | nil => simp
  | cons m members ih =>
    obtain ⟨name', value'⟩ := m
    rw [List.map_cons, List.nodup_cons] at hnodup
    by_cases hname : name' = name
    · subst hname
      have hnot : (name', value) ∉ members := fun h =>
        hnodup.1 (List.mem_map.mpr ⟨_, h, rfl⟩)
      simp [hnot, eq_comm]
    · simp [hname, Ne.symm hname, ih hnodup.2]

/-- The fields of a section that an edit touches are those of which it says something. -/
theorem mem_touchedFields {O : Type} [Serde O] [SparseEdit O] (edit : Option O) (name : String) :
    name ∈ touchedFields (fieldValue edit) ↔ (editField edit name).isSome := by
  cases edit with
  | none => simp [fieldValue, touchedFields, editField]
  | some o =>
    have hmember := @member_eq_some_iff _ (SparseEdit.nodup o) name
    simp only [fieldValue, Option.elim_some, SparseEdit.toValue_eq, touchedFields, List.mem_map,
      List.mem_filter, editField, Option.bind_some, field]
    cases hvalue : member (SparseEdit.members o) name with
    | none =>
      simp only [Option.isSome_none, Bool.false_eq_true, iff_false, not_exists, not_and]
      rintro ⟨name', value⟩ ⟨hmem, -⟩ rfl
      rw [hmember.mpr hmem] at hvalue
      cases hvalue
    | some value =>
      have hmem := hmember.mp hvalue
      have hunique : ∀ m ∈ SparseEdit.members o, m.1 = name → m.2 = value := by
        rintro ⟨name', value'⟩ hm rfl
        rw [hmember.mpr hm] at hvalue
        exact Option.some.inj hvalue
      constructor
      · rintro ⟨m, ⟨hm, hnull⟩, hname⟩
        rw [hunique m hm hname] at hnull
        cases value <;> simp_all
      · intro hsome
        refine ⟨(name, value), ⟨hmem, ?_⟩, rfl⟩
        cases value <;> simp_all

theorem SettingsOverlay.mem_members {ov : SettingsOverlay} {sec : String} {value : Json} :
    (sec, value) ∈ ov.members ↔
      ∃ s : SettingsSection, sec = s.name ∧ value = fieldValue (ov.get s) := by
  constructor
  · intro h
    simp only [members, List.mem_cons, Prod.mk.injEq, List.not_mem_nil, or_false] at h
    rcases h with h | h | h | h | h | h | h | h | h
    · exact ⟨.console, h⟩
    · exact ⟨.features, h⟩
    · exact ⟨.landing, h⟩
    · exact ⟨.pow, h⟩
    · exact ⟨.premium, h⟩
    · exact ⟨.registration, h⟩
    · exact ⟨.relay, h⟩
    · exact ⟨.restore, h⟩
    · exact ⟨.retention, h⟩
  · rintro ⟨s, rfl, rfl⟩
    exact (member_eq_some_iff ov.nodup).mp (ov.member_members s)

/-- The fields that an edit touches are those of which it says something. -/
theorem mem_touchedSections {ov : SettingsOverlay} {sec name : String} :
    (∃ fields, (sec, fields) ∈ touchedSections ov.toValue ∧ name ∈ fields) ↔
      (ov.field sec name).isSome := by
  have htouched : touchedSections ov.toValue =
      (ov.members.map fun s => (s.1, touchedFields s.2)).filter fun s => !s.2.isEmpty := rfl
  simp only [htouched, List.mem_filter, List.mem_map, Prod.mk.injEq, Prod.exists]
  constructor
  · rintro ⟨fields, ⟨⟨_, value, hmem, rfl, rfl⟩, -⟩, hname⟩
    obtain ⟨s, rfl, rfl⟩ := SettingsOverlay.mem_members.mp hmem
    rw [ov.field_name]
    exact (mem_touchedFields _ name).mp hname
  · intro h
    unfold SettingsOverlay.field at h
    cases hs : SettingsSection.named sec with
    | none => simp [hs] at h
    | some s =>
      rw [hs, Option.bind_some, ← mem_touchedFields] at h
      obtain rfl := SettingsSection.name_of_named hs
      refine ⟨_, ⟨⟨_, _, SettingsOverlay.mem_members.mpr ⟨s, rfl, rfl⟩, rfl, rfl⟩, ?_⟩, h⟩
      cases hfields : touchedFields (fieldValue (ov.get s)) with
      | nil => simp [hfields] at h
      | cons f fields => rfl

/-- The sections that an edit touches are those that say something. -/
theorem mem_map_touchedSections {ov : SettingsOverlay} {s : SettingsSection} :
    s.name ∈ (touchedSections ov.toValue).map Prod.fst ↔
      touchedFields (fieldValue (ov.get s)) ≠ [] := by
  have hfield : ∀ name, (ov.field s.name name).isSome ↔
      name ∈ touchedFields (fieldValue (ov.get s)) := by
    intro name
    rw [ov.field_name, mem_touchedFields]
  constructor
  · intro h
    obtain ⟨⟨sec, fields⟩, hmem, rfl⟩ := List.mem_map.mp h
    have hne : fields ≠ [] := by
      rintro rfl
      simpa using (List.mem_filter.mp hmem).2
    obtain ⟨name, hname⟩ := List.exists_mem_of_ne_nil fields hne
    exact List.ne_nil_of_mem ((hfield name).mp (mem_touchedSections.mp ⟨fields, hmem, hname⟩))
  · intro h
    obtain ⟨name, hname⟩ := List.exists_mem_of_ne_nil _ h
    obtain ⟨fields, hmem, -⟩ := mem_touchedSections.mpr ((hfield name).mpr hname)
    exact List.mem_map.mpr ⟨_, hmem, rfl⟩

/-- The sections that say something. -/
def SettingsOverlay.touched (ov : SettingsOverlay) : SettingsOverlay :=
  .ofSections fun s => if touchedFields (fieldValue (ov.get s)) = [] then none else ov.get s

theorem fromValue_nil {O : Type} [Serde O] [SparseEdit O] {o : O}
    (h : touchedFields (fieldValue (some o)) = []) : Serde.fromValue (.obj []) = some o := by
  rw [← SparseEdit.fromValue_members o]
  refine (SparseEdit.fromValue_congr fun name => ?_).symm
  have hnot : name ∉ touchedFields (fieldValue (some o)) := by rw [h]; exact List.not_mem_nil
  rw [mem_touchedFields] at hnot
  exact Option.not_isSome_iff_eq_none.mp hnot

theorem applySection_touched {O C : Type} [Serde O] [SparseEdit O] {f : O → C → C}
    (h : ∀ o c, Serde.fromValue (.obj []) = some o → f o c = c) (o : Option O) (c : C) :
    applySection f (if touchedFields (fieldValue o) = [] then none else o) c =
      applySection f o c := by
  by_cases htouched : touchedFields (fieldValue o) = []
  · rw [if_pos htouched]
    cases o with
    | none => rfl
    | some o => exact (h o c (fromValue_nil htouched)).symm
  · rw [if_neg htouched]

theorem applySectionM_touched {O C : Type} [Serde O] [SparseEdit O] {f : O → C → Except AppError C}
    (h : ∀ o c, Serde.fromValue (.obj []) = some o → f o c = .ok c) (o : Option O) (c : C) :
    applySectionM f (if touchedFields (fieldValue o) = [] then none else o) c =
      applySectionM f o c := by
  by_cases htouched : touchedFields (fieldValue o) = []
  · rw [if_pos htouched]
    cases o with
    | none => rfl
    | some o => exact (h o c (fromValue_nil htouched)).symm
  · rw [if_neg htouched]

/-- Only the sections that say something have an effect. -/
theorem Config.edited_touched (env : ConfigEnv) (c : Config) (ov : SettingsOverlay) :
    c.edited env ov.touched = c.edited env ov := by
  have hlanding := applySection_touched (f := LandingOverlay.apply)
    (fun o c h => by cases h; rfl) ov.landing c.landing
  have hretention := applySection_touched (f := RetentionOverlay.apply)
    (fun o c h => by cases h; rfl) ov.retention c.retention
  have hrestore := applySectionM_touched (f := RestoreOverlay.apply env)
    (fun o c h => by cases h; rfl) ov.restore c.restore
  have hmode := applySectionM_touched (f := ConsoleOverlay.apply env)
    (fun o c h => by cases h; rfl) ov.console c.restartApplyMode
  have hreg := applySectionM_touched (f := RegistrationOverlay.apply env)
    (fun o c h => by cases h; rfl) ov.registration c.registration
  have hpow := applySection_touched (f := PowOverlay.apply)
    (fun o c h => by cases h; rfl) ov.pow c.pow
  have hfeatures := applySection_touched (f := FeaturesOverlay.apply env)
    (fun o c h => by cases h; rfl) ov.features c.features
  have hrelay := applySection_touched (f := RelayOverlay.apply env)
    (fun o c h => by cases h; rfl) ov.relay c.relay
  have hpremium := applySection_touched (f := PremiumOverlay.apply env)
    (fun o c h => by cases h; rfl) ov.premium c.premium
  unfold edited
  rw [← hlanding, ← hretention, ← hrestore, ← hmode, ← hreg, ← hpow, ← hfeatures, ← hrelay,
    ← hpremium]
  rfl

theorem merge_of_untouched {O : Type} [Serde O] [SparseEdit O] {p : O}
    (h : touchedFields (fieldValue (some p)) = []) (o : O) : SparseEdit.merge o p = o := by
  refine SparseEdit.ext_field fun name => ?_
  have hnot : name ∉ touchedFields (fieldValue (some p)) := by rw [h]; exact List.not_mem_nil
  rw [mem_touchedFields, Option.not_isSome_iff_eq_none] at hnot
  have hmerge := editField_mergeEdit (some o) (some p) name
  rw [hnot, Option.none_or] at hmerge
  exact hmerge

/-- So do the sections of a merged edit. -/
theorem Config.edited_merge_touched (env : ConfigEnv) (c : Config) (ov edit : SettingsOverlay) :
    c.edited env (ov.merge edit.touched) = c.edited env (ov.merge edit) := by
  have hsame : (ov.merge edit.touched).touched = (ov.merge edit).touched := by
    refine SettingsOverlay.ext_get fun s => ?_
    simp only [SettingsOverlay.touched, SettingsOverlay.get_ofSections, SettingsOverlay.get_merge]
    by_cases htouched : touchedFields (fieldValue (edit.get s)) = []
    · rw [if_pos htouched]
      cases hedit : edit.get s with
      | none => rfl
      | some p =>
        rw [hedit] at htouched
        cases ov.get s with
        | none =>
          rw [show mergeEdit none (some p) = some p from rfl, if_pos htouched]
          exact if_pos rfl
        | some o =>
          rw [show mergeEdit (some o) (some p) = some (SparseEdit.merge o p) from rfl,
            merge_of_untouched htouched]
          rfl
    · rw [if_neg htouched]
  rw [← edited_touched env c (ov.merge edit.touched), hsame, edited_touched]

end SmirkBackend
