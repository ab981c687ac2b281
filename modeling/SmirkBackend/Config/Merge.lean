import Mathlib.Data.List.Nodup
import SmirkBackend.Config.Sections
import SmirkBackend.Lib.Machine

/-!
# Merged edits

An edit is merged into a stored overlay as JSON, member by member.  Read back, the result is the
overlay in which every field has the edited value, or else the stored one.

This is `SettingsOverlay.fromValue_merge`, section by section (`SparseEdit`).
-/

namespace SmirkBackend

open Lib (Json)

/-! ### Members of a merged object -/

@[simp] theorem member_cons (m : String × Json) (members : List (String × Json)) (name : String) :
    member (m :: members) name = if m.1 = name then some m.2 else member members name := by
  by_cases h : m.1 = name <;> simp [member, h]

@[simp] theorem member_nil (name : String) : member [] name = none := rfl

theorem member_setMember (name name' : String) (value : Json) (members : List (String × Json)) :
    member (setMember name value members) name' =
      if name = name' then some value else member members name' := by
  induction members with
  | nil => simp [setMember]
  | cons m members ih =>
    rw [setMember]
    by_cases hm : m.1 = name
    · subst hm
      by_cases h : m.1 = name' <;> simp [h]
    · by_cases hlt : name < m.1
      · simp [hm, hlt]
      · simp only [hm, hlt, if_false, member_cons, ih]
        by_cases h : m.1 = name'
        · subst h
          simp [Ne.symm hm]
        · simp [h]

theorem member_eq_none_of_notMem {members : List (String × Json)} {name : String}
    (h : name ∉ members.map Prod.fst) : member members name = none := by
  induction members with
  | nil => rfl
  | cons m members ih =>
    simp only [List.map_cons, List.mem_cons, not_or] at h
    simp [Ne.symm h.1, ih h.2]

/-- A member of a merged object: the stored one, with what the edit says merged into it. -/
theorem member_mergeMembers {patch : List (String × Json)} (hnodup : (patch.map Prod.fst).Nodup)
    (members : List (String × Json)) (name : String) :
    member (mergeMembers members patch) name =
      match member patch name with
      | none => member members name
      | some .null => member members name
      | some value => some (jsonMergeSkipNull ((member members name).getD .null) value) := by
  induction patch generalizing members with
  | nil => simp [mergeMembers]
  | cons m patch ih =>
    obtain ⟨field, value⟩ := m
    rw [List.map_cons, List.nodup_cons] at hnodup
    have hrest := fun ms => ih hnodup.2 ms
    by_cases hname : field = name
    · subst hname
      have hnone := member_eq_none_of_notMem hnodup.1
      cases value <;> simp [mergeMembers, hrest, hnone, member_setMember]
    · cases value <;> simp [mergeMembers, hrest, hname, member_setMember]

/-! ### Fields -/

/-- What can stand in a field: a value that is read back, and is neither `null` nor an object. -/
class LawfulSerde (α : Type) [Serde α] : Prop where
  /-- A value is read back. -/
  fromValue_toValue : ∀ x : α, Serde.fromValue (Serde.toValue x) = some x
  /-- A value is not `null`. -/
  ne_null : ∀ x : α, Serde.toValue x ≠ .null
  /-- A value is not an object. -/
  ne_obj : ∀ (x : α) members, Serde.toValue x ≠ .obj members

instance : LawfulSerde Bool := ⟨fun _ => rfl, fun _ h => (by cases h), fun _ _ h => (by cases h)⟩

instance : LawfulSerde String := ⟨fun _ => rfl, fun _ h => (by cases h), fun _ _ h => (by cases h)⟩

instance : LawfulSerde UInt64 := ⟨fun _ => rfl, fun _ h => (by cases h), fun _ _ h => (by cases h)⟩

instance : LawfulSerde UInt32 where
  fromValue_toValue x := by
    have h : x.toNat < 4294967296 := x.toNat_lt
    simp [Serde.fromValue, Serde.toValue, h]
  ne_null _ h := by cases h
  ne_obj _ _ h := by cases h

instance : LawfulSerde UInt8 where
  fromValue_toValue x := by
    have h : x.toNat < 256 := x.toNat_lt
    simp [Serde.fromValue, Serde.toValue, h]
  ne_null _ h := by cases h
  ne_obj _ _ h := by cases h

instance : LawfulSerde Int64 where
  fromValue_toValue x := by
    by_cases h : x < 0
    · simp [Serde.fromValue, Serde.toValue, h]
    · have hnat : x.toUInt64.toNat < 2 ^ 63 := by
        have hword := Lib.toNat_toUInt64 x
        have hnonneg : 0 ≤ x.toInt := by simpa [Int64.lt_iff_toInt_lt] using h
        have hlt := x.toInt_lt
        rw [if_pos hnonneg] at hword
        omega
      simp only [Serde.fromValue, Serde.toValue, h, dite_false, if_pos hnat]
      rfl
  ne_null x h := by
    by_cases hx : x < 0 <;> simp [Serde.toValue, hx] at h
  ne_obj x _ h := by
    by_cases hx : x < 0 <;> simp [Serde.toValue, hx] at h

/-- What a member says: nothing if it is missing or `null`. -/
def field (members : List (String × Json)) (name : String) : Option Json :=
  match member members name with
  | some .null => none
  | value => value

theorem readField_congr {members members' : List (String × Json)}
    (h : ∀ name, field members name = field members' name) {α : Type} [Serde α] (name : String) :
    readField (α := α) members name = readField members' name := by
  have hname := h name
  unfold field at hname
  unfold readField
  cases hvalue : member members name with
  | none => cases hvalue' : member members' name with
    | none => rfl
    | some value' => cases value' <;> simp_all
  | some value => cases hvalue' : member members' name with
    | none => cases value <;> simp_all
    | some value' => cases value <;> cases value' <;> simp_all

theorem field_cons_self {α : Type} [Serde α] [LawfulSerde α] (name : String) (x : Option α)
    (members : List (String × Json)) :
    field ((name, fieldValue x) :: members) name = x.map Serde.toValue := by
  cases x with
  | none => simp [field, fieldValue]
  | some x =>
    have hnull := LawfulSerde.ne_null x
    simp only [field, member_cons, fieldValue, Option.elim_some, if_true]
    cases hvalue : (Serde.toValue x : Json) <;> simp_all

theorem field_cons_of_ne {m : String × Json} {name : String} (h : m.1 ≠ name)
    (members : List (String × Json)) : field (m :: members) name = field members name := by
  simp [field, h]

/-- A record is read field by field. -/
theorem bind_readField {α β : Type} [Serde α] [LawfulSerde α] {members : List (String × Json)}
    {name : String} {x : Option α} {f : Option α → Option β} {b : Option β} (hrest : f x = b)
    (h : field members name = x.map Serde.toValue) : (readField members name >>= f) = b := by
  have hread : readField members name = some x := by
    unfold field at h
    cases x with
    | none => cases hvalue : member members name with
      | none => simp [readField, hvalue]
      | some value => cases value <;> simp_all [readField]
    | some x =>
      have hvalue : member members name = some (Serde.toValue x) := by
        cases hvalue : member members name with
        | none => simp [hvalue] at h
        | some value => cases value <;> simp_all
      have hnull := LawfulSerde.ne_null x
      have hback := LawfulSerde.fromValue_toValue x
      simp only [readField, hvalue]
      cases hx : (Serde.toValue x : Json) <;> simp_all
  rw [hread]
  exact hrest

theorem bind_readField_congr {α β : Type} [Serde α] {members members' : List (String × Json)}
    (h : ∀ name, field members name = field members' name) {name : String}
    {f g : Option α → Option β} (hrest : ∀ x, f x = g x) :
    (readField members name >>= f) = (readField members' name >>= g) := by
  rw [readField_congr h, funext hrest]

/-! ### Sections -/

/-- The members of two edits of a section, and of the edit with the fields of both; those of the
second win. -/
inductive Merged : List (String × Json) → List (String × Json) → List (String × Json) → Prop
  | nil : Merged [] [] []
  | cons {α : Type} [Serde α] [LawfulSerde α] {name : String} {current edit : Option α}
      {members patch result : List (String × Json)} : Merged members patch result →
      Merged ((name, fieldValue current) :: members) ((name, fieldValue edit) :: patch)
        ((name, fieldValue (edit.or current)) :: result)

theorem Merged.field {members patch result : List (String × Json)}
    (h : Merged members patch result) (name : String) :
    field result name = (field patch name).or (field members name) := by
  induction h with
  | nil => rfl
  | @cons _ _ _ name' current edit _ _ _ _ ih =>
    by_cases hname : name' = name
    · subst hname
      cases edit <;> simp [field_cons_self]
    · simp [field_cons_of_ne, hname, ih]

theorem Merged.ne_obj {members patch result : List (String × Json)} (h : Merged members patch result)
    {name : String} (fields : List (String × Json)) : member patch name ≠ some (.obj fields) := by
  induction h with
  | nil => simp
  | @cons α _ _ name' current edit _ _ _ _ ih =>
    by_cases hname : name' = name
    · cases edit with
      | none => simp [hname, fieldValue]
      | some x => simpa [hname, fieldValue] using LawfulSerde.ne_obj x fields
    · simpa [hname] using ih

theorem Merged.field_mergeMembers {members patch result : List (String × Json)}
    (h : Merged members patch result) (hnodup : (patch.map Prod.fst).Nodup) (name : String) :
    SmirkBackend.field (mergeMembers members patch) name = SmirkBackend.field result name := by
  have hmember := member_mergeMembers hnodup members name
  rw [h.field]
  cases hvalue : member patch name with
  | none => simp_all [SmirkBackend.field]
  | some value => cases value with
    | null => simp_all [SmirkBackend.field]
    | obj fields => exact absurd hvalue (h.ne_obj fields)
    | _ => simp_all [SmirkBackend.field, jsonMergeSkipNull]

/-- A section whose edits can be merged. -/
class SparseEdit (O : Type) [Serde O] where
  /-- The members of its object. -/
  members : O → List (String × Json)
  /-- The fields of two edits; those of the second win. -/
  merge : O → O → O
  /-- An edit is written as an object. -/
  toValue_eq : ∀ o : O, Serde.toValue o = .obj (members o)
  /-- Fields have different names. -/
  nodup : ∀ o : O, ((members o).map Prod.fst).Nodup
  /-- An edit is read back. -/
  fromValue_members : ∀ o : O, Serde.fromValue (.obj (members o)) = some o
  /-- An edit is read from its fields. -/
  fromValue_congr : ∀ {ms ms' : List (String × Json)}, (∀ name, field ms name = field ms' name) →
    (Serde.fromValue (.obj ms) : Option O) = Serde.fromValue (.obj ms')
  /-- Edits are merged field by field. -/
  merged : ∀ o p : O, Merged (members o) (members p) (members (merge o p))

instance : SparseEdit LandingOverlay where
  members o := [("enabled", fieldValue o.enabled), ("expose_chains", fieldValue o.exposeChains),
    ("expose_price_feed", fieldValue o.exposePriceFeed),
    ("expose_uptime", fieldValue o.exposeUptime), ("expose_version", fieldValue o.exposeVersion),
    ("stats_cache_hours", fieldValue o.statsCacheHours),
    ("stats_enabled", fieldValue o.statsEnabled), ("stats_min_users", fieldValue o.statsMinUsers),
    ("title", fieldValue o.title)]
  merge o p := ⟨p.enabled.or o.enabled, p.title.or o.title, p.exposeVersion.or o.exposeVersion,
    p.exposeChains.or o.exposeChains, p.exposePriceFeed.or o.exposePriceFeed,
    p.exposeUptime.or o.exposeUptime, p.statsEnabled.or o.statsEnabled,
    p.statsCacheHours.or o.statsCacheHours, p.statsMinUsers.or o.statsMinUsers⟩
  toValue_eq _ := rfl
  nodup _ := by simp only [List.map]; decide
  fromValue_members o := by
    show (readField _ _ >>= _) = _
    repeat apply bind_readField
    · rfl
    all_goals simp [field_cons_self, field_cons_of_ne]
  fromValue_congr h := by
    show (readField _ _ >>= _) = (readField _ _ >>= _)
    repeat refine bind_readField_congr h fun _ => ?_
    rfl
  merged o p := by repeat constructor

instance : SparseEdit RetentionOverlay where
  members o := [("audit_days", fieldValue o.auditDays),
    ("erasure_enabled", fieldValue o.erasureEnabled),
    ("export_per_day", fieldValue o.exportPerDay),
    ("grace_period_hours", fieldValue o.gracePeriodHours),
    ("login_events_days", fieldValue o.loginEventsDays),
    ("purge_login_events", fieldValue o.purgeLoginEvents)]
  merge o p := ⟨p.loginEventsDays.or o.loginEventsDays, p.auditDays.or o.auditDays,
    p.erasureEnabled.or o.erasureEnabled, p.purgeLoginEvents.or o.purgeLoginEvents,
    p.exportPerDay.or o.exportPerDay, p.gracePeriodHours.or o.gracePeriodHours⟩
  toValue_eq _ := rfl
  nodup _ := by simp only [List.map]; decide
  fromValue_members o := by
    show (readField _ _ >>= _) = _
    repeat apply bind_readField
    · rfl
    all_goals simp [field_cons_self, field_cons_of_ne]
  fromValue_congr h := by
    show (readField _ _ >>= _) = (readField _ _ >>= _)
    repeat refine bind_readField_congr h fun _ => ?_
    rfl
  merged o p := by repeat constructor

instance : SparseEdit RestoreOverlay where
  members o := [("max_depth_days", fieldValue o.maxDepthDays), ("policy", fieldValue o.policy),
    ("pow_days_per_bit", fieldValue o.powDaysPerBit), ("pow_free_days", fieldValue o.powFreeDays),
    ("pow_max_bits", fieldValue o.powMaxBits)]
  merge o p := ⟨p.policy.or o.policy, p.maxDepthDays.or o.maxDepthDays,
    p.powFreeDays.or o.powFreeDays, p.powDaysPerBit.or o.powDaysPerBit,
    p.powMaxBits.or o.powMaxBits⟩
  toValue_eq _ := rfl
  nodup _ := by simp only [List.map]; decide
  fromValue_members o := by
    show (readField _ _ >>= _) = _
    repeat apply bind_readField
    · rfl
    all_goals simp [field_cons_self, field_cons_of_ne]
  fromValue_congr h := by
    show (readField _ _ >>= _) = (readField _ _ >>= _)
    repeat refine bind_readField_congr h fun _ => ?_
    rfl
  merged o p := by repeat constructor

instance : SparseEdit ConsoleOverlay where
  members o := [("restart_apply_mode", fieldValue o.restartApplyMode)]
  merge o p := ⟨p.restartApplyMode.or o.restartApplyMode⟩
  toValue_eq _ := rfl
  nodup _ := by simp only [List.map]; decide
  fromValue_members o := by
    show (readField _ _ >>= _) = _
    repeat apply bind_readField
    · rfl
    all_goals simp [field_cons_self]
  fromValue_congr h := by
    show (readField _ _ >>= _) = (readField _ _ >>= _)
    repeat refine bind_readField_congr h fun _ => ?_
    rfl
  merged o p := by repeat constructor

instance : SparseEdit RegistrationOverlay where
  members o := [("gate_mode", fieldValue o.gateMode),
    ("payment_amount", fieldValue o.paymentAmount),
    ("payment_confirmations", fieldValue o.paymentConfirmations),
    ("payment_currency", fieldValue o.paymentCurrency),
    ("payment_expires_minutes", fieldValue o.paymentExpiresMinutes),
    ("require_invite", fieldValue o.requireInvite),
    ("require_payment", fieldValue o.requirePayment)]
  merge o p := ⟨p.requireInvite.or o.requireInvite, p.gateMode.or o.gateMode,
    p.requirePayment.or o.requirePayment, p.paymentAmount.or o.paymentAmount,
    p.paymentCurrency.or o.paymentCurrency, p.paymentConfirmations.or o.paymentConfirmations,
    p.paymentExpiresMinutes.or o.paymentExpiresMinutes⟩
  toValue_eq _ := rfl
  nodup _ := by simp only [List.map]; decide
  fromValue_members o := by
    show (readField _ _ >>= _) = _
    repeat apply bind_readField
    · rfl
    all_goals simp [field_cons_self, field_cons_of_ne]
  fromValue_congr h := by
    show (readField _ _ >>= _) = (readField _ _ >>= _)
    repeat refine bind_readField_congr h fun _ => ?_
    rfl
  merged o p := by repeat constructor

instance : SparseEdit PowOverlay where
  members o := [("cost", fieldValue o.cost), ("enabled", fieldValue o.enabled),
    ("required", fieldValue o.required)]
  merge o p := ⟨p.enabled.or o.enabled, p.required.or o.required, p.cost.or o.cost⟩
  toValue_eq _ := rfl
  nodup _ := by simp only [List.map]; decide
  fromValue_members o := by
    show (readField _ _ >>= _) = _
    repeat apply bind_readField
    · rfl
    all_goals simp [field_cons_self, field_cons_of_ne]
  fromValue_congr h := by
    show (readField _ _ >>= _) = (readField _ _ >>= _)
    repeat refine bind_readField_congr h fun _ => ?_
    rfl
  merged o p := by repeat constructor

instance : SparseEdit FeaturesOverlay where
  members o := [("chain_btc", fieldValue o.chainBtc), ("chain_grin", fieldValue o.chainGrin),
    ("chain_ltc", fieldValue o.chainLtc), ("chain_wow", fieldValue o.chainWow),
    ("chain_xmr", fieldValue o.chainXmr), ("grin_relay", fieldValue o.grinRelay),
    ("nostr_identity", fieldValue o.nostrIdentity), ("prices", fieldValue o.prices),
    ("prices_currency", fieldValue o.pricesCurrency),
    ("prices_interval_secs", fieldValue o.pricesIntervalSecs),
    ("prices_provider", fieldValue o.pricesProvider), ("tips", fieldValue o.tips)]
  merge o p := ⟨p.prices.or o.prices, p.pricesProvider.or o.pricesProvider,
    p.pricesIntervalSecs.or o.pricesIntervalSecs, p.pricesCurrency.or o.pricesCurrency,
    p.tips.or o.tips, p.nostrIdentity.or o.nostrIdentity, p.grinRelay.or o.grinRelay,
    p.chainBtc.or o.chainBtc, p.chainLtc.or o.chainLtc, p.chainXmr.or o.chainXmr,
    p.chainWow.or o.chainWow, p.chainGrin.or o.chainGrin⟩
  toValue_eq _ := rfl
  nodup _ := by simp only [List.map]; decide
  fromValue_members o := by
    show (readField _ _ >>= _) = _
    repeat apply bind_readField
    · rfl
    all_goals simp [field_cons_self, field_cons_of_ne]
  fromValue_congr h := by
    show (readField _ _ >>= _) = (readField _ _ >>= _)
    repeat refine bind_readField_congr h fun _ => ?_
    rfl
  merged o p := by repeat constructor

instance : SparseEdit RelayOverlay where
  members o := [("advertised_url", fieldValue o.advertisedUrl), ("enabled", fieldValue o.enabled),
    ("inbound_pow_bits", fieldValue o.inboundPowBits),
    ("max_event_bytes", fieldValue o.maxEventBytes), ("mode", fieldValue o.mode),
    ("retention_days", fieldValue o.retentionDays), ("write_policy", fieldValue o.writePolicy)]
  merge o p := ⟨p.enabled.or o.enabled, p.mode.or o.mode, p.advertisedUrl.or o.advertisedUrl,
    p.writePolicy.or o.writePolicy, p.inboundPowBits.or o.inboundPowBits,
    p.maxEventBytes.or o.maxEventBytes, p.retentionDays.or o.retentionDays⟩
  toValue_eq _ := rfl
  nodup _ := by simp only [List.map]; decide
  fromValue_members o := by
    show (readField _ _ >>= _) = _
    repeat apply bind_readField
    · rfl
    all_goals simp [field_cons_self, field_cons_of_ne]
  fromValue_congr h := by
    show (readField _ _ >>= _) = (readField _ _ >>= _)
    repeat refine bind_readField_congr h fun _ => ?_
    rfl
  merged o p := by repeat constructor

instance : SparseEdit PremiumOverlay where
  members o := [("currency", fieldValue o.currency), ("enabled", fieldValue o.enabled)]
  merge o p := ⟨p.enabled.or o.enabled, p.currency.or o.currency⟩
  toValue_eq _ := rfl
  nodup _ := by simp only [List.map]; decide
  fromValue_members o := by
    show (readField _ _ >>= _) = _
    repeat apply bind_readField
    · rfl
    all_goals simp [field_cons_self, field_cons_of_ne]
  fromValue_congr h := by
    show (readField _ _ >>= _) = (readField _ _ >>= _)
    repeat refine bind_readField_congr h fun _ => ?_
    rfl
  merged o p := by repeat constructor

instance (s : SettingsSection) : SparseEdit s.Edit :=
  match s with
  | .landing => inferInstanceAs (SparseEdit LandingOverlay)
  | .retention => inferInstanceAs (SparseEdit RetentionOverlay)
  | .restore => inferInstanceAs (SparseEdit RestoreOverlay)
  | .console => inferInstanceAs (SparseEdit ConsoleOverlay)
  | .registration => inferInstanceAs (SparseEdit RegistrationOverlay)
  | .pow => inferInstanceAs (SparseEdit PowOverlay)
  | .features => inferInstanceAs (SparseEdit FeaturesOverlay)
  | .relay => inferInstanceAs (SparseEdit RelayOverlay)
  | .premium => inferInstanceAs (SparseEdit PremiumOverlay)

section

variable {O : Type} [Serde O] [SparseEdit O]

theorem fromValue_mergeMembers (o p : O) :
    Serde.fromValue (.obj (mergeMembers (SparseEdit.members o) (SparseEdit.members p))) =
      some (SparseEdit.merge o p) := by
  rw [SparseEdit.fromValue_congr ((SparseEdit.merged o p).field_mergeMembers (SparseEdit.nodup p))]
  exact SparseEdit.fromValue_members _

/-- A section of a merged overlay. -/
def mergeEdit (current edit : Option O) : Option O :=
  match current, edit with
  | none, edit => edit
  | some o, none => some o
  | some o, some p => some (SparseEdit.merge o p)

theorem readField_section {members : List (String × Json)} {name : String} {x : Option O}
    (h : member members name = some (fieldValue x)) : readField members name = some x := by
  cases x with
  | none => simp [readField, h, fieldValue]
  | some o => simp [readField, h, fieldValue, SparseEdit.toValue_eq, SparseEdit.fromValue_members]

/-- A section of overlays merged as JSON. -/
theorem readField_mergeMembers {members patch : List (String × Json)}
    (hnodup : (patch.map Prod.fst).Nodup) {name : String} {current edit : Option O}
    (hcurrent : member members name = some (fieldValue current))
    (hedit : member patch name = some (fieldValue edit)) :
    readField (mergeMembers members patch) name = some (mergeEdit current edit) := by
  have hmember := member_mergeMembers hnodup members name
  rw [hcurrent, hedit] at hmember
  cases edit with
  | none =>
    have hsame : mergeEdit current none = current := by cases current <;> rfl
    rw [hsame]
    exact readField_section hmember
  | some p =>
    simp only [fieldValue, Option.elim_some, SparseEdit.toValue_eq] at hmember
    cases current with
    | none =>
      apply readField_section
      simpa [fieldValue, mergeEdit, SparseEdit.toValue_eq, jsonMergeSkipNull] using hmember
    | some o =>
      simp only [Option.elim_some, Option.getD_some, SparseEdit.toValue_eq,
        jsonMergeSkipNull] at hmember
      simp [readField, hmember, fromValue_mergeMembers, mergeEdit]

end

/-! ### Overlays -/

/-- The members of an overlay's object. -/
def SettingsOverlay.members (ov : SettingsOverlay) : List (String × Json) :=
  [("console", fieldValue ov.console), ("features", fieldValue ov.features),
    ("landing", fieldValue ov.landing), ("pow", fieldValue ov.pow),
    ("premium", fieldValue ov.premium), ("registration", fieldValue ov.registration),
    ("relay", fieldValue ov.relay), ("restore", fieldValue ov.restore),
    ("retention", fieldValue ov.retention)]

theorem SettingsOverlay.nodup (ov : SettingsOverlay) : (ov.members.map Prod.fst).Nodup := by
  simp only [members, List.map]
  decide

theorem SettingsOverlay.member_members (ov : SettingsOverlay) (s : SettingsSection) :
    member ov.members s.name = some (fieldValue (ov.get s)) := by
  cases s <;> simp [members, SettingsSection.name, get] <;> rfl

/-- An overlay with the fields of another. -/
def SettingsOverlay.merge (ov edit : SettingsOverlay) : SettingsOverlay :=
  .ofSections fun s => mergeEdit (ov.get s) (edit.get s)

@[simp] theorem SettingsOverlay.get_merge (ov edit : SettingsOverlay) (s : SettingsSection) :
    (ov.merge edit).get s = mergeEdit (ov.get s) (edit.get s) :=
  get_ofSections _ s

theorem SettingsOverlay.readField_merge (ov edit : SettingsOverlay) (s : SettingsSection) :
    readField (mergeMembers ov.members edit.members) s.name = some ((ov.merge edit).get s) := by
  rw [get_merge]
  exact readField_mergeMembers edit.nodup (ov.member_members s) (edit.member_members s)

theorem SettingsOverlay.merge_toValue (ov edit : SettingsOverlay) :
    jsonMergeSkipNull ov.toValue edit.toValue = .obj (mergeMembers ov.members edit.members) := by
  simp only [toValue, jsonMergeSkipNull, members]

/-- Merged as JSON and read back, two overlays are merged field by field. -/
theorem SettingsOverlay.fromValue_merge (ov edit : SettingsOverlay) :
    SettingsOverlay.fromValue (jsonMergeSkipNull ov.toValue edit.toValue) =
      some (ov.merge edit) := by
  rw [merge_toValue]
  exact fromMembers_eq_some_iff.mpr (ov.readField_merge edit)

end SmirkBackend
