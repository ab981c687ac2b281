import SmirkBackend.Config.Json

/-!
# The sections of an overlay

The sections by name, each with the type of its edit.  What is said of all sections alike is said
once, of a section that is a variable.
-/

namespace SmirkBackend

open Lib (Json)

/-- The sections of an overlay. -/
inductive SettingsSection
  | landing
  | retention
  | restore
  | console
  | registration
  | pow
  | features
  | relay
  | premium
  deriving DecidableEq

namespace SettingsSection

/-- The name of a section. -/
def name : SettingsSection → String
  | landing => "landing"
  | retention => "retention"
  | restore => "restore"
  | console => "console"
  | registration => "registration"
  | pow => "pow"
  | features => "features"
  | relay => "relay"
  | premium => "premium"

/-- The edit of a section. -/
def Edit : SettingsSection → Type
  | landing => LandingOverlay
  | retention => RetentionOverlay
  | restore => RestoreOverlay
  | console => ConsoleOverlay
  | registration => RegistrationOverlay
  | pow => PowOverlay
  | features => FeaturesOverlay
  | relay => RelayOverlay
  | premium => PremiumOverlay

instance (s : SettingsSection) : Serde s.Edit :=
  match s with
  | landing => inferInstanceAs (Serde LandingOverlay)
  | retention => inferInstanceAs (Serde RetentionOverlay)
  | restore => inferInstanceAs (Serde RestoreOverlay)
  | console => inferInstanceAs (Serde ConsoleOverlay)
  | registration => inferInstanceAs (Serde RegistrationOverlay)
  | pow => inferInstanceAs (Serde PowOverlay)
  | features => inferInstanceAs (Serde FeaturesOverlay)
  | relay => inferInstanceAs (Serde RelayOverlay)
  | premium => inferInstanceAs (Serde PremiumOverlay)

end SettingsSection

/-- A section of an overlay. -/
def SettingsOverlay.get (ov : SettingsOverlay) : (s : SettingsSection) → Option s.Edit
  | .landing => ov.landing
  | .retention => ov.retention
  | .restore => ov.restore
  | .console => ov.console
  | .registration => ov.registration
  | .pow => ov.pow
  | .features => ov.features
  | .relay => ov.relay
  | .premium => ov.premium

@[simp] theorem SettingsOverlay.get_default (s : SettingsSection) :
    SettingsOverlay.default.get s = none := by
  cases s <;> rfl

/-- An overlay is read exactly if all its sections are. -/
theorem SettingsOverlay.fromMembers_eq_some_iff {members : List (String × Json)}
    {ov : SettingsOverlay} : SettingsOverlay.fromMembers members = some ov ↔
      ∀ s : SettingsSection, readField members s.name = some (ov.get s) := by
  constructor
  · intro h
    simp only [fromMembers, Option.bind_eq_bind, Option.bind_eq_some_iff] at h
    obtain ⟨landing, hlanding, retention, hretention, restore, hrestore, console, hconsole,
      registration, hregistration, pow, hpow, features, hfeatures, relay, hrelay, premium, hpremium,
      hov⟩ := h
    obtain rfl := Option.some.inj hov
    intro s
    cases s <;> assumption
  · intro h
    simp only [fromMembers, show readField members "landing" = some ov.landing from h .landing,
      show readField members "retention" = some ov.retention from h .retention,
      show readField members "restore" = some ov.restore from h .restore,
      show readField members "console" = some ov.console from h .console,
      show readField members "registration" = some ov.registration from h .registration,
      show readField members "pow" = some ov.pow from h .pow,
      show readField members "features" = some ov.features from h .features,
      show readField members "relay" = some ov.relay from h .relay,
      show readField members "premium" = some ov.premium from h .premium]
    rfl

/-- The overlay with these sections. -/
def SettingsOverlay.ofSections (f : (s : SettingsSection) → Option s.Edit) : SettingsOverlay :=
  ⟨f .landing, f .retention, f .restore, f .console, f .registration, f .pow, f .features, f .relay,
    f .premium⟩

@[simp] theorem SettingsOverlay.get_ofSections (f : (s : SettingsSection) → Option s.Edit)
    (s : SettingsSection) : (SettingsOverlay.ofSections f).get s = f s := by
  cases s <;> rfl

theorem SettingsOverlay.ext_get {ov ov' : SettingsOverlay} (h : ∀ s, ov.get s = ov'.get s) :
    ov = ov' := by
  have hsec : ∀ o : SettingsOverlay, o = .ofSections o.get := fun _ => rfl
  rw [hsec ov, hsec ov', funext h]

end SmirkBackend
