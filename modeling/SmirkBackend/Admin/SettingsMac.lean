import SmirkBackend.Admin.ConfigPut
import SmirkBackend.Admin.Mac
import SmirkBackend.Lib.JsonOrder

/-!
# The keyed hash of stored settings

A stored section carries a keyed hash of its name, its version and a canonical text of its document.
The store may reorder the members of objects: the canonical text does not depend on their order.
Otherwise it determines the document, and the hashed message determines all three parts, whatever
the name of the section holds.

`canonicalJson_eq` : the canonical text is the text of the sorted document.  `settings_mac_binds` :
the keyed hash binds a section up to the order of members (`SettingsBound`).
-/

namespace SmirkBackend

open Lib (Json KeyOrder FloatText intText quoted sortMembers sortedItems sortedMembers)

/-! ### Canonical text -/

/-- `join(",")`. -/
def joinComma : List (List Char) → List Char
  | [] => []
  | [t] => t
  | t :: t' :: rest => t ++ ',' :: joinComma (t' :: rest)

/-- The entries in the order of their keys. -/
def sortKeys (entries : List (String × List Char)) : List (String × List Char) :=
  entries.insertionSort fun a b => a.1 ≤ b.1

mutual

/-- `canonical_json`: the texts of the values are formed before the keys are sorted. -/
def canonicalJson (ft : FloatText) : Json → List Char
  | .obj members =>
    '\x7b' :: (joinComma ((sortKeys (canonicalMembers ft members)).map fun e =>
      quoted e.1 ++ ':' :: e.2) ++ ['\x7d'])
  | .arr items => '[' :: (joinComma (canonicalItems ft items) ++ [']'])
  | j => j.text ft

/-- The texts of items. -/
def canonicalItems (ft : FloatText) : List Json → List (List Char)
  | [] => []
  | j :: rest => canonicalJson ft j :: canonicalItems ft rest

/-- The texts of the values of members. -/
def canonicalMembers (ft : FloatText) : List (String × Json) → List (String × List Char)
  | [] => []
  | (name, j) :: rest => (name, canonicalJson ft j) :: canonicalMembers ft rest

end

theorem joinComma_cons (t : List Char) (ts : List (List Char)) :
    joinComma (t :: ts) = t ++ ts.flatMap fun t' => ',' :: t' := by
  induction ts generalizing t with
  | nil => simp [joinComma]
  | cons t' rest ih => simp [joinComma, ih]

theorem restText_eq (ft : FloatText) (items : List Json) :
    Lib.restText ft items = ((items.map (Json.text ft)).flatMap fun t => ',' :: t) ++ [']'] := by
  induction items with
  | nil => rfl
  | cons j rest ih => simp [Lib.restText, ih]

theorem itemsText_eq (ft : FloatText) (items : List Json) :
    Lib.itemsText ft items = joinComma (items.map (Json.text ft)) ++ [']'] := by
  cases items with
  | nil => rfl
  | cons j rest => rw [Lib.itemsText, List.map_cons, joinComma_cons, restText_eq, List.append_assoc]

/-- The text of a member. -/
def memberText (ft : FloatText) (m : String × Json) : List Char := quoted m.1 ++ ':' :: m.2.text ft

theorem restMembersText_eq (ft : FloatText) (members : List (String × Json)) :
    Lib.restMembersText ft members =
      ((members.map (memberText ft)).flatMap fun t => ',' :: t) ++ ['\x7d'] := by
  induction members with
  | nil => rfl
  | cons m rest ih => simp [Lib.restMembersText, memberText, ih]

theorem membersText_eq (ft : FloatText) (members : List (String × Json)) :
    Lib.membersText ft members = joinComma (members.map (memberText ft)) ++ ['\x7d'] := by
  cases members with
  | nil => rfl
  | cons m rest =>
    rw [Lib.membersText, List.map_cons, joinComma_cons, restMembersText_eq]
    simp [memberText]

theorem sortKeys_map (ft : FloatText) (members : List (String × Json)) :
    sortKeys (members.map fun m => (m.1, m.2.text ft)) =
      (sortMembers members).map fun m => (m.1, m.2.text ft) := by
  unfold sortKeys sortMembers
  exact (List.map_insertionSort _ _ (fun m : String × Json => (m.1, m.2.text ft)) members
    fun _ _ _ _ => Iff.rfl).symm

mutual

/-- The canonical text is the text of the sorted document. -/
theorem canonicalJson_eq (ft : FloatText) (j : Json) : canonicalJson ft j = j.sorted.text ft := by
  match j with
  | .null => rfl
  | .bool b => rfl
  | .num n => rfl
  | .str s => rfl
  | .arr items => rw [canonicalJson, Json.sorted, Json.text, itemsText_eq, canonicalItems_eq]
  | .obj members =>
    rw [canonicalJson, Json.sorted, Json.text, membersText_eq, canonicalMembers_eq, sortKeys_map,
      List.map_map]
    rfl

theorem canonicalItems_eq (ft : FloatText) (items : List Json) :
    canonicalItems ft items = (sortedItems items).map (Json.text ft) := by
  match items with
  | [] => rfl
  | j :: rest =>
    rw [canonicalItems, sortedItems, List.map_cons, canonicalJson_eq, canonicalItems_eq]

theorem canonicalMembers_eq (ft : FloatText) (members : List (String × Json)) :
    canonicalMembers ft members = (sortedMembers members).map fun m => (m.1, m.2.text ft) := by
  match members with
  | [] => rfl
  | (name, j) :: rest =>
    rw [canonicalMembers, sortedMembers, List.map_cons, canonicalJson_eq, canonicalMembers_eq]

end

theorem canonicalJson_eq_iff (ft : FloatText) {a b : Json} (ha : a.Distinct) (hb : b.Distinct) :
    canonicalJson ft a = canonicalJson ft b ↔ KeyOrder a b := by
  rw [canonicalJson_eq, canonicalJson_eq, ← Lib.sorted_eq_iff ha hb]
  have hends : Lib.Ends [] := by simp [Lib.Ends]
  exact ⟨fun h => (Lib.text_cancel ft hends hends (by rw [h])).1, congrArg (Json.text ft)⟩

/-! ### The hashed message -/

/-- What `settings_mac` hashes. -/
def settingsMessage (ft : FloatText) (sec : String) (version : Int64) (doc : Json) : String :=
  pepperedMessage "operator_settings"
    (sec ++ String.singleton unitSeparator ++ toString version.toInt ++
      String.singleton unitSeparator ++ String.ofList (canonicalJson ft doc))

/-- `settings_mac`. -/
def settingsMac (ft : FloatText) (hmac : String → String) (sec : String) (version : Int64)
    (doc : Json) : String :=
  pepperedHex hmac "operator_settings"
    (sec ++ String.singleton unitSeparator ++ toString version.toInt ++
      String.singleton unitSeparator ++ String.ofList (canonicalJson ft doc))

theorem settingsMac_eq (ft : FloatText) (hmac : String → String) (sec : String) (version : Int64)
    (doc : Json) : settingsMac ft hmac sec version doc = hmac (settingsMessage ft sec version doc) :=
  rfl

/-- The hashed message determines the parts: no separator occurs behind the name. -/
theorem settingsMessage_eq_iff (ft : FloatText) {sec sec' : String} {version version' : Int64}
    {a b : Json} (ha : a.Distinct) (hb : b.Distinct) :
    settingsMessage ft sec version a = settingsMessage ft sec' version' b ↔
      sec = sec' ∧ version = version' ∧ KeyOrder a b := by
  rw [← canonicalJson_eq_iff ft ha hb]
  refine ⟨fun h => ?_, ?_⟩
  · have hvalue := (pepperedMessage_inj (by decide) (by decide) h).2
    have hlist := congrArg String.toList hvalue
    have htext (doc : Json) : unitSeparator ∉ canonicalJson ft doc :=
      canonicalJson_eq ft doc ▸ notMem_of_printable (Lib.printable_text ft doc.sorted)
    have hversion (version : Int64) : unitSeparator ∉ intText version.toInt := by
      intro hmem
      rcases Lib.mem_intText hmem with hdigit | hminus
      · exact absurd hdigit (by decide)
      · exact absurd hminus (by decide)
    have hint (version : Int64) : (toString version.toInt).toList = intText version.toInt := rfl
    simp only [String.toList_append, String.toList_singleton, String.toList_ofList, hint,
      List.append_assoc, List.singleton_append] at hlist
    -- split at the last separator, and at the one before
    simp only [← List.append_assoc] at hlist
    obtain ⟨hfields, hdoc⟩ := split_last (htext a) (htext b) hlist
    obtain ⟨hsec, hver⟩ := split_last (hversion version) (hversion version') hfields
    exact ⟨String.toList_inj.mp hsec, Int64.toInt_inj.mp (Lib.intText_injective hver), hdoc⟩
  · rintro ⟨rfl, rfl, hdoc⟩
    rw [settingsMessage, settingsMessage, hdoc]

/-! ### Stored rows -/

/-- The message of a row. -/
def OperatorSettingRow.message (ft : FloatText) (r : OperatorSettingRow) : String :=
  settingsMessage ft r.section r.version r.doc

/-- Nobody without the secret knows the keyed hash of a message other than those of the rows that
were written: a row with a right hash has the message of one of them. -/
def SettingsUnforged (ft : FloatText) (hmac : String → String) (written : List OperatorSettingRow)
    (r : OperatorSettingRow) : Prop :=
  hmac (r.message ft) = r.integrityMac → ∃ w ∈ written, w.message ft = r.message ft

theorem settingsUnforged_of_injective {ft : FloatText} {hmac : String → String}
    (hinj : Function.Injective hmac) {written : List OperatorSettingRow} {w r : OperatorSettingRow}
    (hw : w ∈ written) (h : r.integrityMac = hmac (w.message ft)) :
    SettingsUnforged ft hmac written r :=
  fun hmac' => ⟨w, hw, (hinj (hmac'.trans h)).symm⟩

/-- What the keyed hash of an instance binds. -/
structure SettingsBound (ft : FloatText) (hmac : String → String) (env : SettingsEnv) : Prop where
  /-- The canonical text is that of a document up to the order of members. -/
  canonical : ∀ a b : Json, a.Distinct → b.Distinct →
    (canonicalJson ft a = canonicalJson ft b ↔ KeyOrder a b)
  /-- The hashed message has one section, one version and one such document. -/
  message : ∀ (sec sec' : String) (version version' : Int64) (a b : Json),
    a.Distinct → b.Distinct →
    (settingsMessage ft sec version a = settingsMessage ft sec' version' b ↔
      sec = sec' ∧ version = version' ∧ KeyOrder a b)
  /-- The keyed hash is that of the message. -/
  hashed : ∀ (sec : String) (version : Int64) (doc : Json),
    env.settingsMac sec version doc = hmac (settingsMessage ft sec version doc)
  /-- A row that is not forged verifies exactly when it is a written one with the members of its
  document in some order. -/
  rows : ∀ (written : List OperatorSettingRow) (r : OperatorSettingRow), r.doc.Distinct →
    (∀ w ∈ written, w.doc.Distinct ∧ verifySettingsMac env w = true) →
    SettingsUnforged ft hmac written r →
    (verifySettingsMac env r = true ↔ ∃ w ∈ written, r.section = w.section ∧
      r.version = w.version ∧ KeyOrder r.doc w.doc ∧ r.integrityMac = w.integrityMac)

/-- **The keyed hash of settings is canonical and binding.** -/
theorem settings_mac_binds (ft : FloatText) (hmac : String → String) (env : SettingsEnv) :
    SettingsBound ft hmac { env with settingsMac := settingsMac ft hmac } where
  canonical _ _ := canonicalJson_eq_iff ft
  message _ _ _ _ _ _ := settingsMessage_eq_iff ft
  hashed := settingsMac_eq ft hmac
  rows written r hr hwritten hunforged := by
    have hverify (r : OperatorSettingRow) :
        verifySettingsMac { env with settingsMac := settingsMac ft hmac } r = true ↔
          hmac (r.message ft) = r.integrityMac := decide_eq_true_iff
    rw [hverify]
    constructor
    · intro h
      obtain ⟨w, hw, hmsg⟩ := hunforged h
      obtain ⟨hdistinct, hmac'⟩ := hwritten w hw
      obtain ⟨hsec, hversion, hdoc⟩ := (settingsMessage_eq_iff ft hdistinct hr).mp hmsg
      refine ⟨w, hw, hsec.symm, hversion.symm, hdoc.symm, ?_⟩
      rw [← h, ← hmsg, (hverify w).mp hmac']
    · rintro ⟨w, hw, hsec, hversion, hdoc, heq⟩
      obtain ⟨hdistinct, hmac'⟩ := hwritten w hw
      have hmsg : r.message ft = w.message ft :=
        (settingsMessage_eq_iff ft hr hdistinct).mpr ⟨hsec, hversion, hdoc⟩
      rw [hmsg, heq, (hverify w).mp hmac']

/-- A page with a title, on or off. -/
def shopDoc (enabled : Bool) : Json := .obj [("enabled", .bool enabled), ("title", .str "Shop")]

/-- The page that is on, as the store may return it. -/
def reorderedShop : Json := .obj [("title", .str "Shop"), ("enabled", .bool true)]

/-- A row with the hash of the page that is on; the keyed hash is the message itself. -/
def shopRow (doc : Json) : OperatorSettingRow :=
  ⟨"landing", doc, 3, some 1, settingsMessage .bits "landing" 3 (shopDoc true)⟩

/-- The instance of these rows. -/
def shopSettings : SettingsEnv := { sampleSettings with settingsMac := settingsMac .bits id }

theorem ordered_shopDoc (enabled : Bool) : (shopDoc enabled).Ordered :=
  ⟨show ["enabled", "title"].Pairwise (· < ·) by decide, trivial, trivial, trivial⟩

/-- The written row verifies with its members in another order, and not with the page off. -/
theorem reordered_row_verifies :
    verifySettingsMac shopSettings (shopRow reorderedShop) = true ∧
      verifySettingsMac shopSettings (shopRow (shopDoc false)) = false := by
  have hshop (enabled : Bool) : (shopDoc enabled).Distinct := ⟨by simp, trivial, trivial, trivial⟩
  have hwritten : ∀ w ∈ [shopRow (shopDoc true)],
      w.doc.Distinct ∧ verifySettingsMac shopSettings w = true := by
    intro w hw
    obtain rfl := List.mem_singleton.mp hw
    exact ⟨hshop true, decide_eq_true (settingsMac_eq .bits id _ _ _)⟩
  have hunforged (doc : Json) :
      SettingsUnforged .bits id [shopRow (shopDoc true)] (shopRow doc) :=
    settingsUnforged_of_injective Function.injective_id (List.mem_singleton_self _) rfl
  have hrows := (settings_mac_binds .bits id sampleSettings).rows [shopRow (shopDoc true)]
  constructor
  · refine (hrows (shopRow reorderedShop) ⟨by simp, trivial, trivial, trivial⟩ hwritten
      (hunforged _)).mpr ⟨_, List.mem_singleton_self _, rfl, rfl, ?_, rfl⟩
    exact .perm (by simp) (.swap _ _ _)
  · rw [Bool.eq_false_iff]
    intro hverifies
    obtain ⟨w, hw, -, -, horder, -⟩ :=
      (hrows (shopRow (shopDoc false)) (hshop false) hwritten (hunforged _)).mp hverifies
    obtain rfl := List.mem_singleton.mp hw
    have hsorted : (shopDoc false).sorted = (shopDoc true).sorted := horder.sorted_eq
    rw [Lib.sorted_of_ordered (ordered_shopDoc false),
      Lib.sorted_of_ordered (ordered_shopDoc true)] at hsorted
    simp [shopDoc] at hsorted

end SmirkBackend
