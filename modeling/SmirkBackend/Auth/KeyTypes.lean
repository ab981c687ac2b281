import SmirkBackend.Auth.Writers

/-!
# Grin addresses and Grin keys

A Grin wallet publishes a key that signs and an address that is paid, which is bech32 text.  The two
belong in rows of different types, and `POST /keys` and the legacy import tell them apart by their
first letters.  Registration stores every key as a primary one, and bech32 text may be in upper
case, which the comparison with `grin1` does not see.

`storesKey_apart_iff` says which requests store addresses as addresses only.  Runs of such requests
keep addresses in rows of their own type (`grin_key_types_kept`), other requests do not
(`grin_key_types_mixed`).
-/

namespace SmirkBackend

open Lib (Table Patch Prog)

/-! ### Addresses -/

/-- The letters of bech32, by their value. -/
def bech32Charset : List Char := "qpzry9x8gf2tvdw0s3jn54khce6mua7l".toList

/-- The value of a letter. -/
def bech32Value (c : Char) : Option ℕ := bech32Charset.findIdx? fun c' => c' = c

/-- The generator of the checksum. -/
def bech32Generator : List ℕ := [0x3b6a57b2, 0x26508e6d, 0x1ea119fa, 0x3d4233dd, 0x2a1462b3]

/-- One value more under the checksum. -/
def bech32Step (chk v : ℕ) : ℕ :=
  (bech32Generator.zipIdx.filter fun g => (chk >>> 25).testBit g.2).foldl (fun c g => c ^^^ g.1)
    (((chk &&& 0x1ffffff) <<< 5) ^^^ v)

/-- The values that stand for the human-readable part. -/
def bech32Expand (hrp : List Char) : List ℕ :=
  (hrp.map fun c => c.toNat >>> 5) ++ 0 :: hrp.map fun c => c.toNat &&& 31

/-- The checksum of the text is right. -/
def bech32Checks (hrp : List Char) (values : List ℕ) : Bool :=
  (bech32Expand hrp ++ values).foldl bech32Step 1 = 1

/-- The values encode 32 bytes and a checksum: 52 letters, the last of them padded with zeros, and
six more. -/
def encodesKey (hrp : List Char) (data : List Char) : Bool :=
  data.length = 58 && (data.mapM bech32Value).any fun values =>
    bech32Checks hrp values && (values.getD 51 0) &&& 15 = 0

/-- The human-readable parts of Grin addresses. -/
def grinHrps : List String := ["grin", "tgrin"]

/-- Bech32 text of a 32-byte key under one of these, in lower case. -/
def isSlatepackText (text : List Char) : Bool :=
  grinHrps.any fun hrp => (hrp ++ "1").toList.isPrefixOf text &&
    encodesKey hrp.toList (text.drop (hrp ++ "1").toList.length)

/-- A Grin slatepack address, in any letter case. -/
def isSlatepackAddress (value : String) : Bool := isSlatepackText (value.toList.map Char.toLower)

/-- An address in lower case, and an alteration of it. -/
example :
    isSlatepackAddress "grin1qqqsyqcyq5rqwzqfpg9scrgwpugpzysnzs23v9ccrydpk8qarc0s90zndu" = true ∧
    isSlatepackAddress "grin1qqqsyqcyq5rqwzqfpg9scrgwpugpzysnzs23v9ccrydpk8qarc0s90zndq" = false := by
  decide +kernel

/-! ### Rows -/

/-- Addresses stand in rows of their own type. -/
structure AddressesApart (db : Db) : Prop where
  /-- No primary Grin key is an address. -/
  primary : ∀ k ∈ db.userKeys.rows, k.asset = .grin → k.keyType = "primary" →
    isSlatepackAddress k.publicKey = false
  /-- An address stands in a row of the slatepack type. -/
  slatepack : ∀ k ∈ db.userKeys.rows, isSlatepackAddress k.publicKey → k.keyType = "slatepack"

theorem addressesApart_iff {db : Db} : AddressesApart db ↔
    ∀ k ∈ db.userKeys.rows, isSlatepackAddress k.publicKey → k.keyType = "slatepack" := by
  constructor
  · exact fun h => h.slatepack
  · refine fun h => ⟨fun k hk _ htype => ?_, h⟩
    rw [Bool.eq_false_iff]
    intro haddress
    have hslatepack := h k hk haddress
    rw [htype] at hslatepack
    exact absurd hslatepack (by decide)

/-! ### Requests -/

/-- No key that is reached is an address. -/
def NoAddress (keys : List AssetPublicKey) : Prop :=
  ∀ k ∈ storable keys, isSlatepackAddress k.publicKey = false

/-- The address is registered for Grin in lower case, or its row is asked for: neither for an
encryption key, nor for a primary key that is not seen to be an address. -/
def AddressPlaced (asset : AssetType) (publicKey : String) (keyType : Option String) : Prop :=
  match presented keyType with
  | none => asset = .grin ∧ isGrinSlatepackAddress publicKey
  | some requested => eqIgnoreAsciiCase "enc" requested = false ∧
      (eqIgnoreAsciiCase "primary" requested → isGrinSlatepackAddress publicKey)

/-- A request that stores addresses as addresses only. -/
def WriterCall.KeysApart (env : WebsiteEnv) : WriterCall → Prop
  | extension a req => ExtensionAccepted env.auth a req → NoAddress req.keys
  | nostr a req => NostrAccepted env.auth a req → NoAddress req.keys
  | registerKey bearer req => bearer.isOk → ∀ asset, parseAsset req.key.asset = .ok asset →
      isSlatepackAddress req.key.publicKey → AddressPlaced asset req.key.publicKey req.keyType
  | setUsername _ _ => True
  | website a req => ∀ identity, ImportAccepted env a req identity → ∀ k ∈ identity.keys,
      ∀ asset, parseAsset k.asset = .ok asset → isSlatepackAddress k.publicKey →
        asset = .grin ∧ isGrinSlatepackAddress k.publicKey

theorem keyTypeFor_eq_slatepack_iff {asset : AssetType} {publicKey : String} :
    keyTypeFor asset publicKey = "slatepack" ↔
      asset = .grin ∧ isGrinSlatepackAddress publicKey := by
  unfold keyTypeFor
  split_ifs with h
  · simpa using h
  · simpa using h

theorem not_enc_of_primary {requested : String} (h : eqIgnoreAsciiCase "primary" requested) :
    eqIgnoreAsciiCase "enc" requested = false := by
  simp only [eqIgnoreAsciiCase, decide_eq_true_eq, decide_eq_false_iff_not] at h ⊢
  rw [← h]
  decide +kernel

theorem resolveKeyType_slatepack_iff {asset : AssetType} {publicKey : String}
    {requested : Option String} :
    (∀ keyType, resolveKeyType asset publicKey requested = .ok keyType → keyType = "slatepack") ↔
      AddressPlaced asset publicKey requested := by
  unfold resolveKeyType AddressPlaced
  cases presented requested with
  | none =>
    simp only [Except.ok.injEq, forall_eq']
    exact keyTypeFor_eq_slatepack_iff
  | some t =>
    simp only [allowedKeyTypes, List.find?_cons]
    cases hprimary : eqIgnoreAsciiCase "primary" t with
    | true =>
      cases isGrinSlatepackAddress publicKey <;> simp [not_enc_of_primary hprimary]
    | false =>
      cases henc : eqIgnoreAsciiCase "enc" t with
      | true => simp
      | false => cases eqIgnoreAsciiCase "slatepack" t <;> simp

theorem primary_ne_slatepack : "primary" ≠ "slatepack" := by decide

theorem noAddress_iff {keys : List AssetPublicKey} :
    NoAddress keys ↔ ∀ k ∈ storable keys, ∀ (u : Uuid) asset, parseAsset k.asset = .ok asset →
      isSlatepackAddress (k.row u asset).publicKey → (k.row u asset).keyType = "slatepack" := by
  constructor
  · intro h k hk u asset _ haddress
    exact absurd haddress (by simp [AssetPublicKey.row, h k hk])
  · intro h k hk
    rw [Bool.eq_false_iff]
    intro haddress
    have hparse : (parseAsset k.asset).isOk :=
      List.all_eq_true.mp List.all_takeWhile k hk
    cases hasset : parseAsset k.asset with
    | error e =>
      rw [hasset] at hparse
      cases hparse
    | ok asset => exact primary_ne_slatepack (h k hk 0 asset hasset haddress)

/-- **A request stores addresses as addresses only, if and only if it keeps them apart.** -/
theorem storesKey_apart_iff {env : WebsiteEnv} {call : WriterCall} : call.KeysApart env ↔
    ∀ k, call.StoresKey env k → isSlatepackAddress k.publicKey → k.keyType = "slatepack" := by
  cases call with
  | extension a req =>
    simp only [WriterCall.KeysApart, noAddress_iff]
    constructor
    · rintro h _ (⟨haccepted, hk, hasset⟩)
      exact h haccepted _ hk _ _ hasset
    · exact fun h haccepted k hk u asset hasset => h _ (.extension haccepted hk hasset)
  | nostr a req =>
    simp only [WriterCall.KeysApart, noAddress_iff]
    constructor
    · rintro h _ (_ | ⟨haccepted, hk, hasset⟩)
      exact h haccepted _ hk _ _ hasset
    · exact fun h haccepted k hk u asset hasset => h _ (.nostr haccepted hk hasset)
  | registerKey bearer req =>
    constructor
    · rintro h _ (_ | _ | ⟨hasset, htype⟩) haddress
      exact resolveKeyType_slatepack_iff.mpr (h rfl _ hasset haddress) _ htype
    · intro h hbearer asset hasset haddress
      cases bearer with
      | error e => cases hbearer
      | ok info =>
        refine resolveKeyType_slatepack_iff.mp fun keyType htype => ?_
        have hstores : WriterCall.StoresKey env (.registerKey (.ok info) req)
            ⟨info.userId, asset, req.key.publicKey, req.key.publicSpendKey, keyType⟩ :=
          .registerKey hasset htype
        exact h _ hstores haddress
  | setUsername bearer username =>
    constructor
    · rintro - _ ⟨⟩
    · exact fun _ => trivial
  | website a req =>
    constructor
    · rintro h _ (_ | _ | _ | ⟨haccepted, hk, hasset⟩) haddress
      exact keyTypeFor_eq_slatepack_iff.mpr (h _ haccepted _ hk _ hasset haddress)
    · intro h identity haccepted k hk asset hasset haddress
      exact keyTypeFor_eq_slatepack_iff.mp
        (h _ (.website (u := 0) haccepted hk hasset) haddress)

/-! ### Runs -/

/-- What others do: they store no key. -/
def StoresNoKey (w w' : World) : Prop :=
  ∀ k ∈ w'.db.userKeys.rows, k ∈ w.db.userKeys.rows

theorem AddressesApart.writes {N : String → Prop} {env : WebsiteEnv} {call : WriterCall}
    {w w' : World} (hcall : call.KeysApart env) (hw : Writes (call.StoresKey env) N w w')
    (h : AddressesApart w.db) : AddressesApart w'.db := by
  rw [addressesApart_iff] at h ⊢
  intro k hk haddress
  rcases hw.keys k hk with hold | hnew
  · exact h k hold haddress
  · exact storesKey_apart_iff.mp hcall k hnew haddress

/-- **Addresses stay apart from keys** in every run of registrations, `POST /keys`, changes of
names and legacy imports, if every request keeps them apart. -/
theorem grin_key_types_kept {ι : Type} [DecidableEq ι] (env : WebsiteEnv) (call : ι → WriterCall)
    (hcalls : ∀ i, (call i).KeysApart env) (w₀ : World) (hstart : AddressesApart w₀.db)
    {es : List (Prog.Event ι World)} {c : World × (ι → Handler Unit)}
    (hrun : (Prog.pool StoresNoKey).Run (w₀, fun i => (call i).handler env) es c) :
    (∀ e ∈ es, AddressesApart e.pre.db) ∧ AddressesApart c.1.db := by
  refine Prog.invariant_of_run (I := fun w => AddressesApart w.db) hrun ?_ hstart
  rintro es₁ e es₂ rfl - h
  obtain ⟨henv, hcall⟩ := Prog.event_of_run (fun i => Writes.refl) hrun
    (fun i => steps_writer env (call i)) e (by simp)
  cases hwho : e.who with
  | none =>
    rw [addressesApart_iff] at h ⊢
    exact fun k hk => h k (henv hwho k hk)
  | some i => exact h.writes (hcalls i) (hcall i hwho)

/-! ### Samples -/

/-- An address, as wallets write it. -/
def sampleAddress : String := "grin1qqqsyqcyq5rqwzqfpg9scrgwpugpzysnzs23v9ccrydpk8qarc0s90zndu"

/-- The address in upper case. -/
def capitalAddress : String := "GRIN1QQQSYQCYQ5RQWZQFPG9SCRGWPUGPZYSNZS23V9CCRYDPK8QARC0S90ZNDU"

/-- The instance of the other samples; letters are those of ASCII. -/
def sampleWebsiteEnv : WebsiteEnv where
  auth := sampleEnv
  verifyEd25519Signature _ sig key :=
    if sig = key then .ok () else .error (.authError "signature verification failed")
  lowercase := toLowercase

/-- A wallet registers with its BTC key, and its address by `POST /keys`. -/
def placedCall : Fin 2 → WriterCall
  | 0 => .extension (sampleAnswers 2) (walletRequest "K" none)
  | 1 => .registerKey (.ok ⟨2, none⟩) ⟨⟨"grin", sampleAddress, none⟩, none⟩

/-- The two requests, about to begin on an empty database. -/
def placedStart : World × (Fin 2 → Handler Unit) :=
  (⟨Db.empty, 0⟩, fun i => (placedCall i).handler sampleWebsiteEnv)

/-- One request after the other. -/
def placedTurns : List (Fin 2 × ℕ) := [(0, 6), (1, 2)]

theorem grin_key_types_kept_sample :
    AddressesApart (Prog.play placedTurns placedStart).1.db ∧
      (((Prog.play placedTurns placedStart).1.db.userKeys.get? (2, .grin, "slatepack")).map
        UserKeyRow.publicKey) = some sampleAddress := by
  have hcalls : ∀ i, (placedCall i).KeysApart sampleWebsiteEnv := by
    intro i
    match i with
    | 0 =>
      intro _ k hk
      have hmem : k ∈ (walletRequest "K" none).keys := (List.takeWhile_prefix _).subset hk
      obtain rfl := List.mem_singleton.mp hmem
      decide +kernel
    | 1 =>
      intro _ asset hasset _
      obtain rfl : AssetType.grin = asset := by
        have hparse : parseAsset "grin" = .ok .grin := by decide +kernel
        exact Except.ok.inj (hparse.symm.trans hasset)
      exact ⟨rfl, by decide +kernel⟩
  exact ⟨(grin_key_types_kept sampleWebsiteEnv placedCall hcalls ⟨Db.empty, 0⟩
    ⟨nofun, nofun⟩ (Prog.run_play StoresNoKey placedTurns placedStart)).2, by decide +kernel⟩

/-- A wallet registers with its address among its keys, and later registers the address by
`POST /keys`, in upper case. -/
def addressCall : Fin 2 → WriterCall
  | 0 => .extension (sampleAnswers 2)
      { walletRequest "K" none with keys := [⟨"btc", "K", none⟩, ⟨"grin", sampleAddress, none⟩] }
  | 1 => .registerKey (.ok ⟨2, none⟩) ⟨⟨"grin", capitalAddress, none⟩, none⟩

/-- The two requests, about to begin on an empty database. -/
def addressStart : World × (Fin 2 → Handler Unit) :=
  (⟨Db.empty, 0⟩, fun i => (addressCall i).handler sampleWebsiteEnv)

/-- The primary Grin key of the user, after some turns. -/
def primaryGrinKey (turns : List (Fin 2 × ℕ)) : Option String :=
  ((Prog.play turns addressStart).1.db.userKeys.get? (2, .grin, "primary")).map
    UserKeyRow.publicKey

theorem not_addressesApart_of_primary {db : Db} {u : Uuid} {address : String}
    (h : (db.userKeys.get? (u, .grin, "primary")).map UserKeyRow.publicKey = some address)
    (haddress : isSlatepackAddress address) : ¬ AddressesApart db := by
  intro hapart
  obtain ⟨k, hk, rfl⟩ := Option.map_eq_some_iff.mp h
  have hkey : Lib.key k = (u, AssetType.grin, "primary") := Table.key_of_get? hk
  have hasset : k.asset = .grin := congrArg (fun x => x.2.1) hkey
  have htype : k.keyType = "primary" := congrArg (fun x => x.2.2) hkey
  have hfalse := hapart.primary k (Table.mem_of_get? hk) hasset htype
  rw [haddress] at hfalse
  cases hfalse

/-- Registration stores an address as a primary key; so does `POST /keys` in upper case. -/
theorem grin_key_types_mixed :
    ¬ (∀ (es : List (Prog.Event (Fin 2) World)) (c : World × (Fin 2 → Handler Unit)),
      (Prog.pool StoresNoKey).Run addressStart es c → AddressesApart c.1.db) ∧
    primaryGrinKey [(0, 6)] = some sampleAddress ∧
    primaryGrinKey [(0, 6), (1, 2)] = some capitalAddress ∧
    isSlatepackAddress sampleAddress = true ∧ isSlatepackAddress capitalAddress = true := by
  have hsample : primaryGrinKey [(0, 6)] = some sampleAddress := by decide +kernel
  have haddress : isSlatepackAddress sampleAddress = true := by decide +kernel
  refine ⟨fun hclaim => ?_, hsample, by decide +kernel, haddress, by decide +kernel⟩
  exact not_addressesApart_of_primary hsample haddress
    (hclaim _ _ (Prog.run_play StoresNoKey [(0, 6)] addressStart))

end SmirkBackend
