import SmirkBackend.Auth.Statements

/-!
# Names and keys that requests write

Registration, `POST /keys`, the change of a name and website sign-in write the names of users and
the rows of `user_keys`.  Every row that a statement leaves was there before or comes from the
request: the name and the keys it submits, with the type the endpoint gives them
(`WriterCall.StoresName`, `WriterCall.StoresKey`).

`steps_writer` : no statement of a request writes any other key or name.
-/

namespace SmirkBackend

open Lib (Table Patch Prog)

/-! ### The change of a name -/

namespace Users

/-- `RESERVED_USERNAMES`. -/
def reservedUsernames : List String :=
  ["admin", "administrator", "root", "support", "help", "smirk", "smirkcash", "official", "mod",
    "moderator", "system", "security", "team", "staff", "billing", "payment", "payments", "wallet",
    "info", "contact", "abuse", "noreply", "api", "www", "satoshi"]

/-- `users::validate_username`: the checks of registration, and the reserved names. -/
def validateUsername (username : String) : Except AppError Unit :=
  if username.utf8ByteSize < 3 || username.utf8ByteSize > 32 then
    .error (.validationError "Username must be 3-32 characters")
  else if !username.toList.all fun c => c.isLower || c.isDigit || c = '_' then
    .error (.validationError
      "Username must contain only lowercase letters, numbers, and underscores")
  else if username.toList.head? = some '_' || username.toList.getLast? = some '_' then
    .error (.validationError "Username cannot start or end with underscore")
  else if reservedUsernames.contains username then
    .error (.conflict "That username is not available")
  else .ok ()

end Users

theorem validateUsername_iff {username : String} :
    Users.validateUsername username = .ok () ↔
      validateUsername username = .ok () ∧ username ∉ Users.reservedUsernames := by
  unfold Users.validateUsername validateUsername
  split_ifs with hlen halpha hends hres
  · simp
  · simp
  · simp
  · simpa using hres
  · simpa using hres

/-- `update_username`. -/
def updateUsername (u : Uuid) (username : Option String) : Handler UserRow :=
  execute fun _ db =>
    match db.updateUser u { set := fun r => { r with username := username } } with
    | (.ok (some r), db') => (.ok r, db')
    | (.ok none, db') => (.error (.databaseError "no rows returned"), db')
    | (.error _, db') => (.error (.conflict "That username is not available"), db')

/-- `set_username`; the answer is the name as it is stored. -/
def setUsername (env : WebsiteEnv) (bearer : Except AppError TokenInfo) (username : String) :
    Handler String := do
  let user ← extractUserIdFromToken bearer
  .ofExcept (Users.validateUsername (env.lowercase username))
  let _ ← updateUsername user (some (env.lowercase username))
  return env.lowercase username

/-! ### Requests that write -/

/-- A request that writes names or keys. -/
inductive WriterCall
  | extension (a : Answers) (req : ExtensionRegisterRequest)
  | nostr (a : Answers) (req : NostrRegisterRequest)
  | registerKey (bearer : Except AppError TokenInfo) (req : RegisterKeyRequest)
  | setUsername (bearer : Except AppError TokenInfo) (username : String)
  | website (a : WebsiteAnswers) (req : WebsiteVerifyRequest)

/-- The handler of a request. -/
def WriterCall.handler (env : WebsiteEnv) : WriterCall → Handler Unit
  | extension a req => do
    let _ ← extensionRegister env.auth a req
    return ()
  | nostr a req => do
    let _ ← nostrRegister env.auth a req
    return ()
  | registerKey bearer req => do
    let _ ← SmirkBackend.registerKey bearer req
    return ()
  | setUsername bearer username => do
    let _ ← SmirkBackend.setUsername env bearer username
    return ()
  | website a req => do
    let _ ← websiteVerify env a req
    return ()

/-- The keys of a registration that are reached: an unknown asset stops it. -/
def storable (keys : List AssetPublicKey) : List AssetPublicKey :=
  keys.takeWhile fun k => (parseAsset k.asset).isOk

/-- The signed timestamp and the name of a registration are in order. -/
structure ExtensionAccepted (env : AuthEnv) (a : Answers) (req : ExtensionRegisterRequest) :
    Prop where
  /-- A BTC key is there, and signed the timestamp. -/
  signed : ∃ key, FreshlySigned env a req key
  /-- The name is valid by the checks of registration. -/
  username : validateOptional req.username = .ok ()

/-- The event and the name of a registration are in order. -/
structure NostrAccepted (env : AuthEnv) (a : Answers) (req : NostrRegisterRequest) : Prop where
  /-- The event is signed. -/
  proven : ∃ pubkey,
    proveNostr env a req.nostrToken "/auth/nostr/register" "nostr_register" req.nonce = .ok pubkey
  /-- The name is valid by the checks of registration. -/
  username : validateOptional req.username = .ok ()

/-- A signed challenge proves the key of a legacy identity. -/
structure ImportAccepted (env : WebsiteEnv) (a : WebsiteAnswers) (req : WebsiteVerifyRequest)
    (identity : LegacyIdentity) : Prop where
  /-- The challenge is signed under the key. -/
  signed : ∃ challenge asset, requireWebChallenge a = .ok challenge ∧
    parseAsset req.asset = .ok asset ∧
    verifyAssetSignature env asset challenge.message req.signature req.publicKey = .ok () ∧
    a.findByProvenKey asset req.publicKey = .ok (some identity)

/-- The keys that a request may store. -/
inductive WriterCall.StoresKey (env : WebsiteEnv) : WriterCall → UserKeyRow → Prop
  | extension {a : Answers} {req : ExtensionRegisterRequest} {k : AssetPublicKey} {u : Uuid}
      {asset : AssetType} : ExtensionAccepted env.auth a req → k ∈ storable req.keys →
      parseAsset k.asset = .ok asset → StoresKey env (.extension a req) (k.row u asset)
  | nostr {a : Answers} {req : NostrRegisterRequest} {k : AssetPublicKey} {u : Uuid}
      {asset : AssetType} : NostrAccepted env.auth a req → k ∈ storable req.keys →
      parseAsset k.asset = .ok asset → StoresKey env (.nostr a req) (k.row u asset)
  | registerKey {info : TokenInfo} {req : RegisterKeyRequest} {asset : AssetType}
      {keyType : String} : parseAsset req.key.asset = .ok asset →
      resolveKeyType asset req.key.publicKey req.keyType = .ok keyType →
      StoresKey env (.registerKey (.ok info) req)
        ⟨info.userId, asset, req.key.publicKey, req.key.publicSpendKey, keyType⟩
  | website {a : WebsiteAnswers} {req : WebsiteVerifyRequest} {identity : LegacyIdentity}
      {k : LegacyKey} {u : Uuid} {asset : AssetType} : ImportAccepted env a req identity →
      k ∈ identity.keys → parseAsset k.asset = .ok asset →
      StoresKey env (.website a req)
        ⟨u, asset, k.publicKey, k.publicSpendKey, keyTypeFor asset k.publicKey⟩

/-- The names that a request may store. -/
inductive WriterCall.StoresName (env : WebsiteEnv) : WriterCall → String → Prop
  | extension {a : Answers} {req : ExtensionRegisterRequest} {name : String} :
      ExtensionAccepted env.auth a req → req.username = some name →
      StoresName env (.extension a req) name
  | nostr {a : Answers} {req : NostrRegisterRequest} {name : String} :
      NostrAccepted env.auth a req → req.username = some name → StoresName env (.nostr a req) name
  | setUsername {info : TokenInfo} {username : String} :
      Users.validateUsername (env.lowercase username) = .ok () →
      StoresName env (.setUsername (.ok info) username) (env.lowercase username)
  | website {a : WebsiteAnswers} {req : WebsiteVerifyRequest} {identity : LegacyIdentity}
      {name : String} : ImportAccepted env a req identity → identity.username = some name →
      StoresName env (.website a req) (env.lowercase name)

/-! ### Statements -/

/-- Every key and every name that a statement leaves was there, or is one of `K` or `N`. -/
structure Writes (K : UserKeyRow → Prop) (N : String → Prop) (w w' : World) : Prop where
  /-- The rows of `user_keys`. -/
  keys : ∀ k ∈ w'.db.userKeys.rows, k ∈ w.db.userKeys.rows ∨ K k
  /-- The names of users. -/
  names : ∀ r ∈ w'.db.users.rows, ∀ name, r.username = some name →
    (∃ r₀ ∈ w.db.users.rows, r₀.username = some name) ∨ N name

variable {K : UserKeyRow → Prop} {N : String → Prop}

theorem Writes.of_eq {w w' : World} (hkeys : w'.db.userKeys = w.db.userKeys)
    (husers : w'.db.users = w.db.users) : Writes K N w w' :=
  ⟨fun _ hk => .inl (hkeys ▸ hk), fun r hr _ hname => .inl ⟨r, husers ▸ hr, hname⟩⟩

theorem Writes.refl (w : World) : Writes K N w w := .of_eq rfl rfl

/-- Effects that write neither names nor keys. -/
def Effect.KeepsNames : Effect → Prop
  | update _ f => ∀ r, (f.set r).username = r.username
  | create _ => False
  | key _ => False
  | session _ => True
  | other => True

theorem writes_updateOne {u : Uuid} {f : Patch UserRow}
    (hf : ∀ r name, (f.set r).username = some name → r.username = some name ∨ N name)
    {w w' : World} (husers : w'.db.users = (w.db.users.updateOne u (fun _ => true) f).2)
    (hkeys : w'.db.userKeys = w.db.userKeys) : Writes K N w w' := by
  refine ⟨fun k hk => .inl (hkeys ▸ hk), fun r hr name hname => ?_⟩
  rw [husers] at hr
  obtain ⟨r₀, hr₀, rfl⟩ := List.mem_map.mp hr
  split_ifs at hname
  · rcases hf r₀ name hname with hkept | hnew
    · exact .inl ⟨r₀, hr₀, hkept⟩
    · exact .inr hnew
  · exact .inl ⟨r₀, hr₀, hname⟩

theorem writes_of_does {w w' : World} (h : Does Effect.KeepsNames w w') : Writes K N w w' := by
  obtain ⟨eff, hkeep, hwrites⟩ := h
  cases eff with
  | update u f =>
    exact writes_updateOne (fun r name hname => .inl (hkeep r ▸ hname)) hwrites.1 hwrites.2.1
  | create r => exact hkeep.elim
  | key u => exact hkeep.elim
  | session r => exact .of_eq hwrites.2.1 hwrites.1
  | other => exact .of_eq hwrites.2.1 hwrites.1

theorem steps_of_does {α : Type} {p : Handler α} (h : p.Steps (Does Effect.KeepsNames)) :
    p.Steps (Writes K N) :=
  h.mono fun _ _ => writes_of_does

theorem steps_ofExcept_bind {α β : Type} {R : World → World → Prop} {x : Except AppError α}
    {f : α → Handler β} (h : ∀ a, x = .ok a → (f a).Steps R) :
    (Prog.ofExcept x >>= f).Steps R := by
  cases x with
  | ok a => exact h a rfl
  | error e => trivial

/-- The row that is stored is the given one. -/
theorem mem_upsertUserKey {k k' : UserKeyRow} {db db' : Db} (h : db.upsertUserKey k = .ok db')
    (hk' : k' ∈ db'.userKeys.rows) : k' ∈ db.userKeys.rows ∨ k' = k := by
  unfold Db.upsertUserKey at h
  split_ifs at h
  obtain rfl := Except.ok.inj h
  have hget := Table.get?_of_mem hk'
  simp only [Table.get?_upsert] at hget
  split_ifs at hget with hkey
  · cases hold : db.userKeys.get? (Lib.key k') with
    | none =>
      rw [hold] at hget
      exact .inr (Option.some.inj hget).symm
    | some r =>
      rw [hold] at hget
      have hid : Lib.key r = Lib.key k := (Table.key_of_get? hold).trans hkey
      obtain rfl := Option.some.inj hget
      cases r with
      | mk userId asset publicKey publicSpendKey keyType =>
        cases k with
        | mk userId' asset' publicKey' publicSpendKey' keyType' =>
          simp only [Lib.key, Prod.mk.injEq] at hid
          obtain ⟨rfl, rfl, rfl⟩ := hid
          exact .inr rfl
  · exact .inl (Table.mem_of_get? hget)

theorem steps_upsertUserKey_writes {k : UserKeyRow} (hk : K k) :
    (upsertUserKey k).Steps (Writes K N) := by
  refine Prog.steps_query fun w => ?_
  simp only
  cases h : w.db.upsertUserKey k with
  | error e => exact .refl w
  | ok db' =>
    have husers : db'.users = w.db.users := by
      unfold Db.upsertUserKey at h
      split_ifs at h
      obtain rfl := Except.ok.inj h
      rfl
    refine ⟨fun k' hk' => ?_, fun r hr name hname => .inl ⟨r, husers ▸ hr, hname⟩⟩
    rcases mem_upsertUserKey h hk' with hold | rfl
    · exact .inl hold
    · exact .inr hk

theorem steps_upsertAllKeys_writes {u : Uuid} {keys : List AssetPublicKey}
    (hkeys : ∀ k ∈ storable keys, ∀ asset, parseAsset k.asset = .ok asset → K (k.row u asset)) :
    (upsertAllKeys u keys).Steps (Writes K N) := by
  induction keys with
  | nil => trivial
  | cons k rest ih =>
    refine steps_ofExcept_bind fun asset hasset => ?_
    have hstorable : storable (k :: rest) = k :: storable rest := by
      simp [storable, hasset, Except.isOk, Except.toBool]
    rw [hstorable] at hkeys
    refine (steps_upsertUserKey_writes (hkeys k (.head _) asset hasset)).bind fun _ => ?_
    exact ih fun k' hk' => hkeys k' (.tail _ hk')

theorem steps_createUser_writes {pepper : Pepper} {id : Uuid} {new : NewUser}
    (hnew : ∀ name, new.username = some name → N name) :
    (createUser pepper id new).Steps (Writes K N) := by
  refine Prog.steps_query fun w => ?_
  simp only
  cases h : w.db.insertUser (new.row pepper id) with
  | error c => exact .refl w
  | ok db' =>
    obtain ⟨-, users, hins, rfl⟩ := insertUser_eq_ok_iff.mp h
    refine ⟨fun k hk => .inl hk, fun r hr name hname => ?_⟩
    have hrows : users.rows = _ := (Table.insert?_eq_some_iff.mp hins).2
    simp only [hrows, List.mem_append, List.mem_singleton] at hr
    rcases hr with hr | rfl
    · exact .inl ⟨r, hr, hname⟩
    · exact .inr (hnew name hname)

/-! ### A new wallet -/

theorem storable_of_parseKeys {keys : List AssetPublicKey}
    {parsed : List (AssetType × AssetPublicKey)} (h : parseKeys keys = .ok parsed) :
    ∀ p ∈ parsed, p.2 ∈ storable keys ∧ parseAsset p.2.asset = .ok p.1 := by
  induction keys generalizing parsed with
  | nil =>
    obtain rfl := Except.ok.inj h
    simp
  | cons k rest ih =>
    rw [parseKeys] at h
    cases hasset : parseAsset k.asset with
    | error e => simp [hasset, bind, Except.bind] at h
    | ok asset =>
      cases hrest : parseKeys rest with
      | error e => simp [hasset, hrest, bind, Except.bind] at h
      | ok parsed' =>
        simp only [hasset, hrest, bind, Except.bind, pure, Except.pure, Except.ok.injEq] at h
        subst h
        have hstorable : storable (k :: rest) = k :: storable rest := by
          simp [storable, hasset, Except.isOk, Except.toBool]
        rw [hstorable]
        rintro p (_ | ⟨_, hp⟩)
        · exact ⟨.head _, hasset⟩
        · exact ⟨.tail _ (ih hrest p hp).1, (ih hrest p hp).2⟩

theorem mem_replay_keys {u : Uuid} {keys : List (AssetType × AssetPublicKey)} {w w' : World}
    (h : Lib.replay (keys.map fun k => upsertKeyStmt (k.2.row u k.1)) w = .ok w') :
    ∀ k ∈ w'.db.userKeys.rows, k ∈ w.db.userKeys.rows ∨ ∃ p ∈ keys, k = p.2.row u p.1 := by
  induction keys generalizing w with
  | nil =>
    obtain rfl := Except.ok.inj h
    exact fun k hk => .inl hk
  | cons p keys ih =>
    obtain ⟨w₁, hrun, hrest⟩ := Lib.replay_cons_eq_ok_iff.mp h
    simp only [upsertKeyStmt] at hrun
    cases hup : w.db.upsertUserKey (p.2.row u p.1) with
    | error e => simp [hup, Except.map] at hrun
    | ok db₁ =>
      simp only [hup, Except.map, Except.ok.injEq] at hrun
      subst hrun
      intro k hk
      rcases ih hrest k hk with hold | ⟨q, hq, rfl⟩
      · exact (mem_upsertUserKey hup hold).imp_right fun heq => ⟨p, .head _, heq⟩
      · exact .inr ⟨q, .tail _ hq, rfl⟩

theorem steps_registerNew_writes {q : Registration} {id : Uuid}
    (hnew : ∀ name, q.new.username = some name → N name)
    (hkeys : ∀ k ∈ storable q.keys, ∀ asset, parseAsset k.asset = .ok asset → K (k.row id asset)) :
    (registerNew q id).Steps (Writes K N) := by
  have hcreate (gates : GatedRegistration) {keys : List (AssetType × AssetPublicKey)}
      (hparse : parseKeys q.keys = .ok keys) :
      (createUserConsumingGates q.pepper id gates q.new keys).Steps (Writes K N) := by
    refine Prog.steps_query fun w => ?_
    cases h : Lib.replay (consumeGatesScript q.pepper q.new gates keys ⟨w.now, id⟩) w with
    | error e => exact .refl w
    | ok w' =>
      obtain ⟨w₁, hrows, hsame, hreplay⟩ := replay_before_keys h
      refine ⟨fun k hk => ?_, fun r hr name hname => ?_⟩
      · rcases mem_replay_keys hreplay k hk with hold | ⟨p, hp, rfl⟩
        · exact .inl (hsame ▸ hold)
        · obtain ⟨hmem, hasset⟩ := storable_of_parseKeys hparse p hp
          exact .inr (hkeys p.2 hmem p.1 hasset)
      · have husers : w'.db.users = w₁.db.users := by rw [(replay_keys hreplay).1]
        rw [husers, hrows, List.mem_append, List.mem_singleton] at hr
        rcases hr with hr | rfl
        · exact .inl ⟨r, hr, hname⟩
        · exact .inr (hnew name hname)
  have hplan (gates : GatedRegistration) :
      (do
        let keys ← Prog.ofExcept (parseKeys q.keys)
        createUserConsumingGates q.pepper id gates q.new keys : Handler UserRow).Steps
          (Writes K N) :=
    steps_ofExcept_bind fun keys hparse => hcreate gates hparse
  unfold registerNew registrationPlan
  rw [Prog.bind_bind]
  refine (steps_ensureUsernameAvailable Writes.refl _).bind fun _ => ?_
  rw [Prog.bind_bind]
  refine (steps_planGateConsume Writes.refl _ _ _ _ _ _).bind fun gates => ?_
  rw [Prog.bind_bind]
  exact hplan gates

/-! ### The handlers -/

theorem steps_repointTarget_writes (env : AuthEnv) (req : ExtensionRegisterRequest)
    (publicKey pubkeyHash : String) :
    (repointTarget env req publicKey pubkeyHash).Steps (Writes K N) :=
  steps_of_does (Does.steps_repointTarget trivial env req publicKey pubkeyHash)

theorem steps_signIn_writes {env : AuthEnv} {a : Answers} {user : UserRow} {platform : Platform}
    {deviceInfo asset : String} {isNew : Bool} :
    (signIn env a user platform deviceInfo asset isNew).Steps (Writes K N) :=
  steps_of_does (Does.steps_signIn trivial fun _ => trivial)

theorem steps_keysAndSignIn_writes {env : AuthEnv} {a : Answers} {user : UserRow}
    {platform : Platform} {deviceInfo asset : String} {isNew : Bool} {u : Uuid}
    {keys : List AssetPublicKey}
    (hkeys : ∀ k ∈ storable keys, ∀ asset, parseAsset k.asset = .ok asset → K (k.row u asset)) :
    (upsertAllKeys u keys >>= fun _ => signIn env a user platform deviceInfo asset isNew).Steps
      (Writes K N) :=
  (steps_upsertAllKeys_writes hkeys).bind fun _ => steps_signIn_writes

theorem steps_backfillOptionals_writes {pepper : Pepper} {existing : UserRow} {o : Optionals} :
    (backfillOptionals pepper existing o).Steps (Writes K N) :=
  steps_of_does (Does.steps_backfillOptionals trivial fun _ => rfl)

theorem steps_repoint_writes {env : AuthEnv} {a : Answers} {req : ExtensionRegisterRequest}
    {pubkeyHash : String} {target : UserRow}
    (hkeys : ∀ k ∈ storable req.keys, ∀ u asset, parseAsset k.asset = .ok asset →
      K (k.row u asset)) :
    (repoint env a req pubkeyHash target).Steps (Writes K N) := by
  refine (Prog.steps_ofExcept _).bind fun _ => ?_
  refine (steps_of_does (Does.steps_updatePubkeyHash trivial fun _ => rfl)).bind fun _ => ?_
  exact steps_keysAndSignIn_writes fun k hk => hkeys k hk _

/-- A known wallet stores its keys, a new one its name too. -/
theorem steps_getOrRegister_writes {env : AuthEnv} {a : Answers} {req : ExtensionRegisterRequest}
    {pubkeyHash : String} {existing : Option UserRow}
    (hkeys : ∀ k ∈ storable req.keys, ∀ u asset, parseAsset k.asset = .ok asset →
      K (k.row u asset))
    (hname : ∀ name, req.username = some name → N name) :
    (getOrRegister env a req pubkeyHash existing).Steps (Writes K N) := by
  have hcreate (o : Optionals) : (getOrCreateUserByPubkeyHash env.pepper a.userId pubkeyHash
      req.username o).Steps (Writes K N) := by
    refine (Prog.steps_read Writes.refl).bind fun found => ?_
    cases found with
    | some existing => exact steps_backfillOptionals_writes
    | none => exact steps_createUser_writes hname
  refine (Prog.steps_ofExcept _).bind fun _ => ?_
  refine (steps_of_does (Does.steps_fingerprintForRow trivial env existing _)).bind
    fun fingerprint => ?_
  split_ifs
  · refine (hcreate _).bind fun user => ?_
    exact steps_keysAndSignIn_writes fun k hk => hkeys k hk _
  · refine (steps_registerNew_writes hname fun k hk => hkeys k hk _).bind fun user => ?_
    exact steps_signIn_writes

theorem steps_extensionRegister_writes {env : AuthEnv} {a : Answers}
    {req : ExtensionRegisterRequest}
    (hkeys : ExtensionAccepted env a req → ∀ k ∈ storable req.keys, ∀ u asset,
      parseAsset k.asset = .ok asset → K (k.row u asset))
    (hname : ExtensionAccepted env a req → ∀ name, req.username = some name → N name) :
    (extensionRegister env a req).Steps (Writes K N) := by
  unfold extensionRegister
  cases hbtc : btcKey req.keys with
  | none => trivial
  | some key =>
    refine steps_ofExcept_bind fun _ husername => steps_ofExcept_bind fun _ hdrift => ?_
    refine steps_ofExcept_bind fun _ hsigned => ?_
    have haccepted : ExtensionAccepted env a req :=
      ⟨⟨key, hbtc, checkDrift_eq_ok hdrift, hsigned⟩, husername⟩
    refine (Prog.steps_read Writes.refl).bind fun existing => ?_
    simp only
    split_ifs
    · exact steps_getOrRegister_writes (hkeys haccepted) (hname haccepted)
    · refine (steps_repointTarget_writes env req _ _).bind fun target => ?_
      cases target with
      | some target => exact steps_repoint_writes (hkeys haccepted)
      | none => exact steps_getOrRegister_writes (hkeys haccepted) (hname haccepted)

theorem steps_nostrRegister_writes {env : AuthEnv} {a : Answers} {req : NostrRegisterRequest}
    (hkeys : NostrAccepted env a req → ∀ k ∈ storable req.keys, ∀ u asset,
      parseAsset k.asset = .ok asset → K (k.row u asset))
    (hname : NostrAccepted env a req → ∀ name, req.username = some name → N name) :
    (nostrRegister env a req).Steps (Writes K N) := by
  refine steps_ofExcept_bind fun _ husername => ?_
  refine (steps_of_does (Does.steps_requireChallenge trivial _ _)).bind fun _ => ?_
  refine steps_ofExcept_bind fun pubkey hproven => ?_
  have haccepted : NostrAccepted env a req := ⟨⟨pubkey, hproven⟩, husername⟩
  refine (Prog.steps_read Writes.refl).bind fun existing => ?_
  refine (Prog.steps_ofExcept _).bind fun _ => ?_
  have hcreate (o : Optionals) : (getOrCreateUserByNostrPubkey env.pepper a.userId pubkey
      req.username o).Steps (Writes K N) := by
    refine (Prog.steps_read Writes.refl).bind fun found => ?_
    cases found with
    | some existing => exact steps_backfillOptionals_writes
    | none =>
      refine (steps_fingerprintMatch Writes.refl env.pepper _).bind fun found => ?_
      cases found with
      | none => exact steps_createUser_writes (hname haccepted)
      | some existing =>
        simp only
        cases existing.nostrPubkey with
        | none => trivial
        | some pk =>
          simp only
          split_ifs
          · exact steps_backfillOptionals_writes
          · trivial
  split_ifs
  · refine (hcreate _).bind fun user => ?_
    exact steps_keysAndSignIn_writes fun k hk => hkeys haccepted k hk _
  · refine (steps_rejectKnownFingerprint_of_refl Writes.refl _ _).bind fun _ => ?_
    refine (steps_registerNew_writes (hname haccepted) fun k hk =>
      hkeys haccepted k hk _).bind fun user => ?_
    exact steps_signIn_writes

theorem steps_extractUserIdFromToken_bind {α : Type} {R : World → World → Prop}
    (hrefl : ∀ w, R w w) {bearer : Except AppError TokenInfo} {f : Uuid → Handler α}
    (h : ∀ info, bearer = .ok info → (f info.userId).Steps R) :
    (extractUserIdFromToken bearer >>= f).Steps R := by
  unfold extractUserIdFromToken
  rw [Prog.bind_bind]
  refine steps_ofExcept_bind fun info hinfo => ?_
  cases info.sessionId with
  | none => exact h info hinfo
  | some session =>
    simp only
    rw [Prog.bind_bind]
    refine (Prog.steps_read hrefl).bind fun live => ?_
    cases live
    · trivial
    · exact h info hinfo

theorem steps_registerKey_writes {bearer : Except AppError TokenInfo} {req : RegisterKeyRequest}
    (hkey : ∀ info asset keyType, bearer = .ok info → parseAsset req.key.asset = .ok asset →
      resolveKeyType asset req.key.publicKey req.keyType = .ok keyType →
      K ⟨info.userId, asset, req.key.publicKey, req.key.publicSpendKey, keyType⟩) :
    (registerKey bearer req).Steps (Writes K N) := by
  refine steps_extractUserIdFromToken_bind Writes.refl fun info hinfo => ?_
  refine steps_ofExcept_bind fun asset hasset => steps_ofExcept_bind fun keyType htype => ?_
  exact (steps_upsertUserKey_writes (hkey info asset keyType hinfo hasset htype)).bind
    fun _ => trivial

theorem steps_updateUsername_writes {u : Uuid} {username : Option String}
    (hname : ∀ name, username = some name → N name) :
    (updateUsername u username).Steps (Writes K N) := by
  refine Prog.steps_query fun w => ?_
  have hupdate : Writes K N w { w with db :=
      (w.db.updateUser u { set := fun r => { r with username := username } }).2 } := by
    rcases updateUser_writes u { set := fun r => { r with username := username } } w.db with
      heq | hw
    · rw [heq]
      exact .refl w
    · exact writes_updateOne (fun r name h => .inr (hname name h)) hw.1 hw.2.1
  revert hupdate
  simp only
  cases w.db.updateUser u _ with
  | mk res db' =>
    rcases res with c | (_ | r)
    · exact id
    · exact id
    · exact id

theorem steps_setUsername_writes {env : WebsiteEnv} {bearer : Except AppError TokenInfo}
    {username : String}
    (hname : ∀ info, bearer = .ok info →
      Users.validateUsername (env.lowercase username) = .ok () → N (env.lowercase username)) :
    (setUsername env bearer username).Steps (Writes K N) := by
  refine steps_extractUserIdFromToken_bind Writes.refl fun info hinfo => ?_
  refine steps_ofExcept_bind fun _ hvalid => ?_
  refine (steps_updateUsername_writes fun name h => ?_).bind fun _ => trivial
  obtain rfl := Option.some.inj h
  exact hname info hinfo hvalid

theorem steps_importLegacyKeys_writes {u : Uuid} {keys : List LegacyKey}
    (hkeys : ∀ k ∈ keys, ∀ asset, parseAsset k.asset = .ok asset →
      K ⟨u, asset, k.publicKey, k.publicSpendKey, keyTypeFor asset k.publicKey⟩) :
    (importLegacyKeys u keys).Steps (Writes K N) := by
  induction keys with
  | nil => trivial
  | cons k rest ih =>
    have hrest := ih fun k' hk' => hkeys k' (.tail _ hk')
    unfold importLegacyKeys
    cases hasset : parseAsset k.asset with
    | error e => exact hrest
    | ok asset =>
      refine (Prog.steps_read Writes.refl).bind fun found => ?_
      cases found with
      | some _ => exact hrest
      | none =>
        exact (steps_upsertUserKey_writes (hkeys k (.head _) asset hasset)).bind fun _ => hrest

/-- A name that is carried over is the lower-cased name of the identity. -/
theorem steps_importLegacyIdentity_writes {env : WebsiteEnv} {a : WebsiteAnswers}
    {identity : LegacyIdentity}
    (hkeys : ∀ k ∈ identity.keys, ∀ u asset, parseAsset k.asset = .ok asset →
      K ⟨u, asset, k.publicKey, k.publicSpendKey, keyTypeFor asset k.publicKey⟩)
    (hname : ∀ name, identity.username = some name → N (env.lowercase name)) :
    (importLegacyIdentity env a identity).Steps (Writes K N) := by
  have himport {username : Option String} (hvalid : ∀ name, username = some name → N name) :
      (do
        let user ← createUser env.auth.pepper a.auth.userId (importedUser username)
        importLegacyKeys user.id identity.keys
        return user : Handler UserRow).Steps (Writes K N) := by
    refine (steps_createUser_writes hvalid).bind fun user => ?_
    exact (steps_importLegacyKeys_writes fun k hk => hkeys k hk _).bind fun _ => trivial
  unfold importLegacyIdentity carriedUsername
  cases husername : identity.username with
  | none => exact himport nofun
  | some name =>
    simp only [Option.map_some]
    rw [Prog.bind_bind]
    refine (Prog.steps_read Writes.refl).bind fun found => ?_
    cases found with
    | none =>
      refine himport fun name' hname' => ?_
      obtain rfl := Option.some.inj hname'
      exact hname name husername
    | some _ => exact himport nofun

theorem steps_websiteVerify_writes {env : WebsiteEnv} {a : WebsiteAnswers}
    {req : WebsiteVerifyRequest}
    (hkeys : ∀ identity, ImportAccepted env a req identity → ∀ k ∈ identity.keys, ∀ u asset,
      parseAsset k.asset = .ok asset →
      K ⟨u, asset, k.publicKey, k.publicSpendKey, keyTypeFor asset k.publicKey⟩)
    (hname : ∀ identity, ImportAccepted env a req identity →
      ∀ name, identity.username = some name → N (env.lowercase name)) :
    (websiteVerify env a req).Steps (Writes K N) := by
  have hresolve (asset : AssetType) (publicKey : String) :
      (resolveRegistered env asset publicKey).Steps (Writes K N) := by
    refine (Prog.steps_read Writes.refl).bind fun found => ?_
    cases found with
    | some user => trivial
    | none =>
      simp only
      split_ifs
      · exact Prog.steps_read Writes.refl
      · trivial
  refine steps_ofExcept_bind fun challenge hchallenge => ?_
  refine steps_ofExcept_bind fun asset hasset => steps_ofExcept_bind fun _ hsigned => ?_
  have hproven : (resolveProvenKey env a asset req.publicKey).Steps (Writes K N) := by
    refine (hresolve asset req.publicKey).bind fun found => ?_
    cases found with
    | some user => trivial
    | none =>
      refine steps_ofExcept_bind fun found hfound => ?_
      cases found with
      | none => trivial
      | some identity =>
        have haccepted : ImportAccepted env a req identity :=
          ⟨⟨challenge, asset, hchallenge, hasset, hsigned, hfound⟩⟩
        exact (steps_importLegacyIdentity_writes (hkeys identity haccepted)
          (hname identity haccepted)).bind fun _ => trivial
  refine hproven.bind fun found => ?_
  cases found with
  | none => trivial
  | some user =>
    refine (steps_of_does ?_).bind fun pair => ?_
    · refine (Prog.steps_ofExcept _).bind fun pair => ?_
      exact (Does.steps_createSession trivial trivial).bind fun _ => trivial
    · refine (steps_of_does (Does.steps_recordLoginEvent trivial _)).bind fun _ => ?_
      exact (Prog.steps_attempt Writes.refl).bind fun _ => trivial

/-- **No statement of a request writes a key or a name but those of the request.** -/
theorem steps_writer (env : WebsiteEnv) (call : WriterCall) :
    (call.handler env).Steps (Writes (call.StoresKey env) (call.StoresName env)) := by
  cases call with
  | extension a req =>
    refine (steps_extensionRegister_writes (fun h k hk u asset hasset => ?_)
      fun h name hname => ?_).bind fun _ => trivial
    · exact .extension h hk hasset
    · exact .extension h hname
  | nostr a req =>
    refine (steps_nostrRegister_writes (fun h k hk u asset hasset => ?_)
      fun h name hname => ?_).bind fun _ => trivial
    · exact .nostr h hk hasset
    · exact .nostr h hname
  | registerKey bearer req =>
    refine (steps_registerKey_writes fun info asset keyType hbearer hasset htype => ?_).bind
      fun _ => trivial
    subst hbearer
    exact .registerKey hasset htype
  | setUsername bearer username =>
    refine (steps_setUsername_writes fun info hbearer hvalid => ?_).bind fun _ => trivial
    subst hbearer
    exact .setUsername hvalid
  | website a req =>
    refine (steps_websiteVerify_writes (fun identity h k hk u asset hasset => ?_)
      fun identity h name hname => ?_).bind fun _ => trivial
    · exact .website h hk hasset
    · exact .website h hname

end SmirkBackend
