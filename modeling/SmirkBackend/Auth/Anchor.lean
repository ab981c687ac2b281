import SmirkBackend.Auth.PrimaryKeys

/-!
# The identity of a wallet and its BTC key

A wallet is identified by the hash of a BTC key, and the BTC key on file approves the next move of
the wallet.  The two are written by different statements, and by different requests: registration
takes the hash from the first BTC key of a list and stores every key of the list, and `POST /keys`
stores a key alone.  They agree as long as no request submits two BTC keys, replaces the key on file
by another one, or stops between the two writes of a move.

Requests that avoid the three (`StaysAnchored`) keep the two together (`anchored_of_run`);
`keys_part_from_identities` is a run of requests that do not.
-/

namespace SmirkBackend

open Lib (Table Patch Prog System)

/-! ### Identities and keys -/

/-- The identity of a user. -/
def Db.anchor (db : Db) (u : Uuid) : Option String := (db.users.get? u).bind UserRow.pubkeyHash

/-- The BTC key of a user. -/
def Db.onFile (db : Db) (u : Uuid) : Option String :=
  (db.getUserKey u .btc).map UserKeyRow.publicKey

/-- The identity of a BTC key, as it is stored. -/
def AuthEnv.anchorOf (env : AuthEnv) (publicKey : String) : String :=
  env.pepper "pubkey_hash" (env.hashPublicKey publicKey)

/-- Effects that touch neither identities nor keys. -/
def Effect.Calm : Effect → Prop
  | update _ f => ∀ r, (f.set r).pubkeyHash = r.pubkeyHash
  | create _ => False
  | key _ => False
  | session _ => True
  | other => True

theorem calm_fill (pepper : Pepper) (o : Optionals) (u : Uuid) :
    (Effect.update u (o.fill pepper)).Calm := fun _ => rfl

/-- A calm statement leaves every identity and every key as it is. -/
theorem anchor_of_calm {w w' : World} (h : Does Effect.Calm w w') :
    (∀ u, w'.db.anchor u = w.db.anchor u) ∧ ∀ u, w'.db.onFile u = w.db.onFile u := by
  have hsame (husers : w'.db.users = w.db.users) (hkeys : w'.db.userKeys = w.db.userKeys) :
      (∀ u, w'.db.anchor u = w.db.anchor u) ∧ ∀ u, w'.db.onFile u = w.db.onFile u := by
    simp [Db.anchor, Db.onFile, Db.getUserKey, husers, hkeys]
  obtain ⟨eff, hcalm, hwrites⟩ := h
  cases eff with
  | create r => exact hcalm.elim
  | key u => exact hcalm.elim
  | session r => exact hsame hwrites.1 hwrites.2.1
  | other => exact hsame hwrites.1 hwrites.2.1
  | update v f =>
    obtain ⟨husers, hkeys, -⟩ := hwrites
    refine ⟨fun u => ?_, fun u => by simp [Db.onFile, Db.getUserKey, hkeys]⟩
    rw [Db.anchor, husers, Table.get?_updateOne, Db.anchor]
    cases w.db.users.get? u with
    | none => rfl
    | some r =>
      simp only [Option.map_some, Option.bind_some]
      split_ifs
      · exact hcalm r
      · rfl

theorem anchor_of_outcome {α : Type} {p : Handler α} (hp : p.Steps (Does Effect.Calm))
    {w w' : World} {r : Except AppError α} (h : p.Outcome w r w') :
    (∀ u, w'.db.anchor u = w.db.anchor u) ∧ ∀ u, w'.db.onFile u = w.db.onFile u := by
  have hkeeps : p.Keeps (fun x => (∀ u, x.db.anchor u = w.db.anchor u) ∧
      ∀ u, x.db.onFile u = w.db.onFile u) fun _ => True := by
    refine hp.keeps fun x x' hdoes hx => ?_
    obtain ⟨hanchor, hfile⟩ := anchor_of_calm hdoes
    exact ⟨fun u => (hanchor u).trans (hx.1 u), fun u => (hfile u).trans (hx.2 u)⟩
  exact (hkeeps.outcome h ⟨fun _ => rfl, fun _ => rfl⟩).1

theorem onFile_upsertUserKey {k : UserKeyRow} {db db' : Db} (h : db.upsertUserKey k = .ok db') :
    (∀ u, db'.anchor u = db.anchor u) ∧ ∀ u, db'.onFile u =
      if (u, AssetType.btc, "primary") = Lib.key k then some k.publicKey else db.onFile u := by
  obtain ⟨husers, -, hprimary⟩ := primary_upsertUserKey h
  exact ⟨fun u => by rw [Db.anchor, husers, Db.anchor], fun u => hprimary u .btc⟩

theorem onFile_row {u v : Uuid} {asset : AssetType} {k : AssetPublicKey} :
    (v, AssetType.btc, "primary") = Lib.key (k.row u asset) ↔ v = u ∧ asset = .btc := by
  constructor
  · intro h
    exact ⟨congrArg Prod.fst h, (congrArg (fun x => x.2.1) h).symm⟩
  · rintro ⟨rfl, rfl⟩
    rfl

/-- Every BTC key of the list is this one. -/
def SameBtc (keys : List AssetPublicKey) (publicKey : String) : Prop :=
  ∀ k ∈ keys, parseAsset k.asset = .ok .btc → k.publicKey = publicKey

/-- The same identities, and the same keys but that of `t`, which may be replaced by this one. -/
structure OnlyKey (db₀ : Db) (t : Uuid) (publicKey : String) (db : Db) : Prop where
  /-- The identities. -/
  anchors : ∀ u, db.anchor u = db₀.anchor u
  /-- The keys of other users. -/
  others : ∀ u, u ≠ t → db.onFile u = db₀.onFile u
  /-- The key of `t`. -/
  own : db.onFile t = db₀.onFile t ∨ db.onFile t = some publicKey

theorem OnlyKey.refl (db : Db) (t : Uuid) (publicKey : String) : OnlyKey db t publicKey db :=
  ⟨fun _ => rfl, fun _ _ => rfl, .inl rfl⟩

theorem onlyKey_of_calm {db₀ : Db} {t : Uuid} {publicKey : String} {w w' : World}
    (hcalm : Does Effect.Calm w w') (h : OnlyKey db₀ t publicKey w.db) :
    OnlyKey db₀ t publicKey w'.db := by
  obtain ⟨hanchor, hfile⟩ := anchor_of_calm hcalm
  refine ⟨fun u => (hanchor u).trans (h.anchors u), fun u hu => (hfile u).trans (h.others u hu), ?_⟩
  rw [hfile]
  exact h.own

theorem onlyKey_upsert {db₀ db db' : Db} {t : Uuid} {publicKey : String} {k : AssetPublicKey}
    {asset : AssetType} (hk : asset = .btc → k.publicKey = publicKey)
    (h : OnlyKey db₀ t publicKey db) (hup : db.upsertUserKey (k.row t asset) = .ok db') :
    OnlyKey db₀ t publicKey db' := by
  obtain ⟨hanchor, hfile⟩ := onFile_upsertUserKey hup
  refine ⟨fun u => (hanchor u).trans (h.anchors u), fun u hu => ?_, ?_⟩
  · rw [hfile, if_neg fun heq => hu (onFile_row.mp heq).1]
    exact h.others u hu
  · rw [hfile]
    split_ifs with heq
    · exact .inr (congrArg some (hk (onFile_row.mp heq).2))
    · exact h.own

theorem keeps_upsertAllKeys_onlyKey {db₀ : Db} {t : Uuid} {publicKey : String}
    {keys : List AssetPublicKey} (hkeys : SameBtc keys publicKey) :
    (upsertAllKeys t keys).Keeps (OnDb (OnlyKey db₀ t publicKey)) fun _ => True := by
  induction keys with
  | nil => trivial
  | cons k rest ih =>
    refine (Prog.keeps_ofExcept (Q := fun asset => parseAsset k.asset = .ok asset)
      fun _ h => h).bind fun asset hasset => ?_
    have hup : (upsertUserKey (k.row t asset)).Keeps (OnDb (OnlyKey db₀ t publicKey))
        fun _ => True := by
      refine keeps_execute fun _ db hdb => ?_
      cases h : db.upsertUserKey (k.row t asset) with
      | error e => exact ⟨hdb, fun _ _ => trivial⟩
      | ok db' =>
        refine ⟨onlyKey_upsert (fun hbtc => hkeys k (by simp) (hbtc ▸ hasset)) hdb h, fun _ _ => ?_⟩
        trivial
    exact hup.bind fun _ _ => ih fun k' hk' => hkeys k' (.tail _ hk')

theorem keeps_keysAndSignIn {env : AuthEnv} {a : Answers} {user : UserRow} {platform : Platform}
    {deviceInfo asset : String} {isNew : Bool} {db₀ : Db} {t : Uuid} {publicKey : String}
    {keys : List AssetPublicKey} (hkeys : SameBtc keys publicKey) :
    (upsertAllKeys t keys >>= fun _ => signIn env a user platform deviceInfo asset isNew).Keeps
      (OnDb (OnlyKey db₀ t publicKey)) fun _ => True :=
  (keeps_upsertAllKeys_onlyKey hkeys).bind fun _ _ =>
    (Does.steps_signIn trivial fun _ => trivial).keeps fun _ _ => onlyKey_of_calm

/-! ### The move of a key onto a row -/

/-- The identity of `t` was set, and nothing else. -/
structure Moved (t : Uuid) (h : String) (db db' : Db) : Prop where
  /-- The identity of `t`. -/
  own : db'.anchor t = some h
  /-- The identities of other users. -/
  others : ∀ u, u ≠ t → db'.anchor u = db.anchor u
  /-- The keys. -/
  keys : ∀ u, db'.onFile u = db.onFile u
  /-- The user is there. -/
  isSome : (db'.users.get? t).isSome

/-- A move changes nothing, or sets the identity and goes on with the keys. -/
theorem repoint_exec (env : AuthEnv) (a : Answers) (req : ExtensionRegisterRequest)
    (pubkeyHash : String) {target : UserRow} (fails : ℕ → Bool) (n : ℕ) {w : World}
    (htarget : w.db.users.get? target.id = some target) :
    ((repoint env a req pubkeyHash target).exec fails n w).1.2 = w ∨
      ∃ w₁, Moved target.id (env.pepper "pubkey_hash" pubkeyHash) w.db w₁.db ∧
        (repoint env a req pubkeyHash target).exec fails n w =
          (upsertAllKeys target.id req.keys >>= fun _ =>
            signIn env a target .extension "Browser Extension" "btc" false).exec fails (n + 1)
              w₁ := by
  unfold repoint
  cases enforcePow env.pow (toLowercase pubkeyHash) false req.altchaSolution with
  | error e => exact .inl rfl
  | ok u =>
    simp only [Prog.ofExcept_ok, Prog.ret_bind]
    rw [Prog.exec_bind]
    have hstmt : ∀ f : Timestamp → Db → Except AppError Unit × Db,
        (execute f).exec fails n w = if fails n then ((.error dbFault, w), n + 1) else
          ((Prog.ofExcept (f w.now w.db).1 : Handler Unit).exec fails (n + 1)
            { w with db := (f w.now w.db).2 }) := fun f => rfl
    unfold updatePubkeyHash
    rw [hstmt]
    cases hfail : fails n with
    | true => exact .inl rfl
    | false =>
      simp only [Bool.false_eq_true, if_false, Db.updateUser, htarget]
      cases collision w.db.users.rows
          { target with pubkeyHash := some (env.pepper "pubkey_hash" pubkeyHash) } with
      | some c => exact .inl rfl
      | none =>
        refine .inr ⟨{ w with db := { w.db with
          users := (w.db.users.updateOne target.id (fun _ => true)
            { set := fun r =>
              { r with pubkeyHash := some (env.pepper "pubkey_hash" pubkeyHash) } }).2 } },
          ⟨?_, fun u hu => ?_, fun _ => rfl, ?_⟩, rfl⟩
        · simp [Db.anchor, Table.get?_updateOne_self, htarget]
        · simp [Db.anchor, Table.get?_updateOne_of_ne _ hu]
        · simp [Table.get?_updateOne_self, htarget]

theorem upsertUserKey_exec {k : UserKeyRow} {fails : ℕ → Bool} {n : ℕ} {w : World}
    (huser : (w.db.users.get? k.userId).isSome) (hok : fails n = false) :
    ∃ db', w.db.upsertUserKey k = .ok db' ∧ db'.users = w.db.users ∧
      (upsertUserKey k).exec fails n w = ((.ok (), { w with db := db' }), n + 1) := by
  have hup : ∃ db', w.db.upsertUserKey k = .ok db' ∧ db'.users = w.db.users := by
    unfold Db.upsertUserKey
    rw [if_neg (by simpa [Option.isNone_iff_eq_none, Option.isSome_iff_ne_none] using huser)]
    exact ⟨_, rfl, rfl⟩
  obtain ⟨db', hdb', husers⟩ := hup
  refine ⟨db', hdb', husers, ?_⟩
  simp [upsertUserKey, execute, Prog.query, Prog.exec, hok, hdb']

/-- The list is written up to a BTC key: no asset before it is unknown, and no statement fails. -/
def Finishes (fails : ℕ → Bool) (n : ℕ) (keys : List AssetPublicKey) : Prop :=
  ∃ before key after, keys = before ++ key :: after ∧ parseAsset key.asset = .ok .btc ∧
    (∀ k ∈ before, (parseAsset k.asset).isOk) ∧ ∀ j, j ≤ before.length → fails (n + j) = false

/-- The BTC key of a list that is written up to it. -/
theorem upsertAllKeys_exec {t : Uuid} {publicKey : String} {fails : ℕ → Bool}
    {key : AssetPublicKey} {after before : List AssetPublicKey} {n : ℕ} {w : World}
    (hkey : parseAsset key.asset = .ok .btc)
    (hsame : SameBtc (before ++ key :: after) publicKey)
    (hbefore : ∀ k ∈ before, (parseAsset k.asset).isOk)
    (hok : ∀ j, j ≤ before.length → fails (n + j) = false)
    (huser : (w.db.users.get? t).isSome) :
    ∃ w₁ m, OnlyKey w.db t publicKey w₁.db ∧ w₁.db.onFile t = some publicKey ∧
      (upsertAllKeys t (before ++ key :: after)).exec fails n w =
        (upsertAllKeys t after).exec fails m w₁ := by
  -- one key, wherever it stands in the list
  have hstep (rest : List AssetPublicKey) {k : AssetPublicKey} {asset : AssetType} {n : ℕ}
      {w : World} (hasset : parseAsset k.asset = .ok asset) (huser : (w.db.users.get? t).isSome)
      (hn : fails n = false) : ∃ db', w.db.upsertUserKey (k.row t asset) = .ok db' ∧
        db'.users = w.db.users ∧ (upsertAllKeys t (k :: rest)).exec fails n w =
          (upsertAllKeys t rest).exec fails (n + 1) { w with db := db' } := by
    obtain ⟨db', hdb', husers, hexec⟩ := upsertUserKey_exec (k := k.row t asset) huser hn
    refine ⟨db', hdb', husers, ?_⟩
    rw [upsertAllKeys, hasset, Prog.ofExcept_ok, Prog.ret_bind, Prog.exec_bind, hexec]
  induction before generalizing n w with
  | nil =>
    obtain ⟨db', hdb', -, hexec⟩ := hstep after hkey huser (hok 0 le_rfl)
    have hpk := hsame key (by simp) hkey
    refine ⟨_, _, onlyKey_upsert (fun _ => hpk) (.refl ..) hdb', ?_, hexec⟩
    rw [(onFile_upsertUserKey hdb').2, if_pos (onFile_row.mpr ⟨rfl, rfl⟩)]
    exact congrArg some hpk
  | cons k before ih =>
    obtain ⟨asset, hasset⟩ : ∃ asset, parseAsset k.asset = .ok asset := by
      have hk := hbefore k (by simp)
      cases h : parseAsset k.asset with
      | ok asset => exact ⟨asset, rfl⟩
      | error e => simp [h, Except.isOk, Except.toBool] at hk
    obtain ⟨db', hdb', husers, hexec⟩ :=
      hstep (before ++ key :: after) hasset huser (hok 0 (by simp))
    have hfirst : OnlyKey w.db t publicKey db' :=
      onlyKey_upsert (fun hbtc => hsame k (by simp) (hbtc ▸ hasset)) (.refl ..) hdb'
    obtain ⟨w₁, m, hrest, hfile, hexec'⟩ := ih (n := n + 1) (w := { w with db := db' })
      (fun k' hk' => hsame k' (by simp at hk' ⊢; tauto))
      (fun k' hk' => hbefore k' (.tail _ hk'))
      (fun j hj => by rw [Nat.add_assoc, Nat.add_comm 1]; exact hok (j + 1) (by simpa using hj))
      (by rw [husers]; exact huser)
    refine ⟨w₁, m, ⟨fun u => (hrest.anchors u).trans (hfirst.anchors u), fun u hu => ?_, ?_⟩, hfile,
      hexec.trans hexec'⟩
    · exact (hrest.others u hu).trans (hfirst.others u hu)
    · exact .inr hfile

/-! ### A new wallet -/

/-- A key on file stays while a list with this BTC key is stored, and is there afterwards. -/
theorem onFile_of_replay {u : Uuid} {publicKey : String} {w w' : World}
    {keys : List (AssetType × AssetPublicKey)}
    (hsame : ∀ p ∈ keys, p.1 = .btc → p.2.publicKey = publicKey)
    (h : Lib.replay (keys.map fun k => upsertKeyStmt (k.2.row u k.1)) w = .ok w')
    (hbtc : w.db.onFile u = some publicKey ∨ ∃ p ∈ keys, p.1 = .btc) :
    w'.db.onFile u = some publicKey := by
  induction keys generalizing w with
  | nil =>
    obtain rfl := Except.ok.inj h
    simpa using hbtc
  | cons p keys ih =>
    obtain ⟨w₁, hrun, hrest⟩ := Lib.replay_cons_eq_ok_iff.mp h
    simp only [upsertKeyStmt] at hrun
    cases hup : w.db.upsertUserKey (p.2.row u p.1) with
    | error e => simp [hup, Except.map] at hrun
    | ok db' =>
      simp only [hup, Except.map, Except.ok.injEq] at hrun
      subst hrun
      refine ih (fun p' hp' => hsame p' (.tail _ hp')) hrest ?_
      by_cases hp : p.1 = .btc
      · left
        change db'.onFile u = _
        rw [(onFile_upsertUserKey hup).2, if_pos (onFile_row.mpr ⟨rfl, hp⟩)]
        exact congrArg some (hsame p (by simp) hp)
      · rcases hbtc with hfile | ⟨p', hp', hbtc'⟩
        · left
          change db'.onFile u = _
          rw [(onFile_upsertUserKey hup).2, if_neg fun heq => hp (onFile_row.mp heq).2]
          exact hfile
        · rcases List.mem_cons.mp hp' with rfl | hp'
          · exact (hp hbtc').elim
          · exact .inr ⟨p', hp', hbtc'⟩

/-- A user is new, with this identity and this key, and nothing else changed. -/
structure Registered (publicKey : String) (row : UserRow) (db db' : Db) : Prop where
  /-- The user is new. -/
  fresh : db.anchor row.id = none
  /-- Its identity. -/
  anchor : db'.anchor row.id = row.pubkeyHash
  /-- Its key. -/
  onFile : db'.onFile row.id = some publicKey
  /-- The identities of other users. -/
  anchors : ∀ u, u ≠ row.id → db'.anchor u = db.anchor u
  /-- Their keys. -/
  others : ∀ u, u ≠ row.id → db'.onFile u = db.onFile u

/-- A registration fails without effect, or creates a user whose key is the submitted one. -/
theorem registerNew_outcome {q : Registration} {id : Uuid} {publicKey : String} {w w' : World}
    {r : Except AppError UserRow} (hsame : SameBtc q.keys publicKey)
    (hbtc : ∃ k ∈ q.keys, parseAsset k.asset = .ok .btc)
    (h : (registerNew q id).Outcome w r w') :
    w' = w ∨ Registered publicKey (q.new.row q.pepper id) w.db w'.db := by
  rcases registerNew_cases h with rfl | ⟨g, hparsed, hreplay⟩
  · exact .inl rfl
  · right
    have hspent := spent_of_replay hreplay
    have hins := Table.insert?_of_rows_append hspent.users
    obtain ⟨hmem, hall⟩ := parseKeys_eq_ok hparsed
    obtain ⟨w₃, -, -, hkeys⟩ := replay_before_keys hreplay
    constructor
    · have hfree := (Table.insert?_eq_some_iff.mp hins).1
      rw [Db.anchor, show w.db.users.get? (q.new.row q.pepper id).id = none from hfree]
      rfl
    · have hrow : w'.db.users.get? (q.new.row q.pepper id).id = some (q.new.row q.pepper id) :=
        (Table.get?_insert? hins _).trans (if_pos rfl)
      rw [Db.anchor, hrow]
      rfl
    · obtain ⟨k, hk, hasset⟩ := hbtc
      obtain ⟨p, hp, rfl⟩ := hall k hk
      refine onFile_of_replay (fun p' hp' hbtc' => ?_) hkeys (.inr ⟨p, hp, ?_⟩)
      · exact hsame p'.2 (hmem p' hp').1 (hbtc' ▸ (hmem p' hp').2)
      · exact Except.ok.inj ((hmem p hp).2.symm.trans hasset)
    · intro u hu
      have hrow : w'.db.users.get? u = w.db.users.get? u :=
        (Table.get?_insert? hins u).trans (if_neg hu)
      rw [Db.anchor, hrow, Db.anchor]
    · intro u hu
      simp only [Db.onFile, Db.getUserKey]
      rw [hspent.keys _ hu]

/-! ### The paths of a registration -/

theorem parseAsset_of_eqIgnoreAsciiCase {asset : String} (h : eqIgnoreAsciiCase asset "btc") :
    parseAsset asset = .ok .btc := by
  have hlower : toLowercase asset = "btc" := by
    simpa [eqIgnoreAsciiCase, show toLowercase "btc" = "btc" by decide] using h
  simp [parseAsset, hlower]

theorem btcKey_mem {keys : List AssetPublicKey} {key : AssetPublicKey}
    (h : btcKey keys = some key) : key ∈ keys ∧ parseAsset key.asset = .ok .btc := by
  have hbtc : eqIgnoreAsciiCase key.asset "btc" := by simpa using List.find?_some h
  exact ⟨List.mem_of_find?_eq_some h, parseAsset_of_eqIgnoreAsciiCase hbtc⟩

/-- A request that moves its key does it after three reads, none of which failed. -/
theorem extensionRegister_exec {env : AuthEnv} {a : Answers} {req : ExtensionRegisterRequest}
    {key : AssetPublicKey} {target : UserRow} (fails : ℕ → Bool) {w : World}
    (hsigned : FreshlySigned env a req key) (hrep : Repointed env req key w.db target) :
    ((extensionRegister env a req).exec fails 0 w).1.2 = w ∨
      (extensionRegister env a req).exec fails 0 w =
        (repoint env a req (env.hashPublicKey key.publicKey) target).exec fails 3 w := by
  obtain ⟨fp, hfp, htarget⟩ := hrep.located
  have hread {α β : Type} {f : Db → α} {g : α → Handler β} {n : ℕ} :
      (select f >>= g).exec fails n w =
        if fails n then ((.error dbFault, w), n + 1) else (g (f w.db)).exec fails (n + 1) w := rfl
  unfold extensionRegister
  simp only [hsigned.submitted, hsigned.signed]
  cases validateOptional req.username with
  | error e => exact .inl rfl
  | ok _ =>
    cases checkDrift a.now req.signedTimestamp with
    | error e => exact .inl rfl
    | ok _ =>
      simp only [Prog.ofExcept_ok, Prog.ret_bind]
      by_cases h₀ : fails 0 = true
      · rw [hread, if_pos h₀]
        exact .inl rfl
      rw [hread, if_neg h₀]
      simp only [hrep.unknown, Option.isSome_none, Bool.false_eq_true, if_false, repointTarget, hfp]
      by_cases h₁ : fails 1 = true
      · rw [Prog.bind_bind, hread, if_pos h₁]
        exact .inl rfl
      rw [Prog.bind_bind, hread, if_neg h₁]
      simp only [htarget]
      by_cases h₂ : fails 2 = true
      · rw [Prog.bind_bind, hread, if_pos h₂]
        exact .inl rfl
      have hproven : (adoptable target (w.db.getUserKey target.id .btc) key.publicKey ||
          rotationProven env req (env.hashPublicKey key.publicKey)
            (w.db.getUserKey target.id .btc)) = true := by
        simpa using hrep.proven
      rw [Prog.bind_bind, hread, if_neg h₂, hproven]
      exact .inr rfl

theorem getOrRegister_onlyKey {env : AuthEnv} {a : Answers} {req : ExtensionRegisterRequest}
    {pubkeyHash publicKey : String} {me : UserRow} {w w' : World} {r : Except AppError AuthResponse}
    (hme : w.db.getUserByPubkeyHash env.pepper pubkeyHash = some me)
    (hsame : SameBtc req.keys publicKey)
    (h : (getOrRegister env a req pubkeyHash (some me)).Outcome w r w') :
    OnlyKey w.db me.id publicKey w'.db := by
  refine getOrRegister_known hme (fun o => ?_) (fun user => keeps_keysAndSignIn hsame) h
    (OnlyKey.refl ..)
  exact (Does.steps_backfillOptionals trivial (calm_fill _ _ _)).keeps
    fun _ _ => onlyKey_of_calm

/-! ### Requests -/

/-- A request that writes identities or keys. -/
inductive AnchorRequest
  | extension (a : Answers) (req : ExtensionRegisterRequest)
  | registerKey (bearer : Except AppError TokenInfo) (req : RegisterKeyRequest)

namespace AnchorRequest

/-- The state after the request, when its statements fail as `fails` says. -/
def after (env : AuthEnv) (fails : ℕ → Bool) (w : World) : AnchorRequest → World
  | extension a req => ((extensionRegister env a req).exec fails 0 w).1.2
  | registerKey bearer req => ((SmirkBackend.registerKey bearer req).exec fails 0 w).1.2

/-- The BTC key whose control the request proves. -/
def provedKey (env : AuthEnv) : AnchorRequest → Option String
  | extension _ req => ((btcKey req.keys).filter fun key =>
      (env.verifyBitcoinSignature (authMessage req.signedTimestamp) req.signature
        key.publicKey).isOk).map AssetPublicKey.publicKey
  | registerKey _ _ => none

theorem provedKey_of_freshlySigned {env : AuthEnv} {a : Answers} {req : ExtensionRegisterRequest}
    {key : AssetPublicKey} (h : FreshlySigned env a req key) :
    (extension a req).provedKey env = some key.publicKey := by
  simp [provedKey, h.submitted, h.signed, Option.filter, Except.isOk, Except.toBool]

end AnchorRequest

/-- What a request must avoid, so that identities and keys stay together. -/
def StaysAnchored (env : AuthEnv) (fails : ℕ → Bool) (w : World) : AnchorRequest → Prop
  -- no second BTC key; and a move stores its key, or the key was on file before
  | .extension a req => ∀ key, FreshlySigned env a req key → SameBtc req.keys key.publicKey ∧
      ∀ target, Repointed env req key w.db target →
        w.db.onFile target.id = some key.publicKey ∨ Finishes fails 4 req.keys
  -- no other key for a user that has an identity
  | .registerKey bearer req => ∀ info h, bearer = .ok info →
      parseAsset req.key.asset = .ok .btc →
      resolveKeyType .btc req.key.publicKey req.keyType = .ok "primary" →
      w.db.anchor info.userId = some h → h = env.anchorOf req.key.publicKey

/-- Every identity is that of the key on file. -/
def Matches (env : AuthEnv) (db : Db) : Prop :=
  ∀ u h, db.anchor u = some h → ∃ publicKey, db.onFile u = some publicKey ∧
    h = env.anchorOf publicKey

/-- The request leaves every identity with its key, and sets none but that of the key it proves. -/
structure Upheld (env : AuthEnv) (q : AnchorRequest) (w w' : World) : Prop where
  /-- The keys on file. -/
  onFile : Matches env w'.db
  /-- The identities that were set. -/
  proved : ∀ u h, w'.db.anchor u = some h → w.db.anchor u = some h ∨
    ∃ publicKey, q.provedKey env = some publicKey ∧ h = env.anchorOf publicKey

theorem Upheld.refl {env : AuthEnv} (q : AnchorRequest) {w : World} (h : Matches env w.db) :
    Upheld env q w w :=
  ⟨h, fun _ _ h => .inl h⟩

/-- The identity and the key of one user are those of the proved key; no other user changes. -/
theorem upheld_of_set {env : AuthEnv} {q : AnchorRequest} {w w' : World} {t : Uuid}
    {publicKey : String} (h : Matches env w.db) (hproved : q.provedKey env = some publicKey)
    (hanchor : w'.db.anchor t = some (env.anchorOf publicKey))
    (hfile : w'.db.onFile t = some publicKey)
    (hothers : ∀ u, u ≠ t → w'.db.anchor u = w.db.anchor u ∧ w'.db.onFile u = w.db.onFile u) :
    Upheld env q w w' := by
  constructor
  · intro u h' hu
    by_cases hut : u = t
    · subst hut
      exact ⟨publicKey, hfile, Option.some.inj (hu.symm.trans hanchor)⟩
    · obtain ⟨hsame, hkey⟩ := hothers u hut
      rw [hkey]
      exact h u h' (hsame ▸ hu)
  · intro u h' hu
    by_cases hut : u = t
    · subst hut
      exact .inr ⟨publicKey, hproved, Option.some.inj (hu.symm.trans hanchor)⟩
    · exact .inl ((hothers u hut).1 ▸ hu)

theorem upheld_of_onlyKey {env : AuthEnv} {q : AnchorRequest} {w w' : World} {t : Uuid}
    {publicKey : String} (h : Matches env w.db)
    (hkey : ∀ h', w.db.anchor t = some h' → h' = env.anchorOf publicKey)
    (honly : OnlyKey w.db t publicKey w'.db) : Upheld env q w w' := by
  constructor
  · intro u h' hu
    rw [honly.anchors] at hu
    by_cases hut : u = t
    · subst hut
      rcases honly.own with hown | hown
      · rw [hown]
        exact h u h' hu
      · exact ⟨publicKey, hown, hkey h' hu⟩
    · rw [honly.others u hut]
      exact h u h' hu
  · exact fun u h' hu => .inl (honly.anchors u ▸ hu)

/-- A move, when the key ends up on file. -/
theorem upheld_of_repointed {env : AuthEnv} {a : Answers} {req : ExtensionRegisterRequest}
    {key : AssetPublicKey} {target : UserRow} {fails : ℕ → Bool} {w : World}
    (h : Matches env w.db) (hsigned : FreshlySigned env a req key)
    (hrep : Repointed env req key w.db target)
    (hstays : StaysAnchored env fails w (.extension a req)) :
    Upheld env (.extension a req) w ((AnchorRequest.extension a req).after env fails w) := by
  obtain ⟨hsame, hmove⟩ := hstays key hsigned
  have hfinish := hmove target hrep
  have htarget : w.db.users.get? target.id = some target := by
    obtain ⟨fp, -, hfp⟩ := hrep.located
    exact Table.get?_of_mem (List.mem_of_find?_eq_some hfp)
  rw [AnchorRequest.after]
  rcases extensionRegister_exec fails hsigned hrep with hsame' | hexec
  · rw [hsame']
    exact .refl _ h
  rcases repoint_exec env a req (env.hashPublicKey key.publicKey) fails 3 htarget with
    hsame' | ⟨w₁, hmoved, hexec'⟩
  · rw [hexec, hsame']
    exact .refl _ h
  rw [hexec, hexec']
  -- from a state in which the key is on file, it stays there
  have hset {w₂ : World} {n : ℕ} {keys : List AssetPublicKey}
      (hkeys : SameBtc keys key.publicKey) (honly : OnlyKey w₁.db target.id key.publicKey w₂.db)
      (hfile : w₂.db.onFile target.id = some key.publicKey) :
      Upheld env (.extension a req) w ((upsertAllKeys target.id keys >>= fun _ =>
        signIn env a target .extension "Browser Extension" "btc" false).exec fails n w₂).1.2 := by
    have hout := Prog.outcome_exec fails (upsertAllKeys target.id keys >>= fun _ =>
      signIn env a target .extension "Browser Extension" "btc" false) n w₂
    obtain ⟨hend, -⟩ := (keeps_keysAndSignIn hkeys).outcome hout (OnlyKey.refl w₂.db ..)
    refine upheld_of_set (t := target.id) h (AnchorRequest.provedKey_of_freshlySigned hsigned) ?_ ?_
      fun u hu => ⟨?_, ?_⟩
    · rw [hend.anchors, honly.anchors]
      exact hmoved.own
    · exact hend.own.elim (fun hown => hown.trans hfile) id
    · rw [hend.anchors, honly.anchors, hmoved.others u hu]
    · rw [hend.others u hu, honly.others u hu, hmoved.keys]
  rcases hfinish with hfile | ⟨before, k, after, hkeys, hbtc, hbefore, hok⟩
  · exact hset hsame (.refl ..) ((hmoved.keys _).trans hfile)
  · rw [hkeys] at hsame ⊢
    obtain ⟨w₂, m, honly, hfile, hstored⟩ :=
      upsertAllKeys_exec hbtc hsame hbefore hok hmoved.isSome
    rw [Prog.exec_bind, hstored, ← Prog.exec_bind]
    exact hset (fun k' hk' => hsame k' (by simp [hk'])) honly hfile

/-- A registration that avoids what breaks them upholds identities and keys. -/
theorem extension_upheld {env : AuthEnv} {a : Answers} {req : ExtensionRegisterRequest}
    {fails : ℕ → Bool} {w : World} (h : Matches env w.db)
    (hstays : StaysAnchored env fails w (.extension a req)) :
    Upheld env (.extension a req) w ((AnchorRequest.extension a req).after env fails w) := by
  have hout := Prog.outcome_exec fails (extensionRegister env a req) 0 w
  rcases extensionRegister_cases hout with ⟨hsame, -⟩ | ⟨key, hsigned, hmove | ⟨-, hreg⟩⟩
  · rw [AnchorRequest.after, hsame]
    exact .refl _ h
  · obtain ⟨target, hrep, -⟩ := hmove
    exact upheld_of_repointed h hsigned hrep hstays
  · rw [AnchorRequest.after]
    generalize ((extensionRegister env a req).exec fails 0 w).1.2 = w' at hreg ⊢
    generalize ((extensionRegister env a req).exec fails 0 w).1.1 = r at hreg
    obtain ⟨hsame, -⟩ := hstays key hsigned
    cases hme : w.db.getUserByPubkeyHash env.pepper (env.hashPublicKey key.publicKey) with
    | some me =>
      -- a known wallet
      rw [hme] at hreg
      have hanchor : w.db.anchor me.id = some (env.anchorOf key.publicKey) := by
        have hrow : w.db.users.get? me.id = some me :=
          Table.get?_of_mem (List.mem_of_find?_eq_some hme)
        have hhash := List.find?_some hme
        rw [Db.anchor, hrow]
        simpa [AuthEnv.anchorOf] using hhash
      refine upheld_of_onlyKey h (fun h' hh' => ?_) (getOrRegister_onlyKey hme hsame hreg)
      exact Option.some.inj (hh'.symm.trans hanchor)
    | none =>
      -- a new wallet
      rw [hme] at hreg
      rcases Prog.outcome_ofExcept_bind hreg with ⟨e, -, rfl⟩ | ⟨_, -, h₁⟩
      · exact .refl _ h
      rcases Prog.outcome_bind h₁ with ⟨e, hout, -⟩ | ⟨fingerprint, w₁, hout, h₂⟩
      · rw [fingerprintForRow_outcome hout]
        exact .refl _ h
      obtain rfl := fingerprintForRow_outcome hout
      obtain ⟨hmem, hasset⟩ := btcKey_mem hsigned.submitted
      have hregistered {w₂ : World} {r : Except AppError UserRow}
          (hout : (registerNew (req.registration env a (env.hashPublicKey key.publicKey)
            fingerprint) a.userId).Outcome w₁ r w₂) : Upheld env (.extension a req) w₁ w₂ := by
        rcases registerNew_outcome hsame ⟨key, hmem, hasset⟩ hout with rfl | hnew
        · exact .refl _ h
        · exact upheld_of_set h (AnchorRequest.provedKey_of_freshlySigned hsigned) hnew.anchor
            hnew.onFile fun u hu => ⟨hnew.anchors u hu, hnew.others u hu⟩
      rcases Prog.outcome_bind h₂ with ⟨e, hout', -⟩ | ⟨user, w₂, hout', h₃⟩
      · exact hregistered hout'
      · have hupheld := hregistered hout'
        obtain ⟨hanchor, hfile⟩ :=
          anchor_of_outcome (Does.steps_signIn trivial fun _ => trivial) h₃
        refine ⟨fun u h' hu => ?_, fun u h' hu => hupheld.proved u h' (hanchor u ▸ hu)⟩
        rw [hfile]
        exact hupheld.onFile u h' (hanchor u ▸ hu)

/-- `POST /keys`, when it does not replace the key of an identity by another one. -/
theorem registerKey_upheld {env : AuthEnv} {bearer : Except AppError TokenInfo}
    {req : RegisterKeyRequest} {fails : ℕ → Bool} {w : World} (h : Matches env w.db)
    (hstays : StaysAnchored env fails w (.registerKey bearer req)) :
    Upheld env (.registerKey bearer req) w
      ((AnchorRequest.registerKey bearer req).after env fails w) := by
  have hout := Prog.outcome_exec fails (registerKey bearer req) 0 w
  rw [AnchorRequest.after]
  generalize ((registerKey bearer req).exec fails 0 w).1.2 = w' at hout ⊢
  generalize ((registerKey bearer req).exec fails 0 w).1.1 = r at hout
  rcases registerKey_cases hout with rfl | ⟨info, asset, keyType, db', hinfo, hasset, htype, hdb, rfl⟩
  · exact .refl _ h
  obtain ⟨hanchor, hfile⟩ := onFile_upsertUserKey hdb
  by_cases hkey : asset = .btc ∧ keyType = "primary"
  · obtain ⟨rfl, rfl⟩ := hkey
    refine upheld_of_onlyKey (t := info.userId) h
      (fun h' hh' => hstays info h' hinfo hasset htype hh') ⟨hanchor, fun u hu => ?_, ?_⟩
    · exact (hfile u).trans (if_neg fun heq => hu (congrArg Prod.fst heq))
    · exact .inr ((hfile _).trans (if_pos rfl))
  · -- another key of the user
    have hsame (u : Uuid) : db'.onFile u = w.db.onFile u :=
      (hfile u).trans (if_neg fun heq => hkey ⟨(congrArg (fun k => k.2.1) heq).symm,
        (congrArg (fun k => k.2.2) heq).symm⟩)
    refine ⟨fun u h' hu => ?_, fun u h' hu => .inl (hanchor u ▸ hu)⟩
    obtain ⟨publicKey, hfile', hh'⟩ := h u h' (hanchor u ▸ hu)
    exact ⟨publicKey, (hsame u).trans hfile', hh'⟩

/-! ### Runs -/

/-- The database, and for every user the key that was proved when its identity was set. -/
structure AnchorState where
  /-- The database and its clock. -/
  world : World
  /-- The proved keys; only the specification reads them. -/
  proved : Uuid → Option String

/-- The state after a request, when its statements fail as `fails` says. -/
def AnchorState.next (env : AuthEnv) (q : AnchorRequest) (fails : ℕ → Bool) (s : AnchorState) :
    AnchorState where
  world := q.after env fails s.world
  proved u :=
    if (q.after env fails s.world).db.anchor u = s.world.db.anchor u then s.proved u
    else q.provedKey env

/-- What happens: a request, with the statements that fail, or anything that sets no identity and
no key of a user who has one. -/
inductive AnchorLabel
  | request (q : AnchorRequest) (fails : ℕ → Bool)
  | other

/-- Runs of requests. -/
def anchorSystem (env : AuthEnv) : System AnchorState AnchorLabel where
  step s l s' :=
    match l with
    | .request q fails => s' = s.next env q fails
    | .other => s'.proved = s.proved ∧ ∀ u h, s'.world.db.anchor u = some h →
        s.world.db.anchor u = some h ∧ s'.world.db.onFile u = s.world.db.onFile u

/-- What each request of a run must avoid. -/
def StaysAnchoredStep (env : AuthEnv) (s : AnchorState) (l : AnchorLabel) (_ : AnchorState) :
    Prop :=
  match l with
  | .request q fails => StaysAnchored env fails s.world q
  | .other => True

/-- Every identity is that of the key on file, and of the key that was proved when it was set. -/
structure Anchored (env : AuthEnv) (s : AnchorState) : Prop where
  /-- The key on file. -/
  onFile : Matches env s.world.db
  /-- The proved key. -/
  proved : ∀ u h, s.world.db.anchor u = some h → ∃ publicKey, s.proved u = some publicKey ∧
    h = env.anchorOf publicKey

theorem Anchored.onFile_eq {env : AuthEnv} {s : AnchorState} (h : Anchored env s)
    (hinj : Function.Injective env.anchorOf) {u : Uuid} (hu : (s.world.db.anchor u).isSome) :
    s.world.db.onFile u = s.proved u := by
  obtain ⟨h', hh'⟩ := Option.isSome_iff_exists.mp hu
  obtain ⟨k, hfile, hk⟩ := h.onFile u h' hh'
  obtain ⟨k', hproved, hk'⟩ := h.proved u h' hh'
  rw [hfile, hproved, hinj (hk.symm.trans hk')]

/-- One step keeps identities and keys together. -/
theorem anchored_step {env : AuthEnv} {s s' : AnchorState} {l : AnchorLabel}
    (hstep : ((anchorSystem env).only (StaysAnchoredStep env)).step s l s')
    (h : Anchored env s) : Anchored env s' := by
  obtain ⟨hstep, hstays⟩ := hstep
  cases l with
  | other =>
    obtain ⟨hproved, hkept⟩ := hstep
    refine ⟨fun u h' hu => ?_, fun u h' hu => ?_⟩
    · rw [(hkept u h' hu).2]
      exact h.onFile u h' (hkept u h' hu).1
    · rw [hproved]
      exact h.proved u h' (hkept u h' hu).1
  | request q fails =>
    obtain rfl : s' = s.next env q fails := hstep
    have hupheld : Upheld env q s.world (s.next env q fails).world := by
      cases q with
      | extension a req => exact extension_upheld h.onFile hstays
      | registerKey bearer req => exact registerKey_upheld h.onFile hstays
    refine ⟨hupheld.onFile, fun u h' hu => ?_⟩
    by_cases hsame : (s.next env q fails).world.db.anchor u = s.world.db.anchor u
    · obtain ⟨publicKey, hproved, hh'⟩ := h.proved u h' (hsame ▸ hu)
      exact ⟨publicKey, (if_pos hsame).trans hproved, hh'⟩
    · obtain ⟨publicKey, hproved, hh'⟩ :=
        (hupheld.proved u h' hu).resolve_left fun hold => hsame (hu.trans hold.symm)
      exact ⟨publicKey, (if_neg hsame).trans hproved, hh'⟩

/-- **Identities and keys stay together.** In every run of registrations and key requests, with any
failures of their statements, in which no request submits two BTC keys, replaces the key of an
identity by another one, or stops in the middle of a move, every identity is that of the BTC key on
file and of the key that was proved when it was set. -/
theorem anchored_of_run {env : AuthEnv} {s s' : AnchorState} {ls : List AnchorLabel}
    (hrun : ((anchorSystem env).only (StaysAnchoredStep env)).Run s ls s') (h : Anchored env s) :
    Anchored env s' ∧ (Function.Injective env.anchorOf → ∀ u, (s'.world.db.anchor u).isSome →
      s'.world.db.onFile u = s'.proved u) := by
  have hend := hrun.invariant (fun _ _ _ hstep hs => anchored_step hstep hs) h
  exact ⟨hend, fun hinj _ hu => hend.onFile_eq hinj hu⟩

/-- No users. -/
def noUsers : AnchorState := ⟨⟨Db.empty, 0⟩, fun _ => none⟩

theorem noUsers_anchored : Anchored sampleEnv noUsers :=
  ⟨fun _ _ h => (nomatch h), fun _ _ h => (nomatch h)⟩

/-- A new wallet. -/
def newWallet : AnchorRequest := .extension (sampleAnswers 2) (walletRequest "K" none)

/-- The wallet stores a BTC key. -/
def storesKey (publicKey : String) : AnchorRequest :=
  .registerKey (.ok ⟨2, none⟩) ⟨⟨"btc", publicKey, none⟩, none⟩

/-- A wallet registers and stores its key again. -/
theorem newWallet_anchored : Anchored sampleEnv
    ((noUsers.next sampleEnv newWallet fun _ => false).next sampleEnv (storesKey "K")
      fun _ => false) := by
  have hfirst : StaysAnchored sampleEnv (fun _ => false) noUsers.world newWallet := by
    intro key hsigned
    obtain rfl : ⟨"btc", "K", none⟩ = key := Option.some.inj hsigned.submitted
    refine ⟨fun k hk _ => ?_, fun target hrep => ?_⟩
    · obtain rfl := List.mem_singleton.mp hk
      rfl
    · obtain ⟨fp, hfp, -⟩ := hrep.located
      cases hfp
  have hsecond : StaysAnchored sampleEnv (fun _ => false)
      (noUsers.next sampleEnv newWallet fun _ => false).world (storesKey "K") := by
    rintro info h hinfo - - hanchor
    obtain rfl := Except.ok.inj hinfo
    exact (Option.some.inj hanchor).symm
  have hrun : ((anchorSystem sampleEnv).only (StaysAnchoredStep sampleEnv)).Run noUsers
      [.request newWallet fun _ => false, .request (storesKey "K") fun _ => false]
      ((noUsers.next sampleEnv newWallet fun _ => false).next sampleEnv (storesKey "K")
        fun _ => false) := .cons ⟨rfl, hfirst⟩ (.cons ⟨rfl, hsecond⟩ (.nil _))
  exact (anchored_of_run hrun noUsers_anchored).1

/-- A new wallet that submits two BTC keys, signed by the first. -/
def twoKeysWallet : AnchorRequest :=
  .extension (sampleAnswers 2)
    { walletRequest "K" none with keys := [⟨"btc", "K", none⟩, ⟨"btc", "L", none⟩] }

/-- A wallet that registers two BTC keys is identified by one and has the other on file; so does a
wallet that stores another BTC key after its registration. -/
theorem keys_part_from_identities :
    (∃ s, (anchorSystem sampleEnv).Run noUsers [.request twoKeysWallet fun _ => false] s ∧
      s.world.db.anchor 2 = some (sampleEnv.anchorOf "K") ∧ s.world.db.onFile 2 = some "L" ∧
      s.proved 2 = some "K" ∧ ¬ Anchored sampleEnv s) ∧
    ∃ s, (anchorSystem sampleEnv).Run noUsers
        [.request newWallet fun _ => false, .request (storesKey "L") fun _ => false] s ∧
      s.world.db.anchor 2 = some (sampleEnv.anchorOf "K") ∧ s.world.db.onFile 2 = some "L" ∧
      s.proved 2 = some "K" ∧ ¬ Anchored sampleEnv s := by
  have hpart {s : AnchorState} (hanchor : s.world.db.anchor 2 = some (sampleEnv.anchorOf "K"))
      (hfile : s.world.db.onFile 2 = some "L") : ¬ Anchored sampleEnv s := by
    intro hs
    obtain ⟨publicKey, hkey, hsame⟩ := hs.onFile 2 _ hanchor
    obtain rfl := Option.some.inj (hfile.symm.trans hkey)
    exact absurd hsame (by decide)
  exact ⟨⟨_, .cons rfl (.nil _), rfl, rfl, rfl, hpart rfl rfl⟩,
    ⟨_, .cons rfl (.cons rfl (.nil _)), rfl, rfl, rfl, hpart rfl rfl⟩⟩

end SmirkBackend
