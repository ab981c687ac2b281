import SmirkBackend.Auth.Statements

/-!
# The primary keys of the users

A user has at most one primary key of each asset.  Registration, `POST /keys` and the import of a
legacy identity store primary keys; each stores keys of one user only, and only keys that were
submitted to it.

That is `extensionRegister_stored`, `nostrRegister_stored` and `registerKey_stored`;
`importLegacyKeys_outcome` says besides which key of an asset an import keeps.
-/

namespace SmirkBackend

open Lib (Table Patch Prog)

/-- The primary key of a user. -/
def Db.primary (db : Db) (u : Uuid) (asset : AssetType) : Option String :=
  (db.getUserKey u asset).map UserKeyRow.publicKey

theorem primary_upsertUserKey {k : UserKeyRow} {db db' : Db} (h : db.upsertUserKey k = .ok db') :
    db'.users = db.users ∧ (db.users.get? k.userId).isSome ∧ ∀ u asset, db'.primary u asset =
      if (u, asset, "primary") = Lib.key k then some k.publicKey else db.primary u asset := by
  unfold Db.upsertUserKey at h
  split_ifs at h with huser
  obtain rfl := Except.ok.inj h
  refine ⟨rfl, by simpa [Option.isSome_iff_ne_none] using huser, fun u asset => ?_⟩
  simp only [Db.primary, Db.getUserKey, Table.get?_upsert]
  split_ifs
  · cases db.userKeys.get? (u, asset, "primary") <;> rfl
  · rfl

theorem upsertUserKey_outcome {k : UserKeyRow} {w w' : World} {r : Except AppError Unit}
    (h : (upsertUserKey k).Outcome w r w') :
    (w' = w ∧ ∃ e, r = .error e) ∨ ∃ db', w.db.upsertUserKey k = .ok db' ∧
      w' = { w with db := db' } := by
  rcases Prog.outcome_query h with ⟨hr, hw'⟩ | ⟨hr, hw'⟩
  · cases hup : w.db.upsertUserKey k with
    | error e =>
      simp only [hup] at hw' hr
      exact .inl ⟨hw', e, hr⟩
    | ok db' =>
      simp only [hup] at hw'
      exact .inr ⟨db', rfl, hw'⟩
  · exact .inl ⟨hw', _, hr⟩

/-! ### Keys of one user -/

/-- Primary keys of `t` were stored, all of them in `S`; no other user's key changed. -/
structure Stored (S : AssetType → String → Prop) (t : Uuid) (db₀ db : Db) : Prop where
  /-- The keys of other users. -/
  others : ∀ u asset, u ≠ t → db.primary u asset = db₀.primary u asset
  /-- The keys of `t`. -/
  own : ∀ asset, db.primary t asset = db₀.primary t asset ∨
    ∃ publicKey, S asset publicKey ∧ (db.users.get? t).isSome ∧
      db.primary t asset = some publicKey

variable {S : AssetType → String → Prop} {t : Uuid} {db₀ : Db}

theorem Stored.refl (S : AssetType → String → Prop) (t : Uuid) (db : Db) : Stored S t db db :=
  ⟨fun _ _ _ => rfl, fun _ => .inl rfl⟩

theorem Stored.of_keys {db db' : Db} (h : Stored S t db₀ db)
    (husers : ∀ u, (db.users.get? u).isSome → (db'.users.get? u).isSome)
    (hkeys : ∀ u asset, db'.primary u asset = db.primary u asset) : Stored S t db₀ db' := by
  refine ⟨fun u asset hu => (hkeys u asset).trans (h.others u asset hu), fun asset => ?_⟩
  rw [hkeys]
  rcases h.own asset with hsame | ⟨publicKey, hS, huser, hnew⟩
  · exact .inl hsame
  · exact .inr ⟨publicKey, hS, husers t huser, hnew⟩

theorem Stored.upsert {db db' : Db} {k : UserKeyRow} (h : Stored S t db₀ db) (hk : k.userId = t)
    (hS : k.keyType = "primary" → S k.asset k.publicKey) (hup : db.upsertUserKey k = .ok db') :
    Stored S t db₀ db' := by
  obtain ⟨husers, huser, hprimary⟩ := primary_upsertUserKey hup
  refine ⟨fun u asset hu => ?_, fun asset => ?_⟩
  · rw [hprimary, if_neg fun heq => hu ((congrArg Prod.fst heq).trans hk)]
    exact h.others u asset hu
  · rw [hprimary, husers]
    split_ifs with heq
    · have hasset : asset = k.asset := congrArg (fun x => x.2.1) heq
      have htype : "primary" = k.keyType := congrArg (fun x => x.2.2) heq
      exact .inr ⟨k.publicKey, hasset ▸ hS htype.symm, hk ▸ huser, rfl⟩
    · exact h.own asset

/-- Effects that store no key. -/
def Effect.KeepsKeys : Effect → Prop
  | update _ _ => True
  | create _ => False
  | key _ => False
  | session _ => True
  | other => True

theorem primary_of_keepsKeys {w w' : World} (h : Does Effect.KeepsKeys w w') :
    (∀ u, (w'.db.users.get? u).isSome = (w.db.users.get? u).isSome) ∧
      ∀ u asset, w'.db.primary u asset = w.db.primary u asset := by
  have hsame (husers : ∀ u, (w'.db.users.get? u).isSome = (w.db.users.get? u).isSome)
      (hkeys : w'.db.userKeys = w.db.userKeys) :
      (∀ u, (w'.db.users.get? u).isSome = (w.db.users.get? u).isSome) ∧
        ∀ u asset, w'.db.primary u asset = w.db.primary u asset :=
    ⟨husers, fun u asset => by simp [Db.primary, Db.getUserKey, hkeys]⟩
  obtain ⟨eff, hkeep, hwrites⟩ := h
  cases eff with
  | create r => exact hkeep.elim
  | key u => exact hkeep.elim
  | session r => exact hsame (fun u => by rw [hwrites.1]) hwrites.2.1
  | other => exact hsame (fun u => by rw [hwrites.1]) hwrites.2.1
  | update v f =>
    refine hsame (fun u => ?_) hwrites.2.1
    rw [hwrites.1, Table.get?_updateOne, Option.isSome_map]

theorem stored_of_keepsKeys {w w' : World} (hdoes : Does Effect.KeepsKeys w w')
    (h : Stored S t db₀ w.db) : Stored S t db₀ w'.db := by
  obtain ⟨husers, hkeys⟩ := primary_of_keepsKeys hdoes
  exact h.of_keys (fun u hu => (husers u).trans hu) hkeys

theorem keeps_stored {α : Type} {p : Handler α} (hp : p.Steps (Does Effect.KeepsKeys)) :
    p.Keeps (OnDb (Stored S t db₀)) fun _ => True :=
  hp.keeps fun _ _ => stored_of_keepsKeys

/-- A list of keys, each of them in `S`. -/
def Submits (S : AssetType → String → Prop) (keys : List AssetPublicKey) : Prop :=
  ∀ k ∈ keys, ∀ asset, parseAsset k.asset = .ok asset → S asset k.publicKey

theorem keeps_upsertAllKeys_stored {keys : List AssetPublicKey} (hkeys : Submits S keys) :
    (upsertAllKeys t keys).Keeps (OnDb (Stored S t db₀)) fun _ => True := by
  induction keys with
  | nil => trivial
  | cons k rest ih =>
    refine (Prog.keeps_ofExcept (Q := fun asset => parseAsset k.asset = .ok asset)
      fun _ h => h).bind fun asset hasset => ?_
    have hup : (upsertUserKey (k.row t asset)).Keeps (OnDb (Stored S t db₀)) fun _ => True := by
      refine keeps_execute fun _ db hdb => ?_
      cases h : db.upsertUserKey (k.row t asset) with
      | error e => exact ⟨hdb, fun _ _ => trivial⟩
      | ok db' =>
        have hS : S asset k.publicKey := hkeys k (.head _) asset hasset
        exact ⟨hdb.upsert rfl (fun _ => hS) h, fun _ _ => trivial⟩
    exact hup.bind fun _ _ => ih fun k' hk' => hkeys k' (.tail _ hk')

theorem keeps_keysAndSignIn_stored {env : AuthEnv} {a : Answers} {user : UserRow}
    {platform : Platform} {deviceInfo asset : String} {isNew : Bool} {keys : List AssetPublicKey}
    (hkeys : Submits S keys) :
    (upsertAllKeys t keys >>= fun _ => signIn env a user platform deviceInfo asset isNew).Keeps
      (OnDb (Stored S t db₀)) fun _ => True :=
  (keeps_upsertAllKeys_stored hkeys).bind fun _ _ =>
    keeps_stored (Does.steps_signIn trivial fun _ => trivial)

/-! ### A new user -/

theorem parseKeys_eq_ok {keys : List AssetPublicKey} {parsed : List (AssetType × AssetPublicKey)}
    (h : parseKeys keys = .ok parsed) :
    (∀ p ∈ parsed, p.2 ∈ keys ∧ parseAsset p.2.asset = .ok p.1) ∧
      ∀ k ∈ keys, ∃ p ∈ parsed, p.2 = k := by
  induction keys generalizing parsed with
  | nil =>
    obtain rfl := Except.ok.inj h
    simp
  | cons k keys ih =>
    rw [parseKeys] at h
    cases hasset : parseAsset k.asset with
    | error e => simp [hasset, bind, Except.bind] at h
    | ok asset =>
      cases hrest : parseKeys keys with
      | error e => simp [hasset, hrest, bind, Except.bind] at h
      | ok rest =>
        simp only [hasset, hrest, bind, Except.bind, pure, Except.pure, Except.ok.injEq] at h
        subst h
        obtain ⟨hmem, hall⟩ := ih hrest
        constructor
        · rintro p (_ | ⟨_, hp⟩)
          · exact ⟨by simp, hasset⟩
          · exact ⟨.tail _ (hmem p hp).1, (hmem p hp).2⟩
        · rintro k' (_ | ⟨_, hk'⟩)
          · exact ⟨(asset, k), by simp, rfl⟩
          · obtain ⟨p, hp, hpk⟩ := hall k' hk'
            exact ⟨p, .tail _ hp, hpk⟩

theorem keeps_registrationPlan_keys {I : World → Prop} (q : Registration) :
    (registrationPlan q).Keeps I fun g => parseKeys q.keys = .ok g.2 := by
  have htrue {α : Type} {p : Handler α} (hp : p.Steps Eq) : p.Keeps I fun _ => True :=
    hp.keeps fun _ _ h => h ▸ id
  refine (htrue (steps_ensureUsernameAvailable (fun _ => rfl) _)).bind fun _ _ => ?_
  refine (htrue (steps_planGateConsume (fun _ => rfl) _ _ _ _ _ _)).bind fun gates _ => ?_
  exact (Prog.keeps_ofExcept (Q := fun keys => parseKeys q.keys = .ok keys) fun _ h => h).bind
    fun keys hkeys => hkeys

/-- A registration fails without effect, or carries out its transaction. -/
theorem registerNew_cases {q : Registration} {id : Uuid} {w w' : World} {r : Except AppError UserRow}
    (h : (registerNew q id).Outcome w r w') :
    w' = w ∨ ∃ g : GatedRegistration × List (AssetType × AssetPublicKey),
      parseKeys q.keys = .ok g.2 ∧
        Lib.replay (consumeGatesScript q.pepper q.new g.1 g.2 ⟨w.now, id⟩) w = .ok w' := by
  have hreads : (registrationPlan q).Steps fun s s' => s' = s :=
    steps_registrationPlan (R := fun s s' => s' = s) (fun _ => rfl) q
  rcases Prog.outcome_bind h with ⟨e, hout, -⟩ | ⟨g, w₁, hout, hcreate⟩
  · exact .inl (hreads.outcome_eq hout)
  obtain rfl := hreads.outcome_eq hout
  have hparsed : parseKeys q.keys = .ok g.2 :=
    ((keeps_registrationPlan_keys (I := fun _ => True) q).outcome hout trivial).2 g rfl
  rcases Prog.outcome_query hcreate with ⟨-, hw'⟩ | ⟨-, hw'⟩
  · cases hreplay : Lib.replay (consumeGatesScript q.pepper q.new g.1 g.2 ⟨w₁.now, id⟩) w₁ with
    | error e =>
      rw [hreplay] at hw'
      exact .inl hw'
    | ok w₂ =>
      rw [hreplay] at hw'
      subst hw'
      exact .inr ⟨g, hparsed, hreplay⟩
  · exact .inl hw'

theorem stored_of_replay {keys : List (AssetType × AssetPublicKey)} {w w' : World}
    (hkeys : ∀ k ∈ keys, S k.1 k.2.publicKey)
    (h : Lib.replay (keys.map fun k => upsertKeyStmt (k.2.row t k.1)) w = .ok w')
    (hw : Stored S t db₀ w.db) : Stored S t db₀ w'.db := by
  induction keys generalizing w with
  | nil =>
    obtain rfl := Except.ok.inj h
    exact hw
  | cons k keys ih =>
    obtain ⟨w₁, hrun, hrest⟩ := Lib.replay_cons_eq_ok_iff.mp h
    simp only [upsertKeyStmt] at hrun
    cases hup : w.db.upsertUserKey (k.2.row t k.1) with
    | error e => simp [hup, Except.map] at hrun
    | ok db' =>
      simp only [hup, Except.map, Except.ok.injEq] at hrun
      subst hrun
      refine ih (fun k' hk' => hkeys k' (.tail _ hk')) hrest ?_
      exact hw.upsert rfl (fun _ => hkeys k (.head _)) hup

/-- What a request does to the primary keys: nothing, or it stores keys of `S` for a user that it
acts for, or for a new one when it acts for none. -/
inductive KeyOutcome (S : AssetType → String → Prop) (acts : Uuid → Prop) (db db' : Db) : Prop
  | same (h : ∀ u asset, db'.primary u asset = db.primary u asset)
  | stored (t : Uuid) (ht : acts t ∨ (db.users.get? t = none ∧ ∀ u, ¬ acts u))
      (h : Stored S t db db')

variable {acts : Uuid → Prop}

theorem KeyOutcome.refl (db : Db) : KeyOutcome S acts db db := .same fun _ _ => rfl

theorem primary_of_outcome {α : Type} {p : Handler α} (hp : p.Steps (Does Effect.KeepsKeys))
    {w w' : World} {r : Except AppError α} (h : p.Outcome w r w') :
    ∀ u asset, w'.db.primary u asset = w.db.primary u asset := by
  have hkeeps : p.Keeps (OnDb fun db => ∀ u asset, db.primary u asset = w.db.primary u asset)
      fun _ => True :=
    hp.keeps fun _ _ hdoes hsame u asset =>
      ((primary_of_keepsKeys hdoes).2 u asset).trans (hsame u asset)
  exact (hkeeps.outcome h fun _ _ => rfl).1

theorem registerNew_stored {q : Registration} {id : Uuid} {w w' : World}
    {r : Except AppError UserRow} (hkeys : Submits S q.keys)
    (h : (registerNew q id).Outcome w r w') :
    w' = w ∨ (w.db.users.get? id = none ∧ Stored S id w.db w'.db) := by
  rcases registerNew_cases h with rfl | ⟨g, hparsed, hreplay⟩
  · exact .inl rfl
  obtain ⟨w₁, hrows, hsame, hlast⟩ := replay_before_keys hreplay
  have hins := Table.insert?_of_rows_append hrows
  refine .inr ⟨(Table.insert?_eq_some_iff.mp hins).1, ?_⟩
  obtain ⟨hmem, -⟩ := parseKeys_eq_ok hparsed
  refine stored_of_replay (fun k hk => hkeys k.2 (hmem k hk).1 k.1 (hmem k hk).2) hlast ?_
  refine (Stored.refl S id w.db).of_keys (fun u hu => ?_) fun u asset => ?_
  · rw [Table.get?_insert? hins]
    split_ifs
    · rfl
    · exact hu
  · simp only [Db.primary, Db.getUserKey, hsame]

theorem registerNew_keys {q : Registration} {id : Uuid} {w w' : World}
    {f : UserRow → Handler AuthResponse} {r : Except AppError AuthResponse}
    (hkeys : Submits S q.keys) (hf : ∀ user, (f user).Steps (Does Effect.KeepsKeys))
    (hacts : ∀ u, ¬ acts u) (h : (registerNew q id >>= f).Outcome w r w') : KeyOutcome S acts w.db w'.db := by
  have hfirst {w₁ : World} {r₁ : Except AppError UserRow}
      (hout : (registerNew q id).Outcome w r₁ w₁) : KeyOutcome S acts w.db w₁.db := by
    rcases registerNew_stored hkeys hout with rfl | ⟨hfree, hstored⟩
    · exact .refl _
    · exact .stored id (.inr ⟨hfree, hacts⟩) hstored
  rcases Prog.outcome_bind h with ⟨e, hout, -⟩ | ⟨user, w₁, hout, hrest⟩
  · exact hfirst hout
  · cases hfirst hout with
    | same hsame =>
      have hend := primary_of_outcome (hf user) hrest
      exact .same fun u asset => (hend u asset).trans (hsame u asset)
    | stored t ht hst => exact .stored t ht ((keeps_stored (hf user)).outcome hrest hst).1

/-! ### Wallets -/

theorem fingerprintForRow_outcome {env : AuthEnv} {existing : Option UserRow}
    {fingerprint : Option String} {w w' : World} {r : Except AppError (Option String)}
    (h : (fingerprintForRow env existing fingerprint).Outcome w r w') : w' = w := by
  unfold fingerprintForRow at h
  cases fingerprint with
  | none =>
    cases h
    rfl
  | some fp =>
    rcases Prog.outcome_read_bind h with ⟨-, rfl⟩ | h
    · rfl
    · cases h
      rfl

theorem backfillOptionals_id {pepper : Pepper} {existing user : UserRow} {o : Optionals}
    {w w' : World} (h : (backfillOptionals pepper existing o).Outcome w (.ok user) w') :
    user.id = existing.id := by
  have hid : Allows (fun _ => True) (fun u => u = existing.id) (fun _ => True) (fun _ => False) :=
    ⟨fun _ _ _ _ _ _ _ _ => trivial, fun _ _ _ _ h => h.elim, fun _ _ _ _ _ _ => trivial,
      fun _ _ _ _ _ _ => trivial, fun _ _ _ _ => trivial⟩
  exact ((hid.keeps_backfillOptionals rfl trivial).outcome h trivial).2 user rfl

/-- A known wallet fills in optional values of its row, stores its keys and signs in. -/
theorem getOrRegister_known {env : AuthEnv} {a : Answers} {req : ExtensionRegisterRequest}
    {pubkeyHash : String} {me : UserRow} {I : Db → Prop} {w w' : World}
    {r : Except AppError AuthResponse}
    (hme : w.db.getUserByPubkeyHash env.pepper pubkeyHash = some me)
    (hfill : ∀ o : Optionals,
      (backfillOptionals env.pepper me o).Keeps (OnDb I) fun _ => True)
    (hkeys : ∀ user, (upsertAllKeys me.id req.keys >>= fun _ =>
      signIn env a user .extension "Browser Extension" "btc" false).Keeps (OnDb I) fun _ => True)
    (h : (getOrRegister env a req pubkeyHash (some me)).Outcome w r w') (hw : I w.db) :
    I w'.db := by
  rcases Prog.outcome_ofExcept_bind h with ⟨e, -, rfl⟩ | ⟨_, -, h₁⟩
  · exact hw
  rcases Prog.outcome_bind h₁ with ⟨e, hout, -⟩ | ⟨fingerprint, w₁, hout, h₂⟩
  · rw [fingerprintForRow_outcome hout]
    exact hw
  obtain rfl := fingerprintForRow_outcome hout
  -- the row is looked up again, and is the same one
  have hget {r : Except AppError UserRow} {w₂ : World}
      (hout : (getOrCreateUserByPubkeyHash env.pepper a.userId pubkeyHash req.username
        (req.optionals fingerprint)).Outcome w₁ r w₂) :
      I w₂.db ∧ ∀ user, r = .ok user → user.id = me.id := by
    rcases Prog.outcome_read_bind hout with ⟨rfl, rfl⟩ | hback
    · exact ⟨hw, fun _ h => nomatch h⟩
    simp only [hme] at hback
    exact ⟨((hfill _).outcome hback hw).1, fun user huser => backfillOptionals_id (huser ▸ hback)⟩
  rcases Prog.outcome_bind h₂ with ⟨e, hout', -⟩ | ⟨user, w₂, hout', h₃⟩
  · exact (hget hout').1
  · obtain ⟨hI, huser⟩ := hget hout'
    rw [huser user rfl] at h₃
    exact ((hkeys user).outcome h₃ hI).1

/-- `POST /keys` stores one key of the bearer's user, or nothing. -/
theorem registerKey_cases {bearer : Except AppError TokenInfo} {req : RegisterKeyRequest}
    {w w' : World} {r : Except AppError UserKeyRow} (h : (registerKey bearer req).Outcome w r w') :
    w' = w ∨ ∃ info asset keyType db', bearer = .ok info ∧ parseAsset req.key.asset = .ok asset ∧
      resolveKeyType asset req.key.publicKey req.keyType = .ok keyType ∧
      w.db.upsertUserKey
        ⟨info.userId, asset, req.key.publicKey, req.key.publicSpendKey, keyType⟩ = .ok db' ∧
      w' = { w with db := db' } := by
  have hreads : (extractUserIdFromToken bearer).Steps fun s s' => s' = s :=
    steps_extractUserIdFromToken (R := fun s s' => s' = s) (fun _ => rfl) bearer
  rcases Prog.outcome_bind h with ⟨e, hfirst, -⟩ | ⟨user, w₁, hfirst, h₁⟩
  · exact .inl (hreads.outcome_eq hfirst)
  obtain rfl := hreads.outcome_eq hfirst
  obtain ⟨info, hinfo, rfl⟩ :=
    ((keeps_extractUserIdFromToken (I := fun _ => True) bearer).outcome hfirst trivial).2 user rfl
  rcases Prog.outcome_ofExcept_bind h₁ with ⟨e, -, rfl⟩ | ⟨asset, hasset, h₂⟩
  · exact .inl rfl
  rcases Prog.outcome_ofExcept_bind h₂ with ⟨e, -, rfl⟩ | ⟨keyType, htype, h₃⟩
  · exact .inl rfl
  rcases Prog.outcome_bind h₃ with ⟨e, hup, -⟩ | ⟨_, w₂, hup, h₄⟩
  · exact (upsertUserKey_outcome hup).imp And.left fun ⟨db', hdb, hw⟩ =>
      ⟨info, asset, keyType, db', hinfo, hasset, htype, hdb, hw⟩
  · cases h₄
    exact (upsertUserKey_outcome hup).imp And.left fun ⟨db', hdb, hw⟩ =>
      ⟨info, asset, keyType, db', hinfo, hasset, htype, hdb, hw⟩

/-! ### What a request stores -/

/-- A wallet stores the keys it submits, once it has signed for one of them. -/
theorem extensionRegister_stored {env : AuthEnv} {a : Answers} {req : ExtensionRegisterRequest}
    {w w' : World} {r : Except AppError AuthResponse}
    (hkeys : ∀ key, FreshlySigned env a req key → Submits S req.keys)
    (hknown : ∀ key me, FreshlySigned env a req key →
      w.db.getUserByPubkeyHash env.pepper (env.hashPublicKey key.publicKey) = some me → acts me.id)
    (hmoved : ∀ key target, FreshlySigned env a req key → Repointed env req key w.db target →
      acts target.id)
    (hnew : ∀ key, FreshlySigned env a req key →
      w.db.getUserByPubkeyHash env.pepper (env.hashPublicKey key.publicKey) = none →
      (∀ target, ¬ Repointed env req key w.db target) → ∀ u, ¬ acts u)
    (h : (extensionRegister env a req).Outcome w r w') : KeyOutcome S acts w.db w'.db := by
  rcases extensionRegister_cases h with ⟨rfl, -⟩ | ⟨key, hsigned, ⟨target, hrep, h⟩ | ⟨hnone, h⟩⟩
  · exact .refl _
  · -- a move
    refine .stored target.id (.inl (hmoved key target hsigned hrep)) ?_
    have hmove : (repoint env a req (env.hashPublicKey key.publicKey) target).Keeps
        (OnDb (Stored S target.id w.db)) fun _ => True := by
      refine (Prog.keeps_ofExcept (Q := fun _ => True) fun _ _ => trivial).bind fun _ _ => ?_
      refine (keeps_stored (Does.steps_updatePubkeyHash trivial trivial)).bind fun _ _ => ?_
      exact keeps_keysAndSignIn_stored (hkeys key hsigned)
    exact (hmove.outcome h (Stored.refl ..)).1
  · cases hme : w.db.getUserByPubkeyHash env.pepper (env.hashPublicKey key.publicKey) with
    | some me =>
      rw [hme] at h
      refine .stored me.id (.inl (hknown key me hsigned hme)) ?_
      exact getOrRegister_known hme
        (fun o => keeps_stored (Does.steps_backfillOptionals trivial trivial))
        (fun user => keeps_keysAndSignIn_stored (hkeys key hsigned)) h (Stored.refl ..)
    | none =>
      rw [hme] at h
      rcases Prog.outcome_ofExcept_bind h with ⟨e, -, rfl⟩ | ⟨_, -, h₁⟩
      · exact .refl _
      rcases Prog.outcome_bind h₁ with ⟨e, hout, -⟩ | ⟨fingerprint, w₁, hout, h₂⟩
      · rw [fingerprintForRow_outcome hout]
        exact .refl _
      obtain rfl := fingerprintForRow_outcome hout
      exact registerNew_keys (hkeys key hsigned)
        (fun user => Does.steps_signIn trivial fun _ => trivial) (hnew key hsigned hme hnone) h₂

/-- A Nostr registration stores the keys it submits for the row of its Nostr key, or a new one. -/
theorem nostrRegister_stored {env : AuthEnv} {a : Answers} {req : NostrRegisterRequest}
    {w w' : World} {r : Except AppError AuthResponse}
    (hkeys : ∀ pubkey, proveNostr env a req.nostrToken "/auth/nostr/register" "nostr_register"
      req.nonce = .ok pubkey → Submits S req.keys)
    (hknown : ∀ pubkey me, proveNostr env a req.nostrToken "/auth/nostr/register" "nostr_register"
      req.nonce = .ok pubkey → w.db.findUserByNostrPubkey pubkey = some me → acts me.id)
    (hnew : ∀ pubkey, proveNostr env a req.nostrToken "/auth/nostr/register" "nostr_register"
      req.nonce = .ok pubkey → w.db.findUserByNostrPubkey pubkey = none → ∀ u, ¬ acts u)
    (h : (nostrRegister env a req).Outcome w r w') : KeyOutcome S acts w.db w'.db := by
  rcases Prog.outcome_ofExcept_bind h with ⟨e, -, rfl⟩ | ⟨_, -, h₁⟩
  · exact .refl _
  -- the nonce is consumed
  have hnonce {r₁ : Except AppError ChallengeRow} {w₁ : World}
      (hout : (requireChallenge req.nonce "nostr_register").Outcome w r₁ w₁) :
      w₁.db.users = w.db.users ∧ w₁.db.userKeys = w.db.userKeys := by
    have hkeeps : (requireChallenge req.nonce "nostr_register").Keeps
        (fun x => x.db.users = w.db.users ∧ x.db.userKeys = w.db.userKeys) fun _ => True := by
      refine (Prog.keeps_query (Q := fun _ => True) fun x hx => ⟨hx, fun _ _ => trivial⟩).bind
        fun found _ => ?_
      cases found <;> trivial
    exact (hkeeps.outcome hout ⟨rfl, rfl⟩).1
  rcases Prog.outcome_bind h₁ with ⟨e, hout, -⟩ | ⟨_, w₁, hout, h₂⟩
  · obtain ⟨-, hsame⟩ := hnonce hout
    exact .same fun u asset => by simp only [Db.primary, Db.getUserKey, hsame]
  obtain ⟨husers, hsame⟩ := hnonce hout
  suffices hsuff : KeyOutcome S acts w₁.db w'.db by
    have hprimary : ∀ u asset, w₁.db.primary u asset = w.db.primary u asset :=
      fun u asset => by simp only [Db.primary, Db.getUserKey, hsame]
    cases hsuff with
    | same h => exact .same fun u asset => (h u asset).trans (hprimary u asset)
    | stored t ht h =>
      refine .stored t (husers ▸ ht) ⟨fun u asset hu => ?_, fun asset => ?_⟩
      · exact (h.others u asset hu).trans (hprimary u asset)
      · rw [← hprimary]
        exact h.own asset
  rcases Prog.outcome_ofExcept_bind h₂ with ⟨e, -, rfl⟩ | ⟨pubkey, hproved, h₃⟩
  · exact .refl _
  rcases Prog.outcome_read_bind h₃ with ⟨-, rfl⟩ | h₄
  · exact .refl _
  rcases Prog.outcome_ofExcept_bind h₄ with ⟨e, -, rfl⟩ | ⟨_, -, h₅⟩
  · exact .refl _
  have hsubmits := hkeys pubkey hproved
  have hlookup : w₁.db.findUserByNostrPubkey pubkey = w.db.findUserByNostrPubkey pubkey := by
    rw [Db.findUserByNostrPubkey, husers, Db.findUserByNostrPubkey]
  cases hme : w₁.db.findUserByNostrPubkey pubkey with
  | some me =>
    simp only [hme, Option.isSome_some, if_true] at h₅
    refine .stored me.id (.inl (hknown pubkey me hproved (hlookup.symm.trans hme))) ?_
    -- the row is looked up again, and is the same one
    have hget {r : Except AppError UserRow} {w₂ : World}
        (hout : (getOrCreateUserByNostrPubkey env.pepper a.userId pubkey req.username
          req.optionals).Outcome w₁ r w₂) :
        Stored S me.id w₁.db w₂.db ∧ ∀ user, r = .ok user → user.id = me.id := by
      rcases Prog.outcome_read_bind hout with ⟨rfl, rfl⟩ | hback
      · exact ⟨.refl .., fun _ h => by cases h⟩
      simp only [hme] at hback
      refine ⟨?_, fun user huser => backfillOptionals_id (huser ▸ hback)⟩
      exact ((keeps_stored (Does.steps_backfillOptionals trivial trivial)).outcome hback
        (Stored.refl ..)).1
    rcases Prog.outcome_bind h₅ with ⟨e, hout', -⟩ | ⟨user, w₂, hout', h₆⟩
    · exact (hget hout').1
    · obtain ⟨hst, huser⟩ := hget hout'
      rw [huser user rfl] at h₆
      exact ((keeps_keysAndSignIn_stored hsubmits).outcome h₆ hst).1
  | none =>
    simp only [hme, Option.isSome_none, Bool.false_eq_true, if_false] at h₅
    have hreads : (rejectKnownFingerprint env.pepper req.seedFingerprint).Steps
        fun s s' => s' = s :=
      steps_rejectKnownFingerprint_of_refl (R := fun s s' => s' = s) (fun _ => rfl) _ _
    rcases Prog.outcome_bind h₅ with ⟨e, hout', -⟩ | ⟨_, w₂, hout', h₆⟩
    · rw [hreads.outcome_eq hout']
      exact .refl _
    obtain rfl := hreads.outcome_eq hout'
    exact registerNew_keys hsubmits (fun user => Does.steps_signIn trivial fun _ => trivial)
      (hnew pubkey hproved (hlookup.symm.trans hme)) h₆

/-- `POST /keys` stores a primary key of the bearer's user at most. -/
theorem registerKey_stored {bearer : Except AppError TokenInfo} {req : RegisterKeyRequest}
    {w w' : World} {r : Except AppError UserKeyRow}
    (hkey : ∀ info asset, bearer = .ok info → parseAsset req.key.asset = .ok asset →
      resolveKeyType asset req.key.publicKey req.keyType = .ok "primary" →
      S asset req.key.publicKey)
    (hbearer : ∀ info, bearer = .ok info → acts info.userId)
    (h : (registerKey bearer req).Outcome w r w') : KeyOutcome S acts w.db w'.db := by
  rcases registerKey_cases h with rfl | ⟨info, asset, keyType, db', hinfo, hasset, htype, hdb, rfl⟩
  · exact .refl _
  · refine .stored info.userId (.inl (hbearer info hinfo)) ?_
    refine (Stored.refl S info.userId w.db).upsert rfl (fun hprimary => ?_) hdb
    exact hkey info asset hinfo hasset (hprimary ▸ htype)

/-! ### Holders of a key -/

theorem getUserByAssetPubkey_eq_some {db : Db} {asset : AssetType} {publicKey : String}
    {user : UserRow} (h : db.getUserByAssetPubkey asset publicKey = some user) :
    db.users.get? user.id = some user ∧ db.primary user.id asset = some publicKey := by
  obtain ⟨k, hk, hf⟩ := List.exists_of_findSome?_eq_some h
  split_ifs at hf with hmatch
  simp only [Bool.and_eq_true, decide_eq_true_eq] at hmatch
  obtain ⟨⟨hasset, hpublic⟩, htype⟩ := hmatch
  have hid : user.id = k.userId := Table.key_of_get? hf
  have hrow : db.userKeys.get? (k.userId, asset, "primary") = some k := by
    rw [← hasset, ← htype]
    exact Table.get?_of_mem hk
  refine ⟨hid ▸ hf, ?_⟩
  rw [hid, Db.primary, Db.getUserKey, hrow]
  exact congrArg some hpublic

theorem getUserByAssetPubkey_eq_none {db : Db} {asset : AssetType} {publicKey : String}
    (h : db.getUserByAssetPubkey asset publicKey = none) {u : Uuid}
    (hu : (db.users.get? u).isSome) : db.primary u asset ≠ some publicKey := by
  intro hkey
  obtain ⟨k, hrow, hpublic⟩ := Option.map_eq_some_iff.mp hkey
  have hid : (k.userId, k.asset, k.keyType) = (u, asset, "primary") := Table.key_of_get? hrow
  simp only [Prod.mk.injEq] at hid
  obtain ⟨hid, hasset, htype⟩ := hid
  have hnone := List.findSome?_eq_none_iff.mp h k (Table.mem_of_get? hrow)
  rw [if_pos (by simp [hasset, htype, hpublic]), hid] at hnone
  simp [hnone] at hu

theorem getUserByAssetPubkey_isNone_iff {db : Db} {asset : AssetType} {publicKey : String}
    (hexist : ∀ u, (db.primary u asset).isSome → (db.users.get? u).isSome) :
    (db.getUserByAssetPubkey asset publicKey).isNone ↔
      ∀ u, db.primary u asset ≠ some publicKey := by
  constructor
  · intro h u hu
    exact getUserByAssetPubkey_eq_none (Option.isNone_iff_eq_none.mp h)
      (hexist u (by simp [hu])) hu
  · intro h
    cases hfound : db.getUserByAssetPubkey asset publicKey with
    | none => rfl
    | some user => exact (h user.id (getUserByAssetPubkey_eq_some hfound).2).elim

/-! ### Legacy identities -/

/-- A user is created, or nothing happens. -/
theorem createUser_outcome {pepper : Pepper} {id : Uuid} {new : NewUser} {w w' : World}
    {r : Except AppError UserRow} (h : (createUser pepper id new).Outcome w r w') :
    (w' = w ∧ ∃ e, r = .error e) ∨ (r = .ok (new.row pepper id) ∧ w.db.users.get? id = none ∧
      w'.db.users.rows = w.db.users.rows ++ [new.row pepper id] ∧
      w'.db.userKeys = w.db.userKeys) := by
  rcases Prog.outcome_query h with ⟨hr, hw⟩ | ⟨hr, hw⟩
  · cases hins : w.db.insertUser (new.row pepper id) with
    | error c =>
      simp only [hins] at hr hw
      exact .inl ⟨hw, _, hr⟩
    | ok db' =>
      simp only [hins] at hr hw
      obtain ⟨-, users, hrow, rfl⟩ := insertUser_eq_ok_iff.mp hins
      obtain ⟨hfree, hrows⟩ := Table.insert?_eq_some_iff.mp hrow
      subst hw
      exact .inr ⟨hr, hfree, hrows, rfl⟩
  · exact .inl ⟨hw, _, hr⟩

/-- A key of a legacy identity that becomes the primary key of the asset: no user holds it. -/
def LegacyKey.imported (db : Db) (asset : AssetType) (k : LegacyKey) : Bool :=
  (parseAsset k.asset).toOption = some asset && keyTypeFor asset k.publicKey = "primary" &&
    (db.getUserByAssetPubkey asset k.publicKey).isNone

/-- The key of an asset that an import ends with: the last one counts. -/
def importedKey (db : Db) (asset : AssetType) (keys : List LegacyKey) : Option String :=
  ((keys.filter (LegacyKey.imported db asset)).getLast?).map LegacyKey.publicKey

/-- The primary keys that an import may store. -/
def ImportsKey (db : Db) (keys : List LegacyKey) (asset : AssetType) (publicKey : String) : Prop :=
  ∃ k ∈ keys, k.imported db asset ∧ k.publicKey = publicKey

theorem LegacyKey.imported_iff {db : Db} {asset : AssetType} {k : LegacyKey}
    (hexist : ∀ u asset, (db.primary u asset).isSome → (db.users.get? u).isSome) :
    k.imported db asset ↔ parseAsset k.asset = .ok asset ∧
      keyTypeFor asset k.publicKey = "primary" ∧ ∀ u, db.primary u asset ≠ some k.publicKey := by
  rw [← getUserByAssetPubkey_isNone_iff fun u => hexist u asset]
  cases h : parseAsset k.asset <;> simp [LegacyKey.imported, h, Except.toOption, and_assoc]

/-- An import stores keys that nobody holds, and ends with the last one of each asset. -/
theorem importLegacyKeys_outcome {u : Uuid} {keys : List LegacyKey} {w w' : World}
    {r : Except AppError Unit}
    (hexist : ∀ v asset, (db₀.primary v asset).isSome → (db₀.users.get? v).isSome)
    (hnone : ∀ asset, db₀.primary u asset = none)
    (h : (importLegacyKeys u keys).Outcome w r w') (husers : w.db.users = db₀.users)
    (hkeys : ∀ k ∈ keys, ∀ asset, k.imported db₀ asset → S asset k.publicKey)
    (hw : Stored S u db₀ w.db) :
    w'.db.users = db₀.users ∧ Stored S u db₀ w'.db ∧ (r = .ok () → ∀ asset,
      w'.db.primary u asset = (importedKey db₀ asset keys).or (w.db.primary u asset)) := by
  induction keys generalizing w with
  | nil =>
    cases h
    exact ⟨husers, hw, fun _ _ => rfl⟩
  | cons k rest ih =>
    have hrest : ∀ k' ∈ rest, ∀ asset, k'.imported db₀ asset → S asset k'.publicKey :=
      fun k' hk' => hkeys k' (.tail _ hk')
    -- a key that is left out, or on file already
    have hskip {asset : AssetType} (h : k.imported db₀ asset = false ∨
        w.db.primary u asset = some k.publicKey) :
        (importedKey db₀ asset (k :: rest)).or (w.db.primary u asset) =
          (importedKey db₀ asset rest).or (w.db.primary u asset) := by
      unfold importedKey
      rcases h with hout | hfile
      · rw [List.filter_cons_of_neg (by simp [hout])]
      · rw [List.filter_cons]
        split_ifs
        · rw [List.getLast?_cons]
          cases (rest.filter (LegacyKey.imported db₀ asset)).getLast? with
          | none => simp [hfile]
          | some k' => simp
        · rfl
    rw [importLegacyKeys] at h
    cases hasset : parseAsset k.asset with
    | error e =>
      rw [hasset] at h
      obtain ⟨husers', hst, hlast⟩ := ih h husers hrest hw
      refine ⟨husers', hst, fun hr asset => (hlast hr asset).trans (hskip (.inl ?_)).symm⟩
      simp [LegacyKey.imported, hasset, Except.toOption]
    | ok b =>
      simp only [hasset] at h
      rcases Prog.outcome_read_bind h with ⟨rfl, rfl⟩ | h
      · exact ⟨husers, hw, fun hr => by cases hr⟩
      have hother {asset : AssetType} (hne : asset ≠ b) : k.imported db₀ asset = false := by
        simp [LegacyKey.imported, hasset, Except.toOption, Ne.symm hne]
      cases hfound : w.db.getUserByAssetPubkey b k.publicKey with
      | some user =>
        simp only [hfound] at h
        obtain ⟨husers', hst, hlast⟩ := ih h husers hrest hw
        refine ⟨husers', hst, fun hr asset => (hlast hr asset).trans (hskip ?_).symm⟩
        obtain ⟨-, hholds⟩ := getUserByAssetPubkey_eq_some hfound
        by_cases hb : asset = b
        · subst hb
          by_cases hu : user.id = u
          · exact .inr (hu ▸ hholds)
          · rw [hw.others _ _ hu] at hholds
            refine .inl (Bool.eq_false_iff.mpr fun himported => ?_)
            exact ((LegacyKey.imported_iff hexist).mp himported).2.2 _ hholds
        · exact .inl (hother hb)
      | none =>
        simp only [hfound] at h
        -- nobody held the key at the start either
        have hfree : ∀ v, db₀.primary v b ≠ some k.publicKey := by
          intro v hv
          by_cases hvu : v = u
          · rw [hvu, hnone] at hv
            cases hv
          · refine getUserByAssetPubkey_eq_none hfound (u := v) ?_ ((hw.others v b hvu).trans hv)
            rw [husers]
            exact hexist v b (by simp [hv])
        have hstored {w₁ : World} {r₁ : Except AppError Unit} (hout : (upsertUserKey
            ⟨u, b, k.publicKey, k.publicSpendKey, keyTypeFor b k.publicKey⟩).Outcome w r₁ w₁) :
            w₁.db.users = db₀.users ∧ Stored S u db₀ w₁.db ∧ (r₁ = .ok () → ∀ asset,
              w₁.db.primary u asset = if asset = b ∧ keyTypeFor b k.publicKey = "primary"
                then some k.publicKey else w.db.primary u asset) := by
          rcases upsertUserKey_outcome hout with ⟨rfl, e, rfl⟩ | ⟨db', hup, rfl⟩
          · exact ⟨husers, hw, fun hr => by cases hr⟩
          obtain ⟨hsame, -, hprimary⟩ := primary_upsertUserKey hup
          refine ⟨hsame.trans husers, hw.upsert rfl (fun htype => ?_) hup, fun _ asset => ?_⟩
          · exact hkeys k (.head _) b ((LegacyKey.imported_iff hexist).mpr ⟨hasset, htype, hfree⟩)
          · refine (hprimary u asset).trans (if_congr ?_ rfl rfl)
            constructor
            · intro heq
              exact ⟨congrArg (fun x => x.2.1) heq, (congrArg (fun x => x.2.2) heq).symm⟩
            · rintro ⟨rfl, htype⟩
              exact congrArg (fun x => (u, asset, x)) htype.symm
        rcases Prog.outcome_bind h with ⟨e, hout, rfl⟩ | ⟨_, w₁, hout, h⟩
        · obtain ⟨husers', hst, -⟩ := hstored hout
          exact ⟨husers', hst, fun hr => by cases hr⟩
        · obtain ⟨husers₁, hst₁, hkey₁⟩ := hstored hout
          obtain ⟨husers', hst, hlast⟩ := ih h husers₁ hrest hst₁
          refine ⟨husers', hst, fun hr asset => ?_⟩
          rw [hlast hr asset, hkey₁ rfl]
          by_cases himported : asset = b ∧ keyTypeFor b k.publicKey = "primary"
          · obtain ⟨rfl, htype⟩ := himported
            have hin : k.imported db₀ asset :=
              (LegacyKey.imported_iff hexist).mpr ⟨hasset, htype, hfree⟩
            rw [if_pos ⟨rfl, htype⟩]
            unfold importedKey
            rw [List.filter_cons_of_pos hin, List.getLast?_cons]
            cases (rest.filter (LegacyKey.imported db₀ asset)).getLast? <;> simp
          · have hout : k.imported db₀ asset = false := by
              refine Bool.eq_false_iff.mpr fun hin => himported ?_
              obtain ⟨hparse, htype, -⟩ := (LegacyKey.imported_iff hexist).mp hin
              obtain rfl := Except.ok.inj (hasset.symm.trans hparse)
              exact ⟨rfl, htype⟩
            rw [if_neg himported, hskip (.inl hout)]

end SmirkBackend
