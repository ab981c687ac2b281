import SmirkBackend.Auth.Anchor
import SmirkBackend.Auth.PreHijack

/-!
# Proven keys and accounts

A wallet that signs a challenge of website sign-in with a key gets a session of the user that holds
the key.  Keys are stored by requests that prove the control of one of them at most, and nothing
keeps two users from holding one key.  As long as every request stores only keys of its sender that
no other user holds, a key has one holder, and who signs with it gets its own user.

`provenKeys_of_run` proves it, and `foreign_key_resolves_to_other` is a run in which a request
stores the key of another user.
-/

namespace SmirkBackend

open Lib (Table Patch Prog System)

/-! ### Website sign-in -/

/-- The signature of a request was verified over a live challenge. -/
def ProvesKey (env : WebsiteEnv) (a : WebsiteAnswers) (req : WebsiteVerifyRequest)
    (asset : AssetType) : Prop :=
  parseAsset req.asset = .ok asset ∧ ∃ challenge, requireWebChallenge a = .ok challenge ∧
    verifyAssetSignature env asset challenge.message req.signature req.publicKey = .ok ()

/-- What a session leaves as it is, and whom it is for. -/
structure SessionFor (user : UserRow) (r : Except AppError AuthResponse) (w w' : World) : Prop where
  /-- The users. -/
  users : w'.db.users = w.db.users
  /-- The keys. -/
  keys : w'.db.userKeys = w.db.userKeys
  /-- The session is for the user, who exists. -/
  session : ∀ resp, r = .ok resp → resp.user.id = user.id ∧ (w'.db.users.get? user.id).isSome

theorem websiteSession_outcome {env : WebsiteEnv} {a : WebsiteAnswers} {challenge : WebChallenge}
    {asset : AssetType} {user : UserRow} {w w' : World} {r : Except AppError AuthResponse}
    (h : (websiteSession env a challenge asset user).Outcome w r w') : SessionFor user r w w' := by
  let I (x : World) : Prop := x.db.users = w.db.users ∧ x.db.userKeys = w.db.userKeys
  have hcreate (s : SessionRow) : (createSession s).Keeps I fun _ => True := by
    refine Prog.keeps_query fun x hx => ?_
    simp only
    split_ifs
    · exact ⟨hx, fun _ _ => trivial⟩
    · cases x.db.sessions.insert? s with
      | some sessions => exact ⟨hx, fun _ _ => trivial⟩
      | none => exact ⟨hx, fun _ _ => trivial⟩
  have hissue : (issueSession env.auth a.auth user.id .web "Web Browser").Keeps I fun _ => True := by
    refine (Prog.keeps_ofExcept (Q := fun _ => True) fun _ _ => trivial).bind fun pair _ => ?_
    exact (hcreate _).bind fun _ _ => trivial
  have hevent (e : LoginEventRow) : (recordLoginEvent e).Keeps I fun _ => True := by
    refine Prog.keeps_attempt (fun x hx => ?_) trivial
    simp only
    split_ifs <;> exact hx
  have hseen : (executeIgnored fun _ db => db).Keeps I fun _ => True :=
    Prog.keeps_attempt (fun _ hx => hx) trivial
  have hall : (websiteSession env a challenge asset user).Keeps I
      fun resp => resp.user.id = user.id :=
    hissue.bind fun _ _ => (hevent _).bind fun _ _ => hseen.bind fun _ _ => rfl
  obtain ⟨⟨husers, hkeys⟩, hid⟩ := hall.outcome h ⟨rfl, rfl⟩
  refine ⟨husers, hkeys, fun resp hr => ⟨hid resp hr, ?_⟩⟩
  subst hr
  -- a session can be stored for an existing user only
  rcases Prog.outcome_bind h with ⟨e, -, he⟩ | ⟨pair, w₁, hsession, hrest⟩
  · cases he
  rcases Prog.outcome_bind hsession with ⟨e, -, he⟩ | ⟨_, w₂, hpair, hcreated⟩
  · cases he
  obtain ⟨rfl⟩ : Nonempty (w₂ = w) := ⟨(Prog.outcome_ofExcept hpair).2⟩
  rcases Prog.outcome_bind hcreated with ⟨e, -, he⟩ | ⟨_, w₃, hcreated, hret⟩
  · cases he
  have hsome := createSession_outcome hcreated
  obtain ⟨⟨husers₃, -⟩, -⟩ := (hcreate _).outcome hcreated (show I w₂ from ⟨rfl, rfl⟩)
  rw [husers₃] at hsome
  rw [husers]
  exact hsome

/-- The user a legacy identity was imported as. -/
structure Imported (identity : LegacyIdentity) (id : Uuid) (r : Except AppError UserRow)
    (w w' : World) : Prop where
  /-- It is new. -/
  fresh : w.db.users.get? id = none
  /-- It has no credentials. -/
  users : ∃ username, w'.db.users.rows =
    w.db.users.rows ++ [(importedUser username).row (fun _ v => v) id]
  /-- Keys that nobody held were stored for it. -/
  keys : Stored (ImportsKey w.db identity.keys) id w.db w'.db
  /-- It holds the last key of each asset. -/
  last : ∀ user, r = .ok user → user.id = id ∧
    ∀ asset, w'.db.primary id asset = importedKey w.db asset identity.keys

theorem importLegacyIdentity_outcome {env : WebsiteEnv} {a : WebsiteAnswers}
    {identity : LegacyIdentity} {w w' : World} {r : Except AppError UserRow}
    (hexist : ∀ v asset, (w.db.primary v asset).isSome → (w.db.users.get? v).isSome)
    (h : (importLegacyIdentity env a identity).Outcome w r w') :
    (w' = w ∧ ∃ e, r = .error e) ∨ Imported identity a.auth.userId r w w' := by
  have hreads : (carriedUsername env identity.username).Steps fun s s' => s' = s := by
    unfold carriedUsername
    cases identity.username.map env.lowercase with
    | none => trivial
    | some name =>
      refine (Prog.steps_read (R := fun s s' => s' = s) fun _ => rfl).bind fun found => ?_
      cases found <;> trivial
  rcases Prog.outcome_bind h with ⟨e, hout, rfl⟩ | ⟨username, w₁, hout, h₁⟩
  · exact .inl ⟨hreads.outcome_eq hout, e, rfl⟩
  obtain rfl := hreads.outcome_eq hout
  rcases Prog.outcome_bind h₁ with ⟨e, hout, rfl⟩ | ⟨user, w₂, hout, h₂⟩
  · rcases createUser_outcome hout with ⟨rfl, -⟩ | ⟨hr, -⟩
    · exact .inl ⟨rfl, e, rfl⟩
    · cases hr
  rcases createUser_outcome hout with ⟨-, e, hr⟩ | ⟨hr, hfree, hrows, hkeys⟩
  · cases hr
  obtain rfl := Except.ok.inj hr
  -- the new user has no key yet
  have hget := Table.get?_insert? (Table.insert?_of_rows_append hrows)
  have hprimary (v : Uuid) (asset : AssetType) : w₂.db.primary v asset = w₁.db.primary v asset := by
    simp only [Db.primary, Db.getUserKey, hkeys]
  have hgrown (v : Uuid) (hv : (w₁.db.users.get? v).isSome) : (w₂.db.users.get? v).isSome := by
    rw [hget]
    split_ifs
    · rfl
    · exact hv
  have hexist₂ (v : Uuid) (asset : AssetType) (hv : (w₂.db.primary v asset).isSome) :
      (w₂.db.users.get? v).isSome := hgrown v (hexist v asset (hprimary v asset ▸ hv))
  have hnone (asset : AssetType) : w₂.db.primary a.auth.userId asset = none := by
    rw [hprimary]
    refine Option.not_isSome_iff_eq_none.mp fun hsome => ?_
    simpa [hfree] using hexist _ asset hsome
  -- and takes no key from the others
  have himported (asset : AssetType) (k : LegacyKey) :
      k.imported w₂.db asset = k.imported w₁.db asset := by
    rw [Bool.eq_iff_iff, LegacyKey.imported_iff hexist₂, LegacyKey.imported_iff hexist]
    simp only [hprimary]
  have hlast (asset : AssetType) :
      importedKey w₂.db asset identity.keys = importedKey w₁.db asset identity.keys := by
    unfold importedKey
    rw [show LegacyKey.imported w₂.db asset = LegacyKey.imported w₁.db asset from
      funext (himported asset)]
  have hstored {r : Except AppError Unit} {w₃ : World} (hout : (importLegacyKeys
      ((importedUser username).row env.auth.pepper a.auth.userId).id identity.keys).Outcome
        w₂ r w₃) : w₃.db.users = w₂.db.users ∧
      Stored (ImportsKey w₁.db identity.keys) a.auth.userId w₁.db w₃.db ∧
      (r = .ok () → ∀ asset, w₃.db.primary a.auth.userId asset =
        importedKey w₁.db asset identity.keys) := by
    obtain ⟨husers, hst, hend⟩ := importLegacyKeys_outcome
      (S := ImportsKey w₁.db identity.keys) hexist₂ hnone hout rfl
      (fun k hk asset hin => ⟨k, hk, himported asset k ▸ hin, rfl⟩) (Stored.refl _ _ w₂.db)
    refine ⟨husers, ⟨fun v asset hv => (hst.others v asset hv).trans (hprimary v asset),
      fun asset => hprimary a.auth.userId asset ▸ hst.own asset⟩, fun hr asset => ?_⟩
    rw [← hlast asset]
    exact (hend hr asset).trans (by rw [hnone, Option.or_none])
  rcases Prog.outcome_bind h₂ with ⟨e, hout', rfl⟩ | ⟨_, w₃, hout', hret⟩
  · obtain ⟨husers, hst, -⟩ := hstored hout'
    exact .inr ⟨hfree, ⟨username, husers ▸ hrows⟩, hst, fun _ hr => by cases hr⟩
  · cases hret
    obtain ⟨husers, hst, hend⟩ := hstored hout'
    refine .inr ⟨hfree, ⟨username, husers ▸ hrows⟩, hst, fun user hr => ?_⟩
    obtain rfl := Except.ok.inj hr
    exact ⟨rfl, hend rfl⟩

/-- The registered user of a proven key is the holder of the key, or that of its hash. -/
theorem resolveRegistered_outcome {env : WebsiteEnv} {asset : AssetType} {publicKey : String}
    {w w' : World} {r : Except AppError (Option UserRow)}
    (h : (resolveRegistered env asset publicKey).Outcome w r w') :
    w' = w ∧ ∀ found, r = .ok found →
      (∃ user, w.db.getUserByAssetPubkey asset publicKey = some user ∧ found = some user) ∨
        (w.db.getUserByAssetPubkey asset publicKey = none ∧ ∀ user, found = some user →
          asset = .btc ∧ w.db.getUserByPubkeyHash env.auth.pepper
            (env.auth.hashPublicKey publicKey) = some user) := by
  rcases Prog.outcome_read_bind h with ⟨rfl, rfl⟩ | h₁
  · exact ⟨rfl, fun _ hr => by cases hr⟩
  cases hholder : w.db.getUserByAssetPubkey asset publicKey with
  | some user =>
    simp only [hholder] at h₁
    cases h₁
    exact ⟨rfl, fun found hr => .inl ⟨user, rfl, (Except.ok.inj hr).symm⟩⟩
  | none =>
    simp only [hholder] at h₁
    split_ifs at h₁ with hbtc
    · obtain ⟨hr, rfl⟩ := Prog.outcome_read h₁
      refine ⟨rfl, fun found hfound => .inr ⟨rfl, fun user huser => ⟨hbtc, ?_⟩⟩⟩
      rcases hr with rfl | rfl
      · rw [← huser]
        exact Except.ok.inj hfound
      · cases hfound
    · cases h₁
      refine ⟨rfl, fun found hr => .inr ⟨rfl, fun user huser => ?_⟩⟩
      rw [huser] at hr
      cases hr

/-- How a request finds its user: the holder of the key, the row that a BTC key identifies when
nobody holds it, or a new user for a legacy identity. -/
theorem websiteVerify_cases {env : WebsiteEnv} {a : WebsiteAnswers} {req : WebsiteVerifyRequest}
    {w w' : World} {r : Except AppError AuthResponse}
    (h : (websiteVerify env a req).Outcome w r w') :
    (w' = w ∧ ∃ e, r = .error e) ∨ ∃ asset challenge, ProvesKey env a req asset ∧
      ((∃ user, w.db.getUserByAssetPubkey asset req.publicKey = some user ∧
          (websiteSession env a challenge asset user).Outcome w r w') ∨
        (∃ user, w.db.getUserByAssetPubkey asset req.publicKey = none ∧ asset = .btc ∧
          w.db.getUserByPubkeyHash env.auth.pepper (env.auth.hashPublicKey req.publicKey) =
            some user ∧ (websiteSession env a challenge asset user).Outcome w r w') ∨
        ∃ identity, w.db.getUserByAssetPubkey asset req.publicKey = none ∧
          a.findByProvenKey asset req.publicKey = .ok (some identity) ∧
          (importLegacyIdentity env a identity >>=
            websiteSession env a challenge asset).Outcome w r w') := by
  rcases Prog.outcome_ofExcept_bind h with ⟨e, rfl, rfl⟩ | ⟨challenge, hchallenge, h₁⟩
  · exact .inl ⟨rfl, e, rfl⟩
  rcases Prog.outcome_ofExcept_bind h₁ with ⟨e, rfl, rfl⟩ | ⟨asset, hasset, h₂⟩
  · exact .inl ⟨rfl, e, rfl⟩
  rcases Prog.outcome_ofExcept_bind h₂ with ⟨e, rfl, rfl⟩ | ⟨_, hsigned, h₃⟩
  · exact .inl ⟨rfl, e, rfl⟩
  have hproves : ProvesKey env a req asset := ⟨hasset, challenge, hchallenge, hsigned⟩
  rw [resolveProvenKey, Prog.bind_bind] at h₃
  rcases Prog.outcome_bind h₃ with ⟨e, hout, rfl⟩ | ⟨found, w₁, hout, h₄⟩
  · exact .inl ⟨(resolveRegistered_outcome hout).1, e, rfl⟩
  obtain ⟨rfl, hfound⟩ := resolveRegistered_outcome hout
  cases found with
  | some user =>
    refine .inr ⟨asset, challenge, hproves, ?_⟩
    rcases hfound _ rfl with ⟨user', hholder, heq⟩ | ⟨hnone, hhash⟩
    · obtain rfl := Option.some.inj heq
      exact .inl ⟨user, hholder, h₄⟩
    · obtain ⟨hbtc, hrow⟩ := hhash user rfl
      exact .inr (.inl ⟨user, hnone, hbtc, hrow, h₄⟩)
  | none =>
    have hnone : w₁.db.getUserByAssetPubkey asset req.publicKey = none := by
      rcases hfound _ rfl with ⟨user, -, heq⟩ | ⟨hnone, -⟩
      · cases heq
      · exact hnone
    simp only [Prog.bind_bind] at h₄
    rcases Prog.outcome_ofExcept_bind h₄ with ⟨e, rfl, rfl⟩ | ⟨legacy, hlegacy, h₅⟩
    · exact .inl ⟨rfl, e, rfl⟩
    cases legacy with
    | none =>
      cases h₅
      exact .inl ⟨rfl, _, rfl⟩
    | some identity =>
      simp only [Prog.bind_bind] at h₅
      exact .inr ⟨asset, challenge, hproves, .inr (.inr ⟨identity, hnone, hlegacy, h₅⟩)⟩

/-! ### What a request stores, and for whom -/

namespace Request

/-- The request asks to store this primary key. -/
def StoresPrimary (asset : AssetType) (publicKey : String) : Request → Prop
  | extensionRegister req =>
    ∃ k ∈ req.keys, parseAsset k.asset = .ok asset ∧ k.publicKey = publicKey
  | nostrRegister req => ∃ k ∈ req.keys, parseAsset k.asset = .ok asset ∧ k.publicKey = publicKey
  | registerKey _ req => parseAsset req.key.asset = .ok asset ∧ req.key.publicKey = publicKey ∧
      resolveKeyType asset publicKey req.keyType = .ok "primary"
  | _ => False

/-- The request proves who sends it. -/
def Authenticated (env : AuthEnv) (a : Answers) : Request → Prop
  | extensionRegister req => ∃ key, FreshlySigned env a req key
  | nostrRegister req => ∃ pubkey, proveNostr env a req.nostrToken "/auth/nostr/register"
      "nostr_register" req.nonce = .ok pubkey
  | registerKey bearer _ => ∃ info, bearer = .ok info
  | _ => False

/-- The request acts for this user, who exists. -/
def ActsFor (env : AuthEnv) (a : Answers) (db : Db) (u : Uuid) : Request → Prop
  | extensionRegister req => ∃ key target, FreshlySigned env a req key ∧ target.id = u ∧
      (db.getUserByPubkeyHash env.pepper (env.hashPublicKey key.publicKey) = some target ∨
        Repointed env req key db target)
  | nostrRegister req => ∃ pubkey me, proveNostr env a req.nostrToken "/auth/nostr/register"
      "nostr_register" req.nonce = .ok pubkey ∧ db.findUserByNostrPubkey pubkey = some me ∧ me.id = u
  | registerKey bearer _ => ∃ info, bearer = .ok info ∧ info.userId = u
  | _ => False

end Request

theorem FreshlySigned.eq {env : AuthEnv} {a : Answers} {req : ExtensionRegisterRequest}
    {key key' : AssetPublicKey} (h : FreshlySigned env a req key)
    (h' : FreshlySigned env a req key') : key = key' :=
  Option.some.inj (h.submitted.symm.trans h'.submitted)

/-- A request acts for one user at most. -/
theorem Request.ActsFor.unique {env : AuthEnv} {a : Answers} {db : Db} {q : Request} {u u' : Uuid}
    (h : q.ActsFor env a db u) (h' : q.ActsFor env a db u') : u = u' := by
  cases q with
  | extensionRegister req =>
    obtain ⟨key, target, hsigned, rfl, hrow⟩ := h
    obtain ⟨key', target', hsigned', rfl, hrow'⟩ := h'
    obtain rfl := hsigned.eq hsigned'
    rcases hrow with hrow | hrep
    · rcases hrow' with hrow' | hrep'
      · rw [Option.some.inj (hrow.symm.trans hrow')]
      · cases hrep'.unknown.symm.trans hrow
    · rcases hrow' with hrow' | hrep'
      · cases hrep.unknown.symm.trans hrow'
      · obtain ⟨fp, hfp, hlocated⟩ := hrep.located
        obtain ⟨fp', hfp', hlocated'⟩ := hrep'.located
        obtain rfl := Option.some.inj (hfp.symm.trans hfp')
        rw [Option.some.inj (hlocated.symm.trans hlocated')]
  | nostrRegister req =>
    obtain ⟨pubkey, me, hproved, hrow, rfl⟩ := h
    obtain ⟨pubkey', me', hproved', hrow', rfl⟩ := h'
    obtain rfl := Except.ok.inj (hproved.symm.trans hproved')
    rw [Option.some.inj (hrow.symm.trans hrow')]
  | registerKey bearer req =>
    obtain ⟨info, hinfo, rfl⟩ := h
    obtain ⟨info', hinfo', rfl⟩ := h'
    rw [Except.ok.inj (hinfo.symm.trans hinfo')]
  | _ => exact h.elim

theorem outcome_sessionOf {h : Handler AuthResponse} {w w' : World}
    {r : Except AppError (Option Uuid)} (hout : (Request.sessionOf h).Outcome w r w') :
    ∃ r', h.Outcome w r' w' ∧ r = r'.map fun resp => some resp.user.id := by
  rcases Prog.outcome_bind hout with ⟨e, he, rfl⟩ | ⟨resp, w₁, hok, hret⟩
  · exact ⟨_, he, rfl⟩
  · cases hret
    exact ⟨_, hok, rfl⟩

theorem outcome_noSession {α : Type} {h : Handler α} {w w' : World}
    {r : Except AppError (Option Uuid)} (hout : (Request.noSession h).Outcome w r w') :
    ∃ r', h.Outcome w r' w' := by
  rcases Prog.outcome_bind hout with ⟨e, he, -⟩ | ⟨_, w₁, hok, hret⟩
  · exact ⟨_, he⟩
  · cases hret
    exact ⟨_, hok⟩

/-- A request stores the primary keys it submits at most, for a user that it acts for or creates,
and only when it is authenticated. -/
theorem handle_keys {env : AuthEnv} {a : Answers} {q : Request} {w w' : World}
    {r : Except AppError (Option Uuid)} (hout : (q.handle env a).Outcome w r w') :
    KeyOutcome (fun asset publicKey => q.Authenticated env a ∧ q.StoresPrimary asset publicKey)
      (fun u => q.ActsFor env a w.db u) w.db w'.db := by
  cases q with
  | extensionRegister req =>
    obtain ⟨r', h, -⟩ := outcome_sessionOf hout
    refine extensionRegister_stored (fun key hsigned k hk asset hasset => ?_)
      (fun key me hsigned hme => ?_) (fun key target hsigned hrep => ?_)
      (fun key hsigned hme hnone => ?_) h
    · exact ⟨⟨key, hsigned⟩, k, hk, hasset, rfl⟩
    · exact ⟨key, me, hsigned, rfl, .inl hme⟩
    · exact ⟨key, target, hsigned, rfl, .inr hrep⟩
    · rintro u ⟨key', target, hsigned', -, hrow | hrep⟩
      · obtain rfl := hsigned.eq hsigned'
        cases hme.symm.trans hrow
      · obtain rfl := hsigned.eq hsigned'
        exact hnone target hrep
  | nostrLogin authorization =>
    obtain ⟨r', h, -⟩ := outcome_sessionOf hout
    exact .same (primary_of_outcome (Does.steps_nostrLogin trivial _ _ _ fun _ => trivial) h)
  | nostrRegisterChallenge nonce =>
    obtain ⟨r', h⟩ := outcome_noSession hout
    exact .same (primary_of_outcome (Does.steps_issueChallenge trivial _ _ _ _) h)
  | nostrRegister req =>
    obtain ⟨r', h, -⟩ := outcome_sessionOf hout
    refine nostrRegister_stored (fun pubkey hproved k hk asset hasset => ?_)
      (fun pubkey me hproved hme => ?_) (fun pubkey hproved hme => ?_) h
    · exact ⟨⟨pubkey, hproved⟩, k, hk, hasset, rfl⟩
    · exact ⟨pubkey, me, hproved, hme, rfl⟩
    · rintro u ⟨pubkey', me, hproved', hrow, -⟩
      obtain rfl := Except.ok.inj (hproved.symm.trans hproved')
      cases hme.symm.trans hrow
  | nostrLinkChallenge bearer nonce =>
    obtain ⟨r', h⟩ := outcome_noSession hout
    have hsteps : (nostrLinkChallenge bearer nonce).Steps (Does Effect.KeepsKeys) :=
      (steps_extractUserIdFromToken (Does.refl trivial) bearer).bind fun u =>
        Does.steps_issueChallenge trivial _ _ _ _
    exact .same (primary_of_outcome hsteps h)
  | nostrLink bearer req =>
    obtain ⟨r', h⟩ := outcome_noSession hout
    exact .same (primary_of_outcome (Does.steps_nostrLink trivial _ _ _ _ fun _ _ => trivial) h)
  | registerKey bearer req =>
    obtain ⟨r', h⟩ := outcome_noSession hout
    refine registerKey_stored (fun info asset hinfo hasset htype => ?_) (fun info hinfo => ?_) h
    · exact ⟨⟨info, hinfo⟩, hasset, rfl, htype⟩
    · exact ⟨info, hinfo, rfl⟩

/-! ### Parties -/

/-- Who holds which key; the keys of XMR, WOW and GRIN are ed25519 keys. -/
structure KeyHolders (π : Type) extends Holders π where
  /-- Holder of an ed25519 key. -/
  ed25519 : String → π

/-- Who holds a key of an asset. -/
def KeyHolders.of {π : Type} (holders : KeyHolders π) : AssetType → String → π
  | .btc | .ltc => holders.btc
  | .xmr | .wow | .grin => holders.ed25519

/-- A request to one of the endpoints. -/
inductive SignInRequest
  | account (q : Request)
  | website (req : WebsiteVerifyRequest)

/-- The handler of a request. -/
def SignInRequest.handle (env : WebsiteEnv) (a : WebsiteAnswers) :
    SignInRequest → Handler (Option Uuid)
  | account q => q.handle env.auth a.auth
  | website req => Request.sessionOf (websiteVerify env a req)

/-- The service, the sessions the parties were given, and who created each user. -/
structure OwnedService (π : Type) extends Accounts π where
  /-- Who created a user. -/
  owner : Uuid → π

/-- A request, with who sent it, what it met and how it ended. -/
structure SignInCall (π : Type) where
  /-- The sender. -/
  party : π
  /-- The request. -/
  request : SignInRequest
  /-- What it met outside the database. -/
  answers : WebsiteAnswers
  /-- The time of the database. -/
  now : Timestamp
  /-- The answer: the user of a session, if it carries one. -/
  result : Except AppError (Option Uuid)

/-- The session a call gave. -/
def SignInCall.gave {π : Type} (l : SignInCall π) : List (π × Uuid) :=
  match l.result with
  | .ok (some u) => [(l.party, u)]
  | _ => []

/-- No two users hold a primary key. -/
def OneHolder (db : Db) : Prop :=
  ∀ asset publicKey u u', db.primary u asset = some publicKey →
    db.primary u' asset = some publicKey → u = u'

section

variable {π : Type} (env : WebsiteEnv) (holders : KeyHolders π)

/-- The party can send the request: it holds the keys that signed it and was given its token. -/
def CanSend (obtained : List (π × Uuid)) (p : π) : SignInRequest → Prop
  | .account q => MaySend env.auth holders.toHolders obtained p q
  | .website req => ∀ asset message,
      verifyAssetSignature env asset message req.signature req.publicKey = .ok () →
        holders.of asset req.publicKey = p

/-- The runs of requests that the parties can send; whoever creates a user is its owner. -/
def signIns : System (OwnedService π) (SignInCall π) where
  step σ l σ' := CanSend env holders σ.obtained l.party l.request ∧
    (l.request.handle env l.answers).Outcome { σ.world with now := l.now } l.result σ'.world ∧
    σ'.obtained = σ.obtained ++ l.gave ∧ σ'.owner = ownWhile σ.owner σ.world.db l.party

/-- The sign-in was for a user whose owner signed the challenge and who holds the key. -/
def ProvenSignIn (σ' : OwnedService π) (l : SignInCall π) (req : WebsiteVerifyRequest) (u : Uuid) :
    Prop :=
  ∃ asset, ProvesKey env l.answers req asset ∧ holders.of asset req.publicKey = σ'.owner u ∧
    l.party = σ'.owner u ∧ σ'.world.db.primary u asset = some req.publicKey

/-- What a request must avoid, so that a key has one holder and leads to its user. -/
def StoresOwnKeys (σ : OwnedService π) (l : SignInCall π) (_ : OwnedService π) : Prop :=
  match l.request with
  -- a foreign key, or one that another user holds
  | .account q => q.Authenticated env.auth l.answers.auth →
      ∀ asset publicKey, q.StoresPrimary asset publicKey → holders.of asset publicKey = l.party ∧
        ∀ u, σ.world.db.primary u asset = some publicKey →
          q.ActsFor env.auth l.answers.auth σ.world.db u
  -- a BTC key that only an identity remembers; and an import of foreign keys, or without the key
  | .website req => ∀ asset, ProvesKey env l.answers req asset →
      σ.world.db.getUserByAssetPubkey asset req.publicKey = none →
        (asset = .btc → σ.world.db.getUserByPubkeyHash env.auth.pepper
          (env.auth.hashPublicKey req.publicKey) = none) ∧
        ∀ identity, l.answers.findByProvenKey asset req.publicKey = .ok (some identity) →
          importedKey σ.world.db asset identity.keys = some req.publicKey ∧
            ∀ asset' publicKey, ImportsKey σ.world.db identity.keys asset' publicKey →
              holders.of asset' publicKey = l.party

/-- Primary keys belong to users, are held by the owners of these, and by one user each. -/
structure KeysHeld (own : Uuid → π) (db : Db) : Prop where
  /-- The users exist. -/
  exist : ∀ u asset, (db.primary u asset).isSome → (db.users.get? u).isSome
  /-- The owners hold them. -/
  held : ∀ u asset publicKey, db.primary u asset = some publicKey →
    holders.of asset publicKey = own u
  /-- Nobody else does. -/
  unique : OneHolder db

variable {env holders}

theorem KeysHeld.while {own : Uuid → π} {db : Db} (h : KeysHeld holders own db) (p : π) :
    KeysHeld holders (ownWhile own db p) db := by
  refine ⟨h.exist, fun u asset publicKey hkey => ?_, h.unique⟩
  rw [ownWhile_of_mem (h.exist u asset (by simp [hkey]))]
  exact h.held u asset publicKey hkey

theorem KeysHeld.same {own : Uuid → π} {db db' : Db} (h : KeysHeld holders own db)
    (hgrown : Grown db db') (hsame : ∀ u asset, db'.primary u asset = db.primary u asset) :
    KeysHeld holders own db' := by
  refine ⟨fun u asset hkey => hgrown u (h.exist u asset (hsame u asset ▸ hkey)),
    fun u asset publicKey hkey => h.held u asset publicKey (hsame u asset ▸ hkey),
    fun asset publicKey u u' hu hu' => ?_⟩
  exact h.unique asset publicKey u u' (hsame u asset ▸ hu) (hsame u' asset ▸ hu')

/-- Storing keys of the owner that no other user holds. -/
theorem KeysHeld.stored {own : Uuid → π} {db db' : Db} {S : AssetType → String → Prop} {t : Uuid}
    (h : KeysHeld holders own db) (hgrown : Grown db db') (hst : Stored S t db db')
    (hS : ∀ asset publicKey, S asset publicKey → holders.of asset publicKey = own t ∧
      ∀ u, db.primary u asset = some publicKey → u = t) : KeysHeld holders own db' := by
  -- a key was there before, or is one of the stored ones
  have hcases (u : Uuid) (asset : AssetType) (publicKey : String)
      (hkey : db'.primary u asset = some publicKey) : db.primary u asset = some publicKey ∨
        (u = t ∧ S asset publicKey ∧ (db'.users.get? t).isSome) := by
    by_cases hu : u = t
    · subst hu
      rcases hst.own asset with hsame | ⟨K, hK, huser, hnew⟩
      · exact .inl (hsame ▸ hkey)
      · obtain rfl := Option.some.inj (hnew.symm.trans hkey)
        exact .inr ⟨rfl, hK, huser⟩
    · exact .inl (hst.others u asset hu ▸ hkey)
  constructor
  · intro u asset hsome
    obtain ⟨publicKey, hkey⟩ := Option.isSome_iff_exists.mp hsome
    rcases hcases u asset publicKey hkey with hold | ⟨rfl, -, huser⟩
    · exact hgrown u (h.exist u asset (by simp [hold]))
    · exact huser
  · intro u asset publicKey hkey
    rcases hcases u asset publicKey hkey with hold | ⟨rfl, hin, -⟩
    · exact h.held u asset publicKey hold
    · exact (hS asset publicKey hin).1
  · intro asset publicKey u u' hu hu'
    rcases hcases u asset publicKey hu with hold | ⟨rfl, hin, -⟩
    · rcases hcases u' asset publicKey hu' with hold' | ⟨rfl, hin, -⟩
      · exact h.unique asset publicKey u u' hold hold'
      · exact (hS asset publicKey hin).2 u hold
    · rcases hcases u' asset publicKey hu' with hold' | ⟨rfl, -, -⟩
      · exact ((hS asset publicKey hin).2 u' hold').symm
      · rfl

variable (env holders) in
/-- Credentials and keys are held by the owners of the users, who have the sessions. -/
structure Upright (σ : OwnedService π) : Prop where
  /-- Credentials. -/
  rows : HeldRows env.auth holders.toHolders σ.owner σ.world.db
  /-- Keys. -/
  keys : KeysHeld holders σ.owner σ.world.db
  /-- Sessions. -/
  sessions : ∀ x ∈ σ.obtained, σ.owner x.2 = x.1 ∧ (σ.world.db.users.get? x.2).isSome

/-- Whoever a request acts for belongs to its sender. -/
theorem Upright.owner_eq {σ : OwnedService π} (hσ : Upright env holders σ) {p : π} {q : Request}
    {a : Answers} {u : Uuid} (hsend : MaySend env.auth holders.toHolders σ.obtained p q)
    (hacts : q.ActsFor env.auth a σ.world.db u) :
    σ.owner u = p ∧ (σ.world.db.users.get? u).isSome := by
  have hthere {r : UserRow} (hr : r ∈ σ.world.db.users.rows) :
      (σ.world.db.users.get? r.id).isSome := by
    rw [show σ.world.db.users.get? r.id = some r from Table.get?_of_mem hr]
    rfl
  cases q with
  | extensionRegister req =>
    obtain ⟨key, target, hsigned, rfl, hrow⟩ := hacts
    have hbtc := hsend.btc _ (.head _) _ _ hsigned.signed
    rcases hrow with hrow | hrep
    · -- the row of the key
      have hmem := List.mem_of_find?_eq_some hrow
      have hhash := List.find?_some hrow
      simp only [decide_eq_true_eq] at hhash
      exact ⟨((hσ.rows target hmem).1 key.publicKey hhash).symm.trans hbtc, hthere hmem⟩
    · obtain ⟨fp, -, hfp⟩ := hrep.located
      have hmem := List.mem_of_find?_eq_some hfp
      refine ⟨?_, hthere hmem⟩
      -- the key on file of the row is one that the sender signs with
      have hfile {stored : UserKeyRow} (hstored : σ.world.db.getUserKey target.id .btc = some stored)
          (hheld : holders.btc stored.publicKey = p) : σ.owner target.id = p := by
        have hprimary : σ.world.db.primary target.id .btc = some stored.publicKey := by
          rw [Db.primary, hstored]
          rfl
        exact (hσ.keys.held _ _ _ hprimary).symm.trans hheld
      rcases hrep.entitled with hhash | ⟨-, stored, hstored, hsame⟩ |
        ⟨stored, sig, msg, hstored, hsig, -, hverified⟩
      · exact ((hσ.rows target hmem).1 key.publicKey hhash).symm.trans hbtc
      · exact hfile hstored (hsame ▸ hbtc)
      · refine hfile hstored (hsend.btc sig ?_ msg _ hverified)
        simp [Request.btcSignatures, hsig]
  | nostrRegister req =>
    obtain ⟨pubkey, me, hproved, hrow, rfl⟩ := hacts
    obtain ⟨ev, hev, rfl⟩ := proveNostr_eq_ok hproved
    have hmem := List.mem_of_find?_eq_some hrow
    have hnpub := List.find?_some hrow
    simp only [decide_eq_true_eq] at hnpub
    have hheld := hsend.nostr _ (.head _) _ _ ev hev
    exact ⟨((hσ.rows me hmem).2 _ hnpub).symm.trans hheld, hthere hmem⟩
  | registerKey bearer req =>
    obtain ⟨info, hinfo, rfl⟩ := hacts
    exact hσ.sessions _ (hsend.bearer info hinfo)
  | _ => exact hacts.elim

/-- What a call leaves behind: credentials and keys are still held by the owners, and a session is
for an existing user of the caller. -/
structure Leaves (holders : KeyHolders π) (env : WebsiteEnv) (own : Uuid → π) (p : π) (db₀ db : Db)
    (r : Except AppError (Option Uuid)) : Prop where
  /-- Credentials. -/
  rows : HeldRows env.auth holders.toHolders own db
  /-- Keys. -/
  keys : KeysHeld holders own db
  /-- Users remain. -/
  grown : Grown db₀ db
  /-- The session. -/
  session : ∀ u, r = .ok (some u) → own u = p ∧ (db.users.get? u).isSome

/-- A request to the login, registration, link and key endpoints. -/
theorem account_leaves (hinj : Function.Injective env.auth.anchorOf) {σ : OwnedService π}
    (hσ : Upright env holders σ) {p : π} {q : Request} {a : WebsiteAnswers} {now : Timestamp}
    {r : Except AppError (Option Uuid)} {w' : World}
    (hsend : MaySend env.auth holders.toHolders σ.obtained p q)
    (hstores : q.Authenticated env.auth a.auth → ∀ asset publicKey,
      q.StoresPrimary asset publicKey → holders.of asset publicKey = p ∧
        ∀ u, σ.world.db.primary u asset = some publicKey → q.ActsFor env.auth a.auth σ.world.db u)
    (hout : (q.handle env.auth a.auth).Outcome { σ.world with now := now } r w') :
    Leaves holders env (ownWhile σ.owner σ.world.db p) p σ.world.db w'.db r := by
  have hown {u : Uuid} (hacts : q.ActsFor env.auth a.auth σ.world.db u) :
      ownWhile σ.owner σ.world.db p u = p := by
    obtain ⟨howner, hthere⟩ := hσ.owner_eq hsend hacts
    exact (ownWhile_of_mem hthere).trans howner
  obtain ⟨⟨hrows, hgrown⟩, hsession⟩ := handle_of_allows hinj
    (held_allows holders.toHolders hinj σ.owner σ.world.db p) (fun _ hdb => hdb.1)
    (fun _ hnew => hnew.1) hsend (fun info hinfo => by
      obtain ⟨howner, hthere⟩ := hσ.sessions _ (hsend.bearer info hinfo)
      exact (ownWhile_of_mem hthere).trans howner)
    (fun req key target hreq hsigned hrep _ => by
      subst hreq
      exact hown ⟨key, target, hsigned, rfl, .inr hrep⟩)
    hout ⟨hσ.rows.while p, fun _ hu => hu⟩
  refine ⟨hrows, ?_, hgrown, fun u hu => ⟨hsession u hu, ?_⟩⟩
  · cases handle_keys hout with
    | same hsame => exact (hσ.keys.while p).same hgrown hsame
    | stored t ht hst =>
      refine (hσ.keys.while p).stored hgrown hst fun asset publicKey ⟨hauth, hin⟩ => ?_
      obtain ⟨hheld, hothers⟩ := hstores hauth asset publicKey hin
      rcases ht with hacts | ⟨hfree, hnone⟩
      · exact ⟨hheld.trans (hown hacts).symm, fun u hu => (hothers u hu).unique hacts⟩
      · refine ⟨hheld.trans (if_neg (by simp [hfree])).symm, fun u hu => ?_⟩
        exact (hnone u (hothers u hu)).elim
  · rw [hu] at hout
    exact handle_isSome hout

/-- Nothing but sessions and keys of a user changed, and the session is for this user. -/
theorem SessionFor.leaves {σ : OwnedService π} {own : Uuid → π} {p : π} {user : UserRow}
    {w₁ w' : World} {r : Except AppError AuthResponse} {r' : Except AppError (Option Uuid)}
    (h : SessionFor user r w₁ w') (hr : r' = r.map fun resp => some resp.user.id)
    (hrows : HeldRows env.auth holders.toHolders own w₁.db) (hkeys : KeysHeld holders own w₁.db)
    (hgrown : Grown σ.world.db w₁.db) (hown : own user.id = p) :
    Leaves holders env own p σ.world.db w'.db r' ∧ ∀ u, r' = .ok (some u) → u = user.id ∧
      ∀ asset, w'.db.primary u asset = w₁.db.primary u asset := by
  have hprimary (u : Uuid) (asset : AssetType) : w'.db.primary u asset = w₁.db.primary u asset := by
    simp only [Db.primary, Db.getUserKey, h.keys]
  have hid {u : Uuid} (hu : r' = .ok (some u)) :
      u = user.id ∧ (w'.db.users.get? user.id).isSome := by
    cases r with
    | error e => simp [hr, Except.map] at hu
    | ok resp =>
      simp only [hr, Except.map, Except.ok.injEq, Option.some.injEq] at hu
      obtain ⟨hsame, hthere⟩ := h.session resp rfl
      exact ⟨hu.symm.trans hsame, hthere⟩
  refine ⟨⟨fun row hrow => hrows row (h.users ▸ hrow), ?_, fun u hu => h.users ▸ hgrown u hu,
    fun u hu => ?_⟩, fun u hu => ⟨(hid hu).1, hprimary u⟩⟩
  · exact hkeys.same (fun u hu => h.users ▸ hu) hprimary
  · obtain ⟨rfl, hthere⟩ := hid hu
    exact ⟨hown, hthere⟩

/-- A request that signs in with a key. -/
theorem website_leaves {σ : OwnedService π} (hσ : Upright env holders σ)
    {l : SignInCall π} {req : WebsiteVerifyRequest} {σ' : OwnedService π}
    (hreq : l.request = .website req)
    (hsend : CanSend env holders σ.obtained l.party (.website req))
    (hstores : StoresOwnKeys env holders σ l σ')
    (hout : (Request.sessionOf (websiteVerify env l.answers req)).Outcome
      { σ.world with now := l.now } l.result σ'.world)
    (howner : σ'.owner = ownWhile σ.owner σ.world.db l.party) :
    Leaves holders env σ'.owner l.party σ.world.db σ'.world.db l.result ∧
      ∀ u, l.result = .ok (some u) → ProvenSignIn env holders σ' l req u := by
  obtain ⟨r, h, hr⟩ := outcome_sessionOf hout
  have hrows : HeldRows env.auth holders.toHolders σ'.owner σ.world.db := by
    rw [howner]
    exact hσ.rows.while l.party
  have hkeys : KeysHeld holders σ'.owner σ.world.db := by
    rw [howner]
    exact hσ.keys.while l.party
  -- a request that is refused
  have hrefused {db : Db} {e : AppError} (hrows : HeldRows env.auth holders.toHolders σ'.owner db)
      (hkeys : KeysHeld holders σ'.owner db) (hgrown : Grown σ.world.db db)
      (hr : r = .error e) : Leaves holders env σ'.owner l.party σ.world.db db l.result ∧
        ∀ u, l.result = .ok (some u) → ProvenSignIn env holders σ' l req u := by
    subst hr
    exact ⟨⟨hrows, hkeys, hgrown, fun u hu => by cases hr.symm.trans hu⟩,
      fun u hu => by cases hr.symm.trans hu⟩
  rcases websiteVerify_cases h with ⟨hsame, e, he⟩ | ⟨asset, challenge, hproves, hcases⟩
  · rw [hsame]
    exact hrefused hrows hkeys (fun _ hu => hu) he
  obtain ⟨hparsed, challenge', hlive, hsigned⟩ := id hproves
  have hmine : holders.of asset req.publicKey = l.party := hsend asset _ hsigned
  rcases hcases with ⟨user, hholder, h⟩ | ⟨user, hnone, hbtc, hrow, h⟩ | ⟨identity, hnone, hfound, h⟩
  · -- the holder of the key
    obtain ⟨hthere, hprimary⟩ := getUserByAssetPubkey_eq_some hholder
    have hheld := hkeys.held user.id asset req.publicKey hprimary
    obtain ⟨hleaves, hsession⟩ := (websiteSession_outcome h).leaves hr hrows hkeys
      (fun _ hu => hu) (hheld.symm.trans hmine)
    refine ⟨hleaves, fun u hu => ?_⟩
    obtain ⟨rfl, hsame⟩ := hsession u hu
    exact ⟨asset, hproves, hheld, hmine.symm.trans hheld, (hsame asset).trans hprimary⟩
  · -- the row that the key identifies
    unfold StoresOwnKeys at hstores
    simp only [hreq] at hstores
    cases ((hstores asset hproves hnone).1 hbtc).symm.trans hrow
  · -- an import
    unfold StoresOwnKeys at hstores
    simp only [hreq] at hstores
    obtain ⟨hlast, hown⟩ := (hstores asset hproves hnone).2 identity hfound
    have himport {r₁ : Except AppError UserRow} {w₁ : World}
        (hout : (importLegacyIdentity env l.answers identity).Outcome
          { σ.world with now := l.now } r₁ w₁) :
        HeldRows env.auth holders.toHolders σ'.owner w₁.db ∧ KeysHeld holders σ'.owner w₁.db ∧
          Grown σ.world.db w₁.db ∧ ∀ user, r₁ = .ok user → σ'.owner user.id = l.party ∧
            w₁.db.primary user.id asset = some req.publicKey := by
      rcases importLegacyIdentity_outcome (w := { σ.world with now := l.now }) hσ.keys.exist hout
        with ⟨rfl, e, rfl⟩ | himported
      · exact ⟨hrows, hkeys, fun _ hu => hu, fun _ hr => by cases hr⟩
      obtain ⟨username, husers⟩ := himported.users
      have hfresh : σ.world.db.users.get? l.answers.auth.userId = none := himported.fresh
      have hnew : σ'.owner l.answers.auth.userId = l.party := by
        rw [howner]
        exact if_neg (by simp [hfresh])
      have hget := Table.get?_insert? (Table.insert?_of_rows_append husers)
      have hgrown : Grown σ.world.db w₁.db := by
        intro u hu
        rw [hget]
        split_ifs
        · rfl
        · exact hu
      refine ⟨fun row hrow => ?_, ?_, hgrown, fun user hr => ?_⟩
      · rw [husers, List.mem_append, List.mem_singleton] at hrow
        rcases hrow with hrow | rfl
        · exact hrows row hrow
        · exact ⟨fun _ hhash => (by cases hhash), fun _ hnpub => (by cases hnpub)⟩
      · refine hkeys.stored hgrown himported.keys fun asset' publicKey hin => ?_
        refine ⟨(hown asset' publicKey hin).trans hnew.symm, fun u hu => ?_⟩
        obtain ⟨k, -, himp, rfl⟩ := hin
        exact (((LegacyKey.imported_iff hσ.keys.exist).mp himp).2.2 u hu).elim
      · obtain ⟨hid, hend⟩ := himported.last user hr
        rw [hid]
        exact ⟨hnew, (hend asset).trans hlast⟩
    rcases Prog.outcome_bind h with ⟨e, hout, he⟩ | ⟨user, w₁, hout, hrest⟩
    · obtain ⟨hrows₁, hkeys₁, hgrown₁, -⟩ := himport hout
      exact hrefused hrows₁ hkeys₁ hgrown₁ he
    · obtain ⟨hrows₁, hkeys₁, hgrown₁, huser⟩ := himport hout
      obtain ⟨hpartys, hprimary⟩ := huser user rfl
      obtain ⟨hleaves, hsession⟩ :=
        (websiteSession_outcome hrest).leaves hr hrows₁ hkeys₁ hgrown₁ hpartys
      refine ⟨hleaves, fun u hu => ?_⟩
      obtain ⟨rfl, hsame⟩ := hsession u hu
      exact ⟨asset, hproves, hmine.trans hpartys.symm, hpartys.symm, (hsame asset).trans hprimary⟩

/-- One call keeps credentials and keys with the owners, and signs in its sender. -/
theorem upright_step (hinj : Function.Injective env.auth.anchorOf) {σ σ' : OwnedService π}
    {l : SignInCall π}
    (hstep : ((signIns env holders).only (StoresOwnKeys env holders)).step σ l σ')
    (hσ : Upright env holders σ) : Upright env holders σ' ∧ ∀ req u,
      l.request = .website req → l.result = .ok (some u) → ProvenSignIn env holders σ' l req u := by
  obtain ⟨⟨hsend, hout, hobtained, howner⟩, hstores⟩ := hstep
  have hleaves : Leaves holders env σ'.owner l.party σ.world.db σ'.world.db l.result ∧
      ∀ req u, l.request = .website req → l.result = .ok (some u) →
        ProvenSignIn env holders σ' l req u := by
    cases hreq : l.request with
    | account q =>
      rw [hreq] at hsend hout
      unfold StoresOwnKeys at hstores
      simp only [hreq] at hstores
      rw [howner]
      exact ⟨account_leaves hinj hσ hsend hstores hout, fun _ _ h => nomatch h⟩
    | website req =>
      rw [hreq] at hsend hout
      obtain ⟨hleaves, hproven⟩ := website_leaves hσ hreq hsend hstores hout howner
      refine ⟨hleaves, fun req' u heq hu => ?_⟩
      obtain rfl := SignInRequest.website.inj heq
      exact hproven u hu
  obtain ⟨hleaves, hproven⟩ := hleaves
  refine ⟨⟨hleaves.rows, hleaves.keys, fun x hx => ?_⟩, hproven⟩
  rw [hobtained, List.mem_append] at hx
  rcases hx with hx | hx
  · obtain ⟨hown, hthere⟩ := hσ.sessions x hx
    refine ⟨?_, hleaves.grown x.2 hthere⟩
    rw [howner]
    exact (ownWhile_of_mem hthere).trans hown
  · unfold SignInCall.gave at hx
    split at hx
    · rename_i u hu
      obtain rfl := List.mem_singleton.mp hx
      exact hleaves.session u hu
    · cases hx

/-- **A proven key leads to the account of its prover**, on runs in which every request stores only
keys of its sender that no other user holds: from an empty service, no two users ever hold a primary
key of an asset, and an accepted website sign-in is for a user who holds the key and whose owner
signed the challenge with it. -/
theorem provenKeys_of_run (hinj : Function.Injective env.auth.anchorOf) {w₀ : World}
    (husers : w₀.db.users.rows = []) (hkeys : w₀.db.userKeys.rows = []) (own : Uuid → π)
    {ls : List (SignInCall π)} {σ : OwnedService π}
    (hrun : ((signIns env holders).only (StoresOwnKeys env holders)).Run ⟨⟨w₀, []⟩, own⟩ ls σ) :
    OneHolder σ.world.db ∧ ∀ l σ',
      ((signIns env holders).only (StoresOwnKeys env holders)).step σ l σ' → ∀ req u,
        l.request = .website req → l.result = .ok (some u) → ProvenSignIn env holders σ' l req u := by
  have hnone (u : Uuid) (asset : AssetType) : w₀.db.primary u asset = none := by
    simp [Db.primary, Db.getUserKey, Table.get?, hkeys]
  have hstart : Upright env holders ⟨⟨w₀, []⟩, own⟩ := by
    refine ⟨fun r hr => ?_, ⟨fun u asset hu => ?_, fun u asset publicKey hu => ?_,
      fun asset publicKey u u' hu => ?_⟩, fun x hx => by cases hx⟩
    · rw [husers] at hr
      cases hr
    · simp [hnone] at hu
    · simp [hnone] at hu
    · simp [hnone] at hu
  have hend := hrun.invariant (fun _ _ _ hstep hσ => (upright_step hinj hstep hσ).1) hstart
  exact ⟨hend.keys.unique, fun l σ' hstep => (upright_step hinj hstep hend).2⟩

end

/-! ### A key that leads to another account -/

/-- A call with the answer the service gives without faults. -/
def signInAnswered {π : Type} (env : WebsiteEnv) (σ : OwnedService π) (p : π) (q : SignInRequest)
    (a : WebsiteAnswers) : SignInCall π :=
  ⟨p, q, a, 0, ((q.handle env a).run { σ.world with now := 0 }).1⟩

/-- The service after such a call. -/
def OwnedService.after {π : Type} (env : WebsiteEnv) (σ : OwnedService π) (l : SignInCall π) :
    OwnedService π :=
  ⟨⟨((l.request.handle env l.answers).run { σ.world with now := l.now }).2, σ.obtained ++ l.gave⟩,
    ownWhile σ.owner σ.world.db l.party⟩

theorem step_signInAnswered {π : Type} {env : WebsiteEnv} {holders : KeyHolders π}
    {σ : OwnedService π} {p : π} {q : SignInRequest} {a : WebsiteAnswers}
    (h : CanSend env holders σ.obtained p q) :
    (signIns env holders).step σ (signInAnswered env σ p q a)
      (σ.after env (signInAnswered env σ p q a)) :=
  ⟨h, Prog.outcome_run _ _, rfl, rfl⟩

/-- An instance where a key signs with its name. -/
def keysEnv : WebsiteEnv where
  auth := sampleEnv
  verifyEd25519Signature _ sig key :=
    if sig = key then .ok () else .error (.authError "signature verification failed")
  lowercase := id

/-- The answers to the `n`-th request, without a legacy instance. -/
def keysAnswers (n : Uuid) : WebsiteAnswers where
  auth := sampleAnswers n
  clock := 0
  challenge := some ⟨"nonce", 0, "https://site", 100⟩
  findByProvenKey _ _ := .ok none

/-- The BTC key `A` is the other's, everything else the wallet's. -/
def keysHolders : KeyHolders Party where
  btc key := if key = "A" then .other else .wallet
  npub _ := .wallet
  ed25519 _ := .wallet

/-- The wallet's keys: BTC `K` and XMR `V`. -/
def walletKeys : SignInRequest :=
  .account (.extensionRegister
    { walletRequest "K" none with keys := [⟨"btc", "K", none⟩, ⟨"xmr", "V", none⟩] })

/-- A sign-in with the XMR key `V`. -/
def signsInWithV : WebsiteVerifyRequest := ⟨"xmr", "V", "V"⟩

/-- The other registers. -/
def otherRegisters : SignInCall Party :=
  signInAnswered keysEnv ⟨nobody, fun _ => .wallet⟩ .other
    (.account (.extensionRegister (walletRequest "A" none))) (keysAnswers 2)

/-- The other has a user. -/
def otherRegistered : OwnedService Party := .after keysEnv ⟨nobody, fun _ => .wallet⟩ otherRegisters

/-- The other stores the wallet's XMR key. -/
def otherStoresV : SignInCall Party :=
  signInAnswered keysEnv otherRegistered .other
    (.account (.registerKey (.ok ⟨2, none⟩) ⟨⟨"xmr", "V", none⟩, none⟩)) (keysAnswers 3)

/-- The key is on file for the other. -/
def otherHoldsV : OwnedService Party := otherRegistered.after keysEnv otherStoresV

/-- The wallet signs in with its XMR key. -/
def walletSignsIn : SignInCall Party :=
  signInAnswered keysEnv otherHoldsV .wallet (.website signsInWithV) (keysAnswers 4)

/-- The wallet has signed in. -/
def walletSignedIn : OwnedService Party := otherHoldsV.after keysEnv walletSignsIn

/-- The wallet registers its keys. -/
def walletRegisters : SignInCall Party :=
  signInAnswered keysEnv walletSignedIn .wallet walletKeys (keysAnswers 5)

theorem canSend_keys :
    CanSend keysEnv keysHolders [] .other
        (.account (.extensionRegister (walletRequest "A" none))) ∧
      CanSend keysEnv keysHolders [(.other, 2)] .other
        (.account (.registerKey (.ok ⟨2, none⟩) ⟨⟨"xmr", "V", none⟩, none⟩)) ∧
      (∀ obtained, CanSend keysEnv keysHolders obtained .wallet (.website signsInWithV)) ∧
      ∀ obtained, CanSend keysEnv keysHolders obtained .wallet walletKeys := by
  have hverified {msg sig key : String}
      (h : sampleEnv.verifyBitcoinSignature msg sig key = .ok ()) : sig = key := by
    unfold sampleEnv at h
    simp only at h
    split_ifs at h with heq
    exact heq
  refine ⟨⟨fun sig hsig msg key h => ?_, fun token ht => (nomatch ht), fun info h => (nomatch h)⟩,
    ⟨fun sig hsig => (nomatch hsig), fun token ht => (nomatch ht), fun info h => ?_⟩,
    fun _ asset msg h => ?_,
    fun _ => ⟨fun sig hsig msg key h => ?_, fun token ht => (nomatch ht), fun info h => (nomatch h)⟩⟩
  · obtain rfl : sig = "A" := by simpa [Request.btcSignatures, walletRequest] using hsig
    rw [← hverified h]
    rfl
  · obtain rfl := Except.ok.inj h
    exact .head _
  · cases asset <;> rfl
  · obtain rfl : sig = "K" := by simpa [Request.btcSignatures, walletRequest] using hsig
    rw [← hverified h]
    rfl

/-- **A proven key leads to another account**: whoever registers and stores the wallet's XMR key is
signed in to by the wallet; once the wallet registers its keys, two users hold the key. -/
theorem foreign_key_resolves_to_other :
    ∃ ls σ, (signIns keysEnv keysHolders).Run ⟨nobody, fun _ => .wallet⟩ ls σ ∧
      (∃ l σ' u, (signIns keysEnv keysHolders).step σ l σ' ∧ l.request = .website signsInWithV ∧
        l.result = .ok (some u) ∧ ProvesKey keysEnv l.answers signsInWithV .xmr ∧
        keysHolders.of .xmr "V" = .wallet ∧ σ'.owner u = .other ∧
        ¬ ProvenSignIn keysEnv keysHolders σ' l signsInWithV u ∧
        ∃ l' σ'', (signIns keysEnv keysHolders).step σ' l' σ'' ∧ ¬ OneHolder σ''.world.db) := by
  obtain ⟨h₁, h₂, h₃, h₄⟩ := canSend_keys
  have hobtained : otherRegistered.obtained = [(.other, 2)] := by decide +kernel
  have howner : walletSignedIn.owner 2 = .other := by decide +kernel
  have hfirst : (walletSignedIn.after keysEnv walletRegisters).world.db.primary 2 .xmr = some "V" := by
    decide +kernel
  have hsecond : (walletSignedIn.after keysEnv walletRegisters).world.db.primary 5 .xmr = some "V" := by
    decide +kernel
  refine ⟨[otherRegisters, otherStoresV], otherHoldsV,
    .cons (step_signInAnswered h₁) (.cons (step_signInAnswered (hobtained ▸ h₂)) (.nil _)),
    walletSignsIn, walletSignedIn, 2, step_signInAnswered (h₃ _), rfl, rfl, ⟨rfl, _, rfl, rfl⟩, rfl,
    howner, ?_, walletRegisters, _, step_signInAnswered (h₄ _), fun hone => ?_⟩
  · rintro ⟨asset, -, -, hparty, -⟩
    cases hparty.trans howner
  · exact absurd (hone .xmr "V" 2 5 hfirst hsecond) (by decide)

/-- The wallet registers its keys first. -/
def walletFirst : SignInCall Party :=
  signInAnswered keysEnv ⟨nobody, fun _ => .wallet⟩ .wallet walletKeys (keysAnswers 2)

/-- The wallet holds its keys. -/
def walletHoldsV : OwnedService Party := .after keysEnv ⟨nobody, fun _ => .wallet⟩ walletFirst

/-- The wallet signs in with its XMR key. -/
def walletReturns : SignInCall Party :=
  signInAnswered keysEnv walletHoldsV .wallet (.website signsInWithV) (keysAnswers 3)

/-- A wallet that registers its keys and signs in with one of them gets its own user. -/
theorem ownKeys_proven : OneHolder walletHoldsV.world.db ∧
    ProvenSignIn keysEnv keysHolders (walletHoldsV.after keysEnv walletReturns) walletReturns
      signsInWithV 2 := by
  obtain ⟨-, -, hsignIn, hregister⟩ := canSend_keys
  have hfirst : StoresOwnKeys keysEnv keysHolders ⟨nobody, fun _ => .wallet⟩ walletFirst
      walletHoldsV := by
    intro _ asset publicKey hstores
    refine ⟨?_, fun u hu => nomatch hu⟩
    obtain ⟨k, hk, hasset, rfl⟩ := hstores
    have hcases : k = ⟨"btc", "K", none⟩ ∨ k = ⟨"xmr", "V", none⟩ := by simpa using hk
    rcases hcases with rfl | rfl
    · obtain rfl : AssetType.btc = asset := Except.ok.inj hasset
      decide
    · obtain rfl : AssetType.xmr = asset := Except.ok.inj hasset
      decide
  have hsecond : StoresOwnKeys keysEnv keysHolders walletHoldsV walletReturns
      (walletHoldsV.after keysEnv walletReturns) := by
    intro asset hproves hnone
    obtain rfl : AssetType.xmr = asset := Except.ok.inj hproves.1
    have hholder : (walletHoldsV.world.db.getUserByAssetPubkey .xmr "V").isSome := by
      decide +kernel
    have hisNone : (walletHoldsV.world.db.getUserByAssetPubkey .xmr "V").isNone := by
      rw [Option.isNone_iff_eq_none]
      exact hnone
    simp [Option.isNone_iff_eq_none.mp hisNone] at hholder
  have hinj : Function.Injective keysEnv.auth.anchorOf := fun _ _ h => h
  obtain ⟨hone, hproven⟩ := provenKeys_of_run hinj rfl rfl
    (fun _ => Party.wallet)
    (.cons ⟨step_signInAnswered (hregister _), hfirst⟩ (.nil walletHoldsV))
  exact ⟨hone, hproven walletReturns _ ⟨step_signInAnswered (hsignIn _), hsecond⟩ signsInWithV 2 rfl rfl⟩

end SmirkBackend
