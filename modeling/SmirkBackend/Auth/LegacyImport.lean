import SmirkBackend.Auth.PrimaryKeys
import SmirkBackend.Lib.Solo

/-!
# The import of a legacy identity

A wallet that proves a key of a legacy identity which nobody holds here is imported: a user is
created, and then the keys of the identity are stored one statement at a time, those that some user
holds left out.  Nothing joins the creation and the keys in one transaction.

A call comes with the faults it meets (`LegacyCall.program`).  What it does depends on little of the
database (`ImportView`, `respects_websiteVerify`), and before it creates a user it leaves users and
keys alone (`stepsUntil_websiteVerify`).  So `verify_outcome`, about a call that is run by itself,
is what the interleavings are reduced to.
-/

namespace SmirkBackend

open Lib (Table Prog)

/-! ### Calls -/

/-- A call that proves a key, which the legacy instance knows as one of the identity or not at
all. -/
structure LegacyCall (identity : LegacyIdentity) where
  /-- What the call meets outside the database. -/
  answers : WebsiteAnswers
  /-- The request. -/
  req : WebsiteVerifyRequest
  /-- The asset whose key it proves. -/
  asset : AssetType
  /-- The request names it. -/
  parsed : parseAsset req.asset = .ok asset
  /-- Whose key it is. -/
  owner : ∀ found, answers.findByProvenKey asset req.publicKey = .ok (some found) →
    found = identity
  /-- The statements that fail. -/
  fails : ℕ → Bool

variable {identity : LegacyIdentity}

/-- The handler. -/
def LegacyCall.program (env : WebsiteEnv) (call : LegacyCall identity) : Handler AuthResponse :=
  Prog.scripted call.fails 0 (websiteVerify env call.answers call.req)

/-- The user it would create. -/
def LegacyCall.userId (call : LegacyCall identity) : Uuid := call.answers.auth.userId

/-- The session it would open. -/
def LegacyCall.sessionId (call : LegacyCall identity) : Uuid := call.answers.auth.sessionId

/-- The number of the statement that creates the user: it comes after the lookups of the key and of
the name. -/
def LegacyCall.importStatement (call : LegacyCall identity) : ℕ :=
  1 + (if call.asset = .btc then 1 else 0) + if identity.username.isSome then 1 else 0

/-- A user is created. -/
def CreatesUser (w w' : World) : Prop := w.db.users.rows.length < w'.db.users.rows.length

/-! ### What the handler depends on -/

/-- Users, keys, and the session of this identifier. -/
structure ImportView where
  /-- Users. -/
  users : Table UserRow
  /-- Keys. -/
  userKeys : Table UserKeyRow
  /-- The session. -/
  session : Option SessionRow

/-- The view of a state. -/
def World.importView (session : Uuid) (w : World) : ImportView :=
  ⟨w.db.users, w.db.userKeys, w.db.sessions.get? session⟩

section Respects

variable {session : Uuid}

theorem respects_select {α : Type} {f : Db → α}
    (h : ∀ db db', db.users = db'.users → db.userKeys = db'.userKeys → f db = f db') :
    (select f).Respects (World.importView session) :=
  Prog.respects_read fun w w' hw =>
    h w.db w'.db (congrArg ImportView.users hw) (congrArg ImportView.userKeys hw)

theorem respects_createUser (pepper : Pepper) (id : Uuid) (new : NewUser) :
    (createUser pepper id new).Respects (World.importView session) := by
  refine Prog.respects_query fun w w' hw => ?_
  have husers : w.db.users = w'.db.users := congrArg ImportView.users hw
  have hkeys : w.db.userKeys = w'.db.userKeys := congrArg ImportView.userKeys hw
  have hsession : w.db.sessions.get? session = w'.db.sessions.get? session :=
    congrArg ImportView.session hw
  simp only [Db.insertUser, husers]
  cases w'.db.users.insert? (new.row pepper id) with
  | none => exact ⟨rfl, hw⟩
  | some users =>
    cases collision w'.db.users.rows (new.row pepper id) with
    | some c => exact ⟨rfl, hw⟩
    | none => exact ⟨rfl, by simp only [World.importView, hkeys, hsession]⟩

theorem respects_upsertUserKey (k : UserKeyRow) :
    (upsertUserKey k).Respects (World.importView session) := by
  refine Prog.respects_query fun w w' hw => ?_
  have husers : w.db.users = w'.db.users := congrArg ImportView.users hw
  have hkeys : w.db.userKeys = w'.db.userKeys := congrArg ImportView.userKeys hw
  have hsession : w.db.sessions.get? session = w'.db.sessions.get? session :=
    congrArg ImportView.session hw
  simp only [Db.upsertUserKey, husers]
  split_ifs
  · exact ⟨rfl, hw⟩
  · exact ⟨rfl, by simp only [World.importView, hkeys, hsession]⟩

theorem respects_createSession {row : SessionRow} (hrow : row.id = session) :
    (createSession row).Respects (World.importView session) := by
  subst hrow
  refine Prog.respects_query fun w w' hw => ?_
  have husers : w.db.users = w'.db.users := congrArg ImportView.users hw
  have hkeys : w.db.userKeys = w'.db.userKeys := congrArg ImportView.userKeys hw
  have hsession : w.db.sessions.get? row.id = w'.db.sessions.get? row.id :=
    congrArg ImportView.session hw
  simp only [husers]
  split_ifs
  · exact ⟨rfl, hw⟩
  · -- the session is stored in both states or in neither
    cases hfree : w'.db.sessions.get? row.id with
    | none =>
      obtain ⟨t, ht⟩ := Table.exists_insert? (r := row) (hsession.trans hfree)
      obtain ⟨t', ht'⟩ := Table.exists_insert? (r := row) hfree
      simp only [ht, ht']
      refine ⟨trivial, ?_⟩
      simp only [World.importView, hkeys]
      rw [Table.get?_insert? ht, Table.get?_insert? ht']
      simp [Lib.key, Lib.HasKey.key]
    | some r =>
      have hnone {t : Table SessionRow} (ht : t.get? row.id = some r) : t.insert? row = none := by
        cases hins : t.insert? row with
        | none => rfl
        | some t' =>
          cases ht.symm.trans (Table.insert?_eq_some_iff.mp hins).1
      simp only [hnone hfree, hnone (hsession.trans hfree)]
      exact ⟨trivial, hw⟩

theorem respects_importLegacyKeys (u : Uuid) (keys : List LegacyKey) :
    (importLegacyKeys u keys).Respects (World.importView session) := by
  induction keys with
  | nil => trivial
  | cons k rest ih =>
    unfold importLegacyKeys
    cases parseAsset k.asset with
    | error e => exact ih
    | ok asset =>
      refine (respects_select fun db db' husers hkeys => ?_).bind fun found => ?_
      · simp only [Db.getUserByAssetPubkey, husers, hkeys]
      · cases found with
        | some _ => exact ih
        | none => exact (respects_upsertUserKey _).bind fun _ => ih

theorem respects_importLegacyIdentity (env : WebsiteEnv) (a : WebsiteAnswers)
    (identity : LegacyIdentity) :
    (importLegacyIdentity env a identity).Respects (World.importView session) := by
  have hname : (carriedUsername env identity.username).Respects (World.importView session) := by
    unfold carriedUsername
    cases identity.username.map env.lowercase with
    | none => trivial
    | some name =>
      refine (respects_select fun db db' husers _ => ?_).bind fun found => ?_
      · simp only [Db.getUserByUsername, husers]
      · cases found <;> trivial
  refine hname.bind fun username => (respects_createUser _ _ _).bind fun user => ?_
  exact (respects_importLegacyKeys user.id identity.keys).bind fun _ => trivial

theorem respects_resolveProvenKey (env : WebsiteEnv) (a : WebsiteAnswers) (asset : AssetType)
    (publicKey : String) :
    (resolveProvenKey env a asset publicKey).Respects (World.importView session) := by
  have hregistered : (resolveRegistered env asset publicKey).Respects
      (World.importView session) := by
    refine (respects_select fun db db' husers hkeys => ?_).bind fun found => ?_
    · simp only [Db.getUserByAssetPubkey, husers, hkeys]
    · cases found with
      | some user => trivial
      | none =>
        simp only
        split_ifs
        · exact respects_select fun db db' husers _ => by simp only [Db.getUserByPubkeyHash, husers]
        · trivial
  refine hregistered.bind fun found => ?_
  cases found with
  | some user => trivial
  | none =>
    refine (Prog.respects_ofExcept _).bind fun found => ?_
    cases found with
    | none => trivial
    | some identity => exact (respects_importLegacyIdentity env a identity).bind fun _ => trivial

end Respects

theorem respects_websiteSession (env : WebsiteEnv) (a : WebsiteAnswers) (challenge : WebChallenge)
    (asset : AssetType) (user : UserRow) :
    (websiteSession env a challenge asset user).Respects (World.importView a.auth.sessionId) := by
  have hissue : (issueSession env.auth a.auth user.id .web "Web Browser").Respects
      (World.importView a.auth.sessionId) := by
    refine (Prog.respects_ofExcept _).bind fun pair => ?_
    exact Prog.Respects.bind (respects_createSession rfl) fun _ => trivial
  refine hissue.bind fun pair => (Prog.respects_attempt fun w w' hw => ?_).bind fun _ => ?_
  · -- the event is another table
    have hevent (w : World) : World.importView a.auth.sessionId { w with
        db := if (some user.id).any fun u => (w.db.users.get? u).isNone then w.db else
          { w.db with loginEvents := (w.db.loginEvents.insert? ⟨a.auth.eventId, some user.id,
            asset.asStr, Platform.web.asStr, some challenge.origin⟩).getD w.db.loginEvents } } =
        World.importView a.auth.sessionId w := by
      split_ifs <;> rfl
    exact (hevent w).trans (hw.trans (hevent w').symm)
  · exact (Prog.respects_attempt fun w w' hw => hw).bind fun _ => trivial

/-- The handler depends on the view only. -/
theorem respects_websiteVerify (env : WebsiteEnv) (a : WebsiteAnswers)
    (req : WebsiteVerifyRequest) :
    (websiteVerify env a req).Respects (World.importView a.auth.sessionId) := by
  rw [websiteVerify_eq]
  refine (Prog.respects_ofExcept _).bind fun challenge => ?_
  refine (Prog.respects_ofExcept _).bind fun asset => (Prog.respects_ofExcept _).bind fun _ => ?_
  refine (respects_resolveProvenKey env a asset req.publicKey).bind fun found => ?_
  cases found with
  | none => trivial
  | some user => exact respects_websiteSession env a challenge asset user

/-! ### Before a user is created -/

/-- Users and keys stay, and no session but this one is opened. -/
structure LeavesUsers (session : Uuid) (w w' : World) : Prop where
  /-- The users. -/
  users : w'.db.users = w.db.users
  /-- The keys. -/
  userKeys : w'.db.userKeys = w.db.userKeys
  /-- The other sessions. -/
  sessions : ∀ s, s ≠ session → w'.db.sessions.get? s = w.db.sessions.get? s

theorem LeavesUsers.refl (session : Uuid) (w : World) : LeavesUsers session w w :=
  ⟨rfl, rfl, fun _ _ => rfl⟩

theorem LeavesUsers.importView {session s : Uuid} {w w' : World} (h : LeavesUsers session w w')
    (hs : s ≠ session) : w'.importView s = w.importView s := by
  simp only [World.importView, h.users, h.userKeys, h.sessions s hs]

theorem steps_websiteSession (env : WebsiteEnv) (a : WebsiteAnswers) (challenge : WebChallenge)
    (asset : AssetType) (user : UserRow) :
    (websiteSession env a challenge asset user).Steps (LeavesUsers a.auth.sessionId) := by
  have hissue : (issueSession env.auth a.auth user.id .web "Web Browser").Steps
      (LeavesUsers a.auth.sessionId) := by
    refine (Prog.steps_ofExcept _).bind fun pair => ?_
    refine (Prog.steps_query fun w => ?_).bind fun _ => trivial
    simp only
    split_ifs
    · exact .refl _ w
    · split
      · rename_i sessions hins
        refine ⟨rfl, rfl, fun s hs => ?_⟩
        rw [Table.get?_insert? hins]
        exact if_neg hs
      · exact .refl _ w
  refine hissue.bind fun pair => (Prog.steps_attempt fun w => ?_).bind fun _ => ?_
  · simp only
    split_ifs
    · exact .refl _ w
    · exact ⟨rfl, rfl, fun _ _ => rfl⟩
  · exact (Prog.steps_attempt fun w => .refl _ w).bind fun _ => trivial

theorem steps_resolveRegistered {R : World → World → Prop} (hrefl : ∀ w, R w w)
    (env : WebsiteEnv) (asset : AssetType) (publicKey : String) :
    (resolveRegistered env asset publicKey).Steps R := by
  refine (Prog.steps_read hrefl).bind fun found => ?_
  cases found with
  | some user => trivial
  | none =>
    simp only
    split_ifs
    · exact Prog.steps_read hrefl
    · trivial

theorem steps_carriedUsername {R : World → World → Prop} (hrefl : ∀ w, R w w)
    (env : WebsiteEnv) (username : Option String) : (carriedUsername env username).Steps R := by
  unfold carriedUsername
  cases username.map env.lowercase with
  | none => trivial
  | some name =>
    refine (Prog.steps_read hrefl).bind fun found => ?_
    cases found <;> trivial

/-- Before it creates a user, a call leaves users and keys alone. -/
theorem stepsUntil_websiteVerify (env : WebsiteEnv) (a : WebsiteAnswers)
    (req : WebsiteVerifyRequest) :
    (websiteVerify env a req).StepsUntil CreatesUser (LeavesUsers a.auth.sessionId) := by
  have hrefl := LeavesUsers.refl a.auth.sessionId
  have hcheck {α : Type} (x : Except AppError α) : (Prog.ofExcept x : Handler α).StepsUntil
      CreatesUser (LeavesUsers a.auth.sessionId) := (Prog.steps_ofExcept x).until
  -- a user that is created is one more
  have himport (identity : LegacyIdentity) : (importLegacyIdentity env a identity).StepsUntil
      CreatesUser (LeavesUsers a.auth.sessionId) := by
    refine (steps_carriedUsername hrefl env identity.username).until.bind fun username => ?_
    refine Prog.stepsUntil_query_bind fun w => ?_
    simp only
    cases hins : w.db.insertUser ((importedUser username).row env.auth.pepper a.auth.userId) with
    | error c => exact .inr ⟨.refl _ w, _, rfl⟩
    | ok db' =>
      obtain ⟨-, users, hrow, rfl⟩ := insertUser_eq_ok_iff.mp hins
      left
      simp only [CreatesUser, (Table.insert?_eq_some_iff.mp hrow).2, List.length_append,
        List.length_singleton]
      omega
  rw [websiteVerify_eq]
  refine (hcheck _).bind fun challenge => (hcheck _).bind fun asset => (hcheck _).bind fun _ => ?_
  refine Prog.StepsUntil.bind ?_ fun found => ?_
  · refine (steps_resolveRegistered hrefl env asset req.publicKey).until.bind fun found => ?_
    cases found with
    | some user => trivial
    | none =>
      refine (hcheck _).bind fun found => ?_
      cases found with
      | none => trivial
      | some identity => exact (himport identity).bind fun _ => trivial
  · cases found with
    | none => trivial
    | some user => exact (steps_websiteSession env a challenge asset user).until

/-! ### At most one user -/

/-- Users are added at the end. -/
def AddsUsers (w w' : World) : Prop :=
  w'.db.users = w.db.users ∨ ∃ row, w'.db.users.rows = w.db.users.rows ++ [row]

/-- Effects that change no user who is there. -/
def Effect.AddsUsers : Effect → Prop
  | update _ _ => False
  | create _ => True
  | key _ => True
  | session _ => True
  | other => True

theorem addsUsers_of_does {w w' : World} (h : Does Effect.AddsUsers w w') : AddsUsers w w' := by
  obtain ⟨eff, hadds, hwrites⟩ := h
  cases eff with
  | update u f => exact hadds.elim
  | create r => exact .inr ⟨r, hwrites.1⟩
  | key u => exact .inl hwrites.1
  | session r => exact .inl hwrites.1
  | other => exact .inl hwrites.1

theorem addsUsers_websiteVerify (env : WebsiteEnv) (a : WebsiteAnswers)
    (req : WebsiteVerifyRequest) : (websiteVerify env a req).Steps AddsUsers := by
  rw [websiteVerify_eq]
  refine (Prog.steps_ofExcept _).bind fun challenge => ?_
  refine (Prog.steps_ofExcept _).bind fun asset => (Prog.steps_ofExcept _).bind fun _ => ?_
  refine Prog.Steps.bind ?_ fun found => ?_
  · exact (Does.steps_resolveProvenKey trivial (fun _ => trivial) (fun _ => trivial) asset
      req.publicKey).mono fun _ _ => addsUsers_of_does
  · cases found with
    | none => trivial
    | some user =>
      exact (steps_websiteSession env a challenge asset user).mono fun _ _ h => .inl h.users

/-- A user is created. -/
def isCreation (x : World × World) : Bool := x.1.db.users.rows.length < x.2.db.users.rows.length

theorem isCreation_eq_true {x : World × World} : isCreation x = true ↔ CreatesUser x.1 x.2 := by
  simp [isCreation, CreatesUser]

/-- The users stay. -/
def KeepsUsers (w w' : World) : Prop := w'.db.users = w.db.users

theorem KeepsUsers.refl (w : World) : KeepsUsers w w := rfl

theorem KeepsUsers.isCreation {w w' : World} (h : KeepsUsers w w') :
    isCreation (w, w') = false := by
  simp only [SmirkBackend.isCreation, decide_eq_false_iff_not, not_lt]
  rw [KeepsUsers] at h
  rw [h]

theorem atMost_of_keepsUsers {α : Type} {p : Handler α} (h : p.Steps KeepsUsers) :
    p.AtMost isCreation 0 :=
  Prog.atMost_of_steps (fun w => (KeepsUsers.refl w).isCreation)
    (h.mono fun _ _ h => h.isCreation)

theorem steps_importLegacyKeys_users (u : Uuid) (keys : List LegacyKey) :
    (importLegacyKeys u keys).Steps KeepsUsers := by
  induction keys with
  | nil => trivial
  | cons k rest ih =>
    unfold importLegacyKeys
    cases parseAsset k.asset with
    | error e => exact ih
    | ok asset =>
      refine (Prog.steps_read KeepsUsers.refl).bind fun found => ?_
      cases found with
      | some _ => exact ih
      | none =>
        refine (Prog.steps_query fun w => ?_).bind fun _ => ih
        simp only [Db.upsertUserKey]
        split_ifs <;> rfl

/-- A call creates at most one user. -/
theorem atMost_websiteVerify (env : WebsiteEnv) (a : WebsiteAnswers)
    (req : WebsiteVerifyRequest) : (websiteVerify env a req).AtMost isCreation 1 := by
  have hone {α : Type} {p : Handler α} (h : p.Steps KeepsUsers) : p.AtMost isCreation 1 :=
    fun t r ht => (atMost_of_keepsUsers h t r ht).trans (Nat.zero_le 1)
  have hcheck {α : Type} (x : Except AppError α) : (Prog.ofExcept x : Handler α).AtMost
      isCreation 0 := atMost_of_keepsUsers (Prog.steps_ofExcept x)
  have himport (identity : LegacyIdentity) :
      (importLegacyIdentity env a identity).AtMost isCreation 1 := by
    have hname := atMost_of_keepsUsers
      (steps_carriedUsername KeepsUsers.refl env identity.username)
    have hcreate (new : NewUser) : (createUser env.auth.pepper a.auth.userId new).AtMost
        isCreation 1 := Prog.atMost_query isCreation
    have h := hname.bind fun username => (hcreate (importedUser username)).bind fun user =>
      atMost_of_keepsUsers ((steps_importLegacyKeys_users user.id identity.keys).bind
        (f := fun _ => .ret user) fun _ => trivial)
    exact h
  have hresolve (asset : AssetType) (publicKey : String) :
      (resolveProvenKey env a asset publicKey).AtMost isCreation 1 := by
    refine (Nat.zero_add 1) ▸ (atMost_of_keepsUsers
      (steps_resolveRegistered KeepsUsers.refl env asset publicKey)).bind fun found => ?_
    cases found with
    | some user => exact hone (p := .ret (some user)) trivial
    | none =>
      refine (Nat.zero_add 1) ▸ (hcheck (a.findByProvenKey asset publicKey)).bind fun found => ?_
      cases found with
      | none => exact hone (p := .ret none) trivial
      | some identity =>
        exact (himport identity).bind fun user =>
          atMost_of_keepsUsers (p := .ret (some user)) trivial
  have hfinish (challenge : WebChallenge) (asset : AssetType) (found : Option UserRow) :
      (Prog.orFail unknownWallet found >>= websiteSession env a challenge asset).AtMost
        isCreation 0 := by
    refine atMost_of_keepsUsers ((Prog.steps_orFail _ _).bind fun user => ?_)
    exact (steps_websiteSession env a challenge asset user).mono fun _ _ h => h.users
  rw [websiteVerify_eq]
  have h := (hcheck (requireWebChallenge a)).bind fun challenge =>
    (hcheck (parseAsset req.asset)).bind fun asset =>
      (hcheck (verifyAssetSignature env asset challenge.message req.signature
        req.publicKey)).bind fun _ => (hresolve asset req.publicKey).bind
          (hfinish challenge asset)
  simpa using h

/-! ### A call by itself -/

/-- Once the user is created, nothing of the call fails. -/
structure LegacyCall.Undisturbed (call : LegacyCall identity) (db : Db) : Prop where
  /-- No statement after the creation fails. -/
  served : ∀ k, call.importStatement < k → call.fails k = false
  /-- The tokens are minted. -/
  minted : (call.answers.auth.createTokenPair call.userId .web call.sessionId).isOk
  /-- The identifier of the session is new. -/
  fresh : db.sessions.get? call.sessionId = none

/-- The user was created, and nothing else. -/
structure Created (row : UserRow) (db db' : Db) : Prop where
  /-- The user. -/
  users : db.users.insert? row = some db'.users
  /-- The keys. -/
  userKeys : db'.userKeys = db.userKeys
  /-- The sessions. -/
  sessions : db'.sessions = db.sessions

section Alone

variable {fails : ℕ → Bool} {α : Type}

/-- Looking up the user of the key. -/
theorem resolveRegistered_scripted {env : WebsiteEnv} {asset : AssetType} {publicKey : String}
    {g : Option UserRow → Handler α} {w w' : World} {r : Except AppError α}
    (h : (Prog.scripted fails 0 (resolveRegistered env asset publicKey >>= g)).Outcome w r w') :
    w' = w ∨ (∃ user m, (Prog.scripted fails m (g (some user))).Outcome w r w') ∨
      (Prog.scripted fails (1 + if asset = .btc then 1 else 0) (g none)).Outcome w r w' := by
  rw [resolveRegistered, Prog.bind_bind] at h
  rcases Prog.outcome_scripted_read h with ⟨-, -, rfl⟩ | ⟨-, h⟩
  · exact .inl rfl
  cases hfound : w.db.getUserByAssetPubkey asset publicKey with
  | some user =>
    simp only [hfound] at h
    exact .inr (.inl ⟨user, _, h⟩)
  | none =>
    simp only [hfound] at h
    split_ifs at h with hasset
    · rcases Prog.outcome_scripted_read h with ⟨-, -, rfl⟩ | ⟨-, h⟩
      · exact .inl rfl
      cases hhash : w.db.getUserByPubkeyHash env.auth.pepper (env.auth.hashPublicKey publicKey) with
      | some user =>
        simp only [hhash] at h
        exact .inr (.inl ⟨user, _, h⟩)
      | none =>
        simp only [hhash] at h
        exact .inr (.inr (by rw [if_pos hasset]; exact h))
    · exact .inr (.inr (by rw [if_neg hasset]; exact h))

/-- Looking up the name. -/
theorem carriedUsername_scripted {env : WebsiteEnv} {username : Option String}
    {g : Option String → Handler α} {n : ℕ} {w w' : World} {r : Except AppError α}
    (h : (Prog.scripted fails n (carriedUsername env username >>= g)).Outcome w r w') :
    w' = w ∨ ∃ name, (Prog.scripted fails (n + if username.isSome then 1 else 0)
      (g name)).Outcome w r w' := by
  unfold carriedUsername at h
  cases username with
  | none => exact .inr ⟨none, h⟩
  | some name =>
    simp only [Option.map_some] at h
    rw [Prog.bind_bind] at h
    rcases Prog.outcome_scripted_read h with ⟨-, -, rfl⟩ | ⟨-, h⟩
    · exact .inl rfl
    cases hfound : w.db.getUserByUsername (env.lowercase name) with
    | none =>
      simp only [hfound] at h
      exact .inr ⟨_, h⟩
    | some user =>
      simp only [hfound] at h
      exact .inr ⟨_, h⟩

theorem createUser_scripted {pepper : Pepper} {id : Uuid} {new : NewUser}
    {g : UserRow → Handler α} {n : ℕ} {w w' : World} {r : Except AppError α}
    (h : (Prog.scripted fails n (createUser pepper id new >>= g)).Outcome w r w') :
    w' = w ∨ ∃ w₁, Created (new.row pepper id) w.db w₁.db ∧
      (Prog.scripted fails (n + 1) (g (new.row pepper id))).Outcome w₁ r w' := by
  rcases Prog.outcome_scripted_query h with ⟨-, -, rfl⟩ | ⟨-, h⟩
  · exact .inl rfl
  simp only at h
  cases hins : w.db.insertUser (new.row pepper id) with
  | error c =>
    simp only [hins] at h
    cases h
    exact .inl rfl
  | ok db' =>
    obtain ⟨-, users, hrow, rfl⟩ := insertUser_eq_ok_iff.mp hins
    simp only [hins] at h
    exact .inr ⟨{ w with db := { w.db with users := users } }, ⟨hrow, rfl, rfl⟩, h⟩

/-- Keys of a user who is there are stored without fail. -/
theorem importLegacyKeys_served {u : Uuid} {keys : List LegacyKey} {n : ℕ} {w w' : World}
    {r : Except AppError Unit} (hok : ∀ k, n ≤ k → fails k = false)
    (huser : (w.db.users.get? u).isSome)
    (h : (Prog.scripted fails n (importLegacyKeys u keys)).Outcome w r w') :
    r = .ok () ∧ w'.db.users = w.db.users ∧ w'.db.sessions = w.db.sessions := by
  induction keys generalizing n w with
  | nil =>
    cases h
    exact ⟨rfl, rfl, rfl⟩
  | cons k rest ih =>
    rw [importLegacyKeys] at h
    cases hasset : parseAsset k.asset with
    | error e =>
      simp only [hasset] at h
      exact ih hok huser h
    | ok asset =>
      simp only [hasset] at h
      have hnext : ∀ k, n + 1 ≤ k → fails k = false := fun k hk => hok k (by omega)
      rcases Prog.outcome_scripted_read h with ⟨hfail, -⟩ | ⟨-, h⟩
      · rw [hok n le_rfl] at hfail
        cases hfail
      cases hfound : w.db.getUserByAssetPubkey asset k.publicKey with
      | some _ =>
        simp only [hfound] at h
        exact ih hnext huser h
      | none =>
        simp only [hfound] at h
        rcases Prog.outcome_scripted_query h with ⟨hfail, -⟩ | ⟨-, h⟩
        · rw [hok (n + 1) (by omega)] at hfail
          cases hfail
        have hthere : (w.db.users.get? u).isNone = false := by simpa using huser
        simp only [Db.upsertUserKey, hthere, Bool.false_eq_true, if_false, Prog.ofExcept_ok,
          Prog.ret_bind] at h
        have hrest := ih (fun k hk => hok k (by omega)) (by exact huser) h
        exact hrest

/-- A user who is there signs in without fail. -/
theorem websiteSession_served {env : WebsiteEnv} {a : WebsiteAnswers} {challenge : WebChallenge}
    {asset : AssetType} {user : UserRow} {n : ℕ} {w w' : World} {r : Except AppError AuthResponse}
    (hok : ∀ k, n ≤ k → fails k = false) (huser : (w.db.users.get? user.id).isSome)
    (hminted : (a.auth.createTokenPair user.id .web a.auth.sessionId).isOk)
    (hfresh : w.db.sessions.get? a.auth.sessionId = none)
    (h : (Prog.scripted fails n (websiteSession env a challenge asset user)).Outcome w r w') :
    ∃ resp, r = .ok resp := by
  rw [websiteSession, issueSession] at h
  cases hpair : a.auth.createTokenPair user.id .web a.auth.sessionId with
  | error e => simp [hpair, Except.isOk, Except.toBool] at hminted
  | ok pair =>
    simp only [hpair, Prog.ofExcept_ok, Prog.ret_bind, Prog.bind_bind] at h
    rcases Prog.outcome_scripted_query h with ⟨hfail, -⟩ | ⟨-, h⟩
    · rw [hok n le_rfl] at hfail
      cases hfail
    have hthere : (w.db.users.get? user.id).isNone = false := by simpa using huser
    obtain ⟨sessions, hins⟩ := Table.exists_insert?
      (r := (⟨a.auth.sessionId, user.id, env.auth.hashRefreshToken pair.refreshToken,
        Platform.web.asStr, some "Web Browser", a.auth.issuedAt +
          days env.auth.refreshTokenExpiryDays, none⟩ : SessionRow)) hfresh
    simp only [hthere, Bool.false_eq_true, if_false, hins, Prog.ofExcept_ok, Prog.ret_bind,
      Prog.pure_eq] at h
    -- what is left is recorded or not, and the answer is the same
    obtain ⟨w₁, h⟩ := Prog.outcome_scripted_attempt (fun _ h => by cases h) h
    obtain ⟨w₂, h⟩ := Prog.outcome_scripted_attempt (fun _ h => by cases h) h
    cases h
    exact ⟨_, rfl⟩

end Alone

namespace Created

variable {row : UserRow} {db db' : Db} (h : Created row db db')

include h

theorem get? (u : Uuid) : db'.users.get? u = if u = row.id then some row else db.users.get? u :=
  Table.get?_insert? h.users u

theorem primary (u : Uuid) (asset : AssetType) : db'.primary u asset = db.primary u asset := by
  simp only [Db.primary, Db.getUserKey, h.userKeys]

variable (hexist : ∀ u asset, (db.primary u asset).isSome → (db.users.get? u).isSome)

include hexist

theorem exist : ∀ u asset, (db'.primary u asset).isSome → (db'.users.get? u).isSome := by
  intro u asset hsome
  rw [h.get?]
  split_ifs
  · rfl
  · exact hexist u asset (h.primary u asset ▸ hsome)

theorem primary_self (asset : AssetType) : db'.primary row.id asset = none := by
  by_contra hsome
  rw [h.primary] at hsome
  have hthere := hexist _ _ (Option.isSome_iff_ne_none.mpr hsome)
  simp [show db.users.get? row.id = none from (Table.insert?_eq_some_iff.mp h.users).1] at hthere

theorem importedKey (asset : AssetType) (keys : List LegacyKey) :
    importedKey db' asset keys = importedKey db asset keys := by
  have hsame (k : LegacyKey) : k.imported db' asset = k.imported db asset := by
    rw [Bool.eq_iff_iff, LegacyKey.imported_iff (h.exist hexist), LegacyKey.imported_iff hexist]
    simp only [h.primary]
  unfold SmirkBackend.importedKey
  congr 2
  exact List.filter_congr fun k _ => hsame k

end Created

/-- The rest of a call that has created its user. -/
theorem finish_outcome {env : WebsiteEnv} {call : LegacyCall identity} {w w₁ w' : World}
    {r : Except AppError AuthResponse} {row : UserRow} {challenge : WebChallenge} {n : ℕ}
    (hexist : ∀ u asset, (w.db.primary u asset).isSome → (w.db.users.get? u).isSome)
    (hcall : call.Undisturbed w.db) (hn : call.importStatement < n) (hid : row.id = call.userId)
    (hcreated : Created row w.db w₁.db)
    (h : (Prog.scripted call.fails n (importLegacyKeys row.id identity.keys >>= fun _ =>
      websiteSession env call.answers challenge call.asset row)).Outcome w₁ r w') :
    (∃ resp, r = .ok resp) ∧ (w'.db.users.get? call.userId).isSome ∧
      ∀ asset, w'.db.primary call.userId asset = importedKey w.db asset identity.keys := by
  have hok : ∀ k, n ≤ k → call.fails k = false := fun k hk => hcall.served k (by omega)
  have hthere : (w₁.db.users.get? row.id).isSome := by simp [hcreated.get?]
  rcases Prog.outcome_scripted_bind h with ⟨e, hkeys, -⟩ | ⟨_, w₂, m, hm, hkeys, h⟩
  · cases (importLegacyKeys_served hok hthere hkeys).1
  obtain ⟨-, husers₂, hsessions₂⟩ := importLegacyKeys_served hok hthere hkeys
  obtain ⟨-, -, hlast⟩ := importLegacyKeys_outcome (S := fun _ _ => True)
    (hcreated.exist hexist) (hcreated.primary_self hexist) (Prog.outcome_of_scripted hkeys) rfl
    (fun _ _ _ _ => trivial) (.refl ..)
  -- signing in leaves users and keys as they are
  have hrest : (websiteSession env call.answers challenge call.asset row).Keeps
      (fun x => x.db.users = w₂.db.users ∧ x.db.userKeys = w₂.db.userKeys) fun _ => True :=
    (steps_websiteSession env call.answers challenge call.asset row).keeps fun _ _ hstep hx =>
      ⟨hstep.users.trans hx.1, hstep.userKeys.trans hx.2⟩
  obtain ⟨husers, huserKeys⟩ := (hrest.outcome (Prog.outcome_of_scripted h) ⟨rfl, rfl⟩).1
  refine ⟨websiteSession_served (fun k hk => hok k (by omega)) (by rw [husers₂]; exact hthere)
    (hid ▸ hcall.minted) ?_ h, ?_, fun asset => ?_⟩
  · rw [hsessions₂, hcreated.sessions]
    exact hcall.fresh
  · rw [husers, husers₂, ← hid]
    exact hthere
  · have hlast := hlast (importLegacyKeys_served hok hthere hkeys).1 asset
    rw [hcreated.primary_self hexist, Option.or_none, hcreated.importedKey hexist] at hlast
    rw [← hlast, ← hid]
    simp only [Db.primary, Db.getUserKey, huserKeys]

/-- **A call that creates a user, run by itself**: if nothing disturbs it after the creation, it
succeeds, and the user holds the keys of the identity, the last one of each asset. -/
theorem verify_outcome {env : WebsiteEnv} {call : LegacyCall identity} {w w' : World}
    {r : Except AppError AuthResponse}
    (hexist : ∀ u asset, (w.db.primary u asset).isSome → (w.db.users.get? u).isSome)
    (hcall : call.Undisturbed w.db) (h : (call.program env).Outcome w r w')
    (hcreates : w'.db.users ≠ w.db.users) :
    (∃ resp, r = .ok resp) ∧ (w'.db.users.get? call.userId).isSome ∧
      ∀ asset, w'.db.primary call.userId asset = importedKey w.db asset identity.keys := by
  rw [LegacyCall.program, websiteVerify_eq, call.parsed] at h
  rcases Prog.outcome_scripted_ofExcept h with ⟨e, -, rfl⟩ | ⟨challenge, -, h⟩
  · exact (hcreates rfl).elim
  rcases Prog.outcome_scripted_ofExcept h with ⟨e, -, rfl⟩ | ⟨asset, hasset, h⟩
  · exact (hcreates rfl).elim
  obtain rfl := Except.ok.inj hasset
  rcases Prog.outcome_scripted_ofExcept h with ⟨e, -, rfl⟩ | ⟨_, -, h⟩
  · exact (hcreates rfl).elim
  -- a user who is found is not created
  have hfinish {found : Option UserRow} {m : ℕ} (h : (Prog.scripted call.fails m
      (Prog.orFail unknownWallet found >>= websiteSession env call.answers challenge
        call.asset)).Outcome w r w') : w'.db.users = w.db.users := by
    have hsteps : (Prog.orFail unknownWallet found >>= websiteSession env call.answers challenge
        call.asset).Steps KeepsUsers := (Prog.steps_orFail _ _).bind fun user =>
      (steps_websiteSession env call.answers challenge call.asset user).mono
        fun _ _ h => h.users
    have hkeeps : (Prog.orFail unknownWallet found >>= websiteSession env call.answers challenge
        call.asset).Keeps (fun x => x.db.users = w.db.users) fun _ => True :=
      hsteps.keeps fun _ _ h₁ h₂ => h₁.trans h₂
    exact (hkeeps.outcome (Prog.outcome_of_scripted h) rfl).1
  rw [resolveProvenKey, Prog.bind_bind] at h
  rcases resolveRegistered_scripted h with rfl | ⟨user, m, h⟩ | h
  · exact (hcreates rfl).elim
  · exact (hcreates (hfinish h)).elim
  rw [Prog.bind_bind] at h
  rcases Prog.outcome_scripted_ofExcept h with ⟨e, -, rfl⟩ | ⟨found, hfound, h⟩
  · exact (hcreates rfl).elim
  cases found with
  | none => exact (hcreates (hfinish h)).elim
  | some identity' =>
    obtain rfl := call.owner identity' hfound
    simp only [importLegacyIdentity, Prog.bind_bind] at h
    rcases carriedUsername_scripted h with rfl | ⟨name, h⟩
    · exact (hcreates rfl).elim
    rcases createUser_scripted h with rfl | ⟨w₁, hcreated, h⟩
    · exact (hcreates rfl).elim
    · exact finish_outcome hexist hcall (Nat.lt_succ_self _) rfl hcreated h

/-- A call that creates a user has looked up its key first, and found nobody. -/
theorem path_creation {env : WebsiteEnv} {a : WebsiteAnswers} {req : WebsiteVerifyRequest}
    {asset : AssetType} {t₁ t₂ : List (World × World)} {x : World × World}
    {r : Except AppError AuthResponse} (hasset : parseAsset req.asset = .ok asset)
    (h : (websiteVerify env a req).Path (t₁ ++ x :: t₂) r) (hx : isCreation x = true) :
    ∃ y t, t₁ = y :: t ∧ y.1.db.getUserByAssetPubkey asset req.publicKey = none := by
  rw [websiteVerify_eq] at h
  obtain ⟨challenge, -, h⟩ := Prog.path_after_ofExcept h
  obtain ⟨asset', hasset', h⟩ := Prog.path_after_ofExcept h
  obtain rfl := Except.ok.inj (hasset.symm.trans hasset')
  obtain ⟨_, -, h⟩ := Prog.path_after_ofExcept h
  have hlast (found : Option UserRow) : (Prog.orFail unknownWallet found >>=
      websiteSession env a challenge asset).AtMost isCreation 0 :=
    atMost_of_keepsUsers ((Prog.steps_orFail _ _).bind fun user =>
      (steps_websiteSession env a challenge asset user).mono fun _ _ h => h.users)
  obtain ⟨t₃, r', h⟩ := Prog.AtMost.path_before hlast h hx
  rw [resolveProvenKey, resolveRegistered, Prog.bind_bind] at h
  cases t₁ with
  | nil =>
    -- the lookup itself creates nobody
    rw [List.nil_append] at h
    cases h with
    | act h => simp [isCreation] at hx
    | fault h => simp [isCreation] at hx
  | cons y t =>
    rw [List.cons_append] at h
    cases h with
    | act h =>
      refine ⟨_, t, rfl, Option.eq_none_iff_forall_ne_some.mpr fun user hfound => ?_⟩
      simp only at hfound
      -- somebody holds the key: nothing is left to do
      simp only [hfound] at h
      generalize hrest : t ++ x :: t₃ = rest at h
      cases h
      simp at hrest
    | fault h => exact (Prog.not_path_fail h).elim

end SmirkBackend
