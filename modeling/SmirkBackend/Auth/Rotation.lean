import SmirkBackend.Auth.Statements

/-!
# Rotation of refresh tokens

Logins, refreshes, logouts, confirmed erasures and whatever else revokes or deletes sessions act on
the session table in any order, statement by statement.  A session that was revoked or deleted never
comes back, so a refresh token is exchanged at most once and the sessions that descend from a login
form a chain of which only the last one can be live.

* `not_unrevoked_of_run` : a session that is gone stays so.
* `exchange_of_issue` : a refresh issues a session only after it revoked the one of its token.
* `refresh_rotation` : rotation is safe (`RotationSafe`) in every run.
-/

namespace SmirkBackend

open Lib (Table Prog)

/-! ### Sessions -/

/-- The session is there and not revoked. -/
def Unrevoked (s : Uuid) (w : World) : Prop :=
  ∃ r, w.db.sessions.get? s = some r ∧ r.revokedAt = none

/-- Sessions are at most revoked or deleted. -/
def Retires (w w' : World) : Prop :=
  ∀ s r', w'.db.sessions.get? s = some r' → ∃ r, w.db.sessions.get? s = some r ∧
    r'.refreshTokenHash = r.refreshTokenHash ∧ r'.userId = r.userId ∧
    (r'.revokedAt = none → r.revokedAt = none)

/-- The tokens a request mints for its session. -/
def Mints (env : AuthEnv) (a : Answers) (u : Uuid) (tokenHash : String) : Prop :=
  ∃ platform pair, a.createTokenPair u platform a.sessionId = .ok pair ∧
    env.hashRefreshToken pair.refreshToken = tokenHash

/-- A session that a request opens. -/
structure IsSession (env : AuthEnv) (a : Answers) (r : SessionRow) : Prop where
  /-- Its identifier was generated. -/
  id : r.id = a.sessionId
  /-- Its token was minted. -/
  token : Mints env a r.userId r.refreshTokenHash
  /-- It is not revoked. -/
  unrevoked : r.revokedAt = none

/-- A session is opened. -/
def Opening (env : AuthEnv) (a : Answers) (w w' : World) : Prop :=
  ∃ r, IsSession env a r ∧ w'.db.sessions.rows = w.db.sessions.rows ++ [r]

/-- A session of the user is opened. -/
def OpeningFor (env : AuthEnv) (a : Answers) (u : Uuid) (w w' : World) : Prop :=
  ∃ r, IsSession env a r ∧ r.userId = u ∧ w'.db.sessions.rows = w.db.sessions.rows ++ [r]

theorem OpeningFor.opening {env : AuthEnv} {a : Answers} {u : Uuid} {w w' : World}
    (h : OpeningFor env a u w w') : Opening env a w w' := by
  obtain ⟨r, hr, -, hrows⟩ := h
  exact ⟨r, hr, hrows⟩

/-- An action that opens a session. -/
def opensSession (x : World × World) : Bool :=
  x.2.db.sessions.rows.any fun r => (x.1.db.sessions.get? r.id).isNone

theorem Retires.of_same {w w' : World} (h : w'.db.sessions = w.db.sessions) : Retires w w' := by
  intro s r' hr'
  rw [h] at hr'
  exact ⟨r', hr', rfl, rfl, id⟩

theorem Retires.refl (w : World) : Retires w w := .of_same rfl

theorem Retires.not_opens {w w' : World} (h : Retires w w') : opensSession (w, w') = false := by
  simp only [opensSession, List.any_eq_false]
  intro r hr
  obtain ⟨r₀, hr₀, -⟩ := h r.id r (Table.get?_of_mem hr)
  simp [hr₀]

theorem Retires.unrevoked {w w' : World} (h : Retires w w') {s : Uuid} (hs : Unrevoked s w') :
    Unrevoked s w := by
  obtain ⟨r', hr', hnone⟩ := hs
  obtain ⟨r, hr, -, -, hrev⟩ := h s r' hr'
  exact ⟨r, hr, hrev hnone⟩

theorem retires_updateWhere {w w' : World} (p : SessionRow → Bool) (now : Timestamp)
    (h : w'.db.sessions = w.db.sessions.updateWhere p (SessionRow.revoke now)) : Retires w w' := by
  intro s r' hr'
  rw [h, Table.get?_updateWhere] at hr'
  obtain ⟨r, hr, rfl⟩ := Option.map_eq_some_iff.mp hr'
  refine ⟨r, hr, ?_⟩
  split_ifs
  · exact ⟨rfl, rfl, fun hn => nomatch hn⟩
  · exact ⟨rfl, rfl, id⟩

theorem retires_revokeSession (now : Timestamp) (s : Uuid) (w : World) :
    Retires w { w with db := (w.db.revokeSession now s).2 } :=
  retires_updateWhere _ now rfl

theorem retires_deleteWhere {w w' : World} (p : SessionRow → Bool)
    (h : w'.db.sessions = w.db.sessions.deleteWhere p) : Retires w w' := by
  intro s r' hr'
  rw [h, Table.get?_deleteWhere] at hr'
  exact ⟨r', (Option.filter_eq_some_iff.mp hr').1, rfl, rfl, id⟩

/-- Executing an erasure is among what others may do to the sessions. -/
theorem retires_executeErasure (hash : ChainHash) (now : Timestamp) (id : Uuid) (purge : Bool)
    (w : World) : Retires w { w with db := (executeErasure hash now id purge w.db).2 } := by
  unfold executeErasure
  simp only
  split
  · exact .refl w
  · split
    · exact .refl w
    · rename_i u _ _ db₂ hdelete
      split
      · exact .refl w
      · simp only [Db.deleteUser, Option.bind_eq_bind, Option.bind_eq_some_iff, Option.pure_def,
          Option.some.injEq] at hdelete
        obtain ⟨sessions, hfire, _, -, _, -, _, -, _, -, _, -, _, -, _, -, _, -, rfl⟩ := hdelete
        obtain rfl := Option.some.inj hfire
        exact retires_deleteWhere (SessionRow.userFk.refers u) rfl

/-! ### What a request does to the sessions -/

/-- An effect that opens no session. -/
def Effect.OpensNone (eff : Effect) : Prop := ∀ r, eff ≠ .session r

theorem retires_of_does {w w' : World} (h : Does Effect.OpensNone w w') : Retires w w' := by
  obtain ⟨eff, hnone, hw⟩ := h
  cases eff with
  | session r => exact (hnone r rfl).elim
  | update u f => exact .of_same hw.2.2
  | create r => exact .of_same hw.2.2
  | key u => exact .of_same hw.2.2
  | other => exact .of_same hw.2.2

/-- A part of a handler that opens no session. -/
def Quiet {α : Type} (p : Handler α) : Prop := p.Steps Retires

/-- A part of a handler that opens at most one session, the one of the request. -/
structure OpensOnce {α : Type} (env : AuthEnv) (a : Answers) (p : Handler α) : Prop where
  /-- What each statement does. -/
  steps : p.Steps fun w w' => Retires w w' ∨ Opening env a w w'
  /-- At most one opens a session. -/
  once : p.AtMost opensSession 1

section Parts

variable {α β : Type} {env : AuthEnv} {a : Answers}

theorem Quiet.of_does {p : Handler α} (h : p.Steps (Does Effect.OpensNone)) : Quiet p :=
  h.mono fun _ _ => retires_of_does

theorem Quiet.atMost {p : Handler α} (h : Quiet p) : p.AtMost opensSession 0 :=
  Prog.atMost_of_steps (fun w => (Retires.refl w).not_opens) (h.mono fun _ _ h => h.not_opens)

theorem Quiet.opensOnce {p : Handler α} (h : Quiet p) : OpensOnce env a p where
  steps := h.mono fun _ _ => .inl
  once t r ht := (h.atMost t r ht).trans (Nat.zero_le 1)

theorem Quiet.then {p : Handler α} {f : α → Handler β} (hp : Quiet p)
    (hf : ∀ x, OpensOnce env a (f x)) : OpensOnce env a (p >>= f) where
  steps := (hp.mono fun _ _ => .inl).bind fun x => (hf x).steps
  once := by
    have h := hp.atMost.bind fun x => (hf x).once
    rwa [Nat.zero_add] at h

theorem OpensOnce.then {p : Handler α} {f : α → Handler β} (hp : OpensOnce env a p)
    (hf : ∀ x, Quiet (f x)) : OpensOnce env a (p >>= f) where
  steps := hp.steps.bind fun x => (hf x).mono fun _ _ => .inl
  once := hp.once.bind fun x => (hf x).atMost

theorem Quiet.ret (x : α) : Quiet (.ret x) := trivial

theorem Quiet.ofExcept (x : Except AppError α) : Quiet (.ofExcept x) := Prog.steps_ofExcept x

theorem Quiet.select (f : Db → α) : Quiet (select f) := Prog.steps_read Retires.refl

theorem steps_issueSession (env : AuthEnv) (a : Answers) (u : Uuid) (platform : Platform)
    (deviceInfo : String) : (issueSession env a u platform deviceInfo).Steps
      fun w w' => Retires w w' ∨ OpeningFor env a u w w' := by
  unfold issueSession
  cases hpair : a.createTokenPair u platform a.sessionId with
  | error e => trivial
  | ok pair =>
    simp only [Prog.ofExcept_ok, Prog.ret_bind]
    refine Prog.Steps.bind (Prog.steps_query fun w => ?_) fun _ => trivial
    simp only
    split_ifs
    · exact .inl (.refl w)
    · split
      · rename_i sessions h
        exact .inr ⟨_, ⟨rfl, ⟨platform, pair, hpair, rfl⟩, rfl⟩, rfl,
          (Table.insert?_eq_some_iff.mp h).2⟩
      · exact .inl (.refl w)

theorem opensOnce_issueSession (env : AuthEnv) (a : Answers) (u : Uuid) (platform : Platform)
    (deviceInfo : String) : OpensOnce env a (issueSession env a u platform deviceInfo) where
  steps := (steps_issueSession env a u platform deviceInfo).mono fun _ _ h =>
    h.imp_right OpeningFor.opening
  once := by
    have hmint := (Quiet.ofExcept (a.createTokenPair u platform a.sessionId)).atMost
    have hcreate (r : SessionRow) : (createSession r).AtMost opensSession 1 :=
      Prog.atMost_query opensSession
    exact hmint.bind fun pair => (hcreate _).bind fun _ => (Quiet.ret pair).atMost

theorem quiet_recordLoginEvent (r : LoginEventRow) : Quiet (recordLoginEvent r) :=
  .of_does (Does.steps_recordLoginEvent nofun r)

theorem opensOnce_signIn (env : AuthEnv) (a : Answers) (user : UserRow) (platform : Platform)
    (deviceInfo asset : String) (isNew : Bool) :
    OpensOnce env a (signIn env a user platform deviceInfo asset isNew) :=
  (opensOnce_issueSession env a user.id platform deviceInfo).then fun _ =>
    (quiet_recordLoginEvent _).bind fun _ => Quiet.ret _

theorem opensOnce_repoint (env : AuthEnv) (a : Answers) (req : ExtensionRegisterRequest)
    (pubkeyHash : String) (target : UserRow) :
    OpensOnce env a (repoint env a req pubkeyHash target) := by
  refine (Quiet.ofExcept _).then fun _ => ?_
  refine (Quiet.of_does (Does.steps_updatePubkeyHash nofun nofun)).then fun _ => ?_
  refine (Quiet.of_does (Does.steps_upsertAllKeys nofun nofun req.keys)).then fun _ => ?_
  exact opensOnce_signIn ..

theorem opensOnce_getOrRegister (env : AuthEnv) (a : Answers) (req : ExtensionRegisterRequest)
    (pubkeyHash : String) (existing : Option UserRow) :
    OpensOnce env a (getOrRegister env a req pubkeyHash existing) := by
  refine (Quiet.ofExcept _).then fun _ => ?_
  refine (Quiet.of_does (Does.steps_fingerprintForRow nofun _ _ _)).then fun fingerprint => ?_
  split_ifs
  · refine (Quiet.of_does (Does.steps_getOrCreateUserByPubkeyHash nofun nofun nofun)).then
      fun user => ?_
    refine (Quiet.of_does (Does.steps_upsertAllKeys nofun nofun req.keys)).then fun _ => ?_
    exact opensOnce_signIn ..
  · refine (Quiet.of_does (Does.steps_registerNew nofun nofun)).then fun user => ?_
    exact opensOnce_signIn ..

theorem opensOnce_extensionRegister (env : AuthEnv) (a : Answers)
    (req : ExtensionRegisterRequest) : OpensOnce env a (extensionRegister env a req) := by
  unfold extensionRegister
  cases btcKey req.keys with
  | none => exact (show Quiet (.fail _) from trivial).opensOnce
  | some key =>
    refine (Quiet.ofExcept _).then fun _ => (Quiet.ofExcept _).then fun _ => ?_
    refine (Quiet.ofExcept _).then fun _ => (Quiet.select _).then fun existing => ?_
    simp only
    split_ifs
    · exact opensOnce_getOrRegister ..
    · refine (Quiet.of_does (Does.steps_repointTarget nofun _ _ _ _)).then fun target => ?_
      cases target with
      | some target => exact opensOnce_repoint ..
      | none => exact opensOnce_getOrRegister ..

theorem opensOnce_nostrLogin (env : AuthEnv) (a : Answers) (authorization : Option String) :
    OpensOnce env a (nostrLogin env a authorization) := by
  unfold nostrLogin
  cases authorization with
  | none => exact (show Quiet (.fail _) from trivial).opensOnce
  | some auth =>
    refine (Quiet.ofExcept _).then fun _ => (Quiet.ofExcept _).then fun _ => ?_
    refine (Quiet.select _).then fun found => ?_
    cases found with
    | none => exact (show Quiet (.fail _) from trivial).opensOnce
    | some user => exact opensOnce_signIn ..

theorem opensOnce_nostrRegister (env : AuthEnv) (a : Answers) (req : NostrRegisterRequest) :
    OpensOnce env a (nostrRegister env a req) := by
  refine (Quiet.ofExcept _).then fun _ => ?_
  refine (Quiet.of_does (Does.steps_requireChallenge nofun _ _)).then fun _ => ?_
  refine (Quiet.ofExcept _).then fun pubkey => (Quiet.select _).then fun existing => ?_
  refine (Quiet.ofExcept _).then fun _ => ?_
  split_ifs
  · refine (Quiet.of_does (Does.steps_getOrCreateUserByNostrPubkey nofun nofun nofun)).then
      fun user => ?_
    refine (Quiet.of_does (Does.steps_upsertAllKeys nofun nofun req.keys)).then fun _ => ?_
    exact opensOnce_signIn ..
  · have hreject : Quiet (rejectKnownFingerprint env.pepper req.seedFingerprint) :=
      steps_rejectKnownFingerprint_of_refl Retires.refl _ _
    refine hreject.then fun _ => ?_
    refine (Quiet.of_does (Does.steps_registerNew nofun nofun)).then fun user => ?_
    exact opensOnce_signIn ..

theorem opensOnce_websiteVerify (env : WebsiteEnv) (a : WebsiteAnswers)
    (req : WebsiteVerifyRequest) : OpensOnce env.auth a.auth (websiteVerify env a req) := by
  refine (Quiet.ofExcept _).then fun challenge => (Quiet.ofExcept _).then fun asset => ?_
  refine (Quiet.ofExcept _).then fun _ => ?_
  refine (Quiet.of_does (Does.steps_resolveProvenKey nofun (fun _ _ h => nomatch h)
    (fun _ _ h => nomatch h) _ _)).then fun found => ?_
  cases found with
  | none => exact (show Quiet (.fail _) from trivial).opensOnce
  | some user =>
    refine (opensOnce_issueSession env.auth a.auth user.id .web "Web Browser").then fun pair => ?_
    refine (quiet_recordLoginEvent _).bind fun _ => ?_
    exact (Prog.steps_attempt fun w => Retires.refl w).bind fun _ => Quiet.ret _

theorem quiet_revokeSession (s : Uuid) : Quiet (revokeSession s) :=
  Prog.steps_query fun w => retires_revokeSession w.now s w

theorem quiet_sessionOfToken (env : AuthEnv) (token : String) : Quiet (sessionOfToken env token) :=
  Prog.steps_read Retires.refl

theorem quiet_updateUserLastSeen : Quiet updateUserLastSeen :=
  Prog.steps_query fun w => Retires.refl w

theorem opensOnce_refreshToken (env : AuthEnv) (a : Answers)
    (verified : Except AppError (Uuid × Uuid)) (token : String) :
    OpensOnce env a (refreshToken env a verified token) := by
  refine (Quiet.ofExcept _).then fun _ => (quiet_sessionOfToken env token).then fun found => ?_
  cases found with
  | none => exact (show Quiet (.fail _) from trivial).opensOnce
  | some session =>
    simp only
    split_ifs
    · exact (show Quiet (.fail _) from trivial).opensOnce
    · refine (Quiet.select _).then fun found => ?_
      cases found with
      | none => exact (show Quiet (.fail _) from trivial).opensOnce
      | some user =>
        refine (Quiet.ofExcept _).then fun platform => ?_
        refine (quiet_revokeSession _).then fun revoked => ?_
        split_ifs
        · refine (opensOnce_issueSession ..).then fun pair => ?_
          exact quiet_updateUserLastSeen.bind fun _ => Quiet.ret _
        · exact (show Quiet (.fail _) from trivial).opensOnce

theorem quiet_logout (env : AuthEnv) (token : String) : Quiet (logout env token) := by
  refine (quiet_sessionOfToken env token).bind fun found => ?_
  cases found with
  | none => trivial
  | some session => exact Prog.steps_attempt fun w => retires_revokeSession w.now session.id w

theorem quiet_confirmErasure (env : ErasureEnv) (a : ErasureAnswers) (id : Uuid)
    (body : ProofRequest) : Quiet (confirmErasure env a id body) := by
  refine (Quiet.ofExcept _).bind fun _ => ?_
  refine (Quiet.of_does (Does.steps_prove nofun _ _ _ _ _ _)).bind fun proof => ?_
  obtain ⟨pubkey, user⟩ := proof
  cases user with
  | none => trivial
  | some user =>
    refine (Quiet.of_does (Does.steps_confirmErasureRequest nofun _ _ _ _)).bind fun found => ?_
    cases found with
    | none => trivial
    | some req =>
      refine (Prog.steps_attempt fun w => retires_updateWhere _ w.now rfl).bind fun _ => ?_
      refine (Quiet.of_does (Does.steps_recordErasureAudit nofun _ _ _)).bind fun _ => ?_
      exact Quiet.ret _

end Parts

namespace SessionRequest

variable {env : SessionEnv}

theorem eq_refresh {q : SessionRequest} {token : String} (h : q.presentedToken = some token) :
    ∃ a verified, q = .refresh a verified token := by
  cases q with
  | refresh a verified token' =>
    obtain rfl := Option.some.inj h
    exact ⟨a, verified, rfl⟩
  | _ => cases h

/-- What a statement of a request may do to the sessions. -/
def Touches (env : SessionEnv) (q : SessionRequest) (w w' : World) : Prop :=
  Retires w w' ∨ ∃ a, q.answers = some a ∧ Opening env.auth a w w'

theorem opensOnce_program {q : SessionRequest} {a : Answers} (ha : q.answers = some a) :
    OpensOnce env.auth a (q.program env) := by
  cases q with
  | extension a' req =>
    obtain rfl := Option.some.inj ha
    exact (opensOnce_extensionRegister env.auth a' req).then fun _ => Quiet.ret _
  | nostrLogin a' authorization =>
    obtain rfl := Option.some.inj ha
    exact (opensOnce_nostrLogin env.auth a' authorization).then fun _ => Quiet.ret _
  | nostrRegister a' req =>
    obtain rfl := Option.some.inj ha
    exact (opensOnce_nostrRegister env.auth a' req).then fun _ => Quiet.ret _
  | website a' req =>
    obtain rfl := Option.some.inj ha
    exact (opensOnce_websiteVerify env.website a' req).then fun _ => Quiet.ret _
  | refresh a' verified token =>
    obtain rfl := Option.some.inj ha
    exact (opensOnce_refreshToken env.auth a' verified token).then fun _ => Quiet.ret _
  | logout token => cases ha
  | confirmErasure a' id body => cases ha

theorem quiet_program {q : SessionRequest} (ha : q.answers = none) : Quiet (q.program env) := by
  cases q with
  | logout token => exact (quiet_logout env.auth token).bind fun _ => Quiet.ret _
  | confirmErasure a id body =>
    exact (quiet_confirmErasure env.erasure a id body).bind fun _ => Quiet.ret _
  | extension _ _ => cases ha
  | nostrLogin _ _ => cases ha
  | nostrRegister _ _ => cases ha
  | website _ _ => cases ha
  | refresh _ _ _ => cases ha

theorem steps_touches (q : SessionRequest) : (q.program env).Steps (q.Touches env) := by
  cases ha : q.answers with
  | none => exact (quiet_program ha).mono fun _ _ => .inl
  | some a => exact (opensOnce_program ha).steps.mono fun _ _ h => h.imp_right fun h => ⟨a, ha, h⟩

theorem atMost_opensSession (q : SessionRequest) : (q.program env).AtMost opensSession 1 := by
  cases ha : q.answers with
  | none => exact fun t r ht => ((quiet_program ha).atMost t r ht).trans (Nat.zero_le 1)
  | some a => exact (opensOnce_program ha).once

end SessionRequest

/-! ### What a refresh has done when it issues a session -/

theorem getSessionByTokenHash_eq_some {db : Db} {now : Timestamp} {tokenHash : String}
    {r : SessionRow} (h : db.getSessionByTokenHash now tokenHash = some r) :
    db.sessions.get? r.id = some r ∧ r.refreshTokenHash = tokenHash ∧ r.revokedAt = none := by
  have hrow := List.find?_some h
  simp only [Bool.and_eq_true, decide_eq_true_eq, Option.isNone_iff_eq_none] at hrow
  exact ⟨Table.get?_of_mem (List.mem_of_find?_eq_some h), hrow.1.1, hrow.1.2⟩

theorem revokeSession_spec (now : Timestamp) (s : Uuid) (w : World) :
    ((w.db.revokeSession now s).1 = true → Unrevoked s w) ∧
      ¬ Unrevoked s { w with db := (w.db.revokeSession now s).2 } := by
  constructor
  · intro h
    simp only [Db.revokeSession, Table.updateOne, Option.isSome_map, Option.isSome_iff_exists,
      Option.filter_eq_some_iff] at h
    obtain ⟨r, hr, hnone⟩ := h
    exact ⟨r, hr, by simpa using hnone⟩
  · rintro ⟨r', hr', hnone⟩
    change (w.db.sessions.updateOne s _ _).2.get? s = some r' at hr'
    rw [Table.get?_updateOne_self] at hr'
    obtain ⟨r, -, rfl⟩ := Option.map_eq_some_iff.mp hr'
    split_ifs at hnone with hrev
    · cases hnone
    · exact hrev (by simp [hnone])

/-- The session of the token was found, with its owner, and then revoked. -/
structure Exchange (env : AuthEnv) (token : String) (p owner : Uuid) (t : List (World × World)) :
    Prop where
  /-- The session of the token. -/
  found : ∃ x ∈ t, ∃ r, x.1.db.sessions.get? p = some r ∧
    r.refreshTokenHash = env.hashRefreshToken token ∧ r.userId = owner
  /-- Its revocation. -/
  revoked : ∃ x ∈ t, Unrevoked p x.1 ∧ ¬ Unrevoked p x.2

/-- A refresh opens a session only after it found the session of its token and revoked it, and for
the owner of that session. -/
theorem path_refreshToken {env : AuthEnv} {a : Answers} {verified : Except AppError (Uuid × Uuid)}
    {token : String} {t₁ t₂ : List (World × World)} {r : Except AppError AuthResponse}
    {x : World × World} (h : (refreshToken env a verified token).Path (t₁ ++ x :: t₂) r)
    (hx : opensSession x = true) :
    ∃ p owner, Exchange env token p owner t₁ ∧ OpeningFor env a owner x.1 x.2 := by
  obtain ⟨_, t₁, v, rfl, -, h⟩ := (Quiet.ofExcept verified).atMost.path_after h hx
  obtain ⟨tz, t₁, found, rfl, hfound, h⟩ := (quiet_sessionOfToken env token).atMost.path_after h hx
  obtain ⟨z, rfl, hz | hz⟩ := Prog.path_read hfound
  swap
  · cases hz
  cases found with
  | none => exact (Prog.not_path_fail h).elim
  | some session =>
    simp only at h
    split_ifs at h with howner
    · exact (Prog.not_path_fail h).elim
    obtain ⟨tu, t₁, found, rfl, huser, h⟩ :=
      (Quiet.select fun db => db.users.get? v.1).atMost.path_after h hx
    obtain ⟨w, rfl, hw | hw⟩ := Prog.path_read huser
    swap
    · cases hw
    cases found with
    | none => exact (Prog.not_path_fail h).elim
    | some user =>
      obtain ⟨_, t₁, platform, rfl, -, h⟩ := (Quiet.ofExcept _).atMost.path_after h hx
      obtain ⟨ty, t₁, revoked, rfl, hrev, h⟩ := (quiet_revokeSession _).atMost.path_after h hx
      obtain ⟨y, ⟨rfl, hres⟩ | ⟨-, hres⟩⟩ := Prog.path_query hrev
      swap
      · cases hres
      cases revoked with
      | false => exact (Prog.not_path_fail h).elim
      | true =>
        have hsession := getSessionByTokenHash_eq_some (Except.ok.inj hz).symm
        have hspec := revokeSession_spec y.now session.id y
        have hid : user.id = session.userId :=
          (Table.key_of_get? (Except.ok.inj hw).symm).trans (not_not.mp howner).symm
        refine ⟨session.id, session.userId, ⟨⟨(z, z), by simp, session, hsession.1, hsession.2.1, rfl⟩,
          (y, { y with db := (y.db.revokeSession y.now session.id).2 }), by simp,
          hspec.1 (Except.ok.inj hres).symm, hspec.2⟩, ?_⟩
        rw [if_pos rfl] at h
        have hkind : Retires x.1 x.2 ∨ OpeningFor env a user.id x.1 x.2 := by
          refine Prog.path_steps (R := fun w w' => Retires w w' ∨ OpeningFor env a user.id w w')
            (fun w => .inl (.refl w)) ?_ h x (by simp)
          refine (steps_issueSession ..).bind fun pair => ?_
          exact (quiet_updateUserLastSeen.mono fun _ _ => .inl).bind fun _ => trivial
        rcases hkind with hq | ho
        · rw [hq.not_opens] at hx
          cases hx
        · rwa [hid] at ho

/-! ### Runs -/

section Runs

variable {ι : Type} (env : SessionEnv) (reqs : ι → SessionRequest) (w₀ : World)

/-- The hash is the one of a refresh token of the session, stored at the start or minted by a
request. -/
def TokenHash (tokenHash : String) (s : Uuid) : Prop :=
  (∃ r, w₀.db.sessions.get? s = some r ∧ r.refreshTokenHash = tokenHash) ∨
    ∃ i a u, (reqs i).answers = some a ∧ a.sessionId = s ∧ Mints env.auth a u tokenHash

/-- Generated identifiers do not repeat, and neither do the hashes of minted tokens: a refresh token
carries the identifier of its session. -/
structure Distinct : Prop where
  /-- A generated identifier is not one of the sessions at the start. -/
  fresh : ∀ i a, (reqs i).answers = some a → w₀.db.sessions.get? a.sessionId = none
  /-- Two requests generate different identifiers. -/
  ids : ∀ i j a b, (reqs i).answers = some a → (reqs j).answers = some b →
    a.sessionId = b.sessionId → i = j
  /-- The tokens of two sessions have different hashes. -/
  tokens : ∀ tokenHash s s', TokenHash env reqs w₀ tokenHash s →
    TokenHash env reqs w₀ tokenHash s' → s = s'

/-- The event opens the session. -/
def Opened (s : Uuid) (e : Prog.Event ι World) : Prop :=
  e.pre.db.sessions.get? s = none ∧ (e.post.db.sessions.get? s).isSome

/-- The event revokes or deletes the session. -/
def Retired (s : Uuid) (e : Prog.Event ι World) : Prop := Unrevoked s e.pre ∧ ¬ Unrevoked s e.post

/-- The request opens the session. -/
def Issues (es : List (Prog.Event ι World)) (i : ι) (s : Uuid) : Prop :=
  ∃ e ∈ es, e.who = some i ∧ Opened s e

/-- The session `s` was issued for the refresh token of the session `p`. -/
def Successor (es : List (Prog.Event ι World)) (p s : Uuid) : Prop :=
  ∃ i token, (reqs i).presentedToken = some token ∧
    TokenHash env reqs w₀ (env.auth.hashRefreshToken token) p ∧ Issues es i s

/-- The session descends from the login by any number of refreshes. -/
def Descends (es : List (Prog.Event ι World)) : Uuid → Uuid → Prop :=
  Relation.ReflTransGen (Successor env reqs w₀ es)

/-- The session was revoked at the start, or has been revoked or deleted since. -/
def Ended (es : List (Prog.Event ι World)) (s : Uuid) : Prop :=
  (∃ r, w₀.db.sessions.get? s = some r ∧ r.revokedAt ≠ none) ∨ ∃ e ∈ es, Retired s e

/-- The session has been there. -/
def Existed (es : List (Prog.Event ι World)) (s : Uuid) : Prop :=
  (w₀.db.sessions.get? s).isSome ∨ ∃ e ∈ es, Opened s e

variable {env reqs w₀} [DecidableEq ι] {es : List (Prog.Event ι World)}
  {c : World × (ι → Handler SessionAnswer)}
  (hrun : (Prog.pool Retires).Run (w₀, fun i => (reqs i).program env) es c)

include hrun

theorem touches_of_run {e : Prog.Event ι World} (he : e ∈ es) :
    Retires e.pre e.post ∨ ∃ i a, e.who = some i ∧ (reqs i).answers = some a ∧
      Opening env.auth a e.pre e.post := by
  obtain ⟨henv, hreq⟩ := Prog.event_of_run (R := fun i => (reqs i).Touches env)
    (fun i w => .inl (.refl w)) hrun (fun i => (reqs i).steps_touches) e he
  cases hwho : e.who with
  | none => exact .inl (henv hwho)
  | some i => exact (hreq i hwho).imp_right fun ⟨a, ha, hopen⟩ => ⟨i, a, rfl, ha, hopen⟩

theorem opened_of_run {e : Prog.Event ι World} (he : e ∈ es) {s : Uuid} {r : SessionRow}
    (hpre : e.pre.db.sessions.get? s = none) (hpost : e.post.db.sessions.get? s = some r) :
    ∃ i a, e.who = some i ∧ (reqs i).answers = some a ∧ a.sessionId = s ∧
      IsSession env.auth a r := by
  rcases touches_of_run hrun he with hret | ⟨i, a, hwho, ha, r', hr', hrows⟩
  · obtain ⟨r₀, hr₀, -⟩ := hret s r hpost
    simp [hpre] at hr₀
  · have hmem := Table.mem_of_get? hpost
    rw [hrows, List.mem_append, List.mem_singleton] at hmem
    have hkey : r.id = s := Table.key_of_get? hpost
    rcases hmem with hold | rfl
    · exact (Table.get?_eq_none_iff.mp hpre r hold hkey).elim
    · exact ⟨i, a, hwho, ha, hr'.id.symm.trans hkey, hr'⟩

theorem opened_of_unrevoked {e : Prog.Event ι World} (he : e ∈ es) {s : Uuid}
    (hpre : ¬ Unrevoked s e.pre) (hpost : Unrevoked s e.post) : Opened s e := by
  rcases touches_of_run hrun he with hret | ⟨i, a, hwho, ha, r', hr', hrows⟩
  · exact (hpre (hret.unrevoked hpost)).elim
  · obtain ⟨r, hr, hnone⟩ := hpost
    have hins := Table.insert?_of_rows_append hrows
    rw [Table.get?_insert? hins] at hr
    split_ifs at hr with hs
    · subst hs
      have hfree := (Table.insert?_eq_some_iff.mp hins).1
      refine ⟨hfree, ?_⟩
      rw [Table.get?_insert? hins, if_pos rfl]
      rfl
    · exact (hpre ⟨r, hr, hnone⟩).elim

/-- Every session has a token that was stored at the start or minted. -/
theorem tokenHash_of_run :
    (∀ e ∈ es, ∀ s r, e.pre.db.sessions.get? s = some r →
      TokenHash env reqs w₀ r.refreshTokenHash s) ∧
    ∀ s r, c.1.db.sessions.get? s = some r → TokenHash env reqs w₀ r.refreshTokenHash s := by
  refine Prog.invariant_of_run (I := fun w => ∀ s r, w.db.sessions.get? s = some r →
    TokenHash env reqs w₀ r.refreshTokenHash s) hrun (fun es₁ e es₂ hes _ hI s r hr => ?_)
    fun s r hr => .inl ⟨r, hr, rfl⟩
  have he : e ∈ es := by simp [hes]
  cases hpre : e.pre.db.sessions.get? s with
  | none =>
    obtain ⟨i, a, -, ha, hs, hr'⟩ := opened_of_run hrun he hpre hr
    exact .inr ⟨i, a, r.userId, ha, hs, hr'.token⟩
  | some r₀ =>
    rcases touches_of_run hrun he with hret | ⟨i, a, -, -, r', -, hrows⟩
    · obtain ⟨r₁, hr₁, hhash, -⟩ := hret s r hr
      rw [hhash]
      exact hI s r₁ hr₁
    · -- the opened session is another one
      have hins := Table.insert?_of_rows_append hrows
      rw [Table.get?_insert? hins] at hr
      split_ifs at hr with hs
      · subst hs
        have hfree := (Table.insert?_eq_some_iff.mp hins).1
        simp [hfree] at hpre
      · exact hI s r hr

omit [DecidableEq ι] hrun in
theorem Opened.opensSession {e : Prog.Event ι World} {s : Uuid} (h : Opened s e) :
    opensSession (e.pre, e.post) = true := by
  obtain ⟨r, hr⟩ := Option.isSome_iff_exists.mp h.2
  refine List.any_eq_true.mpr ⟨r, Table.mem_of_get? hr, ?_⟩
  have hkey : r.id = s := Table.key_of_get? hr
  simp [hkey, h.1]

/-- A session that has been there is not opened. -/
theorem not_opened_again (hdist : Distinct env reqs w₀) {es₁ es₂ : List (Prog.Event ι World)}
    (hes : es = es₁ ++ es₂) {s : Uuid} (hs : Existed w₀ es₁ s) : ∀ e ∈ es₂, ¬ Opened s e := by
  intro e he hopened
  have hopens {e : Prog.Event ι World} (he : e ∈ es) (h : Opened s e) :
      ∃ i a, e.who = some i ∧ (reqs i).answers = some a ∧ a.sessionId = s := by
    obtain ⟨r, hr⟩ := Option.isSome_iff_exists.mp h.2
    obtain ⟨i, a, hwho, ha, hid, -⟩ := opened_of_run hrun he h.1 hr
    exact ⟨i, a, hwho, ha, hid⟩
  obtain ⟨i, a, hwho, ha, hid⟩ := hopens (by simp [hes, he]) hopened
  rcases hs with hstart | ⟨e₀, he₀, hopened₀⟩
  · have hfree := hdist.fresh i a ha
    rw [hid] at hfree
    simp [hfree] at hstart
  · -- both openings are of the one request that generated the identifier
    obtain ⟨j, b, hwho₀, hb, hid₀⟩ := hopens (by simp [hes, he₀]) hopened₀
    obtain rfl := hdist.ids i j a b ha hb (hid.trans hid₀.symm)
    have hcount := Prog.countP_of_run hrun (i := i) (reqs i).atMost_opensSession
    rw [hes, List.countP_append] at hcount
    have h₁ : 0 < es₁.countP fun e => e.who = some i && opensSession (e.pre, e.post) :=
      List.countP_pos_iff.mpr ⟨e₀, he₀, by simp [hwho₀, hopened₀.opensSession]⟩
    have h₂ : 0 < es₂.countP fun e => e.who = some i && opensSession (e.pre, e.post) :=
      List.countP_pos_iff.mpr ⟨e, he, by simp [hwho, hopened.opensSession]⟩
    omega

omit [DecidableEq ι] hrun in
theorem Existed.append {es₁ : List (Prog.Event ι World)} {s : Uuid} (h : Existed w₀ es₁ s)
    (es₂ : List (Prog.Event ι World)) : Existed w₀ (es₁ ++ es₂) s :=
  h.imp_right fun ⟨e, he, hopened⟩ => ⟨e, by simp [he], hopened⟩

theorem existed_of_isSome {s : Uuid} (h : (c.1.db.sessions.get? s).isSome) : Existed w₀ es s := by
  rcases Prog.appeared_of_run (b := fun w => (w.db.sessions.get? s).isSome) hrun h with
    ⟨hstart, -⟩ | ⟨es₁, e, es₂, rfl, hpre, hpost, -⟩
  · exact .inl hstart
  · exact .inr ⟨e, by simp, by simpa using hpre, hpost⟩

/-- A session that has been there and is revoked or gone stays so. -/
theorem not_unrevoked_of_run (hdist : Distinct env reqs w₀)
    {es₁ es₂ : List (Prog.Event ι World)} (hes : es = es₁ ++ es₂)
    {c₁ : World × (ι → Handler SessionAnswer)} (hrest : (Prog.pool Retires).Run c₁ es₂ c)
    {s : Uuid} (hs : Existed w₀ es₁ s) (hgone : ¬ Unrevoked s c₁.1) : ¬ Unrevoked s c.1 := by
  intro hback
  rcases Prog.appeared_of_run hrest hback with ⟨hstart, -⟩ | ⟨es₃, e, es₄, rfl, hpre, hpost, -⟩
  · exact hgone hstart
  · have he : e ∈ es := by simp [hes]
    exact not_opened_again hrun hdist hes hs e (by simp) (opened_of_unrevoked hrun he hpre hpost)

theorem not_unrevoked_of_ended (hdist : Distinct env reqs w₀) {s : Uuid} (hs : Ended w₀ es s) :
    ¬ Unrevoked s c.1 := by
  rcases hs with ⟨r, hr, hrev⟩ | ⟨e, he, hbefore, hafter⟩
  · refine not_unrevoked_of_run hrun hdist (List.nil_append es).symm hrun (.inl (by simp [hr])) ?_
    rintro ⟨r', hr', hnone⟩
    obtain rfl := Option.some.inj (hr.symm.trans hr')
    exact hrev hnone
  · obtain ⟨es₁, es₂, rfl⟩ := List.append_of_mem he
    obtain ⟨c₁, c₂, hrun₁, hc₁, hc₂, hrun₂⟩ := Prog.run_at hrun
    have hexisted : Existed w₀ es₁ s := by
      refine existed_of_isSome hrun₁ ?_
      obtain ⟨r, hr, -⟩ := hbefore
      simp [hc₁, hr]
    refine not_unrevoked_of_run hrun hdist (List.append_cons es₁ e es₂) hrun₂
      (hexisted.append [e]) ?_
    rwa [hc₂]

/-- A session is revoked or deleted by one event. -/
theorem retired_unique (hdist : Distinct env reqs w₀) {s : Uuid} {e e' : Prog.Event ι World}
    (he : e ∈ es) (he' : e' ∈ es) (hret : Retired s e) (hret' : Retired s e') : e = e' := by
  -- of two such events the later one would find the session gone
  have hlater {es₁ es₂ : List (Prog.Event ι World)} {f f' : Prog.Event ι World}
      (hes : es = es₁ ++ f' :: es₂) (hf : f ∈ es₁) (hret : Retired s f) (hret' : Retired s f') :
      False := by
    rw [hes] at hrun
    obtain ⟨c₁, c₂, hrun₁, hc₁, -, -⟩ := Prog.run_at hrun
    have hgone := not_unrevoked_of_ended hrun₁ hdist (.inr ⟨f, hf, hret⟩)
    rw [hc₁] at hgone
    exact hgone hret'.1
  obtain ⟨es₁, es₂, hes⟩ := List.append_of_mem he
  have hmem := he'
  rw [hes, List.mem_append, List.mem_cons] at hmem
  rcases hmem with h₁ | rfl | h₂
  · exact (hlater hes h₁ hret' hret).elim
  · rfl
  · obtain ⟨es₃, es₄, rfl⟩ := List.append_of_mem h₂
    rw [← List.cons_append, ← List.append_assoc] at hes
    exact (hlater hes (by simp) hret hret').elim

omit [DecidableEq ι] hrun in
theorem path_signedIn {p : Handler AuthResponse} {t : List (World × World)}
    {r : Except AppError SessionAnswer} (h : (SessionRequest.signedIn p).Path t r) :
    ∃ r', p.Path t r' := by
  rcases Prog.path_bind h with ⟨e, hp, -⟩ | ⟨t₁, t₂, x, rfl, hp, hret⟩
  · exact ⟨_, hp⟩
  · cases hret
    exact ⟨_, by simpa using hp⟩

/-- A refresh issues a session only after it found the session of its token and revoked it, and for
the owner of that session. -/
theorem exchange_of_issue {es₁ es₂ : List (Prog.Event ι World)} {e : Prog.Event ι World}
    (hes : es = es₁ ++ e :: es₂) {i : ι} {token : String}
    (hi : (reqs i).presentedToken = some token) (hwho : e.who = some i) {s : Uuid}
    (hs : Opened s e) :
    ∃ p owner, (∃ e' ∈ es₁, ∃ r, e'.pre.db.sessions.get? p = some r ∧
        r.refreshTokenHash = env.auth.hashRefreshToken token ∧ r.userId = owner) ∧
      (∃ e' ∈ es₁, e'.who = some i ∧ Retired p e') ∧
      ∃ r, e.post.db.sessions.get? s = some r ∧ r.userId = owner := by
  obtain ⟨a, verified, hreq⟩ := SessionRequest.eq_refresh hi
  obtain ⟨t, r, hrest⟩ := Prog.exists_path c.1 (c.2 i)
  have hpath := Prog.path_of_run hrun i hrest
  subst hes
  simp only [hreq, Prog.eventsOf_append, Prog.eventsOf_cons_self hwho, List.append_assoc,
    List.cons_append] at hpath
  obtain ⟨r', hpath⟩ := path_signedIn hpath
  obtain ⟨p, owner, hex, row, hrow, howner, hrows⟩ := path_refreshToken hpath hs.opensSession
  refine ⟨p, owner, ?_, ?_, ?_⟩
  · obtain ⟨x, hx, r₀, hr₀⟩ := hex.found
    obtain ⟨e', he', -, rfl⟩ := Prog.mem_eventsOf.mp hx
    exact ⟨e', he', r₀, hr₀⟩
  · obtain ⟨x, hx, hret⟩ := hex.revoked
    obtain ⟨e', he', hwho', rfl⟩ := Prog.mem_eventsOf.mp hx
    exact ⟨e', he', hwho', hret⟩
  · -- the session that appeared is the row that was opened
    obtain ⟨r₁, hr₁⟩ := Option.isSome_iff_exists.mp hs.2
    have hget := Table.get?_insert? (Table.insert?_of_rows_append hrows) s
    rw [hr₁, hs.1] at hget
    split_ifs at hget with hid
    obtain rfl := Option.some.inj hget
    exact ⟨r₁, hr₁, howner⟩

theorem retired_of_issue {i : ι} {token : String} (hi : (reqs i).presentedToken = some token)
    {s : Uuid} (hs : Issues es i s) :
    ∃ p, TokenHash env reqs w₀ (env.auth.hashRefreshToken token) p ∧
      ∃ e ∈ es, e.who = some i ∧ Retired p e := by
  obtain ⟨e, he, hwho, hopened⟩ := hs
  obtain ⟨es₁, es₂, hes⟩ := List.append_of_mem he
  obtain ⟨p, owner, ⟨e₁, he₁, r, hr, hhash, -⟩, ⟨e₂, he₂, hwho₂, hret⟩, -⟩ :=
    exchange_of_issue hrun hes hi hwho hopened
  have htoken := (tokenHash_of_run hrun).1 e₁ (by simp [hes, he₁]) p r hr
  rw [hhash] at htoken
  exact ⟨p, htoken, e₂, by simp [hes, he₂], hwho₂, hret⟩

theorem issues_unique (hdist : Distinct env reqs w₀) {i j : ι} {token token' : String}
    (hi : (reqs i).presentedToken = some token) (hj : (reqs j).presentedToken = some token')
    {p : Uuid} (hp : TokenHash env reqs w₀ (env.auth.hashRefreshToken token) p)
    (hp' : TokenHash env reqs w₀ (env.auth.hashRefreshToken token') p) {s s' : Uuid}
    (hs : Issues es i s) (hs' : Issues es j s') : i = j ∧ s = s' := by
  obtain ⟨q, hq, e, he, hwho, hret⟩ := retired_of_issue hrun hi hs
  obtain ⟨q', hq', e', he', hwho', hret'⟩ := retired_of_issue hrun hj hs'
  obtain rfl := hdist.tokens _ _ _ hq hp
  obtain rfl := hdist.tokens _ _ _ hq' hp'
  obtain rfl := retired_unique hrun hdist he he' hret hret'
  obtain rfl : i = j := Option.some.inj (hwho.symm.trans hwho')
  refine ⟨rfl, ?_⟩
  obtain ⟨f, hf, hwhof, hopened⟩ := hs
  obtain ⟨f', hf', hwhof', hopened'⟩ := hs'
  have hid {f : Prog.Event ι World} {s : Uuid} (hf : f ∈ es) (hwho : f.who = some i)
      (h : Opened s f) : ∃ a, (reqs i).answers = some a ∧ a.sessionId = s := by
    obtain ⟨r, hr⟩ := Option.isSome_iff_exists.mp h.2
    obtain ⟨k, a, hk, ha, hs, -⟩ := opened_of_run hrun hf h.1 hr
    obtain rfl : k = i := Option.some.inj (hk.symm.trans hwho)
    exact ⟨a, ha, hs⟩
  obtain ⟨a, ha, rfl⟩ := hid hf hwhof hopened
  obtain ⟨b, hb, rfl⟩ := hid hf' hwhof' hopened'
  obtain rfl := Option.some.inj (ha.symm.trans hb)
  rfl

theorem ended_of_successor (hdist : Distinct env reqs w₀) {p s : Uuid}
    (h : Successor env reqs w₀ es p s) : Ended w₀ es p := by
  obtain ⟨i, token, hi, hp, hs⟩ := h
  obtain ⟨q, hq, e, he, -, hret⟩ := retired_of_issue hrun hi hs
  obtain rfl := hdist.tokens _ _ _ hq hp
  exact .inr ⟨e, he, hret⟩

omit [DecidableEq ι] hrun in
theorem opens_of_createSession {r : SessionRow} {t : List (World × World)} {u : Unit}
    (h : (createSession r).Path t (.ok u)) : ∃ x ∈ t, opensSession x = true := by
  obtain ⟨w, ⟨rfl, hres⟩ | ⟨-, hres⟩⟩ := Prog.path_query h
  swap
  · cases hres
  refine ⟨_, List.mem_singleton.mpr rfl, ?_⟩
  simp only at hres ⊢
  split_ifs at hres ⊢
  cases hins : w.db.sessions.insert? r with
  | none => simp [hins] at hres
  | some sessions =>
    obtain ⟨hfree, hrows⟩ := Table.insert?_eq_some_iff.mp hins
    refine List.any_eq_true.mpr ⟨r, by simp [hrows], ?_⟩
    rw [Option.isNone_iff_eq_none]
    exact hfree

omit [DecidableEq ι] hrun in
/-- A refresh that answered with a pair has opened a session. -/
theorem opens_of_refreshToken {env : AuthEnv} {a : Answers}
    {verified : Except AppError (Uuid × Uuid)} {token : String} {t : List (World × World)}
    {r : AuthResponse} (h : (refreshToken env a verified token).Path t (.ok r)) :
    ∃ x ∈ t, opensSession x = true := by
  obtain ⟨t₁, t₂, v, rfl, -, h⟩ := Prog.path_bind_ok h
  obtain ⟨t₃, t₄, found, rfl, -, h⟩ := Prog.path_bind_ok h
  cases found with
  | none => cases h
  | some session =>
    simp only at h
    split_ifs at h
    · cases h
    obtain ⟨t₅, t₆, found, rfl, -, h⟩ := Prog.path_bind_ok h
    cases found with
    | none => cases h
    | some user =>
      obtain ⟨t₇, t₈, platform, rfl, -, h⟩ := Prog.path_bind_ok h
      obtain ⟨t₉, t₁₀, revoked, rfl, -, h⟩ := Prog.path_bind_ok h
      cases revoked with
      | false => cases h
      | true =>
        obtain ⟨t₁₁, t₁₂, pair, rfl, hissue, -⟩ := Prog.path_bind_ok h
        obtain ⟨t₁₃, t₁₄, minted, rfl, -, hcreate⟩ := Prog.path_bind_ok hissue
        obtain ⟨t₁₅, t₁₆, u, rfl, hcreate, -⟩ := Prog.path_bind_ok hcreate
        obtain ⟨x, hx, hopens⟩ := opens_of_createSession hcreate
        exact ⟨x, by simp [hx], hopens⟩

theorem issues_of_answer {i : ι} {token : String} (hi : (reqs i).presentedToken = some token)
    {r : AuthResponse} (hdone : c.2 i = .ret (.signedIn r)) : ∃ s, Issues es i s := by
  obtain ⟨a, verified, hreq⟩ := SessionRequest.eq_refresh hi
  have hpath := Prog.path_of_run hrun i (hdone ▸ Prog.Path.ret _)
  simp only [hreq, List.append_nil] at hpath
  obtain ⟨t₁, t₂, r', ht, hpath, hret⟩ := Prog.path_bind_ok hpath
  obtain ⟨x, hx, hopens⟩ := opens_of_refreshToken hpath
  obtain ⟨e, he, hwho, rfl⟩ := Prog.mem_eventsOf.mp (show x ∈ Prog.eventsOf i es by simp [ht, hx])
  obtain ⟨row, hrow, hfree⟩ := List.any_eq_true.mp hopens
  have hget : e.post.db.sessions.get? row.id = some row := Table.get?_of_mem hrow
  exact ⟨row.id, e, he, hwho, Option.isNone_iff_eq_none.mp hfree, by simp [hget]⟩

omit hrun in
/-- Rotation is safe. -/
structure RotationSafe (env : SessionEnv) (reqs : ι → SessionRequest) (w₀ : World)
    (es : List (Prog.Event ι World)) (w : World) (progs : ι → Handler SessionAnswer) : Prop where
  /-- A refresh that answered with a pair has issued a session. -/
  answered : ∀ i token r, (reqs i).presentedToken = some token → progs i = .ret (.signedIn r) →
    ∃ s, Issues es i s
  /-- A refresh token is exchanged for at most one session. -/
  once : ∀ i j token s s', (reqs i).presentedToken = some token →
    (reqs j).presentedToken = some token → Issues es i s → Issues es j s' → i = j ∧ s = s'
  /-- At most one session that descends from a login is live. -/
  lineage : ∀ login s s', Descends env reqs w₀ es login s → Descends env reqs w₀ es login s' →
    w.db.isSessionLive w.now s = true → w.db.isSessionLive w.now s' = true → s = s'
  /-- An access token of a session that was rotated, revoked or deleted is rejected. -/
  rejected : ∀ s u, (Ended w₀ es s ∨ ∃ s', Successor env reqs w₀ es s s') → ∀ r w',
    (extractUserIdFromToken (.ok ⟨u, some s⟩)).Outcome w r w' →
      r = .error invalidToken ∨ r = .error dbFault

omit [DecidableEq ι] hrun in
theorem unrevoked_of_live {w : World} {s : Uuid} (h : w.db.isSessionLive w.now s = true) :
    Unrevoked s w := by
  simp only [Db.isSessionLive, Option.any_eq_true, Bool.and_eq_true,
    Option.isNone_iff_eq_none] at h
  obtain ⟨r, hr, hnone, -⟩ := h
  exact ⟨r, hr, hnone⟩

omit [DecidableEq ι] hrun in
theorem extractUserIdFromToken_rejects {w w' : World} {u s : Uuid} {r : Except AppError Uuid}
    (hgone : ¬ Unrevoked s w)
    (h : (extractUserIdFromToken (.ok ⟨u, some s⟩)).Outcome w r w') :
    r = .error invalidToken ∨ r = .error dbFault := by
  have hdead : w.db.isSessionLive w.now s = false := by
    by_contra hlive
    exact hgone (unrevoked_of_live (by simpa using hlive))
  rcases Prog.outcome_read_bind h with ⟨hr, -⟩ | h
  · exact .inr hr
  · simp only [hdead, Bool.false_eq_true, if_false] at h
    cases h
    exact .inl rfl

omit [DecidableEq ι] hrun in
/-- **Rotation is safe**, however logins, refreshes, logouts, confirmed erasures and other ways to
revoke or delete sessions interleave. -/
theorem refresh_rotation [DecidableEq ι] (hdist : Distinct env reqs w₀) {w : World}
    {progs : ι → Handler SessionAnswer}
    (hrun : (Prog.pool Retires).Run (w₀, fun i => (reqs i).program env) es (w, progs)) :
    RotationSafe env reqs w₀ es w progs where
  answered i token r hi hdone := issues_of_answer hrun hi hdone
  once i j token s s' hi hj hs hs' := by
    obtain ⟨p, hp, -⟩ := retired_of_issue hrun hi hs
    exact issues_unique hrun hdist hi hj hp hp hs hs'
  lineage login s s' hs hs' hlive hlive' := by
    have huniq : Relator.RightUnique (Successor env reqs w₀ es) := by
      rintro p s s' ⟨i, token, hi, hp, hs⟩ ⟨j, token', hj, hp', hs'⟩
      exact (issues_unique hrun hdist hi hj hp hp' hs hs').2
    -- a session with a successor has been revoked
    have hlast {s s' : Uuid} (hs : Descends env reqs w₀ es s s')
        (hlive : w.db.isSessionLive w.now s = true) : s = s' := by
      rcases hs.cases_head with rfl | ⟨x, hsucc, -⟩
      · rfl
      · have hgone := not_unrevoked_of_ended hrun hdist (ended_of_successor hrun hdist hsucc)
        exact (hgone (unrevoked_of_live hlive)).elim
    rcases Relation.ReflTransGen.total_of_right_unique huniq hs hs' with h | h
    · exact hlast h hlive
    · exact (hlast h hlive').symm
  rejected s u hs r w' hout := by
    refine extractUserIdFromToken_rejects (not_unrevoked_of_ended hrun hdist ?_) hout
    rcases hs with hs | ⟨s', hs⟩
    · exact hs
    · exact ended_of_successor hrun hdist hs

end Runs

/-! ### Two refreshes with one token -/

/-- The refresh token of a session of the sample instance. -/
def sampleToken (s : Uuid) : String := String.ofList (List.replicate s.toNat 'x')

theorem sampleToken_injective {s s' : Uuid} (h : sampleToken s = sampleToken s') : s = s' := by
  have hlength := congrArg List.length (String.ofList_injective h)
  simp only [List.length_replicate] at hlength
  exact BitVec.eq_of_toNat_eq hlength

/-- The answers to the `n`-th request. -/
def rotationAnswers (n : Uuid) : Answers :=
  { sampleAnswers n with createTokenPair := fun _ _ s => .ok ⟨"access", sampleToken s, 86400⟩ }

theorem tokens_of_sampleToken {ι : Type} {env : SessionEnv} {reqs : ι → SessionRequest} {w₀ : World}
    (henv : env.auth.hashRefreshToken = id)
    (hreqs : ∀ i a, (reqs i).answers = some a → ∃ n, a = rotationAnswers n)
    (hw₀ : ∀ s r, w₀.db.sessions.get? s = some r → r.refreshTokenHash = sampleToken s)
    {tokenHash : String} {s s' : Uuid} (hs : TokenHash env reqs w₀ tokenHash s)
    (hs' : TokenHash env reqs w₀ tokenHash s') : s = s' := by
  have htoken {s : Uuid} (h : TokenHash env reqs w₀ tokenHash s) : tokenHash = sampleToken s := by
    rcases h with ⟨r, hr, rfl⟩ | ⟨i, a, u, ha, rfl, platform, pair, hpair, rfl⟩
    · exact hw₀ s r hr
    · obtain ⟨n, rfl⟩ := hreqs i a ha
      obtain rfl := Except.ok.inj hpair
      rw [henv]
      rfl
  exact sampleToken_injective ((htoken hs).symm.trans (htoken hs'))

/-- The sample instance. -/
def rotationEnv : SessionEnv where
  erasure := (erasureService sampleEvent).erasure
  verifyEd25519Signature _ _ _ := .error (.authError "signature verification failed")
  lowercase := toLowercase

/-- A session of the user `1`. -/
def loginSession : SessionRow := ⟨1, 1, sampleToken 1, "extension", none, 10, none⟩

theorem nodup_walletUser : ([walletUser].map Lib.key).Nodup := by
  simp

/-- A database with that session. -/
def rotationWorld : World :=
  ⟨{ Db.empty with users := ⟨[walletUser], nodup_walletUser⟩, sessions := ⟨[loginSession], by simp⟩ }, 0⟩

/-- Two requests that present its refresh token. -/
def twoRefreshes : Bool → SessionRequest
  | false => .refresh (rotationAnswers 2) (.ok (1, 1)) (sampleToken 1)
  | true => .refresh (rotationAnswers 3) (.ok (1, 1)) (sampleToken 1)

theorem twoRefreshes_answers {i : Bool} {a : Answers} (h : (twoRefreshes i).answers = some a) :
    a = rotationAnswers (if i then 3 else 2) := by
  cases i <;> exact (Option.some.inj h).symm

theorem twoRefreshes_distinct : Distinct rotationEnv twoRefreshes rotationWorld where
  fresh i a ha := by
    obtain rfl := twoRefreshes_answers ha
    cases i <;> rfl
  ids i j a b ha hb hid := by
    obtain rfl := twoRefreshes_answers ha
    obtain rfl := twoRefreshes_answers hb
    revert hid
    cases i <;> cases j <;> simp [rotationAnswers, sampleAnswers]
  tokens tokenHash s s' hs hs' := by
    refine tokens_of_sampleToken rfl (fun i a ha => ⟨_, twoRefreshes_answers ha⟩) (fun s r hr => ?_)
      hs hs'
    obtain rfl := List.mem_singleton.mp (Table.mem_of_get? hr)
    exact congrArg sampleToken (Table.key_of_get? hr)

/-- One of them is answered, the other one refused. -/
theorem twoRefreshes_safe :
    ∃ es w progs, (Prog.pool Retires).Run
        (rotationWorld, fun i => (twoRefreshes i).program rotationEnv) es (w, progs) ∧
      (∃ r, progs false = .ret (.signedIn r)) ∧ progs true = .fail invalidToken ∧
      RotationSafe rotationEnv twoRefreshes rotationWorld es w progs := by
  obtain ⟨es₁, h₁⟩ := Prog.exists_run_alone Retires
    (rotationWorld, fun i => (twoRefreshes i).program rotationEnv) false
  obtain ⟨es₂, h₂⟩ := Prog.exists_run_alone Retires (_, _) true
  have hrun := h₁.trans h₂
  exact ⟨es₁ ++ es₂, _, _, hrun, ⟨_, rfl⟩, rfl, refresh_rotation twoRefreshes_distinct hrun⟩

end SmirkBackend
