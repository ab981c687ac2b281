import SmirkBackend.Auth.Rotation

/-!
# Revocation by a confirmed erasure

Confirming an erasure revokes the sessions of the user in one statement (`RevokeStatement`), whose
failure is ignored.  It sees the sessions that are there: a refresh that has revoked its session and
not yet created the next one, which `Straddles` the statement, escapes it, and
`refreshed_session_escapes` is such a run.

Where the statement does not fail and nothing straddles it, the sessions are revoked in time
(`RevokesInTime`).  Then every session that descends from a login before it is `Dead` from then on:
it is not live, and none of its tokens is accepted (`erasure_revokes_descendants`).
-/

namespace SmirkBackend

open Lib (Table Prog)

section Runs

variable {ι : Type} [DecidableEq ι]

/-- The statement of a confirmation that revokes the sessions: its fourth. -/
structure RevokeStatement (c : ι) (es₁ : List (Prog.Event ι World)) (e : Prog.Event ι World) :
    Prop where
  /-- It is one of the confirmation. -/
  who : e.who = some c
  /-- The confirmation has consumed its nonce, found its user and confirmed the request. -/
  fourth : (Prog.eventsOf c es₁).length = 3

omit [DecidableEq ι] in
/-- The statement that revokes the sessions of the user is carried out. -/
def RevokesAll (u : Uuid) (e : Prog.Event ι World) : Prop :=
  e.post.db.sessions = e.pre.db.sessions.updateWhere
    (fun r => r.userId = u && r.revokedAt.isNone) (SessionRow.revoke e.pre.now)

omit [DecidableEq ι] in
/-- The statement has failed: there was a session to revoke, and nothing has changed. -/
structure RevokeFailed (u : Uuid) (e : Prog.Event ι World) : Prop where
  /-- Nothing has changed. -/
  same : e.post = e.pre
  /-- A session of the user was not revoked. -/
  due : ∃ r ∈ e.pre.db.sessions.rows, r.userId = u ∧ r.revokedAt = none

omit [DecidableEq ι] in
theorem revokesAll_of_not_failed {u : Uuid} {e : Prog.Event ι World} (h : ¬ RevokeFailed u e)
    (hout : e.post = e.pre ∨ RevokesAll u e) : RevokesAll u e := by
  refine hout.elim (fun hsame => ?_) id
  have hnone : ∀ r ∈ e.pre.db.sessions.rows, (r.userId = u && r.revokedAt.isNone) = false := by
    intro r hr
    by_contra hdue
    obtain ⟨howner, hlive⟩ : r.userId = u ∧ r.revokedAt = none := by simpa using hdue
    exact h ⟨hsame, r, hr, howner, hlive⟩
  rw [RevokesAll, Table.updateWhere_eq_self _ hnone, hsame]

omit [DecidableEq ι] in
/-- The refresh has revoked a session of the user before, and issues the next one after. -/
def Straddles (reqs : ι → SessionRequest) (u : Uuid) (i : ι)
    (es₁ es₂ : List (Prog.Event ι World)) : Prop :=
  (reqs i).presentedToken.isSome ∧
    (∃ e ∈ es₁, e.who = some i ∧ ∃ p r, e.pre.db.sessions.get? p = some r ∧ r.userId = u ∧
      Retired p e) ∧
    ∃ e ∈ es₂, e.who = some i ∧ ∃ s, Opened s e

/-- The statement that revokes the sessions of the user does not fail, and none of them is being
refreshed meanwhile. -/
def RevokesInTime (reqs : ι → SessionRequest) (es : List (Prog.Event ι World)) (c : ι) (u : Uuid) :
    Prop :=
  ∀ es₁ e es₂, es = es₁ ++ e :: es₂ → RevokeStatement c es₁ e →
    ¬ RevokeFailed u e ∧ ∀ i, ¬ Straddles reqs u i es₁ es₂

omit [DecidableEq ι] in
/-- A session of the user, there at the start or opened since. -/
def SessionOf (w₀ : World) (es : List (Prog.Event ι World)) (u s : Uuid) : Prop :=
  (∃ r, w₀.db.sessions.get? s = some r ∧ r.userId = u) ∨
    ∃ e ∈ es, Opened s e ∧ ∃ r, e.post.db.sessions.get? s = some r ∧ r.userId = u

omit [DecidableEq ι] in
/-- The session is not live, and neither its access token nor its refresh token is accepted. -/
structure Dead (env : SessionEnv) (reqs : ι → SessionRequest) (w₀ w : World) (s : Uuid) :
    Prop where
  /-- It is not live. -/
  session : w.db.isSessionLive w.now s = false
  /-- Its access token is rejected. -/
  access : ∀ u r w', (extractUserIdFromToken (.ok ⟨u, some s⟩)).Outcome w r w' →
    r = .error invalidToken ∨ r = .error dbFault
  /-- Its refresh token is rejected. -/
  refresh : ∀ a verified token r w', TokenHash env reqs w₀ (env.auth.hashRefreshToken token) s →
    (refreshToken env.auth a verified token).Outcome w r w' → ∃ e, r = .error e

variable {env : SessionEnv} {reqs : ι → SessionRequest} {w₀ : World}
  {es : List (Prog.Event ι World)} {c : World × (ι → Handler SessionAnswer)}
  (hrun : (Prog.pool Retires).Run (w₀, fun i => (reqs i).program env) es c)

include hrun

/-- A session that is not there unrevoked is dead. -/
theorem dead_of_not_unrevoked (hdist : Distinct env reqs w₀) {s : Uuid}
    (hgone : ¬ Unrevoked s c.1) : Dead env reqs w₀ c.1 s where
  session := by
    by_contra hlive
    exact hgone (unrevoked_of_live (by simpa using hlive))
  access u r w' hout := extractUserIdFromToken_rejects hgone hout
  refresh a verified token r w' htoken hout := by
    rcases Prog.outcome_ofExcept_bind hout with ⟨e, hr, -⟩ | ⟨v, -, hout⟩
    · exact ⟨e, hr⟩
    rcases Prog.outcome_read_bind hout with ⟨hr, -⟩ | hout
    · exact ⟨_, hr⟩
    cases hfound : c.1.db.getSessionByTokenHash c.1.now (env.auth.hashRefreshToken token) with
    | none =>
      simp only [hfound] at hout
      cases hout
      exact ⟨_, rfl⟩
    | some session =>
      -- the session that was found is that of the token
      obtain ⟨hget, hhash, hnone⟩ := getSessionByTokenHash_eq_some hfound
      have htoken' := (tokenHash_of_run hrun).2 session.id session hget
      rw [hhash] at htoken'
      obtain rfl := hdist.tokens _ _ _ htoken htoken'
      exact (hgone ⟨session, hget, hnone⟩).elim

theorem opened_unique (hdist : Distinct env reqs w₀) {s : Uuid} {e e' : Prog.Event ι World}
    (he : e ∈ es) (he' : e' ∈ es) (hopened : Opened s e) (hopened' : Opened s e') : e = e' := by
  obtain ⟨es₁, es₂, hes⟩ := List.append_of_mem he
  have hmem := he'
  rw [hes, List.mem_append, List.mem_cons] at hmem
  rcases hmem with h₁ | rfl | h₂
  · exact (not_opened_again hrun hdist hes (.inr ⟨e', h₁, hopened'⟩) e (by simp) hopened).elim
  · rfl
  · refine (not_opened_again hrun hdist (hes.trans (List.append_cons es₁ e es₂))
      (.inr ⟨e, by simp, hopened⟩) e' h₂ hopened').elim

/-- A session keeps its owner. -/
theorem owner_of_run (hdist : Distinct env reqs w₀) {u s : Uuid} (hs : SessionOf w₀ es u s) :
    ∀ e ∈ es, ∀ r, e.pre.db.sessions.get? s = some r → r.userId = u := by
  refine (Prog.invariant_of_run (I := fun w => ∀ r, w.db.sessions.get? s = some r → r.userId = u)
    hrun (fun es₁ e es₂ hes _ hI r hr => ?_) fun r hr => ?_).1
  · have he : e ∈ es := by simp [hes]
    cases hpre : e.pre.db.sessions.get? s with
    | none =>
      have hopened : Opened s e := ⟨hpre, by simp [hr]⟩
      rcases hs with ⟨r₀, hr₀, -⟩ | ⟨e₀, he₀, hopened₀, r₀, hr₀, howner⟩
      · refine (not_opened_again hrun hdist (List.nil_append es).symm (.inl ?_) e he hopened).elim
        simp [hr₀]
      · obtain rfl := opened_unique hrun hdist he he₀ hopened hopened₀
        obtain rfl := Option.some.inj (hr.symm.trans hr₀)
        exact howner
    | some r₀ =>
      rcases touches_of_run hrun he with hret | ⟨i, a, -, -, r', -, hrows⟩
      · obtain ⟨r₁, hr₁, -, howner, -⟩ := hret s r hr
        rw [howner]
        exact hI r₁ hr₁
      · have hins := Table.insert?_of_rows_append hrows
        rw [Table.get?_insert? hins] at hr
        split_ifs at hr with hid
        · subst hid
          simp [(Table.insert?_eq_some_iff.mp hins).1] at hpre
        · exact hI r hr
  · rcases hs with ⟨r₀, hr₀, howner⟩ | ⟨e₀, he₀, hopened₀, -⟩
    · obtain rfl := Option.some.inj (hr.symm.trans hr₀)
      exact howner
    · refine (not_opened_again hrun hdist (List.nil_append es).symm (.inl ?_) e₀ he₀ hopened₀).elim
      simp [show w₀.db.sessions.get? s = some r from hr]

/-- What is issued for a token belongs to the owner of the session of the token, which the request
has revoked before. -/
theorem exchange_of_successor (hdist : Distinct env reqs w₀) {u p s : Uuid}
    (hp : SessionOf w₀ es u p) (h : Successor env reqs w₀ es p s)
    {es₁ es₂ : List (Prog.Event ι World)} {e : Prog.Event ι World} (hes : es = es₁ ++ e :: es₂)
    (hopened : Opened s e) :
    ∃ i, (reqs i).presentedToken.isSome ∧ e.who = some i ∧
      (∃ r, e.post.db.sessions.get? s = some r ∧ r.userId = u) ∧
      ∃ e' ∈ es₁, e'.who = some i ∧ Retired p e' := by
  obtain ⟨i, token, hi, htoken, f, hf, hwho, hopenedf⟩ := h
  obtain rfl := opened_unique hrun hdist hf (by simp [hes]) hopenedf hopened
  obtain ⟨q, owner, ⟨e₁, he₁, r, hr, hhash, rfl⟩, hret, hrow⟩ :=
    exchange_of_issue hrun hes hi hwho hopened
  have he₁' : e₁ ∈ es := by simp [hes, he₁]
  have htoken' := (tokenHash_of_run hrun).1 e₁ he₁' q r hr
  rw [hhash] at htoken'
  obtain rfl := hdist.tokens _ _ _ htoken htoken'
  rw [owner_of_run hrun hdist hp e₁ he₁' r hr] at hrow
  exact ⟨i, by simp [hi], hwho, hrow, hret⟩

theorem sessionOf_of_descends (hdist : Distinct env reqs w₀) {u login s : Uuid}
    (hlogin : SessionOf w₀ es u login) (h : Descends env reqs w₀ es login s) :
    SessionOf w₀ es u s := by
  induction h with
  | refl => exact hlogin
  | tail _ hsucc ih =>
    obtain ⟨i, token, -, -, e, he, -, hopened⟩ := id hsucc
    obtain ⟨es₁, es₂, hes⟩ := List.append_of_mem he
    obtain ⟨-, -, -, hrow, -⟩ := exchange_of_successor hrun hdist ih hsucc hes hopened
    exact .inr ⟨e, he, hopened, hrow⟩

omit [DecidableEq ι] hrun in
theorem path_prove {env : ErasureEnv} {a : ErasureAnswers} {body : ProofRequest}
    {purpose actionPath : String} {target : Option (String × String)} {t : List (World × World)}
    {x : String × Option UserRow}
    (h : (prove env a body purpose actionPath target).Path t (.ok x)) : t.length = 2 := by
  obtain ⟨t₁, t₂, url, rfl, hurl, h₁⟩ := Prog.path_bind_ok h
  obtain ⟨t₃, t₄, pubkey, rfl, hpubkey, h₂⟩ := Prog.path_bind_ok h₁
  obtain ⟨t₅, t₆, found, rfl, hfound, h₃⟩ := Prog.path_bind_ok h₂
  have hconsume : t₅.length = 1 := by
    obtain ⟨w, ⟨rfl, -⟩ | ⟨rfl, -⟩⟩ := Prog.path_query hfound <;> rfl
  cases found with
  | none => cases h₃
  | some consumed =>
    obtain ⟨t₇, t₈, user, rfl, huser, h₄⟩ := Prog.path_bind_ok h₃
    obtain ⟨w, ht₇, -⟩ := Prog.path_read huser
    cases h₄
    simp [(Prog.path_ofExcept hurl).1, (Prog.path_ofExcept hpubkey).1, hconsume, ht₇]

omit [DecidableEq ι] hrun in
theorem path_revokeAllUserSessions {u : Uuid} {t : List (World × World)} {r : Except AppError Unit}
    (h : (revokeAllUserSessions u).Path t r) : ∃ x, t = [x] ∧
      (x.2 = x.1 ∨ x.2.db.sessions = x.1.db.sessions.updateWhere
        (fun r => r.userId = u && r.revokedAt.isNone) (SessionRow.revoke x.1.now)) := by
  obtain ⟨w, ht | ht, -⟩ := Prog.path_attempt h
  · exact ⟨_, ht, .inr rfl⟩
  · exact ⟨_, ht, .inl rfl⟩

omit [DecidableEq ι] hrun in
theorem path_confirmErasureRequest {a : ErasureAnswers} {id u : Uuid} {graceHours : ℤ}
    {t : List (World × World)} {row : ErasureRequestRow}
    (h : (confirmErasureRequest a id u graceHours).Path t (.ok (some row))) :
    t.length = 1 ∧ row.userId = some u := by
  obtain ⟨w, ⟨rfl, hres⟩ | ⟨-, hres⟩⟩ := Prog.path_query h
  swap
  · cases hres
  have hrow := (Except.ok.inj hres).symm
  simp only [Table.updateOne, Option.map_eq_some_iff, Option.filter_eq_some_iff,
    Bool.and_eq_true, decide_eq_true_eq] at hrow
  obtain ⟨r, ⟨-, howner, -⟩, rfl⟩ := hrow
  exact ⟨rfl, howner⟩

omit [DecidableEq ι] hrun in
/-- A confirmation that answered has tried to revoke the sessions of its user, in its fourth
statement. -/
theorem path_confirmErasure {env : ErasureEnv} {a : ErasureAnswers} {id : Uuid}
    {body : ProofRequest} {t : List (World × World)} {row : ErasureRequestRow}
    (h : (confirmErasure env a id body).Path t (.ok row)) :
    ∃ t₁ x t₂ u, t = t₁ ++ x :: t₂ ∧ t₁.length = 3 ∧ row.userId = some u ∧
      (x.2 = x.1 ∨ x.2.db.sessions = x.1.db.sessions.updateWhere
        (fun r => r.userId = u && r.revokedAt.isNone) (SessionRow.revoke x.1.now)) := by
  obtain ⟨t₀, t', _, rfl, henabled, h₁⟩ := Prog.path_bind_ok h
  obtain ⟨t₁, t₂, ⟨pubkey, user⟩, rfl, hproof, h₂⟩ := Prog.path_bind_ok h₁
  cases user with
  | none => cases h₂
  | some user =>
    obtain ⟨t₃, t₄, found, rfl, hconfirm, h₃⟩ := Prog.path_bind_ok h₂
    cases found with
    | none => cases h₃
    | some req =>
      obtain ⟨t₅, t₆, _, rfl, hrevoke, h₄⟩ := Prog.path_bind_ok h₃
      obtain ⟨t₇, t₈, _, rfl, -, h₅⟩ := Prog.path_bind_ok h₄
      cases h₅
      obtain ⟨hlength, howner⟩ := path_confirmErasureRequest hconfirm
      obtain ⟨x, rfl, hx⟩ := path_revokeAllUserSessions hrevoke
      refine ⟨t₁ ++ t₃, x, t₇, user.id, ?_, ?_, howner, hx⟩
      · simp [(Prog.path_ofExcept henabled).1]
      · rw [List.length_append, path_prove hproof, hlength]

omit hrun in
/-- A confirmation that answered has a statement that revokes the sessions of its user, or faults. -/
theorem exists_revokeStatement {w : World} {progs : ι → Handler SessionAnswer}
    (hrun : (Prog.pool Retires).Run (w₀, fun i => (reqs i).program env) es (w, progs)) {c : ι}
    {a : ErasureAnswers} {id u : Uuid} {body : ProofRequest} {row : ErasureRequestRow}
    (hc : reqs c = .confirmErasure a id body) (hdone : progs c = .ret (.confirmed row))
    (hu : row.userId = some u) :
    ∃ es₁ e es₂, es = es₁ ++ e :: es₂ ∧ RevokeStatement c es₁ e ∧
      (e.post = e.pre ∨ RevokesAll u e) := by
  have hpath := Prog.path_of_run hrun c (hdone ▸ Prog.Path.ret _)
  simp only [hc, List.append_nil] at hpath
  obtain ⟨t, t', row', ht, hpath, hret⟩ := Prog.path_bind_ok hpath
  cases hret
  obtain ⟨t₁, x, t₂, u', rfl, hlength, hu', hrevoke⟩ := path_confirmErasure hpath
  obtain rfl := Option.some.inj (hu.symm.trans hu')
  rw [List.append_nil] at ht
  obtain ⟨es₁, e, es₂, hes, hwho, hx, hbefore⟩ := Prog.eventsOf_split ht
  subst hx
  exact ⟨es₁, e, es₂, hes, ⟨hwho, by rw [hbefore, hlength]⟩, hrevoke⟩

omit [DecidableEq ι] hrun in
theorem RevokesAll.not_unrevoked {u s : Uuid} {e : Prog.Event ι World} (h : RevokesAll u e)
    (howner : ∀ r, e.pre.db.sessions.get? s = some r → r.userId = u) : ¬ Unrevoked s e.post := by
  rintro ⟨r', hr', hnone⟩
  rw [h, Table.get?_updateWhere] at hr'
  obtain ⟨r, hr, rfl⟩ := Option.map_eq_some_iff.mp hr'
  split_ifs at hnone with hrev
  · cases hnone
  · simp [howner r hr, hnone] at hrev

/-- After a revocation in time no session that descends from an earlier login is unrevoked. -/
theorem not_unrevoked_of_revokesAll (hdist : Distinct env reqs w₀)
    {es₁ es₂ : List (Prog.Event ι World)} {e : Prog.Event ι World} (hes : es = es₁ ++ e :: es₂)
    {c₀ : ι} {u : Uuid} (hc₀ : (reqs c₀).presentedToken = none) (hwho : e.who = some c₀)
    (hall : RevokesAll u e) (hstraddle : ∀ i, ¬ Straddles reqs u i es₁ es₂) {login : Uuid}
    (hlogin : SessionOf w₀ es₁ u login) :
    ∀ s, Descends env reqs w₀ es login s → ¬ Unrevoked s c.1 := by
  have hlogin' : SessionOf w₀ es u login := by
    refine hlogin.imp_right fun ⟨e', he', h⟩ => ⟨e', ?_, h⟩
    simp [hes, he']
  have howner (s : Uuid) (hs : Descends env reqs w₀ es login s) :=
    owner_of_run hrun hdist (sessionOf_of_descends hrun hdist hlogin' hs)
  obtain ⟨c₁, c₂, -, -, hc₂, hrest⟩ := Prog.run_at (hes ▸ hrun)
  refine (Prog.invariant_of_run (I := fun w => ∀ s, Descends env reqs w₀ es login s →
    ¬ Unrevoked s w) hrest (fun es₃ e' es₄ hes₂ hbefore hpre s hs hpost => ?_) fun s hs => ?_).2
  · -- a descendant that appears now was exchanged for one that was unrevoked
    have he' : e' ∈ es := by simp [hes, hes₂]
    have hopened := opened_of_unrevoked hrun he' (hpre s hs) hpost
    rcases hs.cases_tail with rfl | ⟨p, hp, hsucc⟩
    · have hexisted : Existed w₀ es₁ s :=
        hlogin.imp (fun ⟨r, hr, _⟩ => by simp [hr]) fun ⟨f, hf, hof, _⟩ => ⟨f, hf, hof⟩
      exact not_opened_again hrun hdist hes hexisted e' (by simp [hes₂]) hopened
    · have hsplit : es = (es₁ ++ e :: es₃) ++ e' :: es₄ := by simp [hes, hes₂]
      obtain ⟨i, hi, hwho', -, e₀, hplace, hwho₀, hret⟩ := exchange_of_successor hrun hdist
        (sessionOf_of_descends hrun hdist hlogin' hp) hsucc hsplit hopened
      rw [List.mem_append, List.mem_cons] at hplace
      rcases hplace with h₁ | rfl | h₃
      · obtain ⟨r, hr, -⟩ := hret.1
        have hru := howner p hp e₀ (by simp [hes, h₁]) r hr
        exact hstraddle i ⟨hi, ⟨e₀, h₁, hwho₀, p, r, hr, hru, hret⟩, e', by simp [hes₂], hwho', s,
          hopened⟩
      · obtain rfl : c₀ = i := Option.some.inj (hwho.symm.trans hwho₀)
        simp [hc₀] at hi
      · exact hbefore e₀ h₃ p hp hret.1
  · rw [hc₂]
    exact hall.not_unrevoked (howner s hs e (by simp [hes]))

omit hrun in
/-- **Revocation in time is complete.** Once a confirmation has answered, no session that descends
from a login before its revocation is live, and no token of one is accepted. -/
theorem erasure_revokes_descendants (hdist : Distinct env reqs w₀) {w : World}
    {progs : ι → Handler SessionAnswer}
    (hrun : (Prog.pool Retires).Run (w₀, fun i => (reqs i).program env) es (w, progs)) {c : ι}
    {a : ErasureAnswers} {id u : Uuid} {body : ProofRequest} {row : ErasureRequestRow}
    (hc : reqs c = .confirmErasure a id body) (hdone : progs c = .ret (.confirmed row))
    (hu : row.userId = some u) (hintime : RevokesInTime reqs es c u) :
    ∃ es₁ e es₂, es = es₁ ++ e :: es₂ ∧ RevokeStatement c es₁ e ∧
      ∀ login, SessionOf w₀ es₁ u login → ∀ s, Descends env reqs w₀ es login s →
        Dead env reqs w₀ w s := by
  obtain ⟨es₁, e, es₂, hes, hstatement, hout⟩ := exists_revokeStatement hrun hc hdone hu
  obtain ⟨hserved, hstraddle⟩ := hintime es₁ e es₂ hes hstatement
  have hall := revokesAll_of_not_failed hserved hout
  have hnone : (reqs c).presentedToken = none := by rw [hc]; rfl
  refine ⟨es₁, e, es₂, hes, hstatement, fun login hlogin s hs => ?_⟩
  exact dead_of_not_unrevoked hrun hdist (not_unrevoked_of_revokesAll hrun hdist hes hnone
    hstatement.who hall hstraddle hlogin s hs)

end Runs

/-! ### A refresh in progress -/

/-- A signed confirmation of the request `7`. -/
def confirmEvent : Nip98Event where
  id := "id"
  pubkey := "npub"
  createdAt := 1000
  kind := 27235
  tags := [["u", "https://api" ++ confirmPath 7], ["method", "POST"],
    ["purpose", "erasure_confirm"], ["challenge", "nonce"],
    ["payload", requestDescriptor "POST" ("/api/v1" ++ confirmPath 7) "" ""],
    ["erasure_id", uuidText 7]]
  content := ""
  sig := "sig"

/-- The sample instance, which knows this event. -/
def revocationEnv : SessionEnv := { rotationEnv with erasure := (erasureService confirmEvent).erasure }

/-- The user of the session, with a Nostr key. -/
def linkedUser : UserRow := { walletUser with nostrPubkey := some "npub" }

/-- The user's request for erasure. -/
def pendingRequest : ErasureRequestRow := ⟨7, some 1, "subject", .pending, 0, 10, none, none, none⟩

/-- A database with the user, its session, its request and a nonce. -/
def revocationWorld : World :=
  ⟨{ rotationWorld.db with
      users := ⟨[linkedUser], by simp⟩
      erasureRequests := ⟨[pendingRequest], by simp⟩
      challenges := ⟨[⟨"nonce", "erasure_confirm", none, 10⟩], by simp⟩ }, 0⟩

/-- A refresh of the session and the confirmation. -/
def refreshAndConfirm : Bool → SessionRequest
  | false => .refresh (rotationAnswers 2) (.ok (1, 1)) (sampleToken 1)
  | true => .confirmErasure ⟨1000, 0, 0⟩ 7 ⟨"Nostr event", "nonce"⟩

theorem refreshAndConfirm_answers {i : Bool} {a : Answers}
    (h : (refreshAndConfirm i).answers = some a) : i = false ∧ a = rotationAnswers 2 := by
  cases i with
  | false => exact ⟨rfl, (Option.some.inj h).symm⟩
  | true => cases h

theorem refreshAndConfirm_distinct : Distinct revocationEnv refreshAndConfirm revocationWorld where
  fresh i a ha := by
    obtain ⟨-, rfl⟩ := refreshAndConfirm_answers ha
    rfl
  ids i j a b ha hb _ :=
    (refreshAndConfirm_answers ha).1.trans (refreshAndConfirm_answers hb).1.symm
  tokens tokenHash s s' hs hs' := by
    refine tokens_of_sampleToken rfl (fun i a ha => ⟨_, (refreshAndConfirm_answers ha).2⟩)
      (fun s r hr => ?_) hs hs'
    obtain rfl := List.mem_singleton.mp (Table.mem_of_get? hr)
    exact congrArg sampleToken (Table.key_of_get? hr)

/-- The two requests at the start. -/
def refreshAndConfirmStart : World × (Bool → Handler SessionAnswer) :=
  (revocationWorld, fun i => (refreshAndConfirm i).program revocationEnv)

/-- The request, confirmed. -/
def confirmedRequest : ErasureRequestRow :=
  { pendingRequest with
    status := .confirmed
    confirmedAt := some 0
    scheduledFor := seconds (72 * 3600) }

/-- Nothing is being refreshed while the confirmation runs. -/
theorem revokesInTime_alone :
    RevokesInTime refreshAndConfirm (Prog.playTrace [(true, 5)] refreshAndConfirmStart) true 1 := by
  intro es₁ e es₂ hes hstatement
  have hwho : ∀ e ∈ es₁, e.who = some true := by
    intro e he
    have hmem : e ∈ Prog.playTrace [(true, 5)] refreshAndConfirmStart := by simp [hes, he]
    rw [Prog.playTrace, Prog.playTrace, List.append_nil] at hmem
    exact Prog.who_of_trace e hmem
  constructor
  · have hlength : es₁.length = 3 := by
      have h := hstatement.fourth
      rwa [Prog.eventsOf, List.length_map, List.filter_eq_self.mpr (by simpa using hwho)] at h
    have hget : (Prog.playTrace [(true, 5)] refreshAndConfirmStart)[3]? = some e := by
      rw [hes, ← hlength]
      simp
    obtain rfl := Option.some.inj hget
    rintro ⟨hsame, -⟩
    cases congrArg (fun w => (w.db.sessions.get? 1).map SessionRow.revokedAt) hsame
  · rintro i ⟨hi, ⟨e', he', hwho', -⟩, -⟩
    obtain rfl : true = i := Option.some.inj ((hwho e' he').symm.trans hwho')
    cases hi

/-- A confirmation while nothing is being refreshed revokes the session. -/
theorem confirmed_session_dead :
    Dead revocationEnv refreshAndConfirm revocationWorld
      (Prog.play [(true, 5)] refreshAndConfirmStart).1 1 := by
  have hdone : (Prog.play [(true, 5)] refreshAndConfirmStart).2 true =
      .ret (.confirmed confirmedRequest) := rfl
  obtain ⟨es₁, e, es₂, -, -, hdead⟩ := erasure_revokes_descendants (c := true)
    refreshAndConfirm_distinct (Prog.run_play Retires [(true, 5)] refreshAndConfirmStart) rfl hdone
    rfl revokesInTime_alone
  exact hdead 1 (.inl ⟨loginSession, rfl, rfl⟩) 1 .refl

/-- The refresh has found and revoked the session when the confirmation runs, and creates the next
one afterwards. -/
def escapingTurns : List (Bool × ℕ) := [(false, 3), (true, 5), (false, 2)]

/-- The confirmation is answered, and a session that descends from one before it is live. -/
theorem refreshed_session_escapes :
    Distinct revocationEnv refreshAndConfirm revocationWorld ∧
      ∃ es w progs row, (Prog.pool Retires).Run refreshAndConfirmStart es (w, progs) ∧
        progs true = .ret (.confirmed row) ∧ row.userId = some 1 ∧
        (∃ r, revocationWorld.db.sessions.get? 1 = some r ∧ r.userId = 1) ∧
        ∃ s, Descends revocationEnv refreshAndConfirm revocationWorld es 1 s ∧
          w.db.isSessionLive w.now s = true := by
  have hrun := Prog.run_play Retires escapingTurns refreshAndConfirmStart
  have hissue : Issues (Prog.playTrace escapingTurns refreshAndConfirmStart) false 2 := by
    obtain ⟨s, e, he, hwho, hopened⟩ := issues_of_answer hrun (i := false) rfl rfl
    obtain ⟨r, hr⟩ := Option.isSome_iff_exists.mp hopened.2
    obtain ⟨i, a, -, ha, rfl, -⟩ := opened_of_run hrun he hopened.1 hr
    obtain ⟨-, rfl⟩ := refreshAndConfirm_answers ha
    exact ⟨e, he, hwho, hopened⟩
  refine ⟨refreshAndConfirm_distinct, _, _, _, confirmedRequest, hrun, rfl, rfl,
    ⟨loginSession, rfl, rfl⟩, 2, ?_, rfl⟩
  exact .single ⟨false, sampleToken 1, rfl, .inl ⟨loginSession, rfl, rfl⟩, hissue⟩

end SmirkBackend
