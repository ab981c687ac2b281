import SmirkBackend.Auth.Frames
import SmirkBackend.Auth.Takeover
import SmirkBackend.Erasure.Requests

/-!
# Signed changes of state

Requests for nonces and signed changes of state run concurrently, statement by statement, while
nonces expire and everything else in the database may change.  A change of state that is accepted
deletes an unexpired nonce that was issued for its purpose, and no other accepted change deletes the
same one (`Consumption`, `SingleUse`).  Its event is authenticated and carries, of each bound name,
exactly one tag with a value, and that value is the expected one; the method is compared without
regard to letter case (`SignedAction.Proven`).

Every bound tag is meant to appear exactly once.  The reader steps over a tag without a value, though,
so a second tag `["u"]` passes: an accepted event is fully bound exactly when it has no tag that is a
bound name and nothing else (`signed_actions_single_use`).
-/

namespace SmirkBackend

open Lib (Table Prog)

/-! ### The requests -/

/-- A request that issues or consumes a nonce; issued nonces are generated. -/
inductive NonceRequest
  | adminChallenge (nonce : String)
  | adminVerify (a : AdminAnswers) (req : AdminVerifyRequest)
  | nostrLinkChallenge (bearer : Except AppError TokenInfo) (nonce : String)
  | nostrLink (a : Answers) (bearer : Except AppError TokenInfo) (req : NostrLinkRequest)
  | nostrRegisterChallenge (nonce : String)
  | nostrRegister (a : Answers) (req : NostrRegisterRequest)
  | erasureChallenge (purpose nonce : String)
  | requestErasure (a : ErasureAnswers) (body : ProofRequest)
  | confirmErasure (a : ErasureAnswers) (id : Uuid) (body : ProofRequest)
  | cancelErasure (a : ErasureAnswers) (id : Uuid) (body : ProofRequest)

/-- The instance, for all handlers. -/
structure ServiceEnv where
  /-- Login and registration. -/
  auth : AuthEnv
  /-- The operator's surface. -/
  admin : AdminEnv
  /-- Erasure. -/
  erasure : ErasureEnv

/-- A handler whose answer is dropped. -/
def dropAnswer {α : Type} (p : Handler α) : Handler Unit := do
  let _ ← p
  return ()

namespace NonceRequest

/-- The handler of a request. -/
def program (env : ServiceEnv) : NonceRequest → Handler Unit
  | adminChallenge nonce => dropAnswer (SmirkBackend.adminChallenge env.admin nonce)
  | adminVerify a req => dropAnswer (SmirkBackend.adminVerify env.admin a req)
  | nostrLinkChallenge bearer nonce => dropAnswer (SmirkBackend.nostrLinkChallenge bearer nonce)
  | nostrLink a bearer req => dropAnswer (SmirkBackend.nostrLink env.auth a bearer req)
  | nostrRegisterChallenge nonce => dropAnswer (SmirkBackend.nostrRegisterChallenge nonce)
  | nostrRegister a req => dropAnswer (SmirkBackend.nostrRegister env.auth a req)
  | erasureChallenge purpose nonce =>
    dropAnswer (SmirkBackend.erasureChallenge env.erasure purpose nonce)
  | requestErasure a body => dropAnswer (SmirkBackend.requestErasure env.erasure a body)
  | confirmErasure a id body => dropAnswer (SmirkBackend.confirmErasure env.erasure a id body)
  | cancelErasure a id body => dropAnswer (SmirkBackend.cancelErasure env.erasure a id body)

/-- The nonce a request issues, and for what. -/
def issues : NonceRequest → Option (String × String)
  | adminChallenge nonce => some (nonce, "admin_login")
  | nostrLinkChallenge _ nonce => some (nonce, "nostr_link")
  | nostrRegisterChallenge nonce => some (nonce, "nostr_register")
  | erasureChallenge purpose nonce => some (nonce, purpose)
  | _ => none

end NonceRequest

/-- A signed change of state: the event, what it must be bound to, and the window. -/
structure SignedAction where
  /-- Checks of the event. -/
  crypto : Nip98Crypto
  /-- The header with the event. -/
  token : String
  /-- What it must be bound to. -/
  binding : ActionBinding
  /-- The clock when it is checked. -/
  now : Int64
  /-- The half-width of the window. -/
  maxAge : Int64

/-- A signed `POST` under `/auth/nostr`. -/
def nostrAction (env : AuthEnv) (a : Answers) (token path purpose nonce : String) :
    Option SignedAction :=
  (nip98Url env.publicApiUrl path).toOption.map fun url =>
    ⟨env.crypto, token, nostrBinding env url path purpose nonce, a.now, nip98ActionMaxAgeSecs⟩

/-- A signed step of an erasure. -/
def erasureAction (env : ErasureEnv) (a : ErasureAnswers) (body : ProofRequest)
    (purpose path : String) (target : Option (String × String)) : Option SignedAction :=
  (erasureUrl env path).toOption.map fun url =>
    ⟨env.auth.crypto, body.token, erasureBinding env url path purpose body.nonce target, a.now,
      erasureActionMaxAgeSecs⟩

/-- The change of state a request asks for. -/
def NonceRequest.action (env : ServiceEnv) : NonceRequest → Option SignedAction
  | adminVerify a req => some ⟨env.admin.auth.crypto, req.adminToken,
      adminBinding env.admin req.challenge, a.now, adminActionMaxAgeSecs⟩
  | nostrLink a _ req =>
    nostrAction env.auth a req.nostrToken "/auth/nostr/link" "nostr_link" req.nonce
  | nostrRegister a req =>
    nostrAction env.auth a req.nostrToken "/auth/nostr/register" "nostr_register" req.nonce
  | requestErasure a body =>
    erasureAction env.erasure a body "erasure_request" "/account/erasure" none
  | confirmErasure a id body => erasureAction env.erasure a body "erasure_confirm" (confirmPath id)
      (some ("erasure_id", uuidText id))
  | cancelErasure a id body => erasureAction env.erasure a body "erasure_cancel" (cancelPath id)
      (some ("erasure_id", uuidText id))
  | _ => none

/-- The event is authenticated and bound to the change of state. -/
def SignedAction.Proven (act : SignedAction) : Prop :=
  ∃ ev, Authenticated act.crypto act.token act.now act.maxAge ev ∧ Bound ev act.binding

/-- It is authenticated and bound, and no bound name is on a second tag. -/
def SignedAction.FullyProven (act : SignedAction) : Prop :=
  ∃ ev, Authenticated act.crypto act.token act.now act.maxAge ev ∧ FullyBound ev act.binding

/-- The event has a tag that is a bound name and nothing else. -/
def SignedAction.HasBareTag (act : SignedAction) : Prop :=
  ∃ ev, ((afterScheme act.token).bind fun b64 => act.crypto.decode (trim b64)) = some ev ∧
    ∃ name ∈ act.binding.names, [name] ∈ ev.tags

theorem SignedAction.fullyProven_iff {act : SignedAction} (h : act.Proven) :
    act.FullyProven ↔ ¬ act.HasBareTag := by
  obtain ⟨ev, hev, hbound⟩ := h
  constructor
  · rintro ⟨ev₁, hev₁, hfull⟩ ⟨ev₂, hdecoded, name, hname, hmem⟩
    obtain rfl := Option.some.inj (hev₁.decoded.symm.trans hdecoded)
    exact (fullyBound_iff hfull.bound).mp hfull name hname hmem
  · intro hbare
    refine ⟨ev, hev, (fullyBound_iff hbound).mpr fun name hname hmem => ?_⟩
    exact hbare ⟨ev, hev.decoded, name, hname, hmem⟩

/-! ### What the handlers do to the nonces -/

/-- Nonces disappear at most. Everything else may change, the clock too. -/
def Forgets (w w' : World) : Prop := ∀ r ∈ w'.db.challenges.rows, r ∈ w.db.challenges.rows

theorem Forgets.refl (w : World) : Forgets w w := fun _ hr => hr

/-- At most one nonce is new, the given one. -/
def IssuesOnly (nonce purpose : String) (w w' : World) : Prop :=
  ∀ r ∈ w'.db.challenges.rows, r ∈ w.db.challenges.rows ∨ (r.nonce = nonce ∧ r.purpose = purpose)

/-- A nonce is there. -/
def holdsNonce (nonce : String) (w : World) : Bool := (w.db.challenges.get? nonce).isSome

/-- An unexpired nonce of the purpose is deleted. -/
def Consumes (nonce purpose : String) (w w' : World) : Prop :=
  (∃ r ∈ w.db.challenges.rows, r.nonce = nonce ∧ r.purpose = purpose ∧ w.now < r.expiresAt) ∧
    holdsNonce nonce w' = false

theorem path_consumeChallenge {nonce purpose : String} {t : List (World × World)}
    {r : ChallengeRow} (h : (consumeChallenge nonce purpose).Path t (.ok (some r))) :
    ∃ x ∈ t, Consumes nonce purpose x.1 x.2 := by
  obtain ⟨w, ⟨rfl, hr⟩ | ⟨-, hr⟩⟩ := Prog.path_query h
  · have hfound := Except.ok.inj hr.symm
    have hmem := List.mem_of_find?_eq_some hfound
    have hlive := List.find?_some hfound
    simp only [ChallengeRow.live, Bool.and_eq_true, decide_eq_true_eq] at hlive
    refine ⟨_, .head _, ⟨r, hmem, hlive.1.1, hlive.1.2, hlive.2⟩, ?_⟩
    -- the key is unique, so no other row has the nonce
    have hget : w.db.challenges.get? nonce = some r := by
      rw [← hlive.1.1]
      exact Table.get?_of_mem hmem
    simp only [holdsNonce, Table.get?_deleteWhere, hget]
    simp [ChallengeRow.live, hlive]
  · cases hr

theorem path_requireChallenge {nonce purpose : String} {t : List (World × World)}
    {r : ChallengeRow} (h : (requireChallenge nonce purpose).Path t (.ok r)) :
    ∃ x ∈ t, Consumes nonce purpose x.1 x.2 := by
  obtain ⟨t₁, t₂, found, rfl, hconsume, h⟩ := Prog.path_bind_ok h
  cases found with
  | none => cases h
  | some row =>
    obtain ⟨x, hx, hc⟩ := path_consumeChallenge hconsume
    exact ⟨x, List.mem_append_left _ hx, hc⟩

/-! ### Statements that issue no nonce -/

section Forgets

variable {α : Type}

theorem forgets_execute {f : Timestamp → Db → Except AppError α × Db}
    (h : ∀ now db, (f now db).2.challenges = db.challenges) : (execute f).Steps Forgets :=
  Prog.steps_query fun w r hr => by rwa [h w.now w.db] at hr

theorem forgets_executeIgnored {f : Timestamp → Db → Db}
    (h : ∀ now db, (f now db).challenges = db.challenges) : (executeIgnored f).Steps Forgets :=
  Prog.steps_attempt fun w r hr => by rwa [h w.now w.db] at hr

theorem forgets_select (f : Db → α) : (select f).Steps Forgets := Prog.steps_read Forgets.refl

theorem forgets_consumeChallenge (nonce purpose : String) :
    (consumeChallenge nonce purpose).Steps Forgets :=
  Prog.steps_query fun _ _ hr => List.mem_of_mem_filter hr

theorem forgets_requireChallenge (nonce purpose : String) :
    (requireChallenge nonce purpose).Steps Forgets := by
  refine (forgets_consumeChallenge nonce purpose).bind fun found => ?_
  cases found <;> trivial

theorem outsideLogins_challenges : OutsideLogins fun db => db.challenges :=
  ⟨fun _ _ => rfl, fun _ _ => rfl, fun _ _ => rfl, fun _ _ => rfl⟩

theorem forgets_of_same {p : Handler α} (h : p.Steps (SamePart fun db => db.challenges)) :
    p.Steps Forgets :=
  h.mono fun w w' (hsame : w'.db.challenges = w.db.challenges) r hr => by rwa [hsame] at hr

theorem forgets_registerNew (q : Registration) (id : Uuid) :
    (registerNew q id).Steps Forgets := by
  refine (steps_registrationPlan Forgets.refl q).bind fun g => ?_
  refine Prog.steps_query fun w r hr => ?_
  cases h : Lib.replay (consumeGatesScript q.pepper q.new g.1 g.2 ⟨w.now, id⟩) w with
  | error e => simpa [h] using hr
  | ok w' =>
    simp only [h] at hr
    rwa [(spent_of_replay h).rest.2.1] at hr

end Forgets

/-! ### Accepted requests -/

theorem proven_of_verified {crypto : Nip98Crypto} {token : String} {b : ActionBinding}
    {now maxAge : Int64} (hmax : 0 ≤ maxAge.toInt) {pubkey : String}
    (h : verifySignedAction crypto token b now maxAge = .ok pubkey) :
    SignedAction.Proven ⟨crypto, token, b, now, maxAge⟩ := by
  obtain ⟨ev, hev, hbound, -⟩ := verifySignedAction_eq_ok hmax h
  exact ⟨ev, hev, hbound⟩

theorem proveNostr_proven {env : AuthEnv} {a : Answers} {token path purpose nonce pubkey : String}
    (h : proveNostr env a token path purpose nonce = .ok pubkey) :
    ∃ act, nostrAction env a token path purpose nonce = some act ∧ act.Proven ∧
      act.binding.nonce = nonce ∧ act.binding.purpose = purpose := by
  obtain ⟨url, hurl, h⟩ := bind_eq_ok_iff.mp h
  have hproven := proven_of_verified (by decide) (mapError_eq_ok_iff.mp h)
  exact ⟨_, by simp only [nostrAction, hurl, Except.toOption, Option.map_some], hproven, rfl, rfl⟩

/-- What an accepted change of state has done. -/
def Done (act : Option SignedAction) (t : List (World × World)) : Prop :=
  ∃ act', act = some act' ∧ act'.Proven ∧
    ∃ x ∈ t, Consumes act'.binding.nonce act'.binding.purpose x.1 x.2

theorem adminVerify_done {env : AdminEnv} {a : AdminAnswers} {req : AdminVerifyRequest}
    {t : List (World × World)} {pair : AdminTokenPair}
    (h : (adminVerify env a req).Path t (.ok pair)) :
    Done (some ⟨env.auth.crypto, req.adminToken, adminBinding env req.challenge, a.now,
      adminActionMaxAgeSecs⟩) t := by
  obtain ⟨t₁, t₂, _, rfl, -, h⟩ := Prog.path_bind_ok h
  obtain ⟨t₂, t₃, pubkey, rfl, hverify, h⟩ := Prog.path_bind_ok h
  obtain ⟨t₃, t₄, found, rfl, hconsume, h⟩ := Prog.path_bind_ok h
  have hverified := mapError_eq_ok_iff.mp (Prog.path_ofExcept hverify).2.symm
  cases found with
  | none => cases h
  | some row =>
    obtain ⟨x, hx, hc⟩ := path_consumeChallenge hconsume
    exact ⟨_, rfl, proven_of_verified (by decide) hverified, x, by simp [hx], hc⟩

theorem nostrLink_done {env : AuthEnv} {a : Answers} {bearer : Except AppError TokenInfo}
    {req : NostrLinkRequest} {t : List (World × World)} {pubkey : String}
    (h : (nostrLink env a bearer req).Path t (.ok pubkey)) :
    Done (nostrAction env a req.nostrToken "/auth/nostr/link" "nostr_link" req.nonce) t := by
  obtain ⟨t₁, t₂, user, rfl, -, h⟩ := Prog.path_bind_ok h
  obtain ⟨t₂, t₃, consumed, rfl, hconsume, h⟩ := Prog.path_bind_ok h
  obtain ⟨x, hx, hc⟩ := path_requireChallenge hconsume
  split_ifs at h
  · cases h
  · obtain ⟨t₃, t₄, pubkey, rfl, hprove, -⟩ := Prog.path_bind_ok h
    obtain ⟨act, hact, hproven, hnonce, hpurpose⟩ :=
      proveNostr_proven (Prog.path_ofExcept hprove).2.symm
    exact ⟨act, hact, hproven, x, by simp [hx], hnonce ▸ hpurpose ▸ hc⟩

theorem nostrRegister_done {env : AuthEnv} {a : Answers} {req : NostrRegisterRequest}
    {t : List (World × World)} {resp : AuthResponse}
    (h : (nostrRegister env a req).Path t (.ok resp)) :
    Done (nostrAction env a req.nostrToken "/auth/nostr/register" "nostr_register" req.nonce) t := by
  obtain ⟨t₁, t₂, _, rfl, -, h⟩ := Prog.path_bind_ok h
  obtain ⟨t₂, t₃, consumed, rfl, hconsume, h⟩ := Prog.path_bind_ok h
  obtain ⟨t₃, t₄, pubkey, rfl, hprove, -⟩ := Prog.path_bind_ok h
  obtain ⟨x, hx, hc⟩ := path_requireChallenge hconsume
  obtain ⟨act, hact, hproven, hnonce, hpurpose⟩ :=
    proveNostr_proven (Prog.path_ofExcept hprove).2.symm
  exact ⟨act, hact, hproven, x, by simp [hx], hnonce ▸ hpurpose ▸ hc⟩

theorem prove_done {env : ErasureEnv} {a : ErasureAnswers} {body : ProofRequest}
    {purpose path : String} {target : Option (String × String)} {t : List (World × World)}
    {r : String × Option UserRow} (h : (prove env a body purpose path target).Path t (.ok r)) :
    Done (erasureAction env a body purpose path target) t := by
  obtain ⟨t₁, t₂, url, rfl, hurl, h⟩ := Prog.path_bind_ok h
  obtain ⟨t₂, t₃, pubkey, rfl, hverify, h⟩ := Prog.path_bind_ok h
  obtain ⟨t₃, t₄, found, rfl, hconsume, h⟩ := Prog.path_bind_ok h
  have hverified := mapError_eq_ok_iff.mp (Prog.path_ofExcept hverify).2.symm
  cases found with
  | none => cases h
  | some row =>
    obtain ⟨x, hx, hc⟩ := path_consumeChallenge hconsume
    have hurl' : erasureUrl env path = .ok url := (Prog.path_ofExcept hurl).2.symm
    have haction : erasureAction env a body purpose path target = some ⟨env.auth.crypto, body.token,
        erasureBinding env url path purpose body.nonce target, a.now, erasureActionMaxAgeSecs⟩ := by
      simp only [erasureAction, hurl', Except.toOption, Option.map_some]
    exact ⟨_, haction, proven_of_verified (by decide) hverified, x, by simp [hx], hc⟩

theorem done_of_prove {α : Type} {env : ErasureEnv} {a : ErasureAnswers} {body : ProofRequest}
    {purpose path : String} {target : Option (String × String)}
    {f : String × Option UserRow → Handler α} {t : List (World × World)} {r : α}
    (h : (Prog.ofExcept (ensureEnabled env) >>= fun _ =>
      prove env a body purpose path target >>= f : Handler α).Path t (.ok r)) :
    Done (erasureAction env a body purpose path target) t := by
  obtain ⟨t₁, t₂, _, rfl, -, h⟩ := Prog.path_bind_ok h
  obtain ⟨t₂, t₃, _, rfl, hprove, -⟩ := Prog.path_bind_ok h
  obtain ⟨act, hact, hproven, x, hx, hc⟩ := prove_done hprove
  exact ⟨act, hact, hproven, x, by simp [hx], hc⟩

/-- **An accepted change of state** has verified its event and deleted its nonce. -/
theorem NonceRequest.path_ok {env : ServiceEnv} {q : NonceRequest} (hq : q.issues = none)
    {t : List (World × World)} (h : (q.program env).Path t (.ok ())) : Done (q.action env) t := by
  cases q with
  | adminChallenge nonce => cases hq
  | nostrLinkChallenge bearer nonce => cases hq
  | nostrRegisterChallenge nonce => cases hq
  | erasureChallenge purpose nonce => cases hq
  | adminVerify a req =>
    obtain ⟨t₁, t₂, pair, rfl, hpath, hret⟩ := Prog.path_bind_ok h
    cases hret
    rw [List.append_nil]
    exact adminVerify_done hpath
  | nostrLink a bearer req =>
    obtain ⟨t₁, t₂, pubkey, rfl, hpath, hret⟩ := Prog.path_bind_ok h
    cases hret
    rw [List.append_nil]
    exact nostrLink_done hpath
  | nostrRegister a req =>
    obtain ⟨t₁, t₂, resp, rfl, hpath, hret⟩ := Prog.path_bind_ok h
    cases hret
    rw [List.append_nil]
    exact nostrRegister_done hpath
  | requestErasure a body =>
    obtain ⟨t₁, t₂, id, rfl, hpath, hret⟩ := Prog.path_bind_ok h
    cases hret
    rw [List.append_nil]
    exact done_of_prove hpath
  | confirmErasure a id body =>
    obtain ⟨t₁, t₂, row, rfl, hpath, hret⟩ := Prog.path_bind_ok h
    cases hret
    rw [List.append_nil]
    exact done_of_prove hpath
  | cancelErasure a id body =>
    obtain ⟨t₁, t₂, row, rfl, hpath, hret⟩ := Prog.path_bind_ok h
    cases hret
    rw [List.append_nil]
    exact done_of_prove hpath

/-! ### What a request does to the nonces -/

theorem forgets_adminVerify (env : AdminEnv) (a : AdminAnswers) (req : AdminVerifyRequest) :
    (adminVerify env a req).Steps Forgets := by
  refine (Prog.steps_ofExcept _).bind fun _ => ?_
  refine (Prog.steps_ofExcept _).bind fun pubkey => ?_
  refine (forgets_consumeChallenge _ _).bind fun found => ?_
  cases found with
  | none => trivial
  | some row =>
    refine (forgets_select _).bind fun key => ?_
    cases key with
    | none => trivial
    | some key =>
      have hactivate : (activateIfPending env a key).Steps Forgets := by
        unfold activateIfPending
        split_ifs
        · trivial
        · trivial
        · exact forgets_execute fun _ _ => rfl
      have hsession (session : AdminSessionRow) (entry : NewAdminAudit) :
          (createAdminSessionAudited env.chainHash session entry).Steps Forgets := by
        refine forgets_execute fun now db => ?_
        split_ifs
        · rfl
        · cases db.adminSessions.insert? session <;>
            cases appendAdminAudit env.chainHash now entry db.adminAuditLogs <;> rfl
      refine hactivate.bind fun _ => (Prog.steps_ofExcept _).bind fun pair => ?_
      exact (hsession _ _).bind fun _ => (forgets_execute fun _ _ => rfl).bind fun _ => trivial

theorem forgets_nostrLink (env : AuthEnv) (a : Answers) (bearer : Except AppError TokenInfo)
    (req : NostrLinkRequest) : (nostrLink env a bearer req).Steps Forgets := by
  refine (steps_extractUserIdFromToken Forgets.refl bearer).bind fun user => ?_
  refine (forgets_requireChallenge _ _).bind fun consumed => ?_
  split_ifs
  · trivial
  · refine (Prog.steps_ofExcept _).bind fun pubkey => ?_
    refine forgets_of_same ((outsideLogins_challenges.steps_setNostrPubkey _ _).bind fun _ => ?_)
    exact (outsideLogins_challenges.steps_recordLoginEvent _).bind fun _ => trivial

theorem forgets_nostrRegister (env : AuthEnv) (a : Answers) (req : NostrRegisterRequest) :
    (nostrRegister env a req).Steps Forgets := by
  refine (Prog.steps_ofExcept _).bind fun _ => ?_
  refine (forgets_requireChallenge _ _).bind fun _ => ?_
  refine (Prog.steps_ofExcept _).bind fun pubkey => ?_
  refine (forgets_select _).bind fun existing => ?_
  refine (Prog.steps_ofExcept _).bind fun _ => ?_
  split_ifs
  · refine forgets_of_same ((outsideLogins_challenges.steps_getOrCreateUserByNostrPubkey
      _ _ _ _ _).bind fun user => ?_)
    exact outsideLogins_challenges.steps_keysAndSignIn _ _ _ _ _ _ _ _
  · refine (steps_rejectKnownFingerprint_of_refl Forgets.refl _ _).bind fun _ => ?_
    exact (forgets_registerNew _ _).bind fun _ =>
      forgets_of_same (outsideLogins_challenges.steps_signIn _ _ _ _ _ _ _)

theorem forgets_prove (env : ErasureEnv) (a : ErasureAnswers) (body : ProofRequest)
    (purpose path : String) (target : Option (String × String)) :
    (prove env a body purpose path target).Steps Forgets := by
  refine (Prog.steps_ofExcept _).bind fun url => ?_
  refine (Prog.steps_ofExcept _).bind fun pubkey => ?_
  refine (forgets_consumeChallenge _ _).bind fun found => ?_
  cases found with
  | none => trivial
  | some row => exact (forgets_select _).bind fun _ => trivial

theorem forgets_recordErasureAudit (hash : ChainHash) (action : String) (id : Uuid) :
    (recordErasureAudit hash action id).Steps Forgets := by
  refine forgets_executeIgnored fun now db => ?_
  cases appendAdminAudit hash now _ db.adminAuditLogs <;> rfl

theorem forgets_requestErasure (env : ErasureEnv) (a : ErasureAnswers) (body : ProofRequest) :
    (requestErasure env a body).Steps Forgets := by
  refine (Prog.steps_ofExcept _).bind fun _ => ?_
  refine (forgets_prove _ _ _ _ _ _).bind fun ⟨pubkey, user⟩ => ?_
  cases user with
  | none => trivial
  | some u =>
    have hinsert (id : Uuid) (hash : String) (at_ : Timestamp) :
        (insertErasureRequest id u.id hash at_).Steps Forgets := by
      refine forgets_execute fun now db => ?_
      split_ifs
      · rfl
      · rfl
      · simp only
        split <;> rfl
    have hcreate : (getOrCreateErasureRequest a u.id (env.subjectHash pubkey)
        env.gracePeriodHours).Steps Forgets := by
      refine (forgets_select _).bind fun existing => ?_
      cases existing with
      | some existing => trivial
      | none =>
        refine (hinsert _ _ _).bind fun row => ?_
        cases row with
        | some row => trivial
        | none =>
          refine (forgets_select _).bind fun winner => ?_
          cases winner <;> trivial
    exact hcreate.bind fun req => (forgets_recordErasureAudit _ _ _).bind fun _ => trivial

theorem forgets_confirmErasure (env : ErasureEnv) (a : ErasureAnswers) (id : Uuid)
    (body : ProofRequest) : (confirmErasure env a id body).Steps Forgets := by
  refine (Prog.steps_ofExcept _).bind fun _ => ?_
  refine (forgets_prove _ _ _ _ _ _).bind fun ⟨_, user⟩ => ?_
  cases user with
  | none => trivial
  | some user =>
    refine (forgets_execute fun _ _ => rfl).bind fun row => ?_
    cases row with
    | none => trivial
    | some req =>
      refine (forgets_executeIgnored fun _ _ => rfl).bind fun _ => ?_
      exact (forgets_recordErasureAudit _ _ _).bind fun _ => trivial

theorem forgets_cancelErasure (env : ErasureEnv) (a : ErasureAnswers) (id : Uuid)
    (body : ProofRequest) : (cancelErasure env a id body).Steps Forgets := by
  refine (Prog.steps_ofExcept _).bind fun _ => ?_
  refine (forgets_prove _ _ _ _ _ _).bind fun ⟨_, user⟩ => ?_
  cases user with
  | none => trivial
  | some user =>
    refine (forgets_execute fun _ _ => rfl).bind fun row => ?_
    cases row with
    | none => trivial
    | some req => exact (forgets_recordErasureAudit _ _ _).bind fun _ => trivial

/-- An action that issues a nonce. -/
def issuesNonce (x : World × World) : Bool :=
  x.2.db.challenges.rows.any fun r => r ∉ x.1.db.challenges.rows

theorem issuesNonce_self (w : World) : issuesNonce (w, w) = false := by
  simp [issuesNonce]

/-- What a request may do to the nonces. -/
def NonceRequest.Touches (q : NonceRequest) : World → World → Prop :=
  match q.issues with
  | some (nonce, purpose) => IssuesOnly nonce purpose
  | none => Forgets

theorem NonceRequest.Touches.refl (q : NonceRequest) (w : World) : q.Touches w w := by
  unfold NonceRequest.Touches
  cases q.issues with
  | none => exact Forgets.refl w
  | some p => exact fun r hr => .inl hr

theorem steps_issueChallenge (nonce purpose : String) (subject : Option String) (ttl : ℤ) :
    (issueChallenge nonce purpose subject ttl).Steps (IssuesOnly nonce purpose) := by
  refine Prog.Steps.bind (Prog.steps_query fun w r hr => ?_) fun _ => trivial
  simp only at hr
  split at hr
  · rename_i t h
    rw [(Table.insert?_eq_some_iff.mp h).2, List.mem_append, List.mem_singleton] at hr
    exact hr.imp_right fun hr => by simp [hr]
  · exact .inl hr

theorem atMost_issueChallenge (nonce purpose : String) (subject : Option String) (ttl : ℤ) :
    (issueChallenge nonce purpose subject ttl).AtMost issuesNonce (1 + 0) :=
  (Prog.atMost_query issuesNonce).bind fun _ => Prog.atMost_of_steps issuesNonce_self trivial

theorem atMost_of_steps_issue {α : Type} {p : Handler α}
    (hp : p.Steps fun w w' => issuesNonce (w, w') = false) {f : α → Handler String}
    (hf : ∀ a, (f a).AtMost issuesNonce 1) : (dropAnswer (p >>= f)).AtMost issuesNonce 1 := by
  have h := ((Prog.atMost_of_steps issuesNonce_self hp).bind hf).bind fun (_ : String) =>
    Prog.atMost_of_steps issuesNonce_self (p := (Prog.ret () : Handler Unit)) trivial
  exact h

namespace NonceRequest

variable {env : ServiceEnv}

/-- A request touches the nonces as it says. -/
theorem steps_program (q : NonceRequest) : (q.program env).Steps q.Touches := by
  cases q with
  | adminChallenge nonce =>
    exact ((Prog.steps_ofExcept _).bind fun _ => steps_issueChallenge _ _ _ _).bind fun _ => trivial
  | adminVerify a req => exact (forgets_adminVerify _ a req).bind fun _ => trivial
  | nostrLinkChallenge bearer nonce =>
    refine Prog.Steps.bind ?_ fun _ => trivial
    refine (steps_extractUserIdFromToken (fun w r hr => .inl hr) bearer).bind fun _ => ?_
    exact steps_issueChallenge _ _ _ _
  | nostrLink a bearer req => exact (forgets_nostrLink _ a bearer req).bind fun _ => trivial
  | nostrRegisterChallenge nonce =>
    exact (steps_issueChallenge _ _ _ _).bind fun _ => trivial
  | nostrRegister a req => exact (forgets_nostrRegister _ a req).bind fun _ => trivial
  | erasureChallenge purpose nonce =>
    refine Prog.Steps.bind ?_ fun _ => trivial
    refine (Prog.steps_ofExcept _).bind fun _ => ?_
    split_ifs
    · exact steps_issueChallenge _ _ _ _
    · trivial
  | requestErasure a body => exact (forgets_requestErasure _ a body).bind fun _ => trivial
  | confirmErasure a id body => exact (forgets_confirmErasure _ a id body).bind fun _ => trivial
  | cancelErasure a id body => exact (forgets_cancelErasure _ a id body).bind fun _ => trivial

/-- A request issues at most one nonce. -/
theorem atMost_program (q : NonceRequest) : (q.program env).AtMost issuesNonce 1 := by
  have hforgets {p : Handler Unit} (hp : p.Steps Forgets) : p.AtMost issuesNonce 1 := by
    have hnone : p.AtMost issuesNonce 0 :=
      Prog.atMost_of_steps issuesNonce_self
        (hp.mono fun w w' h => by simpa [issuesNonce] using fun r hr => h r hr)
    exact fun t r h => (hnone t r h).trans (Nat.zero_le 1)
  have hsteps : (q.program env).Steps q.Touches := q.steps_program
  cases q with
  | adminVerify a req => exact hforgets hsteps
  | nostrLink a bearer req => exact hforgets hsteps
  | nostrRegister a req => exact hforgets hsteps
  | requestErasure a body => exact hforgets hsteps
  | confirmErasure a id body => exact hforgets hsteps
  | cancelErasure a id body => exact hforgets hsteps
  | adminChallenge nonce =>
    exact atMost_of_steps_issue (Prog.steps_ofExcept _) fun _ => atMost_issueChallenge _ _ _ _
  | nostrLinkChallenge bearer nonce =>
    exact atMost_of_steps_issue (steps_extractUserIdFromToken issuesNonce_self bearer)
      fun _ => atMost_issueChallenge _ _ _ _
  | nostrRegisterChallenge nonce =>
    exact atMost_of_steps_issue (p := .ret ()) trivial fun _ => atMost_issueChallenge _ _ _ _
  | erasureChallenge purpose nonce =>
    refine atMost_of_steps_issue (Prog.steps_ofExcept _) fun _ => ?_
    split_ifs
    · exact atMost_issueChallenge _ _ _ _
    · intro t r h
      cases h
      exact Nat.zero_le 1

end NonceRequest

/-! ### Runs of the service -/

section Runs

variable {ι : Type}

/-- A request deletes a nonce that another one has issued and that was there ever since; it has
not expired. -/
structure Consumption (reqs : ι → NonceRequest) (es : List (Prog.Event ι World)) (k i : ι)
    (nonce purpose : String) : Prop where
  /-- The nonce was issued for the purpose. -/
  issued : (reqs k).issues = some (nonce, purpose)
  /-- The events, and the row of the nonce. -/
  events : ∃ es₁ e₀ es₂ e es₃ r, es = es₁ ++ e₀ :: (es₂ ++ e :: es₃) ∧
    r.nonce = nonce ∧ r.purpose = purpose ∧
    (e₀.who = some k ∧ r ∉ e₀.pre.db.challenges.rows ∧ r ∈ e₀.post.db.challenges.rows) ∧
    (∀ e' ∈ es₂, r ∈ e'.post.db.challenges.rows) ∧
    (e.who = some i ∧ r ∈ e.pre.db.challenges.rows ∧ e.pre.now < r.expiresAt ∧
      holdsNonce nonce e.post = false)

theorem holdsNonce_of_mem {w : World} {r : ChallengeRow} (h : r ∈ w.db.challenges.rows) :
    holdsNonce r.nonce w = true := by
  rw [holdsNonce, show w.db.challenges.get? r.nonce = some r from Table.get?_of_mem h]
  rfl

/-- One issue serves one consumption: after the first, the nonce is gone. -/
theorem Consumption.unique {reqs : ι → NonceRequest} {es : List (Prog.Event ι World)}
    {k i j : ι} {nonce purpose nonce' purpose' : String} [DecidableEq ι]
    (honce : (es.countP fun e => e.who = some k && issuesNonce (e.pre, e.post)) ≤ 1)
    (hi : Consumption reqs es k i nonce purpose) (hj : Consumption reqs es k j nonce' purpose') :
    i = j := by
  obtain ⟨hissue, es₁, e₀, es₂, e, es₃, r, rfl, hr, -, hnew, hsince, hgone⟩ := hi
  obtain ⟨hissue', es₁', e₀', es₂', e', es₃', r', heq, hr', -, hnew', hsince', hgone'⟩ := hj
  obtain ⟨rfl, -⟩ : nonce' = nonce ∧ purpose' = purpose := by simpa [hissue] using hissue'.symm
  have hissues {e : Prog.Event ι World} {r : ChallengeRow} (h : e.who = some k ∧
      r ∉ e.pre.db.challenges.rows ∧ r ∈ e.post.db.challenges.rows) :
      (e.who = some k && issuesNonce (e.pre, e.post)) = true := by
    simp only [h.1, issuesNonce, decide_true, Bool.true_and, List.any_eq_true, decide_eq_true_eq]
    exact ⟨r, h.2.2, h.2.1⟩
  -- both nonces were issued by the same event
  have hrest := Lib.split_unique heq honce (hissues hnew) (hissues hnew')
  have hheld {e : Prog.Event ι World} {r : ChallengeRow} (hr : r.nonce = nonce')
      (h : r ∈ e.post.db.challenges.rows) : holdsNonce nonce' e.post = true :=
    hr ▸ holdsNonce_of_mem h
  rcases List.append_eq_append_iff.mp hrest with ⟨as, rfl, has⟩ | ⟨as, rfl, has⟩
  · cases as with
    | nil =>
      obtain ⟨rfl, -⟩ := List.cons.inj has
      exact Option.some.inj (hgone.1.symm.trans hgone'.1)
    | cons x as =>
      obtain ⟨rfl, -⟩ := List.cons.inj has
      have h := hheld hr' (hsince' e (by simp))
      simp [hgone.2.2.2] at h
  · cases as with
    | nil =>
      obtain ⟨rfl, -⟩ := List.cons.inj has
      exact Option.some.inj (hgone.1.symm.trans hgone'.1)
    | cons x as =>
      obtain ⟨rfl, -⟩ := List.cons.inj has
      have h := hheld hr (hsince e' (by simp))
      simp [hgone'.2.2.2] at h

variable [DecidableEq ι] {env : ServiceEnv} {reqs : ι → NonceRequest} {w₀ : World}
  {es : List (Prog.Event ι World)} {c : World × (ι → Handler Unit)}

/-- A nonce that is there was issued by a request, and was there ever since. -/
theorem issued_of_run (hempty : w₀.db.challenges.rows = [])
    (hrun : (Prog.pool Forgets).Run (w₀, fun i => (reqs i).program env) es c) {r : ChallengeRow}
    (hr : r ∈ c.1.db.challenges.rows) :
    ∃ es₁ e₀ es₂ k, es = es₁ ++ e₀ :: es₂ ∧ (reqs k).issues = some (r.nonce, r.purpose) ∧
      (e₀.who = some k ∧ r ∉ e₀.pre.db.challenges.rows ∧ r ∈ e₀.post.db.challenges.rows) ∧
      ∀ e' ∈ es₂, r ∈ e'.post.db.challenges.rows := by
  rcases Prog.appeared_of_run (b := fun w => r ∈ w.db.challenges.rows) hrun hr with
    ⟨hstart, -⟩ | ⟨es₁, e₀, es₂, rfl, hpre, hpost, hsince⟩
  · simp [hempty] at hstart
  · have hevent := Prog.event_of_run (R := fun i => (reqs i).Touches)
      (fun i => NonceRequest.Touches.refl (reqs i)) hrun (fun i => (reqs i).steps_program) e₀
      (by simp)
    cases hwho : e₀.who with
    | none => exact absurd (hevent.1 hwho r hpost) hpre
    | some k =>
      have htouch := hevent.2 k hwho
      unfold NonceRequest.Touches at htouch
      cases hissues : (reqs k).issues with
      | none =>
        rw [hissues] at htouch
        exact absurd (htouch r hpost) hpre
      | some p =>
        rw [hissues] at htouch
        obtain ⟨hn, hp⟩ := (htouch r hpost).resolve_left hpre
        exact ⟨es₁, e₀, es₂, k, rfl, by rw [hissues, hn, hp], ⟨hwho, hpre, hpost⟩, hsince⟩

/-- An accepted change of state is proven and has consumed an issued nonce. -/
theorem consumption_of_run (hempty : w₀.db.challenges.rows = [])
    (hrun : (Prog.pool Forgets).Run (w₀, fun i => (reqs i).program env) es c) {i : ι}
    (hi : (reqs i).issues = none) (hret : c.2 i = .ret ()) :
    ∃ act k, (reqs i).action env = some act ∧ act.Proven ∧
      Consumption reqs es k i act.binding.nonce act.binding.purpose := by
  have hpath : (c.2 i).Path [] (.ok ()) := by
    rw [hret]
    exact .ret ()
  obtain ⟨act, hact, hproven, x, hx, ⟨r, hr, hnonce, hpurpose, hlive⟩, hgone⟩ :=
    (reqs i).path_ok hi (Prog.path_of_run hrun i hpath)
  rw [List.append_nil, Prog.eventsOf, List.mem_map] at hx
  obtain ⟨e, he, rfl⟩ := hx
  obtain ⟨hmem, hwho⟩ := List.mem_filter.mp he
  obtain ⟨before, after, rfl⟩ := List.append_of_mem hmem
  obtain ⟨c₁, hbefore, hafter⟩ := hrun.split
  have hr₁ : r ∈ c₁.1.db.challenges.rows := by
    cases hafter with
    | cons hstep _ =>
      rw [hstep.1]
      exact hr
  obtain ⟨es₁, e₀, es₂, k, rfl, hissues, hnew, hsince⟩ := issued_of_run hempty hbefore hr₁
  refine ⟨act, k, hact, hproven, ?_, es₁, e₀, es₂, e, after, r, by simp, hnonce, hpurpose, hnew,
    hsince, by simpa using hwho, hr, hlive, hgone⟩
  rw [hissues, hnonce, hpurpose]

/-- The requests that a run has accepted. -/
def Accepted (reqs : ι → NonceRequest) (progs : ι → Handler Unit) (i : ι) : Prop :=
  (reqs i).issues = none ∧ progs i = .ret ()

/-- Every accepted change of state is proven and has deleted an unexpired nonce that a request had
issued for its purpose; no issue serves two of them, so they have different nonces unless a nonce
is generated twice. -/
structure SingleUse (env : ServiceEnv) (reqs : ι → NonceRequest) (es : List (Prog.Event ι World))
    (progs : ι → Handler Unit) : Prop where
  /-- Each has an issue of its own. -/
  consumed : ∃ issuer : ι → ι,
    (∀ i, Accepted reqs progs i → ∃ act, (reqs i).action env = some act ∧ act.Proven ∧
      Consumption reqs es (issuer i) i act.binding.nonce act.binding.purpose) ∧
    ∀ i j, Accepted reqs progs i → Accepted reqs progs j → issuer i = issuer j → i = j
  /-- So the nonces differ. -/
  distinct : (∀ k k' nonce p p', (reqs k).issues = some (nonce, p) →
      (reqs k').issues = some (nonce, p') → k = k') →
    ∀ i j act act', Accepted reqs progs i → Accepted reqs progs j →
      (reqs i).action env = some act → (reqs j).action env = some act' →
      act.binding.nonce = act'.binding.nonce → i = j

theorem singleUse_of_run (env : ServiceEnv) (reqs : ι → NonceRequest)
    (hempty : w₀.db.challenges.rows = []) {w : World} {progs : ι → Handler Unit}
    (hrun : (Prog.pool Forgets).Run (w₀, fun i => (reqs i).program env) es (w, progs)) :
    SingleUse env reqs es progs := by
  have hone : ∀ i, ∃ k, Accepted reqs progs i → ∃ act, (reqs i).action env = some act ∧
      act.Proven ∧ Consumption reqs es k i act.binding.nonce act.binding.purpose := by
    intro i
    by_cases hi : Accepted reqs progs i
    · obtain ⟨act, k, h⟩ := consumption_of_run hempty hrun hi.1 hi.2
      exact ⟨k, fun _ => ⟨act, h⟩⟩
    · exact ⟨i, fun h => absurd h hi⟩
  choose issuer hissuer using hone
  have honce (k : ι) := Prog.countP_of_run hrun (reqs k).atMost_program
  have hinj : ∀ i j, Accepted reqs progs i → Accepted reqs progs j → issuer i = issuer j →
      i = j := by
    intro i j hi hj heq
    obtain ⟨_, -, -, hci⟩ := hissuer i hi
    obtain ⟨_, -, -, hcj⟩ := hissuer j hj
    rw [← heq] at hcj
    exact hci.unique (honce _) hcj
  refine ⟨⟨issuer, hissuer, hinj⟩, fun hfresh i j act act' hi hj hact hact' hnonce => ?_⟩
  obtain ⟨_, hacti, -, hci⟩ := hissuer i hi
  obtain ⟨_, hactj, -, hcj⟩ := hissuer j hj
  obtain rfl := Option.some.inj (hact.symm.trans hacti)
  obtain rfl := Option.some.inj (hact'.symm.trans hactj)
  exact hinj i j hi hj (hfresh _ _ _ _ _ hci.issued (hnonce ▸ hcj.issued))

/-- **Signed changes of state are single-use and bound.**  In every interleaving of the requests,
with nonces that expire, the accepted changes of state are single-use, and they are fully bound
exactly when none of their events has a bare tag of a bound name. -/
theorem signed_actions_single_use (env : ServiceEnv) (reqs : ι → NonceRequest)
    (hempty : w₀.db.challenges.rows = []) {w : World} {progs : ι → Handler Unit}
    (hrun : (Prog.pool Forgets).Run (w₀, fun i => (reqs i).program env) es (w, progs)) :
    SingleUse env reqs es progs ∧
      ((∀ i act, Accepted reqs progs i → (reqs i).action env = some act → act.FullyProven) ↔
        ∀ i act, Accepted reqs progs i → (reqs i).action env = some act → ¬ act.HasBareTag) := by
  have hsingle := singleUse_of_run env reqs hempty hrun
  refine ⟨hsingle, forall_congr' fun i => forall_congr' fun act => forall_congr' fun hi =>
    forall_congr' fun hact => ?_⟩
  obtain ⟨issuer, hissuer, -⟩ := hsingle.consumed
  obtain ⟨act', hact', hproven, -⟩ := hissuer i hi
  obtain rfl := Option.some.inj (hact.symm.trans hact')
  exact SignedAction.fullyProven_iff hproven

end Runs

/-! ### A request for erasure -/

/-- A signed request for erasure. -/
def erasureEvent (method : String) (more : List (List String)) : Nip98Event where
  id := "id"
  pubkey := "npub"
  createdAt := 1000
  kind := 27235
  tags := [["u", "https://api/account/erasure"], ["method", method],
    ["purpose", "erasure_request"], ["challenge", "nonce"],
    ["payload", "POST\n/api/v1/account/erasure\n\n"]] ++ more
  content := ""
  sig := "sig"

/-- The sample instance, which knows this event. -/
def erasureService (ev : Nip98Event) : ServiceEnv :=
  let auth : AuthEnv := { sampleEnv with
    crypto := { sampleEnv.crypto with
      decode := fun token => if token = "event" then some ev else none } }
  { auth := auth
    admin := ⟨auth, false, "https://admin", id, fun k => k.pubkey, fun _ _ _ _ => "hash", days 30⟩
    erasure := ⟨auth, true, 72, id, id, fun _ _ _ _ => "hash"⟩ }

/-- One request for a nonce and one for erasure. -/
def erasureRequests : Bool → NonceRequest
  | false => .erasureChallenge "erasure_request" "nonce"
  | true => .requestErasure ⟨1000, 0, 7⟩ ⟨"Nostr event", "nonce"⟩

/-- An empty database at the time of the event. -/
def erasureWorld : World := ⟨Db.empty, seconds 1000⟩

theorem erasureRequests_run {ev : Nip98Event}
    (hok : (((erasureRequests true).program (erasureService ev)).run
      (((erasureRequests false).program (erasureService ev)).run erasureWorld).2).1 = .ok ()) :
    ∃ es w progs, (Prog.pool Forgets).Run
        (erasureWorld, fun i => (erasureRequests i).program (erasureService ev)) es (w, progs) ∧
      Accepted erasureRequests progs true := by
  obtain ⟨es₁, h₁⟩ := Prog.exists_run_alone Forgets
    (erasureWorld, fun i => (erasureRequests i).program (erasureService ev)) false
  obtain ⟨es₂, h₂⟩ := Prog.exists_run_alone Forgets (_, _) true
  refine ⟨es₁ ++ es₂, _, _, h₁.trans h₂, rfl, ?_⟩
  rw [Function.update_self]
  exact congrArg Prog.ofExcept hok

/-- An accepted request for erasure was signed, over a nonce issued for it, and fully bound. -/
theorem erasureRequest_single_use :
    ∃ es k act, (erasureRequests true).action (erasureService (erasureEvent "POST" [])) = some act ∧
      act.FullyProven ∧
      Consumption erasureRequests es k true act.binding.nonce act.binding.purpose := by
  obtain ⟨es, w, progs, hrun, hacc⟩ := @erasureRequests_run (erasureEvent "POST" []) rfl
  obtain ⟨hsingle, hfull⟩ := signed_actions_single_use _ erasureRequests rfl hrun
  obtain ⟨issuer, h, -⟩ := hsingle.consumed
  obtain ⟨act, hact, -, hconsumed⟩ := h true hacc
  refine ⟨es, issuer true, act, hact, hfull.mpr ?_ true act hacc hact, hconsumed⟩
  rintro i act' ⟨hissues, -⟩ hact' ⟨ev, hdecoded, name, hname, hmem⟩
  cases i with
  | false => cases hissues
  | true =>
    obtain rfl := Option.some.inj hact'
    obtain rfl : erasureEvent "POST" [] = ev := Option.some.inj hdecoded
    revert name
    decide

/-- A second tag `u` may be there if it carries no value. -/
theorem accepted_with_second_tag :
    ∃ es w progs, (Prog.pool Forgets).Run (erasureWorld, fun i =>
        (erasureRequests i).program (erasureService (erasureEvent "POST" [["u"]]))) es (w, progs) ∧
      Accepted erasureRequests progs true ∧
      ∃ act, (erasureRequests true).action (erasureService (erasureEvent "POST" [["u"]])) =
          some act ∧ ¬ act.FullyProven := by
  obtain ⟨es, w, progs, hrun, hacc⟩ := @erasureRequests_run (erasureEvent "POST" [["u"]]) rfl
  refine ⟨es, w, progs, hrun, hacc, _, rfl, ?_⟩
  rintro ⟨ev, hev, hfull⟩
  obtain rfl : erasureEvent "POST" [["u"]] = ev := Option.some.inj hev.decoded
  exact absurd (hfull.single "u" (by decide)) (by decide)

end SmirkBackend
