import SmirkBackend.Admin.Calls
import SmirkBackend.Lib.Grants
import SmirkBackend.Lib.Rely

/-!
# Revoked operators

The guard looks the session up by the access token, and the operator's key by the token's key: it
asks whether the key has an entry that is not revoked, not whether the session was opened on that
entry.  A login reads its entry before it stores the session, so a session may be stored after the
revocation of its entry, which it then survives; once the same key has another entry, the guard
admits it.

What the calls do to entries and sessions is a register of grants (`World.register`), and every call
does only such steps as an `OperatorStep` allows (`guarantees_handler_operators`).  Where no entry
of a key and stray session of it come together (`Undisturbed`), no session of a revoked entry is
admitted (`revoked_stay_out`); `revoked_session_admitted` is a run in which one is.
-/

namespace SmirkBackend

open Lib (Prog Table Register)

/-! ### Entries and sessions -/

/-- The entries of the allowlist and the sessions, as grants and sessions. -/
def World.register (w : World) : Register Uuid Uuid String where
  grants k := (w.db.adminKeys.get? k).map fun r => ⟨r.pubkey, r.revokedAt.isNone⟩
  sessions s := (w.db.adminSessions.get? s).map fun r => ⟨r.adminKeyId, r.revokedAt.isNone⟩

/-- What a call does in one step; `owner` says whom an access token was minted for. -/
structure OperatorStep (owner : String → String) (w w' : World) : Prop where
  /-- The entries and the sessions. -/
  change : w.register.Change w'.register
  /-- A session's access token is the one it had, or one for the key of its entry. -/
  tokens : ∀ id s', w'.db.adminSessions.get? id = some s' →
    (∃ k, w.db.adminKeys.get? s'.adminKeyId = some k ∧ owner s'.accessJti = k.pubkey) ∨
      ∃ s, w.db.adminSessions.get? id = some s ∧ s.accessJti = s'.accessJti ∧
        s.adminKeyId = s'.adminKeyId

/-- Every session's access token was minted for the key of its entry. -/
def TokensOwned (owner : String → String) (w : World) : Prop :=
  ∀ id s, w.db.adminSessions.get? id = some s →
    ∃ k, w.db.adminKeys.get? s.adminKeyId = some k ∧ owner s.accessJti = k.pubkey

/-- Entries keep their keys and sessions their entries; what is revoked stays so. -/
def operatorRely : Lib.Rely World where
  rel w w' := w.register.Later w'.register
  refl w := .refl w.register
  trans h h' := h.trans h'

theorem OperatorStep.rely {owner : String → String} {w w' : World} (h : OperatorStep owner w w') :
    operatorRely.rel w w' := h.change.later

theorem register_of_eq {w w' : World} (hkeys : w'.db.adminKeys = w.db.adminKeys)
    (hsessions : w'.db.adminSessions = w.db.adminSessions) : w'.register = w.register := by
  simp only [World.register, hkeys, hsessions]

theorem OperatorStep.of_sessions {owner : String → String} {w w' : World}
    (hchange : w.register.Change w'.register)
    (hsame : ∀ id s', w'.db.adminSessions.get? id = some s' → ∃ s,
      w.db.adminSessions.get? id = some s ∧ s.accessJti = s'.accessJti ∧
        s.adminKeyId = s'.adminKeyId) : OperatorStep owner w w' :=
  ⟨hchange, fun id s' hs' => .inr (hsame id s' hs')⟩

theorem OperatorStep.of_idle {owner : String → String} {w w' : World} (h : OperatorsIdle w w') :
    OperatorStep owner w w' := by
  refine .of_sessions ?_ fun id s' hs' => ⟨s', h.sessions ▸ hs', rfl, rfl⟩
  rw [register_of_eq h.keys h.sessions]
  exact .idle _

theorem OperatorStep.refl {owner : String → String} (w : World) : OperatorStep owner w w :=
  .of_idle (.refl w)

/-- The entry has this key. -/
def KeyOf (id : Uuid) (pubkey : String) (w : World) : Prop :=
  ∃ k, w.db.adminKeys.get? id = some k ∧ k.pubkey = pubkey

theorem keyOf_stable (id : Uuid) (pubkey : String) : operatorRely.Stable (KeyOf id pubkey) := by
  rintro w w' hR ⟨k, hk, rfl⟩
  obtain ⟨g, hg, hholder, -⟩ := Register.Later.grants hR id _ (Option.map_eq_some_iff.mpr ⟨k, hk, rfl⟩)
  obtain ⟨k', hk', rfl⟩ := Option.map_eq_some_iff.mp hg
  exact ⟨k', hk', hholder⟩

/-- The session is of this entry. -/
def AdminSessionOf (id key : Uuid) (w : World) : Prop :=
  ∃ s, w.db.adminSessions.get? id = some s ∧ s.adminKeyId = key

theorem adminSessionOf_stable (id key : Uuid) : operatorRely.Stable (AdminSessionOf id key) := by
  rintro w w' hR ⟨s, hs, rfl⟩
  obtain ⟨x, hx, hgrant, -⟩ :=
    Register.Later.sessions hR id _ (Option.map_eq_some_iff.mpr ⟨s, hs, rfl⟩)
  obtain ⟨s', hs', rfl⟩ := Option.map_eq_some_iff.mp hx
  exact ⟨s', hs', hgrant⟩

/-! ### Statements -/

section Statements

variable (w : World) {owner : String → String}

theorem operatorStep_updateKeys {p : AdminKeyRow → Bool} {f : Lib.Patch AdminKeyRow}
    (hf : ∀ k, (f.set k).pubkey = k.pubkey ∧ (f.set k).revokedAt = k.revokedAt) :
    OperatorStep owner w
      { w with db := { w.db with adminKeys := w.db.adminKeys.updateWhere p f } } := by
  refine .of_sessions ?_ fun id s' hs' => ⟨s', hs', rfl, rfl⟩
  have hsame : ({ w with db := { w.db with adminKeys := w.db.adminKeys.updateWhere p f } } :
      World).register = w.register := by
    simp only [World.register, Table.get?_updateWhere, Option.map_map]
    congr 1
    funext k
    congr 1
    funext r
    simp only [Function.comp_apply]
    split_ifs
    · rw [(hf r).1, (hf r).2]
    · rfl
  rw [hsame]
  exact .idle _

/-- The register after the revocation of an entry and its sessions. -/
theorem register_revoke {env : Integrity} {clock : Timestamp} {id : Uuid} {k : AdminKeyRow}
    {keys : Table AdminKeyRow} (hrev : revokeKeys env clock id w.db.adminKeys = (some k, keys))
    (now : Timestamp) (w' : World) (hkeys : w'.db.adminKeys = keys)
    (hsessions : w'.db.adminSessions = revokeKeySessions now id w.db.adminSessions) :
    w'.register = w.register.revoke id := by
  have hsnd : keys = (revokeKeys env clock id w.db.adminKeys).2 := by rw [hrev]
  simp only [World.register, Register.revoke, hkeys, hsessions, hsnd, revokeKeys, revokeKeySessions,
    Table.get?_updateWhere, Table.get?_updateOne, Option.map_map]
  congr 1
  · funext k'
    cases hr : w.db.adminKeys.get? k' with
    | none => rfl
    | some r =>
      simp only [Option.map_some, Function.comp_apply, Option.some.injEq]
      by_cases hid : k' = id
      · cases hlive : r.revokedAt <;> simp [hid, hlive, Integrity.sign]
      · simp [hid]
  · funext s
    cases hr : w.db.adminSessions.get? s with
    | none => rfl
    | some r =>
      simp only [Option.map_some, Function.comp_apply, Option.some.injEq]
      by_cases hid : r.adminKeyId = id
      · cases hlive : r.revokedAt <;> simp [hid, hlive]
      · simp [hid]

/-- The register after a new entry. -/
theorem register_issue {row : AdminKeyRow} (hlive : row.revokedAt = none)
    {keys : Table AdminKeyRow} (hins : insertKeyRow row w.db.adminKeys = .ok keys) (w' : World)
    (hkeys : w'.db.adminKeys = keys) (hsessions : w'.db.adminSessions = w.db.adminSessions) :
    w.register.Step (.issue row.id row.pubkey) w'.register := by
  unfold insertKeyRow at hins
  split_ifs at hins with hexists
  cases hrow : w.db.adminKeys.insert? row with
  | none => simp [hrow] at hins
  | some t =>
    simp only [hrow, Except.ok.injEq] at hins
    subst hins
    have hregister : w'.register = w.register.issue row.id row.pubkey := by
      simp only [World.register, Register.issue, hkeys, hsessions]
      congr 1
      funext k
      rw [Table.get?_insert? hrow]
      by_cases hk : k = row.id
      · subst hk
        simp [Lib.key, hlive]
      · rw [Function.update_of_ne hk, if_neg (show ¬ k = Lib.key row from hk)]
    rw [hregister]
    refine .issue ?_ ?_
    · simp only [World.register, Option.map_eq_none_iff]
      exact (Table.insert?_eq_some_iff.mp hrow).1
    · rintro ⟨k, hk⟩
      simp only [World.register, Option.map_eq_some_iff, Lib.Grant.mk.injEq] at hk
      obtain ⟨r, hr, hpubkey, hr'⟩ := hk
      simp only [List.any_eq_true, Bool.and_eq_true, decide_eq_true_eq, not_exists, not_and] at hexists
      exact hexists r (Table.mem_of_get? hr) hpubkey hr'

theorem operatorStep_create (env : Integrity) (g : Generated) (input : NewAdminKey)
    (audit : NewAdminAudit) (maxLive : Int64) :
    OperatorStep owner w
      { w with db := (createAdminKeyAudited env g input audit maxLive w.db).2 } := by
  rcases createAdminKeyAudited_cases env g input audit maxLive w.db with
    hsame | ⟨keys, logs, -, hins, hdb⟩
  · rw [hsame]
    exact .refl w
  · rw [hdb]
    exact .of_sessions (.step (register_issue w rfl hins _ rfl rfl)) fun id s' hs' =>
      ⟨s', hs', rfl, rfl⟩

theorem session_of_revokeKeySessions {now : Timestamp} {key id : Uuid} {s' : AdminSessionRow}
    (h : (revokeKeySessions now key w.db.adminSessions).get? id = some s') :
    ∃ s, w.db.adminSessions.get? id = some s ∧ s.accessJti = s'.accessJti ∧
      s.adminKeyId = s'.adminKeyId := by
  rw [revokeKeySessions, Table.get?_updateWhere, Option.map_eq_some_iff] at h
  obtain ⟨s, hs, rfl⟩ := h
  refine ⟨s, hs, ?_⟩
  split_ifs <;> exact ⟨rfl, rfl⟩

theorem operatorStep_revoke (env : Integrity) (g : Generated) (id : Uuid) (audit : NewAdminAudit)
    (keepMinLive : Bool) :
    OperatorStep owner w
      { w with db := (revokeAdminKeyFull env g id audit keepMinLive w.db).2 } := by
  rcases revokeAdminKeyFull_cases env g id audit keepMinLive w.db with
    hsame | ⟨k, keys, logs, -, hrev, hdb⟩
  · rw [hsame]
    exact .refl w
  · rw [hdb]
    refine .of_sessions ?_ fun id s' hs' => session_of_revokeKeySessions w hs'
    have hregister := register_revoke w hrev g.now { w with db := { w.db with
      adminKeys := keys
      adminSessions := revokeKeySessions g.now id w.db.adminSessions
      adminAuditLogs := logs } } rfl rfl
    rw [hregister]
    exact .step (.revoke _ id)

theorem operatorStep_rotate (env : Integrity) (revokedAt : Timestamp) (g : Generated) (old : Uuid)
    (new : NewAdminKey) (audit : NewAdminAudit) :
    OperatorStep owner w
      { w with db := (rotateAdminKey env revokedAt g old new audit w.db).2 } := by
  rcases rotateAdminKey_cases env revokedAt g old new audit w.db with
    hsame | ⟨k, keys, keys', logs, hrev, hins, hdb⟩
  · rw [hsame]
    exact .refl w
  · rw [hdb]
    refine .of_sessions ?_ fun id s' hs' => session_of_revokeKeySessions w hs'
    -- the entry and its sessions go, and then the successor comes
    let mid : World := { w with db := { w.db with
      adminKeys := keys
      adminSessions := revokeKeySessions g.now old w.db.adminSessions } }
    have hmid : mid.register = w.register.revoke old := register_revoke w hrev g.now mid rfl rfl
    have hissue := register_issue mid rfl hins { w with db := { w.db with
      adminKeys := keys'
      adminSessions := revokeKeySessions g.now old w.db.adminSessions
      adminAuditLogs := logs } } rfl rfl
    rw [hmid] at hissue
    exact .rotate (.revoke _ old) hissue

theorem operatorStep_endSession (now : Timestamp) (id : Uuid) :
    OperatorStep owner w
      { w with db := { w.db with adminSessions := endSession now id w.db.adminSessions } } := by
  have hget (s : Uuid) : (endSession now id w.db.adminSessions).get? s =
      (w.db.adminSessions.get? s).map fun r =>
        if s = id ∧ r.revokedAt.isNone then { r with revokedAt := some now } else r :=
    Table.get?_updateOne _ _ _ _ _
  refine .of_sessions ?_ fun s x hx => ?_
  · have hregister : ({ w with db := { w.db with
        adminSessions := endSession now id w.db.adminSessions } } : World).register =
        w.register.closed id := by
      simp only [World.register, Register.closed, hget, Option.map_map]
      congr 1
      funext s
      cases hr : w.db.adminSessions.get? s with
      | none => rfl
      | some r =>
        simp only [Option.map_some, Function.comp_apply, Option.some.injEq]
        by_cases hid : s = id
        · cases hlive : r.revokedAt <;> simp [hid, hlive]
        · simp [hid]
    rw [hregister]
    exact .step (.closed _ id)
  · rw [hget, Option.map_eq_some_iff] at hx
    obtain ⟨r, hr, rfl⟩ := hx
    refine ⟨r, hr, ?_⟩
    split_ifs <;> exact ⟨rfl, rfl⟩

/-- A session for the key of its entry is stored. -/
theorem operatorStep_openSession {session : AdminSessionRow} {sessions : Table AdminSessionRow}
    {logs : Table AdminAuditRow} (hlive : session.revokedAt = none)
    (hins : w.db.adminSessions.insert? session = some sessions)
    (hkey : KeyOf session.adminKeyId (owner session.accessJti) w) :
    OperatorStep owner w
      { w with db := { w.db with adminSessions := sessions, adminAuditLogs := logs } } := by
  obtain ⟨k, hk, howner⟩ := hkey
  constructor
  · have hregister : ({ w with db := { w.db with
        adminSessions := sessions, adminAuditLogs := logs } } : World).register =
        w.register.opened session.id session.adminKeyId := by
      simp only [World.register, Register.opened]
      congr 1
      funext s
      rw [Table.get?_insert? hins]
      by_cases hs : s = session.id
      · subst hs
        simp [Lib.key, hlive]
      · rw [Function.update_of_ne hs, if_neg (show ¬ s = Lib.key session from hs)]
    rw [hregister]
    refine .step (.opened ?_ ?_)
    · simp only [World.register, Option.map_eq_none_iff]
      exact (Table.insert?_eq_some_iff.mp hins).1
    · simp [World.register, hk]
  · intro id s' hs'
    change sessions.get? id = some s' at hs'
    rw [Table.get?_insert? hins] at hs'
    split_ifs at hs' with hid
    · obtain rfl := Option.some.inj hs'
      exact .inl ⟨k, hk, howner.symm⟩
    · exact .inr ⟨s', hs', rfl, rfl⟩

/-- A session of the entry gets an access token for its key. -/
theorem operatorStep_renewSession (now : Timestamp) {id key : Uuid} {jti : String}
    (hsession : AdminSessionOf id key w) (hkey : KeyOf key (owner jti) w) :
    OperatorStep owner w
      { w with db := { w.db with
        adminSessions := (renewSession now id jti w.db.adminSessions).2 } } := by
  obtain ⟨s₀, hs₀, rfl⟩ := hsession
  obtain ⟨k, hk, howner⟩ := hkey
  have hget (s : Uuid) : (renewSession now id jti w.db.adminSessions).2.get? s =
      (w.db.adminSessions.get? s).map fun r =>
        if s = id ∧ (r.revokedAt.isNone && decide (now < r.expiresAt)) = true then
          { r with accessJti := jti } else r :=
    Table.get?_updateOne _ _ _ _ _
  constructor
  · have hregister : ({ w with db := { w.db with
        adminSessions := (renewSession now id jti w.db.adminSessions).2 } } : World).register =
        w.register := by
      simp only [World.register, hget, Option.map_map]
      congr 1
      funext s
      congr 1
      funext r
      simp only [Function.comp_apply]
      split_ifs <;> rfl
    rw [hregister]
    exact .idle _
  · intro s x hx
    rw [hget, Option.map_eq_some_iff] at hx
    obtain ⟨r, hr, rfl⟩ := hx
    split_ifs with hcond
    · obtain rfl := Option.some.inj (hr.symm.trans (hcond.1 ▸ hs₀))
      exact .inl ⟨k, hk, howner.symm⟩
    · exact .inr ⟨r, hr, rfl, rfl⟩

end Statements

/-! ### Calls -/

/-- Access tokens are genuine: a token that the guard accepts, and one that is minted, is for the
key that `owner` says. -/
structure AdminCall.Genuine (owner : String → String) (q : AdminCall) : Prop where
  /-- A presented token. -/
  bearer : ∀ info, q.bearer? = some (.ok info) → owner info.jti = info.pubkey
  /-- The token of a login. -/
  login : ∀ a req pubkey id pair, q = .verify a req → a.createTokenPair pubkey id = .ok pair →
    owner pair.accessJti = pubkey
  /-- The token of a renewal. -/
  renewal : ∀ a refreshToken pubkey access, q = .refresh a refreshToken →
    a.mintAccessToken pubkey = .ok access → owner access.jti = pubkey

section Calls

variable {owner : String → String}

theorem steps_guarantees {α : Type} {p : Handler α} (h : p.Steps (OperatorStep owner)) (w : World) :
    p.Guarantees operatorRely (OperatorStep owner) (fun _ _ => True) w :=
  h.guarantees (fun _ _ => trivial) w

theorem keyOf_of_active {keyMac : AdminKeyMacInput → String} {pubkey : String} {w : World}
    {k : AdminKeyRow} (h : w.db.getActiveAdminKey keyMac pubkey = some k) : KeyOf k.id pubkey w := by
  have hfound := (Option.filter_eq_some_iff.mp h).1
  have hcond := List.find?_some hfound
  simp only [Bool.and_eq_true, decide_eq_true_eq] at hcond
  exact ⟨k, Table.get?_of_mem (List.mem_of_find?_eq_some hfound), hcond.1⟩

theorem guarantees_openAdminSession (env : OperatorEnv) (a : AdminAnswers) (req : AdminVerifyRequest)
    (hgen : (AdminCall.verify a req).Genuine owner) (pubkey : String) (key : AdminKeyRow) {w : World}
    (hkey : KeyOf key.id pubkey w) :
    (openAdminSession env.admin a pubkey key).Guarantees operatorRely (OperatorStep owner)
      (fun _ _ => True) w := by
  refine Prog.Guarantees.bind (Prog.guarantees_ofExcept fun pair hpair => ?_)
  have howner : owner pair.accessJti = pubkey := hgen.login a req pubkey _ pair rfl hpair
  refine Prog.Guarantees.bind (Prog.guarantees_query fun w' hR => ⟨?_, fun _ _ => ?_⟩)
  · have hkey' : KeyOf key.id (owner pair.accessJti) w' := by
      rw [howner]
      exact keyOf_stable key.id pubkey w w' hR hkey
    simp only
    split_ifs
    · exact .refl w'
    · split
      · next hins _ => exact operatorStep_openSession w' rfl hins hkey'
      · exact .refl w'
      · exact .refl w'
  · refine Prog.Guarantees.bind ?_
    refine Prog.Steps.guarantees (Prog.steps_query fun w => ?_) (fun _ _ => trivial) _
    exact operatorStep_updateKeys w fun _ => ⟨rfl, rfl⟩

theorem guarantees_adminVerify (env : OperatorEnv) (a : AdminAnswers) (req : AdminVerifyRequest)
    (hgen : (AdminCall.verify a req).Genuine owner) (w : World) :
    (adminVerify env.admin a req).Guarantees operatorRely (OperatorStep owner) (fun _ _ => True) w := by
  refine Prog.Guarantees.bind (Prog.guarantees_ofExcept fun _ _ => ?_)
  refine Prog.Guarantees.bind (Prog.guarantees_ofExcept fun pubkey _ => ?_)
  refine Prog.Guarantees.bind (Prog.guarantees_query fun w₁ _ => ⟨.of_idle ⟨rfl, rfl, le_rfl⟩, ?_⟩)
  intro consumed _
  cases consumed with
  | none => trivial
  | some _ =>
    refine Prog.Guarantees.bind (Prog.guarantees_read .refl fun w₂ _ => ?_)
    cases hfound : w₂.db.getActiveAdminKey env.admin.keyMac pubkey with
    | none =>
      simp only [hfound]
      trivial
    | some key =>
      simp only [hfound]
      refine Prog.Guarantees.bind ?_
      -- what is known of the entry outlasts its activation
      have hopen : ∀ w', KeyOf key.id pubkey w' →
          (openAdminSession env.admin a pubkey key).Guarantees operatorRely (OperatorStep owner)
            (fun _ _ => True) w' := fun w' hkey =>
        guarantees_openAdminSession env a req hgen pubkey key hkey
      have hkey := keyOf_of_active hfound
      unfold activateIfPending
      split_ifs
      · exact hopen w₂ hkey
      · trivial
      · refine Prog.guarantees_query fun w₃ hR => ?_
        have hstep : OperatorStep owner w₃ { w₃ with db := { w₃.db with
            adminKeys := activateKeys env.admin.keyMac a.clock key.id w₃.db.adminKeys } } :=
          operatorStep_updateKeys w₃ fun _ => ⟨rfl, rfl⟩
        refine ⟨hstep, fun _ _ => hopen _ ?_⟩
        exact keyOf_stable _ _ _ _ (operatorRely.trans hR hstep.rely) hkey

theorem guarantees_adminRefresh (env : OperatorEnv) (a : RefreshAnswers) (refreshToken : String)
    (hgen : (AdminCall.refresh a refreshToken).Genuine owner) (w : World) :
    (adminRefresh env a refreshToken).Guarantees operatorRely (OperatorStep owner)
      (fun _ _ => True) w := by
  refine Prog.Guarantees.bind (Prog.guarantees_ofExcept fun _ _ => ?_)
  refine Prog.Guarantees.bind (Prog.guarantees_ofExcept fun claims _ => ?_)
  obtain ⟨pubkey, sessionId⟩ := claims
  refine Prog.Guarantees.bind (Prog.guarantees_read .refl fun w₁ _ => ?_)
  refine Prog.Guarantees.bind (Prog.guarantees_orFail fun key hfound => ?_)
  have hkey : KeyOf key.id pubkey w₁ := keyOf_of_active (Option.filter_eq_some_iff.mp hfound).1
  refine Prog.Guarantees.bind (Prog.guarantees_read .refl fun w₂ hR₁ => ?_)
  refine Prog.Guarantees.bind (Prog.guarantees_orFail fun session hsession => ?_)
  split_ifs with hrefused
  · trivial
  · obtain ⟨-, hentry⟩ := not_or.mp hrefused
    have hof : AdminSessionOf sessionId key.id w₂ :=
      ⟨session, (Option.filter_eq_some_iff.mp hsession).1, not_ne_iff.mp hentry⟩
    refine Prog.Guarantees.bind (Prog.guarantees_ofExcept fun access haccess => ?_)
    have howner : owner access.jti = pubkey := hgen.renewal a refreshToken pubkey access rfl haccess
    refine Prog.Guarantees.bind (Prog.guarantees_query fun w₃ hR₂ => ⟨?_, fun renewed _ => ?_⟩)
    · refine operatorStep_renewSession w₃ w₃.now (adminSessionOf_stable _ _ _ _ hR₂ hof) ?_
      rw [howner]
      exact keyOf_stable _ _ _ _ (operatorRely.trans hR₁ hR₂) hkey
    · exact Prog.Guarantees.bind (Prog.guarantees_orFail fun _ _ => trivial)

theorem steps_cliRevokeOthers (env : OperatorEnv) (g : Uuid → Generated) (created : Uuid)
    (keys : List AdminKeyRow) :
    (cliRevokeOthers env g created keys).Steps (OperatorStep owner) := by
  induction keys with
  | nil => trivial
  | cons k rest ih =>
    unfold cliRevokeOthers
    split_ifs
    · exact ih
    · exact (Prog.steps_query fun w => operatorStep_revoke w _ _ _ _ _).bind fun _ => ih

/-- The calls that need not know anything. -/
theorem steps_handler_operators (env : OperatorEnv) {q : AdminCall}
    (hverify : ∀ a req, q ≠ .verify a req) (hrefresh : ∀ a refreshToken, q ≠ .refresh a refreshToken) :
    (q.handler env).Steps (OperatorStep owner) := by
  cases q with
  | challenge nonce =>
    exact ((steps_adminChallenge _ _).mono fun _ _ h => .of_idle h).bind fun _ => trivial
  | verify a req => exact (hverify a req rfl).elim
  | refresh a refreshToken => exact (hrefresh a refreshToken rfl).elim
  | logout bearer =>
    refine AdminCall.steps_guarded rfl .refl fun ctx => ?_
    refine (Prog.steps_query fun w => operatorStep_endSession w _ _).bind fun _ =>
      Prog.steps_attempt fun w => .of_idle ?_
    simp only
    split <;> exact ⟨rfl, rfl, le_rfl⟩
  | me bearer => exact AdminCall.steps_guarded rfl .refl fun ctx => trivial
  | add bearer a pubkey =>
    refine AdminCall.steps_guarded rfl .refl fun ctx => ?_
    refine Prog.Steps.bind ((Prog.steps_ofExcept _).bind fun _ => ?_) fun _ => trivial
    refine (Prog.steps_query fun w => operatorStep_create w _ _ _ _ _).bind fun outcome => ?_
    cases outcome <;> trivial
  | revoke bearer g id =>
    refine AdminCall.steps_guarded rfl .refl fun ctx => ?_
    refine (Prog.steps_query fun w => operatorStep_revoke w _ _ _ _ _).bind fun outcome => ?_
    cases outcome <;> trivial
  | rotate bearer a id pubkey =>
    refine AdminCall.steps_guarded rfl .refl fun ctx => ?_
    refine Prog.Steps.bind ((Prog.steps_ofExcept _).bind fun _ => ?_) fun _ => trivial
    exact (Prog.steps_query fun w => operatorStep_rotate w _ _ _ _ _ _).bind fun created =>
      Prog.steps_orFail _ _
  | cliAdd g pubkey =>
    refine (Prog.steps_ofExcept _).bind fun pk => ?_
    refine (Prog.steps_query fun w => operatorStep_create w _ _ _ _ _).bind fun outcome => ?_
    cases outcome <;> trivial
  | cliRevoke g id =>
    refine Prog.Steps.bind (Prog.steps_query fun w => operatorStep_revoke w _ _ _ _ _)
      fun outcome => ?_
    cases outcome <;> trivial
  | cliReplace a others old pubkey revokeAll =>
    refine (Prog.steps_ofExcept _).bind fun pk => ?_
    refine (Prog.steps_query fun w => operatorStep_rotate w _ _ _ _ _ _).bind fun created => ?_
    refine (Prog.steps_orFail _ _).bind fun key => ?_
    split_ifs
    · exact (Prog.steps_read .refl).bind fun keys => steps_cliRevokeOthers _ _ _ _
    · trivial

/-- **Every call does only such steps**, whatever the others do. -/
theorem guarantees_handler_operators (env : OperatorEnv) {q : AdminCall} (hgen : q.Genuine owner)
    (w : World) :
    (q.handler env).Guarantees operatorRely (OperatorStep owner) (fun _ _ => True) w := by
  cases q with
  | verify a req =>
    refine Prog.Guarantees.bind ((guarantees_adminVerify env a req hgen w).imp (fun _ _ h => h) ?_)
    exact fun _ _ _ => trivial
  | refresh a refreshToken =>
    refine Prog.Guarantees.bind
      ((guarantees_adminRefresh env a refreshToken hgen w).imp (fun _ _ h => h) ?_)
    exact fun _ _ _ => trivial
  | _ => exact steps_guarantees (steps_handler_operators env (by simp) (by simp)) w

end Calls

/-! ### The guard -/

/-- What the guard has read when it admits a request. -/
theorem path_adminGuard {env : AdminEnv} {bearer : Except AppError AdminTokenInfo}
    {t : List (World × World)} {ctx : AdminContext} (h : (adminGuard env bearer).Path t (.ok ctx)) :
    ∃ info session key w₁ w₂, bearer = .ok info ∧ t = [(w₁, w₁), (w₂, w₂)] ∧
      w₁.db.findActiveAdminSessionByJti w₁.now info.jti = some session ∧
      w₂.db.getActiveAdminKey env.keyMac info.pubkey = some key ∧
      ctx = ⟨info.pubkey, key.id, session.id⟩ := by
  obtain ⟨_, t₁, _, rfl, hon, h₁⟩ := Prog.path_bind_ok h
  obtain ⟨rfl, -⟩ := Prog.path_ofExcept hon
  obtain ⟨_, t₂, info, rfl, hinfo, h₂⟩ := Prog.path_bind_ok h₁
  obtain ⟨rfl, hbearer⟩ := Prog.path_ofExcept hinfo
  obtain ⟨_, t₃, found, rfl, hread, h₃⟩ := Prog.path_bind_ok h₂
  obtain ⟨w₁, rfl, hsession | hfault⟩ := Prog.path_read hread
  swap
  · cases hfault
  obtain rfl := Except.ok.inj hsession
  cases hsession : w₁.db.findActiveAdminSessionByJti w₁.now info.jti with
  | none =>
    simp only [hsession] at h₃
    cases h₃
  | some session =>
    simp only [hsession] at h₃
    obtain ⟨_, t₄, found, rfl, hread', h₄⟩ := Prog.path_bind_ok h₃
    obtain ⟨w₂, rfl, hkey | hfault⟩ := Prog.path_read hread'
    swap
    · cases hfault
    obtain rfl := Except.ok.inj hkey
    cases hkey : (w₂.db.getActiveAdminKey env.keyMac info.pubkey).filter
        fun k => k.activatedAt.isSome with
    | none =>
      simp only [hkey] at h₄
      cases h₄
    | some key =>
      simp only [hkey] at h₄
      cases h₄
      exact ⟨info, session, key, w₁, w₂, mapError_eq_ok_iff.mp hbearer.symm, rfl, hsession,
        (Option.filter_eq_some_iff.mp hkey).1, rfl⟩

/-- The guard of the call `i` has admitted it by its reads of `w₁`, and now of `w₂`; `es` is what
happened until now. -/
structure Admits {ι : Type} [DecidableEq ι] (env : OperatorEnv) (call : ι → AdminCall)
    (es : List (Prog.Event ι World)) (i : ι) (w₁ w₂ : World) (ctx : AdminContext) : Prop where
  /-- The first read is behind it. -/
  first : Prog.eventsOf i es = [(w₁, w₁)]
  /-- The second read is the last. -/
  path : ∃ bearer, (call i).bearer? = some bearer ∧
    (adminGuard env.admin bearer).Path [(w₁, w₁), (w₂, w₂)] (.ok ctx)

/-- An event revokes the entry, alone or with a successor. -/
def Revokes {ι : Type} (k : Uuid) (e : Prog.Event ι World) : Prop :=
  (∃ r, e.pre.db.adminKeys.get? k = some r ∧ r.revokedAt = none) ∧
    ∃ r, e.post.db.adminKeys.get? k = some r ∧ r.revokedAt ≠ none

/-- Once an entry is revoked, no session on it is admitted. -/
def RevokedStayOut {ι : Type} [DecidableEq ι] (env : OperatorEnv) (call : ι → AdminCall)
    (es : List (Prog.Event ι World)) : Prop :=
  ∀ es₁ e es₂ i w₁ ctx, es = es₁ ++ e :: es₂ → e.who = some i →
    Admits env call es₁ i w₁ e.pre ctx → ∀ k, (∃ e' ∈ es₁, Revokes k e') →
      ∀ s, w₁.db.adminSessions.get? ctx.sessionId = some s → s.adminKeyId ≠ k

/-- No entry of a key and stray session of it come together, and no entry of the caller's key is
added while the guard looks for one. -/
structure Undisturbed {ι : Type} [DecidableEq ι] (call : ι → AdminCall)
    (es : List (Prog.Event ι World)) : Prop where
  /-- No session opens on a revoked entry whose key has another, and no entry is added for the key
  of a session that is left of a revoked entry. -/
  clean : ∀ e ∈ es, e.pre.register.CleanChange e.post.register
  /-- An entry of the caller's key that is there at the second read was there at the first. -/
  reads : ∀ es₁ e es₂ i w₁ info, es = es₁ ++ e :: es₂ → e.who = some i →
    (call i).bearer? = some (.ok info) → Prog.eventsOf i es₁ = [(w₁, w₁)] →
      ∀ r ∈ e.pre.db.adminKeys.rows, r.pubkey = info.pubkey → (w₁.db.adminKeys.get? r.id).isSome

/-- Nobody is signed in, and no key has two live entries. -/
structure NoSessions (w : World) : Prop where
  /-- No sessions. -/
  sessions : w.db.adminSessions.rows = []
  /-- The unique index. -/
  unique : ∀ k ∈ w.db.adminKeys.rows, ∀ k' ∈ w.db.adminKeys.rows, k.pubkey = k'.pubkey →
    k.revokedAt = none → k'.revokedAt = none → k = k'

theorem NoSessions.sound {w : World} (h : NoSessions w) (owner : String → String) :
    w.register.Sound ∧ TokensOwned owner w := by
  have hnone (id : Uuid) : w.db.adminSessions.get? id = none := by
    rw [Table.get?_eq_none_iff, h.sessions]
    simp
  refine ⟨⟨?_, ?_⟩, fun id s hs => by simp [hnone] at hs⟩
  · intro k k' p hk hk'
    simp only [World.register, Option.map_eq_some_iff, Lib.Grant.mk.injEq,
      Option.isNone_iff_eq_none] at hk hk'
    obtain ⟨r, hr, rfl, hlive⟩ := hk
    obtain ⟨r', hr', hpubkey, hlive'⟩ := hk'
    obtain rfl := h.unique r (Table.mem_of_get? hr) r' (Table.mem_of_get? hr') hpubkey.symm hlive
      hlive'
    exact (Table.key_of_get? hr).symm.trans (Table.key_of_get? hr')
  · rintro id p ⟨k, hsession, -⟩
    simp [World.register, hnone] at hsession

section Runs

variable {ι : Type} [DecidableEq ι] {owner : String → String} {env : OperatorEnv}
  {call : ι → AdminCall} {w₀ : World} {es : List (Prog.Event ι World)}
  {c : World × (ι → Handler Unit)}

theorem operatorStep_of_run (hgen : ∀ i, (call i).Genuine owner)
    (hrun : (Prog.pool OperatorsIdle).Run (w₀, fun i => (call i).handler env) es c) :
    ∀ e ∈ es, OperatorStep owner e.pre e.post := by
  have hevent := Prog.guarantees_of_run (R := operatorRely) (G := fun _ => OperatorStep owner)
    (Q := fun _ _ _ => True) (fun _ _ _ _ _ _ => trivial) (fun _ w => .refl w)
    (fun _ _ _ h => h.rely) (fun _ _ h => (show OperatorStep owner _ _ from .of_idle h).rely) hrun
    fun i => guarantees_handler_operators env (hgen i) w₀
  intro e he
  obtain ⟨henv, hcall⟩ := hevent e he
  cases hwho : e.who with
  | none => exact .of_idle (henv hwho)
  | some i => exact hcall i hwho

theorem TokensOwned.step {w w' : World} (h : TokensOwned owner w) (hstep : OperatorStep owner w w') :
    TokensOwned owner w' := by
  -- an entry keeps its key
  have hkeep {id : Uuid} {p : String} (hk : KeyOf id p w) : KeyOf id p w' :=
    keyOf_stable id p w w' hstep.rely hk
  intro id s' hs'
  rcases hstep.tokens id s' hs' with ⟨k, hk, howner⟩ | ⟨s, hs, hjti, hentry⟩
  · obtain ⟨k', hk', hsame⟩ := hkeep ⟨k, hk, rfl⟩
    exact ⟨k', hk', howner.trans hsame.symm⟩
  · obtain ⟨k, hk, howner⟩ := h id s hs
    obtain ⟨k', hk', hsame⟩ := hkeep ⟨k, hk, rfl⟩
    exact ⟨k', hentry ▸ hk', hjti ▸ howner.trans hsame.symm⟩

theorem sound_of_run (hgen : ∀ i, (call i).Genuine owner) (hstart : NoSessions w₀)
    (hrun : (Prog.pool OperatorsIdle).Run (w₀, fun i => (call i).handler env) es c)
    (hclean : ∀ e ∈ es, e.pre.register.CleanChange e.post.register) :
    ∀ e ∈ es, e.pre.register.Sound ∧ TokensOwned owner e.pre := by
  refine (Prog.invariant_of_run (I := fun w => w.register.Sound ∧ TokensOwned owner w) hrun ?_
    (hstart.sound owner)).1
  rintro es₁ e es₂ rfl - ⟨hsound, htokens⟩
  have hstep := operatorStep_of_run hgen hrun e (by simp)
  exact ⟨hsound.change hstep.change (hclean e (by simp)), htokens.step hstep⟩

theorem revoked_of_later {k : Uuid} {w w' : World} (hR : operatorRely.rel w w')
    (h : ∃ r, w.db.adminKeys.get? k = some r ∧ r.revokedAt ≠ none) :
    ∃ r, w'.db.adminKeys.get? k = some r ∧ r.revokedAt ≠ none := by
  obtain ⟨r, hr, hrevoked⟩ := h
  obtain ⟨g, hg, -, hover⟩ := Register.Later.grants hR k _ (Option.map_eq_some_iff.mpr ⟨r, hr, rfl⟩)
  obtain ⟨r', hr', rfl⟩ := Option.map_eq_some_iff.mp hg
  refine ⟨r', hr', fun hlive => ?_⟩
  have hdead := hover (by simp [Option.isSome_iff_ne_none, hrevoked])
  simp [hlive] at hdead

end Runs

/-- **Revoked operators stay out of undisturbed runs.** However logins, renewals, additions,
revocations and rotations interleave: unless a session opens on a revoked entry whose key has
another, an entry is added for the key of a session that is left of a revoked entry, or one is
added while the guard looks for it, no session on a revoked entry is admitted. -/
theorem revoked_stay_out {ι : Type} [DecidableEq ι] (owner : String → String) (env : OperatorEnv)
    (call : ι → AdminCall) (hgen : ∀ i, (call i).Genuine owner) (w₀ : World)
    (hstart : NoSessions w₀) {es : List (Prog.Event ι World)} {c : World × (ι → Handler Unit)}
    (hrun : (Prog.pool OperatorsIdle).Run (w₀, fun i => (call i).handler env) es c)
    (hquiet : Undisturbed call es) : RevokedStayOut env call es := by
  rintro es₁ e es₂ i w₁ ctx rfl hwho hadmits k ⟨e', he', hrevokes⟩ s hs rfl
  obtain ⟨bearer, hbearer, hpath⟩ := hadmits.path
  obtain ⟨info, session, key, w, w', rfl, ht, hsession, hkey, rfl⟩ := path_adminGuard hpath
  obtain ⟨rfl, rfl⟩ : w₁ = w ∧ e.pre = w' := by simpa using ht
  obtain ⟨c₁, -, hbefore, hpre, -⟩ := Prog.run_at hrun
  have hstep := operatorStep_of_run hgen hbefore
  -- everything after an event follows it
  have hlater : ∀ x ∈ es₁, operatorRely.rel x.post e.pre := fun x hx =>
    hpre ▸ Prog.rel_of_mem hbefore (fun y hy => (hstep y hy).rely) hx
  -- the first read is an event of the run
  obtain ⟨x, hx, -, hxpair⟩ := Prog.mem_eventsOf.mp (show (w₁, w₁) ∈ Prog.eventsOf i es₁ by
    rw [hadmits.first]
    exact List.mem_singleton_self _)
  obtain ⟨rfl, hxpost⟩ := Prod.mk.inj hxpair
  have hafter : operatorRely.rel x.pre e.pre := hxpost ▸ hlater x hx
  obtain ⟨hsound, htokens⟩ := sound_of_run hgen hstart hrun hquiet.clean x (by simp [hx])
  -- the session is live, and the token's key is that of its entry
  have hfound := List.find?_some hsession
  simp only [Bool.and_eq_true, decide_eq_true_eq] at hfound
  obtain ⟨⟨hjti, hlive⟩, -⟩ := hfound
  have hget : x.pre.db.adminSessions.get? session.id = some session :=
    Table.get?_of_mem (List.mem_of_find?_eq_some hsession)
  obtain rfl : s = session := Option.some.inj (hs.symm.trans hget)
  obtain ⟨own, hown, howner⟩ := htokens _ _ hget
  have hpubkey : own.pubkey = info.pubkey := by
    rw [← howner, hjti]
    exact (hgen i).bearer info hbearer
  -- the guard has found that very entry
  obtain ⟨found, hfoundKey, hfoundPubkey⟩ := keyOf_of_active hkey
  have hactive := (Option.filter_eq_some_iff.mp hkey).1
  have hkeyRow : e.pre.db.adminKeys.get? key.id = some key :=
    Table.get?_of_mem (List.mem_of_find?_eq_some hactive)
  have hkeyLive := List.find?_some hactive
  simp only [Bool.and_eq_true, decide_eq_true_eq] at hkeyLive
  have hthere := hquiet.reads es₁ e es₂ i x.pre info rfl hwho hbearer hadmits.first key
    (List.mem_of_find?_eq_some hactive) hkeyLive.1
  obtain ⟨old, hold⟩ := Option.isSome_iff_exists.mp hthere
  have hsame : key.id = s.adminKeyId :=
    hsound.admits_own hafter
      (show x.pre.register.sessions s.id = some ⟨s.adminKeyId, true⟩ by
        simp only [World.register, hget, Option.map_some, hlive])
      (show x.pre.register.grants s.adminKeyId = some ⟨own.pubkey, own.revokedAt.isNone⟩ by
        simp only [World.register, hown, Option.map_some])
      (show x.pre.register.grants key.id = some ⟨old.pubkey, old.revokedAt.isNone⟩ by
        simp only [World.register, hold, Option.map_some])
      (show e.pre.register.grants key.id = some ⟨own.pubkey, true⟩ by
        simp only [World.register, hkeyRow, Option.map_some, hkeyLive.1, hkeyLive.2, hpubkey])
  -- but that entry is live, and the session's was revoked
  obtain ⟨r, hr, hrevoked⟩ := revoked_of_later (hlater e' he') hrevokes.2
  obtain rfl := Option.some.inj ((hsame ▸ hkeyRow).symm.trans hr)
  exact hrevoked (Option.isNone_iff_eq_none.mp hkeyLive.2)

/-! ### A login during a revocation -/

/-- The operator's key. -/
def strayPubkey : String := "aaaaaaaaaaaaaaaaaaaaaaaaaaaaaaaaaaaaaaaaaaaaaaaaaaaaaaaaaaaaaaaa"

/-- The operator's proof of a login; the token is the nonce. -/
def loginEvent (nonce : String) : Nip98Event :=
  { sampleEvent with
    pubkey := strayPubkey
    tags := [["u", "https://admin/admin/auth/verify"], ["method", "POST"],
      ["purpose", "admin_login"], ["challenge", nonce],
      ["payload", requestDescriptor "POST" "/admin/auth/verify" "" ""],
      ["instance_id", "https://admin"]] }

/-- An instance where every proof is the operator's. -/
def strayOperators : OperatorEnv :=
  { sampleOperators with
    admin := { sampleOperators.admin with
      auth := { sampleEnv with
        crypto := { sampleEnv.crypto with decode := fun token => some (loginEvent token) } } } }

/-- The identifier of a token of a key. -/
def tokenOf (n : Char) (pubkey : String) : String := String.ofList (n :: pubkey.toList)

/-- The key of a token. -/
def tokenOwner (jti : String) : String := String.ofList jti.toList.tail

@[simp] theorem tokenOwner_tokenOf (n : Char) (pubkey : String) :
    tokenOwner (tokenOf n pubkey) = pubkey := by
  simp [tokenOwner, tokenOf]

/-- The answers to a login. -/
def loginAnswers (id : Uuid) (n : Char) : AdminAnswers where
  now := 1000
  clock := 0
  sessionId := id
  ip := none
  createTokenPair pubkey _ := .ok ⟨"access", "refresh", 1800, tokenOf n pubkey⟩

/-- The operator signs in while its entry is revoked; its key gets another entry, signs in again,
and the first access token is presented. -/
def strayCall (i : Fin 5) : AdminCall :=
  if i = 0 then .verify (loginAnswers 10 'a') ⟨"Nostr n", "n"⟩
  else if i = 1 then .cliRevoke ⟨4, 1, 1, 1, 1⟩ 1
  else if i = 2 then .cliAdd ⟨2, 2, 2, 2, 2⟩ strayPubkey
  else if i = 3 then .verify (loginAnswers 11 'b') ⟨"Nostr m", "m"⟩
  else .me (.ok ⟨strayPubkey, tokenOf 'a' strayPubkey⟩)

theorem strayCall_genuine (i : Fin 5) : (strayCall i).Genuine tokenOwner := by
  constructor
  · intro info hinfo
    unfold strayCall at hinfo
    split_ifs at hinfo <;> simp [AdminCall.bearer?] at hinfo
    subst hinfo
    exact tokenOwner_tokenOf _ _
  · intro a req pubkey id pair hcall hpair
    unfold strayCall at hcall
    split_ifs at hcall <;> cases hcall <;> cases hpair <;> exact tokenOwner_tokenOf _ _
  · intro a refreshToken pubkey access hcall
    unfold strayCall at hcall
    split_ifs at hcall

/-- The operator's entry, and two nonces. -/
def strayWorld : World where
  db := { Db.empty with
    adminKeys := ⟨[openIntegrity.sign ⟨1, strayPubkey, "admin", 0, some 0, none, none, none, ""⟩],
      by simp⟩
    challenges := ⟨[⟨"n", "admin_login", none, 10⟩, ⟨"m", "admin_login", none, 10⟩], by decide⟩ }
  now := 0

theorem strayWorld_unique : ∀ k ∈ strayWorld.db.adminKeys.rows, ∀ k' ∈ strayWorld.db.adminKeys.rows,
    k.pubkey = k'.pubkey → k.revokedAt = none → k'.revokedAt = none → k = k' := by
  intro k hk k' hk' _ _ _
  exact (List.mem_singleton.mp hk).trans (List.mem_singleton.mp hk').symm

/-- The calls, about to begin. -/
def strayStart : World × (Fin 5 → Handler Unit) :=
  (strayWorld, fun i => (strayCall i).handler strayOperators)

/-- The first login has read its entry when the entry is revoked. -/
def strayTurns : List (Fin 5 × ℕ) := [(0, 2), (1, 1), (0, 2), (2, 1), (3, 5)]

/-- When the token is presented. -/
def strayPresented : World := (Prog.play strayTurns strayStart).1

/-- The session of the first login. -/
def straySession : AdminSessionRow :=
  ⟨10, 1, strayPubkey, "refresh", tokenOf 'a' strayPubkey, none, 2592000000000, none⟩

theorem strayPresented_holds :
    ((strayPresented.db.getActiveAdminKey strayOperators.admin.keyMac strayPubkey).filter
      fun k => k.activatedAt.isSome).isSome = true ∧
    strayPresented.db.findActiveAdminSessionByJti strayPresented.now (tokenOf 'a' strayPubkey) =
      some straySession ∧
    strayPresented.db.adminSessions.get? 10 = some straySession ∧
    ∃ e ∈ Prog.playTrace strayTurns strayStart,
      ((e.pre.db.adminKeys.get? 1).any fun r => r.revokedAt.isNone) = true ∧
        ((e.post.db.adminKeys.get? 1).any fun r => r.revokedAt.isSome) = true := by
  decide +kernel

theorem authorised_stray :
    ∃ ctx, Authorised strayOperators.admin (.ok ⟨strayPubkey, tokenOf 'a' strayPubkey⟩) strayPresented ctx ∧
      ctx.pubkey = strayPubkey ∧ ctx.sessionId = 10 := by
  obtain ⟨hactive, hsession, -, -⟩ := strayPresented_holds
  obtain ⟨key, hkey⟩ := Option.isSome_iff_exists.mp hactive
  exact ⟨_, ⟨rfl, _, straySession, key, rfl, hsession, hkey, rfl⟩, rfl, rfl⟩

theorem Authorised.path {env : AdminEnv} {bearer : Except AppError AdminTokenInfo} {w : World}
    {ctx : AdminContext} (h : Authorised env bearer w ctx) :
    (adminGuard env bearer).Path [(w, w), (w, w)] (.ok ctx) := by
  obtain ⟨hon, info, session, key, rfl, hsession, hkey, rfl⟩ := h
  have hmanager : adminManager env = .ok () := by simp [adminManager, hon]
  simp only [adminGuard, hmanager, Except.mapError, Prog.ofExcept_ok, Prog.ret_bind]
  refine .act ?_
  simp only [hsession]
  refine .act ?_
  simp only [Prog.bind, hkey]
  exact .ret _

theorem trace_adminGuard {env : AdminEnv} {bearer : Except AppError AdminTokenInfo} {w : World}
    {ctx : AdminContext} (h : Authorised env bearer w ctx) {ι : Type} (i : ι)
    (body : AdminContext → Handler Unit) :
    Prog.trace i 2 (adminGuard env bearer >>= body) w = [⟨some i, w, w⟩, ⟨some i, w, w⟩] := by
  obtain ⟨hon, info, session, key, rfl, hsession, -, rfl⟩ := h
  have hmanager : adminManager env = .ok () := by simp [adminManager, hon]
  simp [adminGuard, hmanager, Except.mapError, Prog.read, select, Prog.trace, hsession]

/-- A guarded call that comes last and is admitted, on a session of an entry that was revoked. -/
theorem not_revokedStayOut {ι : Type} [DecidableEq ι] {env : OperatorEnv} {call : ι → AdminCall}
    {start : World × (ι → Handler Unit)} {turns : List (ι × ℕ)} {i : ι}
    {bearer : Except AppError AdminTokenInfo} {ctx : AdminContext} {k : Uuid}
    {s : AdminSessionRow} {w : World} (hidle : i ∉ turns.map Prod.fst)
    (hbearer : (call i).bearer? = some bearer) (hprog : start.2 i = (call i).handler env)
    (hstate : (Prog.play turns start).1 = w) (hauth : Authorised env.admin bearer w ctx)
    (hrevoked : ∃ e ∈ Prog.playTrace turns start, Revokes k e)
    (hsession : w.db.adminSessions.get? ctx.sessionId = some s) (hentry : s.adminKeyId = k) :
    ¬ RevokedStayOut env call (Prog.playTrace (turns ++ [(i, 2)]) start) := by
  intro hclaim
  -- both reads of the guard find the same
  have htrace : Prog.playTrace (turns ++ [(i, 2)]) start =
      (Prog.playTrace turns start ++ [⟨some i, w, w⟩]) ++ ⟨some i, w, w⟩ :: [] := by
    rw [Prog.playTrace_append, Prog.play_of_notMem hidle, hstate, hprog,
      AdminCall.handler_guarded hbearer, trace_adminGuard hauth, List.append_assoc]
    rfl
  refine hclaim _ _ _ i _ ctx htrace rfl ⟨?_, bearer, hbearer, hauth.path⟩ k ?_ s hsession hentry
  · rw [Prog.eventsOf_append, Prog.eventsOf_playTrace_of_notMem hidle]
    simp [Prog.eventsOf]
  · obtain ⟨e, he, hrevokes⟩ := hrevoked
    exact ⟨e, List.mem_append_left _ he, hrevokes⟩

/-- **A session of a revoked entry is admitted.** -/
theorem revoked_session_admitted :
    NoSessions strayWorld ∧ (∀ i, (strayCall i).Genuine tokenOwner) ∧
    (Prog.pool OperatorsIdle).Run strayStart (Prog.playTrace (strayTurns ++ [(4, 2)]) strayStart)
      (Prog.play (strayTurns ++ [(4, 2)]) strayStart) ∧
    ¬ RevokedStayOut strayOperators strayCall
      (Prog.playTrace (strayTurns ++ [(4, 2)]) strayStart) := by
  refine ⟨⟨rfl, ?_⟩, ?_, Prog.run_play _ _ _, ?_⟩
  · exact strayWorld_unique
  · exact strayCall_genuine
  · obtain ⟨ctx, hauth, -, hsession⟩ := authorised_stray
    obtain ⟨-, -, hfound, e, he, hbefore, hafter⟩ := strayPresented_holds
    have hstate : (Prog.play strayTurns strayStart).1 = strayPresented := by rw [strayPresented]
    obtain ⟨r, hr, hlive⟩ := (Option.any_eq_true _ _).mp hbefore
    obtain ⟨r', hr', hdead⟩ := (Option.any_eq_true _ _).mp hafter
    have hrevokes : Revokes 1 e :=
      ⟨⟨r, hr, Option.isNone_iff_eq_none.mp hlive⟩, r', hr', Option.isSome_iff_ne_none.mp hdead⟩
    exact not_revokedStayOut (by decide) rfl rfl hstate hauth ⟨e, he, hrevokes⟩
      (hsession ▸ hfound) rfl

theorem cleanChange_of_live {w w' : World} (h : ∀ r ∈ w.db.adminKeys.rows, r.revokedAt = none) :
    w.register.CleanChange w'.register := by
  have hlive (k : Uuid) (p : String) : w.register.grants k ≠ some ⟨p, false⟩ := by
    intro hk
    simp only [World.register, Option.map_eq_some_iff, Lib.Grant.mk.injEq] at hk
    obtain ⟨r, hr, -, hrevoked⟩ := hk
    simp [h r (Table.mem_of_get? hr)] at hrevoked
  refine ⟨fun _ _ hk => (hlive _ _ hk).elim, fun _ _ s => ?_⟩
  rintro ⟨k, -, hk⟩
  exact hlive _ _ hk

theorem cleanChange_of_eq {w w' : World} (hkeys : w'.db.adminKeys.rows = w.db.adminKeys.rows)
    (hsessions : w'.db.adminSessions.rows = w.db.adminSessions.rows) :
    w.register.CleanChange w'.register := by
  have hsame : w'.register = w.register := by
    simp only [World.register, Table.get?, hkeys, hsessions]
  rw [hsame]
  exact ⟨fun hnone hsome => by simp [hnone] at hsome, fun hnone hsome => by simp [hnone] at hsome⟩

/-- The login is over when the entry is revoked. -/
def orderlyTurns : List (Fin 5 × ℕ) := [(0, 4), (1, 1), (4, 1)]

/-- A login, a revocation and a late request. -/
theorem orderly_revocation :
    RevokedStayOut strayOperators strayCall (Prog.playTrace orderlyTurns strayStart) := by
  have hevents : ∀ e ∈ Prog.playTrace orderlyTurns strayStart,
      ((∀ r ∈ e.pre.db.adminKeys.rows, r.id = 1) ∧ (e.pre.db.adminKeys.get? 1).isSome = true) ∧
        ((∀ r ∈ e.pre.db.adminKeys.rows, r.revokedAt = none) ∨
          (e.post.db.adminKeys.rows = e.pre.db.adminKeys.rows ∧
            e.post.db.adminSessions.rows = e.pre.db.adminSessions.rows)) := by
    decide +kernel
  refine revoked_stay_out tokenOwner strayOperators strayCall strayCall_genuine strayWorld ⟨rfl, ?_⟩
    (Prog.run_play OperatorsIdle orderlyTurns strayStart) ⟨fun e he => ?_, ?_⟩
  · exact strayWorld_unique
  · rcases (hevents e he).2 with hlive | ⟨hkeys, hsessions⟩
    · exact cleanChange_of_live hlive
    · exact cleanChange_of_eq hkeys hsessions
  · rintro es₁ e es₂ i w₁ info hes - - hfirst r hr -
    obtain ⟨x, hx, -, hxpair⟩ := Prog.mem_eventsOf.mp (show (w₁, w₁) ∈ Prog.eventsOf i es₁ by
      rw [hfirst]
      exact List.mem_singleton_self _)
    obtain ⟨rfl, -⟩ := Prod.mk.inj hxpair
    rw [(hevents e (by simp [hes])).1.1 r hr]
    exact (hevents x (by simp [hes, hx])).1.2

end SmirkBackend
