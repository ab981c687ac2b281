import SmirkBackend.Admin.Calls

/-!
# The cap and the floor of the allowlist

Over the network an entry is added only below the cap and revoked only if another one is left, and
both are counted under the lock of the allowlist.  The cap holds over every interleaving.  The
floor does not: it counts every entry that is not revoked, also a pending one whose time for the
first login is over, which nobody can sign in with any more.

`keyFloor_iff` proves both: the cap holds in every run, and a revocation leaves an entry to sign in
with (`LeavesLogin`) exactly if not all the others have lapsed.  In `revocation_locks_out` the last
operator is revoked.
-/

namespace SmirkBackend

open Lib (Prog Table)

/-- An entry that somebody can sign in with: it is active, or pending and still in time. -/
def CanLogIn (now : Timestamp) (k : AdminKeyRow) : Bool :=
  k.revokedAt.isNone && (k.activatedAt.isSome || !k.activationDeadline.any fun d => d < now)

/-- An entry that is not revoked, but pending past its deadline. -/
def Lapsed (now : Timestamp) (k : AdminKeyRow) : Bool :=
  k.revokedAt.isNone && !CanLogIn now k

/-- Somebody can sign in with another entry. -/
def LeavesLogin (id : Uuid) (w : World) : Prop :=
  ∃ k ∈ w.db.adminKeys.rows, k.id ≠ id ∧ CanLogIn w.now k = true

/-- How many of the other entries have lapsed. -/
def lapsedOthers (id : Uuid) (w : World) : ℕ :=
  w.db.adminKeys.rows.countP fun k => k.id ≠ id && Lapsed w.now k

/-! ### Counting -/

theorem liveKeyCount_insertKeyRow {row : AdminKeyRow} (hlive : row.revokedAt = none)
    {t t' : Table AdminKeyRow} (h : insertKeyRow row t = .ok t') :
    liveKeyCount t' = liveKeyCount t + 1 := by
  unfold insertKeyRow at h
  split_ifs at h
  cases hins : t.insert? row with
  | none => simp [hins] at h
  | some t₁ =>
    simp only [hins, Except.ok.injEq] at h
    subst h
    simp [liveKeyCount, (Table.insert?_eq_some_iff.mp hins).2, hlive]

theorem liveKeyCount_updateWhere (t : Table AdminKeyRow) (p : AdminKeyRow → Bool)
    (f : Lib.Patch AdminKeyRow) (hf : ∀ k, (f.set k).revokedAt = k.revokedAt) :
    liveKeyCount (t.updateWhere p f) = liveKeyCount t := by
  simp only [liveKeyCount, Table.updateWhere, List.countP_map]
  refine List.countP_congr fun k _ => ?_
  simp only [Function.comp_apply]
  split <;> simp [hf]

theorem liveKeyCount_activateKeys (keyMac : AdminKeyMacInput → String) (clock : Timestamp)
    (id : Uuid) (t : Table AdminKeyRow) :
    liveKeyCount (activateKeys keyMac clock id t) = liveKeyCount t :=
  liveKeyCount_updateWhere t _ _ fun _ => rfl

theorem liveKeyCount_touchKeys (now : Timestamp) (id : Uuid) (t : Table AdminKeyRow) :
    liveKeyCount (touchKeys now id t) = liveKeyCount t :=
  liveKeyCount_updateWhere t _ _ fun _ => rfl

theorem liveKeyCount_revokeKeys {env : Integrity} {clock : Timestamp} {id : Uuid}
    {t t' : Table AdminKeyRow} {k : AdminKeyRow} (h : revokeKeys env clock id t = (some k, t')) :
    liveKeyCount t' + 1 = liveKeyCount t := by
  have hfst : (revokeKeys env clock id t).1 = some k := by rw [h]
  have hsnd : (revokeKeys env clock id t).2 = t' := by rw [h]
  simp only [revokeKeys, Table.updateOne, Option.map_eq_some_iff, Option.filter_eq_some_iff,
    Option.isNone_iff_eq_none] at hfst
  obtain ⟨old, ⟨hold, hlive⟩, -⟩ := hfst
  have hcount := Table.countP_updateOne t (g := fun k => k.revokedAt.isNone)
    { set := fun k => env.sign { k with revokedAt := some clock } } hold (by simp [hlive])
    fun k => k.revokedAt.isNone
  simp only [hlive, Integrity.sign, Option.isNone_none, Option.isNone_some] at hcount
  rw [← hsnd]
  simpa [liveKeyCount, revokeKeys, Integrity.sign] using hcount

/-! ### Steps -/

/-- The allowlist grows only below the cap. -/
def WithinCap (max : Int64) (w w' : World) : Prop :=
  liveKeyCount w'.db.adminKeys ≤ liveKeyCount w.db.adminKeys ∨
    (liveKeyCount w'.db.adminKeys = liveKeyCount w.db.adminKeys + 1 ∧
      (liveKeyCount w.db.adminKeys : ℤ) < max.toInt)

/-- An entry is revoked, and it was not the last one. -/
def RevokesOneOf (env : Integrity) (id : Uuid) (w w' : World) : Prop :=
  ∃ clock k, 1 < liveKeyCount w.db.adminKeys ∧ w'.now = w.now ∧
    revokeKeys env clock id w.db.adminKeys = (some k, w'.db.adminKeys)

/-- What a call does to the allowlist in one step. -/
structure AdminCall.KeyStep (env : OperatorEnv) (q : AdminCall) (w w' : World) : Prop where
  /-- The cap. -/
  cap : WithinCap env.maxLive w w'
  /-- The floor. -/
  floor : ∀ bearer g id, q = .revoke bearer g id →
    w'.db.adminKeys = w.db.adminKeys ∨ RevokesOneOf env.integrity id w w'

theorem AdminCall.KeyStep.of_eq {env : OperatorEnv} {q : AdminCall} {w w' : World}
    (h : w'.db.adminKeys = w.db.adminKeys) : q.KeyStep env w w' where
  cap := .inl (by rw [h])
  floor _ _ _ _ := .inl h

theorem AdminCall.KeyStep.of_idle {env : OperatorEnv} {q : AdminCall} {w w' : World}
    (h : OperatorsIdle w w') : q.KeyStep env w w' := .of_eq h.keys

theorem WithinCap.le {max : Int64} {w w' : World} (h : WithinCap max w w')
    (hcount : (liveKeyCount w.db.adminKeys : ℤ) ≤ max.toInt) :
    (liveKeyCount w'.db.adminKeys : ℤ) ≤ max.toInt := by
  rcases h with h | ⟨h, hbelow⟩ <;> omega

theorem AdminCall.KeyStep.of_cap {env : OperatorEnv} {q : AdminCall} {w w' : World}
    (hq : ∀ bearer g id, q ≠ .revoke bearer g id) (h : WithinCap env.maxLive w w') :
    q.KeyStep env w w' where
  cap := h
  floor bearer g id hrevoke := (hq bearer g id hrevoke).elim

theorem steps_adminVerify_keys (env : OperatorEnv) (a : AdminAnswers) (req : AdminVerifyRequest) :
    (adminVerify env.admin a req).Steps ((AdminCall.verify a req).KeyStep env) := by
  refine (Prog.steps_ofExcept _).bind fun _ => (Prog.steps_ofExcept _).bind fun pubkey => ?_
  refine ((steps_consumeChallenge_idle _ _).mono fun _ _ h => .of_idle h).bind fun consumed => ?_
  cases consumed with
  | none => trivial
  | some _ =>
    refine (Prog.steps_read fun w => .of_eq rfl).bind fun found => ?_
    cases found with
    | none => trivial
    | some key =>
      refine Prog.Steps.bind ?_ fun _ => ?_
      · unfold activateIfPending
        split_ifs
        · trivial
        · trivial
        · rw [activateAdminKey_eq]
          refine Prog.steps_query fun w => .of_cap (by simp) (.inl ?_)
          exact (liveKeyCount_activateKeys _ _ _ _).le
      · refine (Prog.steps_ofExcept _).bind fun pair => Prog.Steps.bind ?_ fun _ => ?_
        · refine Prog.steps_query fun w => .of_eq ?_
          simp only
          split_ifs
          · rfl
          · split <;> rfl
        · rw [touchAdminKeyLastUsed_eq]
          refine Prog.Steps.bind (Prog.steps_query fun w => .of_cap (by simp) (.inl ?_))
            fun _ => trivial
          exact (liveKeyCount_touchKeys _ _ _).le

theorem steps_adminRefresh_keys (env : OperatorEnv) (a : RefreshAnswers) (refreshToken : String) :
    (adminRefresh env a refreshToken).Steps ((AdminCall.refresh a refreshToken).KeyStep env) := by
  refine (Prog.steps_ofExcept _).bind fun _ => (Prog.steps_ofExcept _).bind fun claims => ?_
  refine (Prog.steps_read fun w => .of_eq rfl).bind fun found => ?_
  refine (Prog.steps_orFail _ _).bind fun key => (Prog.steps_read fun w => .of_eq rfl).bind
    fun session => (Prog.steps_orFail _ _).bind fun session => ?_
  split_ifs
  · trivial
  · refine (Prog.steps_ofExcept _).bind fun access => ?_
    refine (Prog.steps_query fun w => .of_eq rfl).bind fun renewed => ?_
    exact (Prog.steps_orFail _ _).bind fun _ => trivial

theorem withinCap_createAdminKeyAudited (env : OperatorEnv) (g : Generated) (input : NewAdminKey)
    (audit : NewAdminAudit) (w : World) :
    WithinCap env.maxLive w
      { w with db := (createAdminKeyAudited env.integrity g input audit env.maxLive w.db).2 } := by
  rcases createAdminKeyAudited_cases env.integrity g input audit env.maxLive w.db with
    hsame | ⟨keys, logs, hcap, hins, hdb⟩
  · exact .inl (by rw [hsame])
  · rw [hdb]
    exact .inr ⟨liveKeyCount_insertKeyRow rfl hins, hcap⟩

theorem liveKeyCount_rotateAdminKey (env : Integrity) (revokedAt : Timestamp) (g : Generated)
    (old : Uuid) (new : NewAdminKey) (audit : NewAdminAudit) (db : Db) :
    liveKeyCount (rotateAdminKey env revokedAt g old new audit db).2.adminKeys =
      liveKeyCount db.adminKeys := by
  rcases rotateAdminKey_cases env revokedAt g old new audit db with
    hsame | ⟨k, keys, keys', logs, hrev, hins, hdb⟩
  · rw [hsame]
  · rw [hdb]
    show liveKeyCount keys' = liveKeyCount db.adminKeys
    rw [liveKeyCount_insertKeyRow rfl hins, liveKeyCount_revokeKeys hrev]

theorem revokesOneOf_of_revoke (env : Integrity) (g : Generated) (id : Uuid)
    (audit : NewAdminAudit) (w : World) :
    (revokeAdminKeyFull env g id audit true w.db).2.adminKeys = w.db.adminKeys ∨
      RevokesOneOf env id w { w with db := (revokeAdminKeyFull env g id audit true w.db).2 } := by
  rcases revokeAdminKeyFull_cases env g id audit true w.db with
    hsame | ⟨k, keys, logs, hmin, hrev, hdb⟩
  · exact .inl (by rw [hsame])
  · rw [hdb]
    exact .inr ⟨g.keyTime, k, hmin rfl, rfl, hrev⟩

theorem RevokesOneOf.withinCap {env : Integrity} {id : Uuid} {w w' : World}
    (h : RevokesOneOf env id w w') (max : Int64) : WithinCap max w w' := by
  obtain ⟨clock, k, -, -, hrev⟩ := h
  have hcount := liveKeyCount_revokeKeys hrev
  exact .inl (by omega)

/-- **Every step of a call over the network keeps the cap and the floor.** -/
theorem steps_handler_keys (env : OperatorEnv) {q : AdminCall} (hq : q.overNetwork = true) :
    (q.handler env).Steps (q.KeyStep env) := by
  have hrefl (w : World) : q.KeyStep env w w := .of_eq rfl
  cases q with
  | challenge nonce =>
    exact ((steps_adminChallenge _ _).mono fun _ _ h => .of_idle h).bind fun _ => trivial
  | verify a req => exact (steps_adminVerify_keys env a req).bind fun _ => trivial
  | refresh a refreshToken => exact (steps_adminRefresh_keys env a refreshToken).bind fun _ => trivial
  | logout bearer =>
    refine AdminCall.steps_guarded rfl hrefl fun ctx => ?_
    refine (Prog.steps_query fun w => .of_eq rfl).bind fun _ => Prog.steps_attempt fun w => .of_eq ?_
    simp only
    split <;> rfl
  | me bearer => exact AdminCall.steps_guarded rfl hrefl fun ctx => trivial
  | add bearer a pubkey =>
    refine AdminCall.steps_guarded rfl hrefl fun ctx => ?_
    refine Prog.Steps.bind ((Prog.steps_ofExcept _).bind fun _ => ?_) fun _ => trivial
    refine Prog.Steps.bind (Prog.steps_query fun w => .of_cap (by simp) ?_) fun outcome => ?_
    · exact withinCap_createAdminKeyAudited env _ _ _ w
    · cases outcome <;> trivial
  | revoke bearer g id =>
    refine AdminCall.steps_guarded rfl hrefl fun ctx => ?_
    refine Prog.Steps.bind (Prog.steps_query fun w => ?_) fun outcome => ?_
    · rcases revokesOneOf_of_revoke env.integrity g id
          (operatorAudit ctx "admin_key_revoked" (some (uuidText id))) w with hsame | hone
      · exact .of_eq hsame
      · refine ⟨hone.withinCap _, fun bearer' g' id' hcall => ?_⟩
        obtain ⟨-, -, rfl⟩ := AdminCall.revoke.inj hcall
        exact .inr hone
    · cases outcome <;> trivial
  | rotate bearer a id pubkey =>
    refine AdminCall.steps_guarded rfl hrefl fun ctx => ?_
    refine Prog.Steps.bind ((Prog.steps_ofExcept _).bind fun _ => ?_) fun _ => trivial
    refine Prog.Steps.bind (Prog.steps_query fun w => .of_cap (by simp) ?_) fun created =>
      Prog.steps_orFail _ _
    exact .inl (liveKeyCount_rotateAdminKey _ _ _ _ _ _ _).le
  | cliAdd g pubkey => simp [AdminCall.overNetwork] at hq
  | cliRevoke g id => simp [AdminCall.overNetwork] at hq
  | cliReplace a others old pubkey revokeAll => simp [AdminCall.overNetwork] at hq

/-! ### The floor -/

theorem liveKeyCount_eq (now : Timestamp) (t : Table AdminKeyRow) :
    liveKeyCount t = t.rows.countP (Lapsed now) + t.rows.countP (CanLogIn now) := by
  unfold liveKeyCount
  induction t.rows with
  | nil => rfl
  | cons k rest ih =>
    simp only [List.countP_cons, ih]
    cases hrevoked : k.revokedAt <;> cases hlogin : CanLogIn now k
    · simp [Lapsed, hrevoked, hlogin]
      omega
    · simp [Lapsed, hrevoked, hlogin]
      omega
    · simp [Lapsed, hrevoked]
    · simp [CanLogIn, hrevoked] at hlogin

theorem countP_lapsed_revokeKeys (env : Integrity) (clock now : Timestamp) (id : Uuid)
    (t : Table AdminKeyRow) :
    (revokeKeys env clock id t).2.rows.countP (Lapsed now) =
      t.rows.countP fun k => k.id ≠ id && Lapsed now k := by
  simp only [revokeKeys, Table.updateOne, Table.updateWhere, List.countP_map]
  refine List.countP_congr fun k _ => ?_
  by_cases hid : k.id = id
  · cases hrevoked : k.revokedAt with
    | none => simp [Lib.key, hid, hrevoked, Lapsed, Integrity.sign]
    | some _ => simp [Lib.key, hid, hrevoked, Lapsed]
  · simp [Lib.key, hid]

/-- **What the floor is worth**: a revocation leaves an entry to sign in with exactly if one of the
others has not lapsed. -/
theorem leavesLogin_iff {env : Integrity} {id : Uuid} {w w' : World}
    (h : RevokesOneOf env id w w') :
    LeavesLogin id w' ↔ lapsedOthers id w + 1 < liveKeyCount w.db.adminKeys := by
  obtain ⟨clock, k, -, hnow, hrev⟩ := h
  have hkeys : (revokeKeys env clock id w.db.adminKeys).2 = w'.db.adminKeys := by rw [hrev]
  have hlapsed : w'.db.adminKeys.rows.countP (Lapsed w'.now) = lapsedOthers id w := by
    rw [← hkeys, hnow]
    exact countP_lapsed_revokeKeys env clock w.now id w.db.adminKeys
  have hcount := liveKeyCount_revokeKeys hrev
  have hsplit := liveKeyCount_eq w'.now w'.db.adminKeys
  -- somebody can sign in exactly if some entry is left that has not lapsed
  have hpos : LeavesLogin id w' ↔ 0 < w'.db.adminKeys.rows.countP (CanLogIn w'.now) := by
    rw [List.countP_pos_iff]
    constructor
    · rintro ⟨k', hmem, -, hlogin⟩
      exact ⟨k', hmem, hlogin⟩
    · rintro ⟨k', hmem, hlogin⟩
      refine ⟨k', hmem, fun hid => ?_, hlogin⟩
      have hlive : k'.revokedAt = none := by
        simp only [CanLogIn, Bool.and_eq_true, Option.isNone_iff_eq_none] at hlogin
        exact hlogin.1
      rcases mem_revokeKeys (hkeys ▸ hmem) with ⟨-, hrevoked⟩ | ⟨-, hrevoked⟩
      · exact hrevoked hid hlive
      · simp [hlive] at hrevoked
  rw [hpos]
  omega

/-- The entries are counted before the revocation, so one that can be signed in with is left when no
other has lapsed. -/
theorem leavesLogin_of_none_lapsed {env : Integrity} {id : Uuid} {w w' : World}
    (h : RevokesOneOf env id w w') (hnone : lapsedOthers id w = 0) : LeavesLogin id w' := by
  have hiff := leavesLogin_iff h
  obtain ⟨clock, k, hfloor, -⟩ := h
  refine hiff.mpr ?_
  rw [hnone, Nat.zero_add]
  exact hfloor

/-! ### Runs -/

/-- Others leave the allowlist alone while time passes. -/
def KeysKept (w w' : World) : Prop := w'.db.adminKeys = w.db.adminKeys ∧ w.now ≤ w'.now

/-- An event is a request's revocation of the entry. -/
def RevokesOver {ι : Type} (call : ι → AdminCall) (id : Uuid) (e : Prog.Event ι World) : Prop :=
  (∃ i bearer g, e.who = some i ∧ call i = .revoke bearer g id) ∧
    (∃ k ∈ e.pre.db.adminKeys.rows, k.id = id ∧ k.revokedAt = none) ∧
      ∃ k ∈ e.post.db.adminKeys.rows, k.id = id ∧ k.revokedAt ≠ none

/-- There is never an entry too many. -/
def AtMostLive (max : Int64) (w : World) : Prop := (liveKeyCount w.db.adminKeys : ℤ) ≤ max.toInt

theorem RevokesOver.revokesOneOf {ι : Type} {env : OperatorEnv} {call : ι → AdminCall} {id : Uuid}
    {e : Prog.Event ι World} (h : RevokesOver call id e)
    (hstep : ∀ i, e.who = some i → (call i).KeyStep env e.pre e.post) :
    RevokesOneOf env.integrity id e.pre e.post := by
  obtain ⟨⟨i, bearer, g, hwho, hcall⟩, ⟨k, hk, hid, hlive⟩, k', hk', hid', hrevoked⟩ := h
  rcases (hstep i hwho).floor bearer g id hcall with hsame | hone
  · rw [hsame] at hk'
    obtain rfl : k' = k := Table.eq_of_mem_of_key hk' hk (hid'.trans hid.symm)
    exact (hrevoked hlive).elim
  · exact hone

/-- **The cap and the floor.** However requests over the network and the passing of time
interleave, the allowlist never outgrows its cap, and a revocation leaves an entry to sign in with
exactly if not all other entries have lapsed; so it does whenever none of them has. -/
theorem keyFloor_iff {ι : Type} [DecidableEq ι] (env : OperatorEnv) (call : ι → AdminCall)
    (hnet : ∀ i, (call i).overNetwork = true) (w₀ : World) (hstart : AtMostLive env.maxLive w₀)
    {es : List (Prog.Event ι World)} {c : World × (ι → Handler Unit)}
    (hrun : (Prog.pool KeysKept).Run (w₀, fun i => (call i).handler env) es c) :
    ((∀ e ∈ es, AtMostLive env.maxLive e.pre) ∧ AtMostLive env.maxLive c.1) ∧
      ∀ e ∈ es, ∀ id, RevokesOver call id e →
        (LeavesLogin id e.post ↔ lapsedOthers id e.pre + 1 < liveKeyCount e.pre.db.adminKeys) ∧
        (lapsedOthers id e.pre = 0 → LeavesLogin id e.post) := by
  have hevent := Prog.event_of_run (R := fun i => (call i).KeyStep env) (fun i w => .of_eq rfl) hrun
    fun i => steps_handler_keys env (hnet i)
  constructor
  · refine Prog.invariant_of_run hrun (fun es₁ e es₂ hes _ hcap => ?_) hstart
    obtain ⟨henv, hcall⟩ := hevent e (by simp [hes])
    cases hwho : e.who with
    | none =>
      unfold AtMostLive
      rw [(henv hwho).1]
      exact hcap
    | some i => exact (hcall i hwho).cap.le hcap
  · intro e he id hrevokes
    have hone := hrevokes.revokesOneOf (hevent e he).2
    exact ⟨leavesLogin_iff hone, leavesLogin_of_none_lapsed hone⟩

/-! ### A lockout -/

/-- The operator's entry. -/
def operatorKey : AdminKeyRow :=
  sampleOperators.integrity.sign ⟨1, "op", "admin", 0, some 0, none, none, none, ""⟩

/-- A pending entry whose time for the first login is over at `6`. -/
def lateKey : AdminKeyRow :=
  sampleOperators.integrity.sign ⟨2, "new", "admin", 0, none, some 5, none, none, ""⟩

/-- The operator is signed in, and the other entry was never used. -/
def lockoutWorld : World where
  db := { Db.empty with
    adminKeys := ⟨[operatorKey, lateKey], by simp [Lib.key, operatorKey, lateKey, Integrity.sign]⟩
    adminSessions := ⟨[⟨3, 1, "op", "refresh", "jti", none, 1000, none⟩], by simp⟩ }
  now := 10

/-- The operator revokes its own entry. -/
def lockoutCall (_ : Unit) : AdminCall := .revoke (.ok ⟨"op", "jti"⟩) ⟨4, 10, 10, 10, 10⟩ 1

/-- The request, about to begin. -/
def lockoutStart : World × (Unit → Handler Unit) :=
  (lockoutWorld, fun i => (lockoutCall i).handler sampleOperators)

/-- A revocation that succeeds and leaves nobody. -/
theorem revocation_locks_out :
    AtMostLive sampleOperators.maxLive lockoutWorld ∧
    (Prog.pool KeysKept).Run lockoutStart (Prog.playTrace [((), 3)] lockoutStart)
      (Prog.play [((), 3)] lockoutStart) ∧
    ¬ ∀ e ∈ Prog.playTrace [((), 3)] lockoutStart, ∀ id, RevokesOver lockoutCall id e →
      LeavesLogin id e.post := by
  refine ⟨by unfold AtMostLive; decide +kernel, Prog.run_play KeysKept _ _, fun hclaim => ?_⟩
  have hlast : ∃ e ∈ Prog.playTrace [((), 3)] lockoutStart, e.who = some () ∧
      (∃ k ∈ e.pre.db.adminKeys.rows, k.id = 1 ∧ k.revokedAt = none) ∧
      (∃ k ∈ e.post.db.adminKeys.rows, k.id = 1 ∧ k.revokedAt ≠ none) ∧
      ¬ ∃ k ∈ e.post.db.adminKeys.rows, k.id ≠ 1 ∧ CanLogIn e.post.now k = true := by
    decide +kernel
  obtain ⟨e, he, hwho, hbefore, hafter, hnobody⟩ := hlast
  exact hnobody (hclaim e he 1 ⟨⟨(), _, _, hwho, rfl⟩, hbefore, hafter⟩)

/-- While the other entry is still in time, the same revocation is safe. -/
theorem timely_revocation_is_safe :
    ∃ e ∈ Prog.playTrace [((), 3)] ({ lockoutWorld with now := 3 }, lockoutStart.2),
      RevokesOver lockoutCall 1 e ∧ LeavesLogin 1 e.post := by
  have hstart : AtMostLive sampleOperators.maxLive { lockoutWorld with now := 3 } := by
    unfold AtMostLive
    decide +kernel
  have hlast : ∃ e ∈ Prog.playTrace [((), 3)] ({ lockoutWorld with now := 3 }, lockoutStart.2),
      e.who = some () ∧ (∃ k ∈ e.pre.db.adminKeys.rows, k.id = 1 ∧ k.revokedAt = none) ∧
      (∃ k ∈ e.post.db.adminKeys.rows, k.id = 1 ∧ k.revokedAt ≠ none) ∧
      lapsedOthers 1 e.pre = 0 := by
    unfold lapsedOthers
    decide +kernel
  obtain ⟨e, he, hwho, hbefore, hafter, hnone⟩ := hlast
  have hrevokes : RevokesOver lockoutCall 1 e := ⟨⟨(), _, _, hwho, rfl⟩, hbefore, hafter⟩
  exact ⟨e, he, hrevokes, ((keyFloor_iff sampleOperators lockoutCall (fun _ => rfl) _ hstart
    (Prog.run_play KeysKept [((), 3)] ({ lockoutWorld with now := 3 }, lockoutStart.2))).2
      e he 1 hrevokes).2 hnone⟩

end SmirkBackend
