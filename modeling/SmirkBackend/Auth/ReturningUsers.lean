import SmirkBackend.Auth.FailedLogins

/-!
# Returning users

A returning wallet is found by its BTC key at one endpoint and by its Nostr key at the other, and
both fill in the optional values that its row lacks.  The column of the fingerprint is unique.  The
first endpoint leaves out a fingerprint that is on another row; the second fills it in, and the
statement fails.

So a returning BTC key signs in whatever the fingerprint (`extensionRegister_signsIn_iff`), while a
returning Nostr key does not when its row lacks the fingerprint and another row has it
(`FingerprintElsewhere`, `nostrRegister_signsIn_iff`); `nostrRegister_locked_out` is one.
-/

namespace SmirkBackend

open Lib (Table Prog)

/-! ### Unique columns -/

/-- No two rows share a value of a unique column. -/
def UniqueUsers (db : Db) : Prop := ∀ r ∈ db.users.rows, collision db.users.rows r = none

theorem uniqueUsers_iff {db : Db} : UniqueUsers db ↔ ∀ r ∈ db.users.rows, ∀ r' ∈ db.users.rows,
    ∀ c v, UniqueColumn.of c r = some v → UniqueColumn.of c r' = some v → r'.id = r.id := by
  simp only [UniqueUsers, collision_eq_none_iff, heldByOther, List.any_eq_false]
  constructor
  · intro h r hr r' hr' c v hv hv'
    by_contra hne
    exact h r hr c r' hr' (by simp [hne, hv, hv'])
  · intro h r hr c r' hr' hheld
    simp only [Bool.and_eq_true, decide_eq_true_eq] at hheld
    obtain ⟨⟨hne, hsome⟩, hsame⟩ := hheld
    obtain ⟨v, hv⟩ := Option.isSome_iff_exists.mp hsome
    exact hne (h r hr r' hr' c v hv (hsame.trans hv))

theorem id_eq_of_no_collision {rows : List UserRow} {r r' : UserRow}
    (h : collision rows r = none) (hr' : r' ∈ rows) {c : UniqueColumn} {v : String}
    (hv : c.of r = some v) (hv' : c.of r' = some v) : r'.id = r.id := by
  by_contra hne
  have hfree := collision_eq_none_iff.mp h c
  simp only [heldByOther, List.any_eq_false] at hfree
  exact hfree r' hr' (by simp [hne, hv, hv'])

theorem uniqueUsers_insertUser {r : UserRow} {db db' : Db} (h : UniqueUsers db)
    (hins : db.insertUser r = .ok db') : UniqueUsers db' := by
  obtain ⟨hfree, users, husers, rfl⟩ := insertUser_eq_ok_iff.mp hins
  have hrows : users.rows = db.users.rows ++ [r] := (Table.insert?_eq_some_iff.mp husers).2
  rw [uniqueUsers_iff] at h ⊢
  intro r₁ hr₁ r₂ hr₂ c v hv₁ hv₂
  rw [hrows, List.mem_append, List.mem_singleton] at hr₁ hr₂
  rcases hr₁ with hr₁ | rfl
  · rcases hr₂ with hr₂ | rfl
    · exact h r₁ hr₁ r₂ hr₂ c v hv₁ hv₂
    · exact (id_eq_of_no_collision hfree hr₁ hv₂ hv₁).symm
  · rcases hr₂ with hr₂ | rfl
    · exact id_eq_of_no_collision hfree hr₂ hv₁ hv₂
    · rfl

/-- A changed row keeps the columns unique. -/
theorem uniqueUsers_updateUser (u : Uuid) (f : Lib.Patch UserRow) {db : Db} (h : UniqueUsers db) :
    UniqueUsers (db.updateUser u f).2 := by
  rcases updateUser_cases u f db with ⟨c, hup⟩ | ⟨-, hup⟩ | ⟨r, hr, hup⟩
  · rw [hup]
    exact h
  · rw [hup]
    exact h
  · have hfree : collision db.users.rows (f.set r) = none := by
      unfold Db.updateUser at hup
      simp only [hr] at hup
      cases hcol : collision db.users.rows (f.set r) with
      | none => rfl
      | some c => simp [hcol] at hup
    rw [hup]
    rw [uniqueUsers_iff] at h ⊢
    -- a row afterwards is the changed one, or was there before
    have hrow : ∀ x ∈ (db.users.updateOne u (fun _ => true) f).2.rows,
        x = f.set r ∨ x ∈ db.users.rows := by
      intro x hx
      have hget := Table.get?_of_mem hx
      rw [Table.get?_updateOne] at hget
      obtain ⟨y, hy, hxy⟩ := Option.map_eq_some_iff.mp hget
      have hmem := Table.mem_of_get? hy
      split_ifs at hxy with hkey
      · left
        have hyr : y = r := by
          rw [hkey.1] at hy
          exact Option.some.inj (hy.symm.trans hr)
        rw [← hxy, hyr]
      · right
        rwa [← hxy]
    intro r₁ hr₁ r₂ hr₂ c v hv₁ hv₂
    rcases hrow r₁ hr₁ with rfl | hr₁
    · rcases hrow r₂ hr₂ with rfl | hr₂
      · rfl
      · exact id_eq_of_no_collision hfree hr₂ hv₁ hv₂
    · rcases hrow r₂ hr₂ with rfl | hr₂
      · exact (id_eq_of_no_collision hfree hr₁ hv₂ hv₁).symm
      · exact h r₁ hr₁ r₂ hr₂ c v hv₁ hv₂

/-! ### Filling in -/

/-- The row has no fingerprint, and another row has the submitted one. -/
def FingerprintElsewhere (pepper : Pepper) (db : Db) (R : UserRow) (fingerprint : Option String) :
    Prop :=
  R.seedFingerprint = none ∧ ∃ fp, fingerprint = some fp ∧
    ∃ r ∈ db.users.rows, r.id ≠ R.id ∧ r.seedFingerprint = some (pepper "seed_fingerprint" fp)

/-- What is filled in collides with the fingerprint of another row, or with nothing. -/
theorem collision_fill_eq_none_iff {pepper : Pepper} {db : Db} {R : UserRow} {o : Optionals}
    (hdb : UniqueUsers db) (hR : R ∈ db.users.rows) :
    collision db.users.rows ((o.fill pepper).set R) = none ↔
      ¬ FingerprintElsewhere pepper db R o.seedFingerprint := by
  have hkept (c : UniqueColumn) (hc : c ≠ .seedFingerprint) :
      heldByOther db.users.rows ((o.fill pepper).set R) c = false := by
    rw [← collision_eq_none_iff.mp (hdb R hR) c]
    cases c with
    | username => rfl
    | pubkeyHash => rfl
    | nostrPubkey => rfl
    | seedFingerprint => exact (hc rfl).elim
  have hfilled : ∀ v, ((o.fill pepper).set R).seedFingerprint = some v ↔
      R.seedFingerprint = some v ∨
        R.seedFingerprint = none ∧ o.seedFingerprint.map (pepper "seed_fingerprint") = some v := by
    intro v
    cases hfp : R.seedFingerprint <;> simp [Optionals.fill, hfp]
  constructor
  · rintro hfree ⟨hnone, fp, hfp, r, hr, hne, hheld⟩
    have hown : ((o.fill pepper).set R).seedFingerprint = some (pepper "seed_fingerprint" fp) :=
      (hfilled _).mpr (.inr ⟨hnone, by rw [hfp]; rfl⟩)
    have hid : r.id = ((o.fill pepper).set R).id :=
      id_eq_of_no_collision (c := .seedFingerprint) hfree hr hown hheld
    exact hne hid
  · intro hnot
    rw [collision_eq_none_iff]
    intro c
    by_cases hc : c = .seedFingerprint
    · subst hc
      simp only [heldByOther, List.any_eq_false, Bool.and_eq_true, decide_eq_true_eq]
      rintro r hr ⟨⟨hne, hsome⟩, hsame⟩
      obtain ⟨v, hv⟩ := Option.isSome_iff_exists.mp hsome
      have hheld : r.seedFingerprint = some v := hsame.trans hv
      rcases (hfilled v).mp hv with hown | ⟨hnone, hsubmitted⟩
      · have hid : r.id = R.id :=
          id_eq_of_no_collision (c := .seedFingerprint) (hdb R hR) hr hown hheld
        exact hne hid
      · obtain ⟨fp, hfp, rfl⟩ := Option.map_eq_some_iff.mp hsubmitted
        exact hnot ⟨hnone, fp, hfp, r, hr, hne, hheld⟩
    · exact hkept c hc

/-- No statement fails. -/
def noFaults : ℕ → Bool := fun _ => false

/-- Filling in succeeds unless it meets the fingerprint of another row. -/
theorem backfillOptionals_exec (pepper : Pepper) {R : UserRow} (o : Optionals) {w : World}
    (hdb : UniqueUsers w.db) (hR : w.db.users.get? R.id = some R) (n : ℕ) :
    (¬ FingerprintElsewhere pepper w.db R o.seedFingerprint ∧
      ∃ user w' m, (backfillOptionals pepper R o).exec noFaults n w = ((.ok user, w'), m) ∧
        user.id = R.id ∧ (w'.db.users.get? R.id).isSome ∧ w'.db.sessions = w.db.sessions) ∨
    (FingerprintElsewhere pepper w.db R o.seedFingerprint ∧
      ∃ e w' m, (backfillOptionals pepper R o).exec noFaults n w = ((.error e, w'), m)) := by
  unfold backfillOptionals
  cases hneeded : o.needed R with
  | false =>
    left
    refine ⟨?_, R, w, n, rfl, rfl, by rw [hR]; rfl, rfl⟩
    rintro ⟨hnone, fp, hfp, -⟩
    simp [Optionals.needed, hnone, hfp] at hneeded
  | true =>
    have hmem : R ∈ w.db.users.rows := Table.mem_of_get? hR
    simp only [Bool.not_true, Bool.false_eq_true, if_false, execute, Prog.exec_query, noFaults,
      Db.updateUser, hR]
    cases hcol : collision w.db.users.rows ((o.fill pepper).set R) with
    | none =>
      left
      refine ⟨(collision_fill_eq_none_iff hdb hmem).mp hcol, _, _, _, rfl, rfl, ?_, rfl⟩
      simp [Table.get?_updateOne_self, hR]
    | some c =>
      right
      have helse : FingerprintElsewhere pepper w.db R o.seedFingerprint := by
        by_contra hnot
        rw [(collision_fill_eq_none_iff hdb hmem).mpr hnot] at hcol
        cases hcol
      exact ⟨helse, _, _, _, rfl⟩

/-! ### Signing in -/

/-- The request is answered with a session of `u`, when no statement fails. -/
def SignsInAs (p : Handler AuthResponse) (w : World) (u : Uuid) : Prop :=
  ∃ resp w' n, p.exec noFaults 0 w = ((.ok resp, w'), n) ∧ resp.user.id = u

/-- The name, if one is sent, is valid, and the assets of the keys are known. -/
structure Usable (username : Option String) (keys : List AssetPublicKey) : Prop where
  /-- The name. -/
  valid : validateOptional username = .ok ()
  /-- The assets. -/
  known : ∀ k ∈ keys, (parseAsset k.asset).isOk

/-- A session of the user can be opened. -/
structure Openable (a : Answers) (platform : Platform) (u : Uuid) (db : Db) : Prop where
  /-- The tokens are minted. -/
  minted : (a.createTokenPair u platform a.sessionId).isOk
  /-- The identifier of the session is new. -/
  unused : db.sessions.get? a.sessionId = none

theorem signIn_user {env : AuthEnv} {a : Answers} {user : UserRow} {kind : LoginKind}
    {isNew : Bool} {w w' : World} {r : Except AppError AuthResponse}
    (h : (signIn env a user kind.platform kind.deviceInfo kind.asset isNew).Outcome w r w') :
    ∀ resp, r = .ok resp → resp.user.id = user.id := by
  have hkeeps : (signIn env a user kind.platform kind.deviceInfo kind.asset isNew).Keeps
      (fun _ => True) fun resp => resp.user.id = user.id := by
    refine (Prog.keeps_of_forall (fun _ => trivial) _).bind fun pair (_ : True) => ?_
    exact (Prog.keeps_of_forall (fun _ => trivial) _).bind fun _ (_ : True) => rfl
  exact (hkeeps.outcome h trivial).2

/-- Once a returning user is found, its row is filled in, its keys are stored and it signs in. -/
theorem finish_backfill_iff (env : AuthEnv) {a : Answers} (kind : LoginKind) {R : UserRow}
    (o : Optionals) (keys : List AssetPublicKey) {w : World} (hdb : UniqueUsers w.db)
    (hR : w.db.users.get? R.id = some R) (hopen : Openable a kind.platform R.id w.db) (n : ℕ) :
    (∃ resp w' m, (LoginPlan.finish env a kind ⟨.backfill R o, keys, false⟩).exec noFaults n w =
      ((.ok resp, w'), m) ∧ resp.user.id = R.id) ↔
    (∀ k ∈ keys, (parseAsset k.asset).isOk) ∧
      ¬ FingerprintElsewhere env.pepper w.db R o.seedFingerprint := by
  simp only [LoginPlan.finish, FirstWrite.run]
  rw [Prog.exec_bind]
  rcases backfillOptionals_exec env.pepper o hdb hR n with
    ⟨hnot, user, w₁, m, hfill, hid, hthere, hsessions⟩ | ⟨helse, e, w₁, m, hfill⟩
  · rw [hfill]
    obtain ⟨⟨⟨r, w'⟩, m'⟩, hrest⟩ : ∃ x, (upsertAllKeys user.id keys >>= fun _ => signIn env a user
        kind.platform kind.deviceInfo kind.asset false).exec noFaults m w₁ = x := ⟨_, rfl⟩
    have hgoes := (rest_kept (by rw [hid]; exact hthere) hrest).2
    have hgo : GoesThrough a noFaults m kind.platform user.id keys w₁.db ↔
        ∀ k ∈ keys, (parseAsset k.asset).isOk := by
      constructor
      · exact fun h => h.stored.known
      · exact fun h => ⟨⟨h, fun _ _ => rfl⟩, hid ▸ hopen.minted, hsessions ▸ hopen.unused, rfl⟩
    rw [hgo] at hgoes
    have hown : ∀ resp, r = .ok resp → resp.user.id = R.id := by
      intro resp hresp
      have hout := Prog.outcome_exec noFaults (upsertAllKeys user.id keys >>= fun _ => signIn env a
        user kind.platform kind.deviceInfo kind.asset false) m w₁
      rw [hrest] at hout
      rcases Prog.outcome_bind hout with ⟨e, -, hr⟩ | ⟨_, w₂, -, hsign⟩
      · cases hr.symm.trans hresp
      · exact (signIn_user hsign resp hresp).trans hid
    rw [and_iff_left hnot, ← hgoes]
    constructor
    · rintro ⟨resp, w'', m'', hres, -⟩
      exact ⟨resp, congrArg (fun x => x.1.1) (hrest.symm.trans hres)⟩
    · rintro ⟨resp, rfl⟩
      exact ⟨resp, w', m', hrest, hown resp rfl⟩
  · rw [hfill]
    constructor
    · rintro ⟨resp, w'', m'', hres, -⟩
      cases congrArg (fun x => x.1.1) hres
    · exact fun h => (h.2 helse).elim

/-! ### The two endpoints -/

/-- A request proves the Nostr key of the user `R`, and a session can be opened. -/
structure ReturningNpub (env : AuthEnv) (a : Answers) (req : NostrRegisterRequest) (w : World)
    (R : UserRow) : Prop where
  /-- The nonce can be consumed. -/
  nonce : (w.db.challenges.rows.find?
    (ChallengeRow.live w.now req.nonce "nostr_register")).isSome
  /-- The key is proven, and it is the user's. -/
  proven : ∃ pubkey, proveNostr env a req.nostrToken "/auth/nostr/register" "nostr_register"
    req.nonce = .ok pubkey ∧ w.db.findUserByNostrPubkey pubkey = some R
  /-- A session can be opened. -/
  openable : Openable a .nostr R.id w.db

/-- A request proves the BTC key of the user `R`, and a session can be opened. -/
structure ReturningKey (env : AuthEnv) (a : Answers) (req : ExtensionRegisterRequest) (w : World)
    (R : UserRow) : Prop where
  /-- The timestamp is close to the clock. -/
  fresh : checkDrift a.now req.signedTimestamp = .ok ()
  /-- The key is proven, and it is the user's. -/
  proven : ∃ key, btcKey req.keys = some key ∧
    env.verifyBitcoinSignature (authMessage req.signedTimestamp) req.signature key.publicKey =
      .ok () ∧
    w.db.getUserByPubkeyHash env.pepper (env.hashPublicKey key.publicKey) = some R
  /-- A session can be opened. -/
  openable : Openable a .extension R.id w.db

theorem nostrPlan_exec {env : AuthEnv} {a : Answers} {req : NostrRegisterRequest} {w : World}
    {R : UserRow} (h : ReturningNpub env a req w R)
    (hname : validateOptional req.username = .ok ()) :
    ∃ w₀ m, (nostrPlan env a req).exec noFaults 0 w =
        ((.ok ⟨.backfill R req.optionals, req.keys, false⟩, w₀), m) ∧
      w₀.db.users = w.db.users ∧ w₀.db.sessions = w.db.sessions := by
  obtain ⟨pubkey, hproof, hknown⟩ := h.proven
  obtain ⟨consumed, hconsumed⟩ := Option.isSome_iff_exists.mp h.nonce
  have hfound (cs : Table ChallengeRow) :
      ({ w.db with challenges := cs } : Db).findUserByNostrPubkey pubkey = some R := hknown
  let live := ChallengeRow.live w.now req.nonce "nostr_register"
  refine ⟨⟨{ w.db with challenges := w.db.challenges.deleteWhere live }, w.now⟩, 3, ?_, rfl, rfl⟩
  simp only [nostrPlan, hname, Prog.ofExcept_ok, Prog.ret_bind, requireChallenge, consumeChallenge,
    execute, Prog.query, Prog.act_bind, Prog.exec, noFaults, hconsumed, hproof, select, Prog.read,
    hfound, Option.isSome_some, enforcePow, nostrPubkeyPlan, Prog.pure_eq, Bool.false_eq_true,
    if_false, if_true]
  rfl

/-- What a returning BTC key is planned to do: a fingerprint of another row is left out. -/
theorem extensionPlan_exec {env : AuthEnv} {a : Answers} {req : ExtensionRegisterRequest}
    {w : World} {R : UserRow} (h : ReturningKey env a req w R)
    (hname : validateOptional req.username = .ok ()) :
    ∃ fingerprint m, (extensionPlan env a req).exec noFaults 0 w =
        ((.ok ⟨.backfill R (req.optionals fingerprint), req.keys, false⟩, w), m) ∧
      ¬ FingerprintElsewhere env.pepper w.db R fingerprint := by
  obtain ⟨key, hkey, hsigned, hknown⟩ := h.proven
  have hplan (fingerprint : Option String) (m : ℕ) (hfp : ∀ n,
      (fingerprintForRow env (some R) req.seedFingerprint).exec noFaults n w =
        ((.ok fingerprint, w), n + m)) : ∃ m, (extensionPlan env a req).exec noFaults 0 w =
          ((.ok ⟨.backfill R (req.optionals fingerprint), req.keys, false⟩, w), m) := by
    simp only [extensionPlan, hkey, hname, h.fresh, hsigned, Prog.ofExcept_ok, Prog.ret_bind,
      select, Prog.read, Prog.act_bind, Prog.exec, noFaults, hknown, Option.isSome_some,
      Bool.false_eq_true, if_false, if_true, provenPlan, enforcePow]
    rw [Prog.exec_bind, hfp]
    simp only [pubkeyHashPlan, select, Prog.read, Prog.act_bind, Prog.ret_bind, Prog.exec, noFaults,
      hknown, Bool.false_eq_true, if_false, Prog.pure_eq]
    exact ⟨_, rfl⟩
  unfold fingerprintForRow at hplan
  cases hfp : req.seedFingerprint with
  | none =>
    obtain ⟨m, hm⟩ := hplan none 0 fun n => by rw [hfp]; rfl
    exact ⟨none, m, hm, fun helse => by obtain ⟨-, fp, hfp, -⟩ := helse; cases hfp⟩
  | some fp =>
    cases howner : w.db.getUserBySeedFingerprint env.pepper fp with
    | none =>
      obtain ⟨m, hm⟩ := hplan (some fp) 1 fun n => by
        simp [hfp, select, Prog.read, Prog.exec, noFaults, howner]
      refine ⟨some fp, m, hm, ?_⟩
      rintro ⟨-, fp', heq, r, hr, -, hheld⟩
      obtain rfl := Option.some.inj heq
      have hnot := List.find?_eq_none.mp howner r hr
      simp [hheld] at hnot
    | some owner =>
      by_cases hid : owner.id = R.id
      · obtain ⟨m, hm⟩ := hplan (some fp) 1 fun n => by
          simp [hfp, select, Prog.read, Prog.exec, noFaults, howner, hid]
        refine ⟨some fp, m, hm, ?_⟩
        -- the row has the fingerprint itself
        rintro ⟨hnone, -⟩
        have howns := List.find?_some howner
        have hsame : owner = R := Table.eq_of_mem_of_key (List.mem_of_find?_eq_some howner)
          (List.mem_of_find?_eq_some hknown) hid
        simp [hsame, hnone] at howns
      · obtain ⟨m, hm⟩ := hplan none 1 fun n => by
          simp [hfp, select, Prog.read, Prog.exec, noFaults, howner, hid]
        exact ⟨none, m, hm, fun helse => by obtain ⟨-, fp, hfp, -⟩ := helse; cases hfp⟩

theorem signsIn_iff_of_plan {env : AuthEnv} {a : Answers} (call : LoginCall) {R : UserRow}
    {o : Optionals} {keys : List AssetPublicKey} {w w₀ : World} {m : ℕ} (hdb : UniqueUsers w.db)
    (hR : w.db.users.get? R.id = some R) (hopen : Openable a call.kind.platform R.id w.db)
    (hplan : (call.plan env a).exec noFaults 0 w = ((.ok ⟨.backfill R o, keys, false⟩, w₀), m))
    (husers : w₀.db.users = w.db.users) (hsessions : w₀.db.sessions = w.db.sessions) :
    SignsInAs (call.handler env a) w R.id ↔ (∀ k ∈ keys, (parseAsset k.asset).isOk) ∧
      ¬ FingerprintElsewhere env.pepper w.db R o.seedFingerprint := by
  have hdb₀ : UniqueUsers w₀.db := by
    unfold UniqueUsers
    rw [husers]
    exact hdb
  have hfinish := finish_backfill_iff env call.kind o keys hdb₀
    (by rw [husers]; exact hR) ⟨hopen.minted, hsessions ▸ hopen.unused⟩ m
  have helse : FingerprintElsewhere env.pepper w₀.db R o.seedFingerprint ↔
      FingerprintElsewhere env.pepper w.db R o.seedFingerprint := by
    simp only [FingerprintElsewhere, husers]
  rw [← helse, ← hfinish, SignsInAs, call.handler_eq, Prog.exec_bind, hplan]

theorem valid_of_signsInAs {username : Option String} {p : Handler AuthResponse} {w : World}
    {u : Uuid} (h : SignsInAs (.ofExcept (validateOptional username) >>= fun _ => p) w u) :
    validateOptional username = .ok () := by
  obtain ⟨resp, w', n, hexec, -⟩ := h
  cases hname : validateOptional username with
  | ok _ => rfl
  | error e =>
    rw [hname] at hexec
    cases congrArg (fun x => x.1.1) hexec

/-- **A returning BTC key signs in**, whatever the fingerprint it submits. -/
theorem extensionRegister_signsIn_iff {env : AuthEnv} {a : Answers}
    {req : ExtensionRegisterRequest} {w : World} {R : UserRow} (hdb : UniqueUsers w.db)
    (h : ReturningKey env a req w R) :
    SignsInAs (extensionRegister env a req) w R.id ↔ Usable req.username req.keys := by
  obtain ⟨key, hkey, -, hknown⟩ := h.proven
  have hR : w.db.users.get? R.id = some R :=
    Table.get?_of_mem (List.mem_of_find?_eq_some hknown)
  have hsigns (hname : validateOptional req.username = .ok ()) :
      SignsInAs (extensionRegister env a req) w R.id ↔
        ∀ k ∈ req.keys, (parseAsset k.asset).isOk := by
    obtain ⟨fingerprint, m, hplan, hnot⟩ := extensionPlan_exec h hname
    have hiff := signsIn_iff_of_plan (.extension req) hdb hR h.openable hplan rfl rfl
    exact hiff.trans (and_iff_left hnot)
  constructor
  · intro hin
    have hname : validateOptional req.username = .ok () := by
      simp only [extensionRegister, hkey] at hin
      exact valid_of_signsInAs hin
    exact ⟨hname, (hsigns hname).mp hin⟩
  · rintro ⟨hname, hknown⟩
    exact (hsigns hname).mpr hknown

/-- **When a returning Nostr key signs in.** A request that proves the Nostr key of a user is
answered with a session of that user if and only if the name and the assets it submits are usable,
and its fingerprint is not one of another row that the row of the user lacks. -/
theorem nostrRegister_signsIn_iff {env : AuthEnv} {a : Answers} {req : NostrRegisterRequest}
    {w : World} {R : UserRow} (hdb : UniqueUsers w.db) (h : ReturningNpub env a req w R) :
    SignsInAs (nostrRegister env a req) w R.id ↔ Usable req.username req.keys ∧
      ¬ FingerprintElsewhere env.pepper w.db R req.seedFingerprint := by
  obtain ⟨pubkey, -, hknown⟩ := h.proven
  have hR : w.db.users.get? R.id = some R :=
    Table.get?_of_mem (List.mem_of_find?_eq_some hknown)
  have hsigns (hname : validateOptional req.username = .ok ()) :
      SignsInAs (nostrRegister env a req) w R.id ↔ (∀ k ∈ req.keys, (parseAsset k.asset).isOk) ∧
        ¬ FingerprintElsewhere env.pepper w.db R req.seedFingerprint := by
    obtain ⟨w₀, m, hplan, husers, hsessions⟩ := nostrPlan_exec h hname
    exact signsIn_iff_of_plan (.nostr req) hdb hR h.openable hplan husers hsessions
  constructor
  · intro hin
    have hname : validateOptional req.username = .ok () := valid_of_signsInAs hin
    obtain ⟨hassets, hnot⟩ := (hsigns hname).mp hin
    exact ⟨⟨hname, hassets⟩, hnot⟩
  · rintro ⟨⟨hname, hassets⟩, hnot⟩
    exact (hsigns hname).mpr ⟨hassets, hnot⟩

/-- A user known by a Nostr key, without a fingerprint, and a user with the fingerprint `fp`; a
nonce for a registration. -/
def npubWorld : World where
  db := { Db.empty with
    users := ⟨[⟨1, none, none, some "npub", none, none, none, none, none⟩,
      ⟨2, none, some "K", none, none, some "fp", none, none, none⟩], by decide⟩
    challenges := ⟨[⟨"nonce", "nostr_register", none, 300000000⟩], by simp⟩ }
  now := 0

/-- The first user. -/
def npubUser : UserRow := ⟨1, none, none, some "npub", none, none, none, none, none⟩

/-- It returns, with a fingerprint or without. -/
def npubRequest (fingerprint : Option String) : NostrRegisterRequest where
  nostrToken := "Nostr event"
  nonce := "nonce"
  keys := []
  username := none
  walletBirthday := none
  seedFingerprint := fingerprint
  xmrStartHeight := none
  wowStartHeight := none
  altchaSolution := none
  inviteCode := none
  paymentInvoiceId := none

theorem npubWorld_unique : UniqueUsers npubWorld.db := by
  intro r hr
  simp only [npubWorld, List.mem_cons, List.not_mem_nil, or_false] at hr
  rcases hr with rfl | rfl <;> decide

theorem npub_proven : proveNostr sampleEnv (sampleAnswers 3) "Nostr event" "/auth/nostr/register"
    "nostr_register" "nonce" = .ok "npub" := by decide +kernel

theorem npubRequest_returning (fingerprint : Option String) :
    ReturningNpub sampleEnv (sampleAnswers 3) (npubRequest fingerprint) npubWorld npubUser where
  nonce := rfl
  proven := ⟨"npub", npub_proven, rfl⟩
  openable := ⟨rfl, rfl⟩

/-- The user signs in with a fingerprint that is nobody's. -/
theorem nostrRegister_signsIn_new : SignsInAs
    (nostrRegister sampleEnv (sampleAnswers 3) (npubRequest (some "other"))) npubWorld 1 := by
  refine (nostrRegister_signsIn_iff npubWorld_unique (npubRequest_returning _)).mpr
    ⟨⟨rfl, by simp [npubRequest]⟩, ?_⟩
  rintro ⟨-, fp, hfp, r, hr, -, hheld⟩
  obtain rfl : "other" = fp := Option.some.inj hfp
  simp only [npubWorld, List.mem_cons, List.not_mem_nil, or_false] at hr
  rcases hr with rfl | rfl <;> simp [sampleEnv] at hheld

/-- With the fingerprint of the second user it does not: the statement that fills it in violates
the constraint, and without a fingerprint the same request signs in. -/
theorem nostrRegister_locked_out :
    UniqueUsers npubWorld.db ∧
      ReturningNpub sampleEnv (sampleAnswers 3) (npubRequest (some "fp")) npubWorld npubUser ∧
      ((nostrRegister sampleEnv (sampleAnswers 3) (npubRequest (some "fp"))).exec noFaults 0
        npubWorld).1.1 = .error uniqueViolation ∧
      ¬ SignsInAs (nostrRegister sampleEnv (sampleAnswers 3) (npubRequest (some "fp")))
        npubWorld 1 ∧
      SignsInAs (nostrRegister sampleEnv (sampleAnswers 3) (npubRequest none)) npubWorld 1 := by
  have hfails : ((nostrRegister sampleEnv (sampleAnswers 3) (npubRequest (some "fp"))).exec noFaults
      0 npubWorld).1.1 = .error uniqueViolation := rfl
  refine ⟨npubWorld_unique, npubRequest_returning _, hfails, ?_, _, _, _, rfl, rfl⟩
  rintro ⟨resp, w', n, hexec, -⟩
  rw [hexec] at hfails
  cases hfails

end SmirkBackend
