import SmirkBackend.Auth.LoginPlan

/-!
# What a failed login leaves behind

A login writes the row of its user, then its keys one by one, then its session.  Nothing rolls the
earlier writes back when a later one fails, and an asset is recognized only when its key is up: a
list with an unknown asset after known ones stores the known ones, moves the identity and answers
with an error.

Storing a key stamps its row, the same values or not, so the handlers run here with the stamps of
the keys beside the world (`StampedWorld`, `LoginCall.extends_handler`).  A request leaves rows and
stamps as they were whenever it fails, `SameRows`, exactly in these cases:

* it is refused before its first write took effect
* `GoesThrough` : every statement after the first write succeeds, and it does not fail
* nothing was to be written, and what `keptKeys` says it stores was `AlreadyStored` at that time

This is `failedLogin_changes_nothing_iff`; `failedLogin_moved` is a failed login that moved its user
to another identity.
-/

namespace SmirkBackend

open Lib (Table Prog)

/-! ### Storing a list of keys -/

/-- Users, keys, invites and invoices are as before. -/
structure SameAccounts (db db' : Db) : Prop where
  /-- Users. -/
  users : ∀ u, db'.users.get? u = db.users.get? u
  /-- Keys. -/
  userKeys : ∀ k, db'.userKeys.get? k = db.userKeys.get? k
  /-- Invites. -/
  inviteCodes : ∀ h, db'.inviteCodes.get? h = db.inviteCodes.get? h
  /-- Invoices. -/
  paymentInvoices : ∀ id, db'.paymentInvoices.get? id = db.paymentInvoices.get? id

theorem SameAccounts.of_nonces {db db' : Db} (h : OnlyNonces db db') : SameAccounts db db' := by
  obtain ⟨challenges, rfl⟩ := h
  exact ⟨fun _ => rfl, fun _ => rfl, fun _ => rfl, fun _ => rfl⟩

/-- The keys a list stores: those before an unknown asset or a fault; the first statement is the
`n`-th. -/
def keptKeys (fails : ℕ → Bool) : ℕ → List AssetPublicKey → List (AssetType × AssetPublicKey)
  | _, [] => []
  | n, k :: rest =>
    match parseAsset k.asset with
    | .error _ => []
    | .ok asset => if fails n then [] else (asset, k) :: keptKeys fails (n + 1) rest

/-- The key a list leaves for an asset. -/
def lastKey (asset : AssetType) : List (AssetType × AssetPublicKey) → Option AssetPublicKey
  | [] => none
  | p :: rest => lastKey asset rest <|> if p.1 = asset then some p.2 else none

/-- Every asset is known, and no statement from the `n`-th on fails. -/
structure AllStored (fails : ℕ → Bool) (n : ℕ) (keys : List AssetPublicKey) : Prop where
  /-- Every asset is known. -/
  known : ∀ k ∈ keys, (parseAsset k.asset).isOk
  /-- No statement fails. -/
  served : ∀ j, j < keys.length → fails (n + j) = false

/-- The keys of `u` that these statements stored, and nothing else. -/
structure KeysStored (u : Uuid) (keys : List (AssetType × AssetPublicKey)) (w w' : World) :
    Prop where
  /-- Only keys. -/
  only : w' = { w with db := { w.db with userKeys := w'.db.userKeys } }
  /-- The keys of `u`. -/
  own : ∀ asset, w'.db.userKeys.get? (u, asset, "primary") =
    (lastKey asset keys).elim (w.db.userKeys.get? (u, asset, "primary"))
      fun k => some (k.row u asset)
  /-- The keys of others, and of other types. -/
  others : ∀ k, (∀ asset, k ≠ (u, asset, "primary")) →
    w'.db.userKeys.get? k = w.db.userKeys.get? k

theorem KeysStored.nil (u : Uuid) (w : World) : KeysStored u [] w w :=
  ⟨rfl, fun _ => rfl, fun _ _ => rfl⟩

/-- One key more in front. -/
theorem KeysStored.cons {u : Uuid} {asset : AssetType} {k : AssetPublicKey}
    {keys : List (AssetType × AssetPublicKey)} {w w' : World} {db' : Db}
    (hup : w.db.upsertUserKey (k.row u asset) = .ok db')
    (h : KeysStored u keys { w with db := db' } w') : KeysStored u ((asset, k) :: keys) w w' := by
  have hdb' : db' = { w.db with userKeys := db'.userKeys } ∧ ∀ key, db'.userKeys.get? key =
      if key = (u, asset, "primary") then some (k.row u asset) else w.db.userKeys.get? key := by
    unfold Db.upsertUserKey at hup
    split_ifs at hup
    obtain rfl := Except.ok.inj hup
    refine ⟨rfl, fun key => ?_⟩
    rw [Table.get?_upsert]
    change (if key = (u, asset, "primary") then _ else _) = _
    split_ifs with hkey
    · cases hrow : w.db.userKeys.get? key with
      | none => rfl
      | some row =>
        -- the row that is there has the key of the new one
        have hrowkey := Table.key_of_get? hrow
        subst hkey
        obtain ⟨u', asset', publicKey, publicSpendKey, keyType⟩ := row
        obtain ⟨rfl, rfl, rfl⟩ : u' = u ∧ asset' = asset ∧ keyType = "primary" := by
          simpa [Lib.key] using hrowkey
        rfl
    · rfl
  obtain ⟨hother, hget⟩ := hdb'
  refine ⟨?_, fun asset' => ?_, fun key hkey => ?_⟩
  · rw [h.only, hother]
  · rw [h.own asset', lastKey]
    cases lastKey asset' keys with
    | some k' => rfl
    | none =>
      change db'.userKeys.get? _ = _
      rw [hget]
      by_cases hasset : asset = asset'
      · subst hasset
        simp
      · simp [hasset, Ne.symm hasset]
  · rw [h.others key hkey]
    exact (hget key).trans (if_neg (hkey asset))

/-- Storing a list: what it stores, and when it succeeds. -/
theorem upsertAllKeys_kept {u : Uuid} {fails : ℕ → Bool} {keys : List AssetPublicKey} {n m : ℕ}
    {w w' : World} {r : Except AppError Unit} (huser : (w.db.users.get? u).isSome)
    (h : (upsertAllKeys u keys).exec fails n w = ((r, w'), m)) :
    KeysStored u (keptKeys fails n keys) w w' ∧
      ((AllStored fails n keys ∧ r = .ok () ∧ m = n + keys.length) ∨
        (¬ AllStored fails n keys ∧ ∃ e, r = .error e)) := by
  induction keys generalizing n w with
  | nil =>
    obtain ⟨⟨rfl, rfl⟩, rfl⟩ := by simpa [upsertAllKeys, Prog.exec] using h
    exact ⟨.nil u _, .inl ⟨⟨by simp, by simp⟩, rfl, rfl⟩⟩
  | cons k rest ih =>
    rw [upsertAllKeys] at h
    rw [keptKeys]
    cases hasset : parseAsset k.asset with
    | error e =>
      rw [hasset] at h
      obtain ⟨⟨rfl, rfl⟩, rfl⟩ := by simpa [Prog.exec] using h
      refine ⟨.nil u _, .inr ⟨fun hall => ?_, e, rfl⟩⟩
      have hk := hall.known k (by simp)
      simp [hasset, Except.isOk, Except.toBool] at hk
    | ok asset =>
      rw [hasset, Prog.ofExcept_ok, Prog.ret_bind, Prog.exec_bind] at h
      cases hfail : fails n with
      | true =>
        have hstmt : (upsertUserKey (k.row u asset)).exec fails n w =
            ((.error dbFault, w), n + 1) := by
          simp [upsertUserKey, execute, Prog.query, Prog.exec, hfail]
        rw [hstmt] at h
        obtain ⟨⟨rfl, rfl⟩, rfl⟩ := by simpa using h
        refine ⟨.nil u _, .inr ⟨fun hall => ?_, _, rfl⟩⟩
        have hserved := hall.served 0 (by simp)
        simp [hfail] at hserved
      | false =>
        obtain ⟨db', hup, husers, hstmt⟩ :=
          upsertUserKey_exec (k := k.row u asset) huser hfail
        rw [hstmt] at h
        obtain ⟨hstored, hres⟩ := ih (w := { w with db := db' }) (by rw [husers]; exact huser) h
        refine ⟨hstored.cons hup, ?_⟩
        have hall : AllStored fails n (k :: rest) ↔ AllStored fails (n + 1) rest := by
          constructor
          · rintro ⟨hknown, hserved⟩
            refine ⟨fun k' hk' => hknown k' (.tail _ hk'), fun j hj => ?_⟩
            rw [Nat.add_assoc, Nat.add_comm 1]
            exact hserved (j + 1) (by simpa using hj)
          · rintro ⟨hknown, hserved⟩
            refine ⟨fun k' hk' => ?_, fun j hj => ?_⟩
            · rcases List.mem_cons.mp hk' with rfl | hk'
              · rw [hasset]
                rfl
              · exact hknown k' hk'
            · cases j with
              | zero => exact hfail
              | succ j =>
                rw [Nat.add_comm j 1, ← Nat.add_assoc]
                exact hserved j (by simpa using hj)
        rw [hall]
        rcases hres with ⟨hrest, rfl, rfl⟩ | hrest
        · refine .inl ⟨hrest, rfl, ?_⟩
          rw [List.length_cons]
          omega
        · exact .inr hrest

/-! ### The writes after the first -/

/-- Every statement after the first write succeeds; the next one is the `n`-th. -/
structure GoesThrough (a : Answers) (fails : ℕ → Bool) (n : ℕ) (platform : Platform) (u : Uuid)
    (keys : List AssetPublicKey) (db : Db) : Prop where
  /-- The keys are stored. -/
  stored : AllStored fails n keys
  /-- The tokens are minted. -/
  minted : (a.createTokenPair u platform a.sessionId).isOk
  /-- The identifier of the session is new. -/
  unused : db.sessions.get? a.sessionId = none
  /-- The session is stored. -/
  opened : fails (n + keys.length) = false

/-- The session of a user who is there is stored, unless its identifier is taken or the statement
fails. -/
theorem createSession_exec (row : SessionRow) (fails : ℕ → Bool) (n : ℕ) {w : World}
    (huser : (w.db.users.get? row.userId).isSome) :
    (∃ w', (createSession row).exec fails n w = ((.ok (), w'), n + 1)) ∧
        w.db.sessions.get? row.id = none ∧ fails n = false ∨
      (∃ e w', (createSession row).exec fails n w = ((.error e, w'), n + 1)) ∧
        ¬ (w.db.sessions.get? row.id = none ∧ fails n = false) := by
  have hthere : ¬ w.db.users.get? row.userId = none := Option.isSome_iff_ne_none.mp huser
  cases hfail : fails n with
  | true =>
    refine .inr ⟨⟨dbFault, w, ?_⟩, by simp⟩
    simp [createSession, execute, Prog.query, Prog.exec, hfail]
  | false =>
    cases hins : w.db.sessions.insert? row with
    | some sessions =>
      refine .inl ⟨⟨{ w with db := { w.db with sessions := sessions } }, ?_⟩,
        (Table.insert?_eq_some_iff.mp hins).1, rfl⟩
      simp [createSession, execute, Prog.query, Prog.exec, hfail, hthere, hins]
    | none =>
      refine .inr ⟨⟨uniqueViolation, w, ?_⟩, fun hfree => ?_⟩
      · simp [createSession, execute, Prog.query, Prog.exec, hfail, hthere, hins]
      · obtain ⟨sessions, hsome⟩ := Table.exists_insert? (r := row) hfree.1
        cases hins.symm.trans hsome

/-- Signing in: what it touches, and when it succeeds. -/
theorem signIn_kept {env : AuthEnv} {a : Answers} {user : UserRow} {kind : LoginKind}
    {isNew : Bool} {fails : ℕ → Bool} {n m : ℕ} {w w' : World} {r : Except AppError AuthResponse}
    (huser : (w.db.users.get? user.id).isSome)
    (h : (signIn env a user kind.platform kind.deviceInfo kind.asset isNew).exec fails n w =
      ((r, w'), m)) :
    SameAccounts w.db w'.db ∧ ((∃ resp, r = .ok resp) ↔
      (a.createTokenPair user.id kind.platform a.sessionId).isOk ∧
        w.db.sessions.get? a.sessionId = none ∧ fails n = false) := by
  have hsame : (signIn env a user kind.platform kind.deviceInfo kind.asset isNew).Keeps
      (OnDb fun db => db.users = w.db.users ∧ db.userKeys = w.db.userKeys ∧
        db.inviteCodes = w.db.inviteCodes ∧ db.paymentInvoices = w.db.paymentInvoices)
      fun _ => True := by
    refine Prog.Keeps.bind (Q := fun _ => True) ?_ fun pair _ => ?_
    · refine (Prog.keeps_ofExcept fun _ _ => trivial).bind fun pair (_ : True) => ?_
      refine (keeps_execute (Q := fun _ => True) fun now db hdb => ⟨?_, fun _ _ => trivial⟩).bind
        fun _ _ => trivial
      split_ifs
      · exact hdb
      · split
        · exact hdb
        · exact hdb
    · refine (Prog.keeps_attempt (fun x hx => ?_) trivial).bind fun _ (_ : True) => trivial
      change OnDb _ { x with db := if _ then _ else _ }
      split_ifs
      · exact hx
      · exact hx
  have hout := Prog.outcome_exec fails (signIn env a user kind.platform kind.deviceInfo kind.asset
    isNew) n w
  rw [h] at hout
  obtain ⟨husers, hkeys, hinvites, hinvoices⟩ := (hsame.outcome hout ⟨rfl, rfl, rfl, rfl⟩).1
  refine ⟨⟨fun _ => by rw [husers], fun _ => by rw [hkeys], fun _ => by rw [hinvites],
    fun _ => by rw [hinvoices]⟩, ?_⟩
  rw [signIn, issueSession] at h
  cases hpair : a.createTokenPair user.id kind.platform a.sessionId with
  | error e =>
    rw [hpair] at h
    obtain ⟨⟨rfl, -⟩, -⟩ := by simpa [Prog.exec] using h
    simp [Except.isOk, Except.toBool]
  | ok pair =>
    simp only [hpair, Prog.ofExcept_ok, Prog.ret_bind, Prog.bind_bind] at h
    rw [Prog.exec_bind] at h
    have hok : (Except.ok pair : Except AppError TokenPair).isOk := rfl
    rcases createSession_exec ⟨a.sessionId, user.id, env.hashRefreshToken pair.refreshToken,
        kind.platform.asStr, some kind.deviceInfo,
        a.issuedAt + days env.refreshTokenExpiryDays, none⟩ fails n huser with
      ⟨⟨w₁, hopen⟩, hfree⟩ | ⟨⟨e, w₁, hopen⟩, htaken⟩
    · -- the event is recorded or not, and the answer is the same
      rw [hopen] at h
      have hres : ∃ resp, r = .ok resp := by
        simp only [Prog.pure_eq, Prog.ret_bind, recordLoginEvent, executeIgnored, Prog.attempt,
          Prog.act_bind, Prog.exec] at h
        split_ifs at h <;> exact ⟨_, (congrArg (fun x => x.1.1) h).symm⟩
      exact ⟨fun _ => ⟨hok, hfree⟩, fun _ => hres⟩
    · rw [hopen] at h
      have hres : r = .error e := (congrArg (fun x => x.1.1) h).symm
      refine ⟨?_, fun hall => (htaken hall.2).elim⟩
      rintro ⟨resp, hresp⟩
      cases hres.symm.trans hresp

/-- The writes after the first: what they touch, and when they succeed. -/
theorem rest_kept {env : AuthEnv} {a : Answers} {user : UserRow} {kind : LoginKind}
    {isNew : Bool} {keys : List AssetPublicKey} {fails : ℕ → Bool} {n m : ℕ} {w w' : World}
    {r : Except AppError AuthResponse} (huser : (w.db.users.get? user.id).isSome)
    (h : (upsertAllKeys user.id keys >>= fun _ =>
      signIn env a user kind.platform kind.deviceInfo kind.asset isNew).exec fails n w =
        ((r, w'), m)) :
    (∃ w₁, KeysStored user.id (keptKeys fails n keys) w w₁ ∧ SameAccounts w₁.db w'.db) ∧
      ((∃ resp, r = .ok resp) ↔ GoesThrough a fails n kind.platform user.id keys w.db) := by
  rw [Prog.exec_bind] at h
  obtain ⟨⟨⟨r₁, w₁⟩, m₁⟩, hkeys⟩ : ∃ x, (upsertAllKeys user.id keys).exec fails n w = x := ⟨_, rfl⟩
  rw [hkeys] at h
  obtain ⟨hstored, hres⟩ := upsertAllKeys_kept huser hkeys
  have hsame : w₁.db.users = w.db.users ∧ w₁.db.sessions = w.db.sessions := by
    rw [hstored.only]
    exact ⟨rfl, rfl⟩
  rcases hres with ⟨hall, rfl, rfl⟩ | ⟨hnot, e, rfl⟩
  · obtain ⟨hkept, hok⟩ := signIn_kept (by rw [hsame.1]; exact huser) h
    rw [hsame.2] at hok
    refine ⟨⟨w₁, hstored, hkept⟩, hok.trans ⟨?_, fun hgo => ⟨hgo.minted, hgo.unused, hgo.opened⟩⟩⟩
    rintro ⟨hminted, hunused, hopened⟩
    exact ⟨hall, hminted, hunused, hopened⟩
  · obtain ⟨⟨rfl, rfl⟩, -⟩ := by simpa using h
    refine ⟨⟨w₁, hstored, fun _ => rfl, fun _ => rfl, fun _ => rfl, fun _ => rfl⟩, ?_⟩
    exact ⟨fun ⟨resp, hresp⟩ => (nomatch hresp), fun hgo => (hnot hgo.stored).elim⟩

/-! ### The first write -/

/-- The first write changes the row of a user, or adds one; values that are there already need no
statement. -/
def FirstWrite.writes : FirstWrite → Bool
  | backfill existing o => o.needed existing
  | _ => true

/-- What an update of a user can do. -/
theorem updateUser_cases (u : Uuid) (f : Lib.Patch UserRow) (db : Db) :
    (∃ c, db.updateUser u f = (.error c, db)) ∨
      (db.users.get? u = none ∧ db.updateUser u f = (.ok none, db)) ∨
      ∃ r, db.users.get? u = some r ∧ db.updateUser u f =
        (.ok (some (f.set r)), { db with users := (db.users.updateOne u (fun _ => true) f).2 }) := by
  unfold Db.updateUser
  cases hr : db.users.get? u with
  | none => exact .inr (.inl ⟨rfl, rfl⟩)
  | some r =>
    cases hcollision : collision db.users.rows (f.set r) with
    | some c =>
      simp only [hcollision]
      exact .inl ⟨_, rfl⟩
    | none =>
      simp only [hcollision]
      exact .inr (.inr ⟨r, rfl, rfl⟩)

theorem users_updated {t : Table UserRow} {u : Uuid} {r : UserRow} {f : Lib.Patch UserRow}
    (hr : t.get? u = some r) (hne : f.set r ≠ r) :
    ((t.updateOne u (fun _ => true) f).2.get? u).isSome ∧
      (t.updateOne u (fun _ => true) f).2.get? u ≠ t.get? u := by
  have hget : (t.updateOne u (fun _ => true) f).2.get? u = some (f.set r) := by
    rw [Table.get?_updateOne_self, hr]
    rfl
  rw [hget, hr]
  exact ⟨rfl, fun heq => hne (Option.some.inj heq)⟩

theorem users_inserted {t t' : Table UserRow} {r : UserRow} (h : t.insert? r = some t') :
    (t'.get? r.id).isSome ∧ t'.get? r.id ≠ t.get? r.id := by
  have hget : t'.get? r.id = some r := by
    rw [Table.get?_insert? h]
    exact if_pos rfl
  have hfree : t.get? r.id = none := (Table.insert?_eq_some_iff.mp h).1
  rw [hget, hfree]
  exact ⟨rfl, nofun⟩

theorem fill_ne (pepper : Pepper) {o : Optionals} {r : UserRow} (h : o.needed r = true) :
    (o.fill pepper).set r ≠ r := by
  have hfills {α : Type} {x y : Option α} (hx : x = none) (hy : y.isSome) : (x <|> y) ≠ x := by
    subst hx
    simpa [Option.isSome_iff_ne_none] using hy
  intro heq
  simp only [Optionals.needed, Bool.or_eq_true, Bool.and_eq_true, Option.isNone_iff_eq_none] at h
  rcases h with ((⟨hnone, hsome⟩ | ⟨hnone, hsome⟩) | ⟨hnone, hsome⟩) | ⟨hnone, hsome⟩
  · exact hfills hnone hsome (congrArg UserRow.walletBirthday heq)
  · exact hfills hnone (by simpa using hsome) (congrArg UserRow.seedFingerprint heq)
  · exact hfills hnone hsome (congrArg UserRow.xmrStartHeight heq)
  · exact hfills hnone hsome (congrArg UserRow.wowStartHeight heq)

/-- A first write that fails changes nothing. -/
theorem firstWrite_error {env : AuthEnv} {a : Answers} {first : FirstWrite} {fails : ℕ → Bool}
    {n m : ℕ} {w w' : World} {e : AppError}
    (h : (first.run env a).exec fails n w = ((.error e, w'), m)) : w' = w := by
  cases first with
  | move target pubkeyHash =>
    rw [FirstWrite.run, Prog.exec_bind, updatePubkeyHash, execute, Prog.exec_query] at h
    split_ifs at h with hfail
    · exact (congrArg (fun x => x.1.2) h).symm
    · rcases updateUser_cases target.id { set := fun r =>
          { r with pubkeyHash := some (env.pepper "pubkey_hash" pubkeyHash) } } w.db with
        ⟨c, hup⟩ | ⟨-, hup⟩ | ⟨r, -, hup⟩
      · rw [hup] at h
        exact (congrArg (fun x => x.1.2) h).symm
      · rw [hup] at h
        cases congrArg (fun x => x.1.1) h
      · rw [hup] at h
        cases congrArg (fun x => x.1.1) h
  | backfill existing o =>
    rw [FirstWrite.run, backfillOptionals] at h
    split_ifs at h
    · cases congrArg (fun x => x.1.1) h
    · rw [execute, Prog.exec_query] at h
      split_ifs at h with hfail
      · exact (congrArg (fun x => x.1.2) h).symm
      · rcases updateUser_cases existing.id (o.fill env.pepper) w.db with
          ⟨c, hup⟩ | ⟨-, hup⟩ | ⟨r, -, hup⟩
        · rw [hup] at h
          exact (congrArg (fun x => x.1.2) h).symm
        · rw [hup] at h
          exact (congrArg (fun x => x.1.2) h).symm
        · rw [hup] at h
          cases congrArg (fun x => x.1.1) h
  | create new =>
    rw [FirstWrite.run, createUser, execute, Prog.exec_query] at h
    split_ifs at h
    · exact (congrArg (fun x => x.1.2) h).symm
    · cases hins : w.db.insertUser (new.row env.pepper a.userId) with
      | ok db' =>
        rw [hins] at h
        cases congrArg (fun x => x.1.1) h
      | error c =>
        rw [hins] at h
        exact (congrArg (fun x => x.1.2) h).symm
  | register gates new keys =>
    rw [FirstWrite.run, createUserConsumingGates, Prog.exec_query] at h
    split_ifs at h
    · exact (congrArg (fun x => x.1.2) h).symm
    · cases hreplay : Lib.replay (consumeGatesScript env.pepper new gates keys ⟨w.now, a.userId⟩) w with
      | ok w₁ =>
        rw [hreplay] at h
        cases congrArg (fun x => x.1.1) h
      | error c =>
        rw [hreplay] at h
        exact (congrArg (fun x => x.1.2) h).symm

/-- A first write that succeeds: its user is there, the sessions are as before, and some user is
not, unless nothing was to be written. -/
theorem firstWrite_ok {env : AuthEnv} {a : Answers} {first : FirstWrite} {fails : ℕ → Bool}
    {n m : ℕ} {w w' : World} {user : UserRow} (hsound : first.Sound env.pepper w.db)
    (h : (first.run env a).exec fails n w = ((.ok user, w'), m)) :
    (w'.db.users.get? user.id).isSome ∧ w'.db.sessions = w.db.sessions ∧
      if first.writes then ∃ u, w'.db.users.get? u ≠ w.db.users.get? u else w' = w := by
  cases first with
  | move target pubkeyHash =>
    obtain ⟨htarget, hother⟩ := hsound
    rw [FirstWrite.run, Prog.exec_bind, updatePubkeyHash, execute, Prog.exec_query] at h
    split_ifs at h with hfail
    · cases congrArg (fun x => x.1.1) h
    · rcases updateUser_cases target.id { set := fun r =>
          { r with pubkeyHash := some (env.pepper "pubkey_hash" pubkeyHash) } } w.db with
        ⟨c, hup⟩ | ⟨hnone, -⟩ | ⟨r, hr, hup⟩
      · rw [hup] at h
        cases congrArg (fun x => x.1.1) h
      · cases hnone.symm.trans htarget
      · obtain rfl := Option.some.inj (hr.symm.trans htarget)
        rw [hup] at h
        obtain ⟨⟨rfl, rfl⟩, -⟩ := by simpa [Prog.exec] using h
        obtain ⟨hthere, hchanged⟩ := users_updated (f := { set := fun r =>
            { r with pubkeyHash := some (env.pepper "pubkey_hash" pubkeyHash) } }) hr
          fun heq => hother (congrArg UserRow.pubkeyHash heq).symm
        exact ⟨hthere, rfl, r.id, hchanged⟩
  | backfill existing o =>
    rw [FirstWrite.run, backfillOptionals] at h
    rw [FirstWrite.writes]
    cases hneeded : o.needed existing with
    | false =>
      simp only [hneeded, Bool.not_false, if_true, Prog.exec] at h
      obtain ⟨⟨rfl, rfl⟩, -⟩ := by simpa using h
      have hthere : w.db.users.get? existing.id = some existing := hsound
      exact ⟨by rw [hthere]; rfl, rfl, rfl⟩
    | true =>
      simp only [hneeded, Bool.not_true, Bool.false_eq_true, if_false, execute,
        Prog.exec_query] at h
      split_ifs at h with hfail
      · cases congrArg (fun x => x.1.1) h
      · rcases updateUser_cases existing.id (o.fill env.pepper) w.db with
          ⟨c, hup⟩ | ⟨hnone, -⟩ | ⟨r, hr, hup⟩
        · rw [hup] at h
          cases congrArg (fun x => x.1.1) h
        · cases hnone.symm.trans hsound
        · obtain rfl := Option.some.inj (hr.symm.trans hsound)
          rw [hup] at h
          obtain ⟨⟨rfl, rfl⟩, -⟩ := by simpa using h
          obtain ⟨hthere, hchanged⟩ := users_updated hr (fill_ne env.pepper hneeded)
          exact ⟨hthere, rfl, r.id, hchanged⟩
  | create new =>
    rw [FirstWrite.run, createUser, execute, Prog.exec_query] at h
    split_ifs at h
    · cases congrArg (fun x => x.1.1) h
    · cases hins : w.db.insertUser (new.row env.pepper a.userId) with
      | error c =>
        rw [hins] at h
        cases congrArg (fun x => x.1.1) h
      | ok db' =>
        rw [hins] at h
        obtain ⟨⟨rfl, rfl⟩, -⟩ := by simpa using h
        unfold Db.insertUser at hins
        cases hrow : w.db.users.insert? (new.row env.pepper a.userId) with
        | none => simp [hrow] at hins
        | some users =>
          simp only [hrow] at hins
          cases hcollision : collision w.db.users.rows (new.row env.pepper a.userId) with
          | some c => simp [hcollision] at hins
          | none =>
            simp only [hcollision] at hins
            obtain rfl := Except.ok.inj hins
            obtain ⟨hthere, hchanged⟩ := users_inserted hrow
            exact ⟨hthere, rfl, _, hchanged⟩
  | register gates new keys =>
    rw [FirstWrite.run, createUserConsumingGates, Prog.exec_query] at h
    split_ifs at h
    · cases congrArg (fun x => x.1.1) h
    · cases hreplay : Lib.replay (consumeGatesScript env.pepper new gates keys ⟨w.now, a.userId⟩) w with
      | error c =>
        rw [hreplay] at h
        cases congrArg (fun x => x.1.1) h
      | ok w₁ =>
        rw [hreplay] at h
        obtain ⟨⟨rfl, rfl⟩, -⟩ := by simpa using h
        have hspent := spent_of_replay hreplay
        obtain ⟨hthere, hchanged⟩ := users_inserted (Table.insert?_of_rows_append hspent.users)
        exact ⟨hthere, hspent.rest.1, _, hchanged⟩

/-! ### The stamps of the keys -/

/-- The world, and when each key was written last. -/
structure StampedWorld where
  /-- The world. -/
  world : World
  /-- The column `updated_at` of the keys. -/
  updatedAt : Uuid × AssetType × String → Timestamp

namespace StampedWorld

/-- What the handlers read. -/
def part : Prog.Part StampedWorld World where
  get := world
  set w s := { s with world := w }
  get_set _ _ := rfl
  set_set _ _ _ := rfl
  set_get _ := rfl

/-- A key was written just now. -/
def stamp (s : StampedWorld) (k : Uuid × AssetType × String) : StampedWorld :=
  { s with updatedAt := Function.update s.updatedAt k s.world.now }

end StampedWorld

/-- `upsert_user_key`, with the stamp. -/
def stampedUpsertUserKey (k : UserKeyRow) : Prog StampedWorld AppError Unit :=
  .query dbFault fun s =>
    match s.world.db.upsertUserKey k with
    | .ok db => (.ok (), { s.stamp (Lib.key k) with world := { s.world with db := db } })
    | .error e => (.error e, s)

/-- `upsert_all_keys`, with the stamps. -/
def stampedUpsertAllKeys (u : Uuid) : List AssetPublicKey → Prog StampedWorld AppError Unit
  | [] => .ret ()
  | k :: rest => do
    let asset ← .ofExcept (parseAsset k.asset)
    stampedUpsertUserKey (k.row u asset)
    stampedUpsertAllKeys u rest

/-- The first write, with the stamps: a registration stores its keys itself. -/
def FirstWrite.stampedRun (env : AuthEnv) (a : Answers) :
    FirstWrite → Prog StampedWorld AppError UserRow
  | register gates new keys => .query dbFault fun s =>
    match Lib.replay (consumeGatesScript env.pepper new gates keys ⟨s.world.now, a.userId⟩)
        s.world with
    | .ok w => (.ok (new.row env.pepper a.userId),
        { keys.foldl (fun s k => s.stamp (a.userId, k.1, "primary")) s with world := w })
    | .error e => (.error e, s)
  | first => (first.run env a).zoom StampedWorld.part

/-- These are the stamps of the keys of `u` after they were stored, and no others were set. -/
structure KeysStamped (u : Uuid) (keys : List (AssetType × AssetPublicKey))
    (s s' : StampedWorld) : Prop where
  /-- The stamps of `u`. -/
  own : ∀ asset, s'.updatedAt (u, asset, "primary") =
    if (lastKey asset keys).isSome then s.world.now else s.updatedAt (u, asset, "primary")
  /-- The stamps of others, and of other types. -/
  others : ∀ k, (∀ asset, k ≠ (u, asset, "primary")) → s'.updatedAt k = s.updatedAt k

theorem KeysStamped.nil (u : Uuid) (s : StampedWorld) : KeysStamped u [] s s :=
  ⟨fun _ => rfl, fun _ _ => rfl⟩

theorem KeysStamped.cons {u : Uuid} {asset : AssetType} {k : AssetPublicKey}
    {keys : List (AssetType × AssetPublicKey)} {s s' : StampedWorld} {db : Db}
    (h : KeysStamped u keys
      { s.stamp (u, asset, "primary") with world := { s.world with db := db } } s') :
    KeysStamped u ((asset, k) :: keys) s s' := by
  refine ⟨fun asset' => ?_, fun key hkey => ?_⟩
  · rw [h.own asset', lastKey]
    cases lastKey asset' keys with
    | some k' => rfl
    | none =>
      by_cases hasset : asset = asset'
      · subst hasset
        simp [StampedWorld.stamp]
      · simp [StampedWorld.stamp, hasset, Ne.symm hasset]
  · rw [h.others key hkey]
    exact Function.update_of_ne (hkey asset) _ _

/-- What storing a list stamps. -/
theorem stampedUpsertAllKeys_stamps {u : Uuid} {fails : ℕ → Bool} {keys : List AssetPublicKey}
    {n m : ℕ} {s s' : StampedWorld} {r : Except AppError Unit}
    (huser : (s.world.db.users.get? u).isSome)
    (h : (stampedUpsertAllKeys u keys).exec fails n s = ((r, s'), m)) :
    KeysStamped u (keptKeys fails n keys) s s' := by
  induction keys generalizing n s with
  | nil =>
    obtain rfl : s = s' := congrArg (fun x => x.1.2) h
    exact .nil u _
  | cons k rest ih =>
    rw [stampedUpsertAllKeys] at h
    rw [keptKeys]
    cases hasset : parseAsset k.asset with
    | error e =>
      rw [hasset] at h
      obtain rfl : s = s' := congrArg (fun x => x.1.2) h
      exact .nil u _
    | ok asset =>
      rw [hasset, Prog.ofExcept_ok, Prog.ret_bind, Prog.exec_bind, stampedUpsertUserKey,
        Prog.exec_query] at h
      cases hfail : fails n with
      | true =>
        rw [hfail] at h
        obtain rfl : s = s' := congrArg (fun x => x.1.2) h
        exact .nil u _
      | false =>
        obtain ⟨db, hup, husers, -⟩ := upsertUserKey_exec (k := k.row u asset) huser hfail
        simp only [hfail, Bool.false_eq_true, if_false, hup] at h
        exact (ih (by rw [husers]; exact huser) h).cons

/-- The first write does to the world what it does without stamps, and it stamps a key only if it
changes a user as well. -/
theorem FirstWrite.stampedRun_exec (env : AuthEnv) (a : Answers) (first : FirstWrite)
    (fails : ℕ → Bool) (n : ℕ) (s : StampedWorld) {r : Except AppError UserRow} {w : World}
    {m : ℕ} (h : (first.run env a).exec fails n s.world = ((r, w), m)) :
    ∃ stamps, (first.stampedRun env a).exec fails n s = ((r, ⟨w, stamps⟩), m) ∧
      ((∃ e, r = .error e) ∨ first.writes = false → stamps = s.updatedAt) := by
  have hzoom : ((first.run env a).zoom StampedWorld.part).exec fails n s =
      ((r, ⟨w, s.updatedAt⟩), m) := by
    rw [Prog.exec_zoom]
    simp only [StampedWorld.part, h]
  cases first with
  | move target pubkeyHash => exact ⟨s.updatedAt, hzoom, fun _ => rfl⟩
  | backfill existing o => exact ⟨s.updatedAt, hzoom, fun _ => rfl⟩
  | create new => exact ⟨s.updatedAt, hzoom, fun _ => rfl⟩
  | register gates new keys =>
    rw [FirstWrite.run, createUserConsumingGates, Prog.exec_query] at h
    rw [FirstWrite.stampedRun, Prog.exec_query]
    split_ifs at h ⊢
    · cases h
      exact ⟨s.updatedAt, rfl, fun _ => rfl⟩
    · cases hreplay : Lib.replay
          (consumeGatesScript env.pepper new gates keys ⟨s.world.now, a.userId⟩) s.world with
      | ok w₁ =>
        rw [hreplay] at h
        cases h
        refine ⟨_, rfl, ?_⟩
        rintro (⟨e, he⟩ | hwrites)
        · cases he
        · cases hwrites
      | error e =>
        rw [hreplay] at h
        cases h
        exact ⟨s.updatedAt, rfl, fun _ => rfl⟩

theorem extends_upsertAllKeys (u : Uuid) (keys : List AssetPublicKey) :
    Prog.Extends StampedWorld.part (stampedUpsertAllKeys u keys) (upsertAllKeys u keys) := by
  induction keys with
  | nil => exact .ret ()
  | cons k rest ih =>
    refine (Prog.extends_ofExcept _).bind fun asset => Prog.Extends.bind ?_ fun _ => ih
    refine Prog.extends_query fun s => ?_
    simp only [StampedWorld.part]
    cases s.world.db.upsertUserKey (k.row u asset) with
    | ok db => rfl
    | error e => rfl

/-- The writes after the first, with the stamps. -/
theorem stampedRest_kept {env : AuthEnv} {a : Answers} {user : UserRow} {kind : LoginKind}
    {isNew : Bool} {keys : List AssetPublicKey} {fails : ℕ → Bool} {n m : ℕ} {s s' : StampedWorld}
    {r : Except AppError AuthResponse} (huser : (s.world.db.users.get? user.id).isSome)
    (h : (stampedUpsertAllKeys user.id keys >>= fun _ => (signIn env a user kind.platform
      kind.deviceInfo kind.asset isNew).zoom StampedWorld.part).exec fails n s = ((r, s'), m)) :
    ∃ w, KeysStored user.id (keptKeys fails n keys) s.world w ∧
      KeysStamped user.id (keptKeys fails n keys) s s' ∧ SameAccounts w.db s'.world.db ∧
      ((∃ resp, r = .ok resp) ↔
        GoesThrough a fails n kind.platform user.id keys s.world.db) := by
  have hplain := ((extends_upsertAllKeys user.id keys).bind fun _ => Prog.extends_zoom (signIn env a
    user kind.platform kind.deviceInfo kind.asset isNew)).exec fails n s
  rw [h] at hplain
  obtain ⟨⟨w, hstored, hkept⟩, hgoes⟩ := rest_kept huser hplain
  refine ⟨w, hstored, ?_, hkept, hgoes⟩
  rw [Prog.exec_bind] at h
  obtain ⟨⟨⟨r₁, s₁⟩, m₁⟩, hkeys⟩ : ∃ x, (stampedUpsertAllKeys user.id keys).exec fails n s = x :=
    ⟨_, rfl⟩
  rw [hkeys] at h
  obtain ⟨hown, hothers⟩ := stampedUpsertAllKeys_stamps huser hkeys
  -- signing in stamps no key
  have hsame : s'.updatedAt = s₁.updatedAt := by
    cases r₁ with
    | error e => rw [← show s₁ = s' from congrArg (fun x => x.1.2) h]
    | ok _ =>
      simp only [Prog.exec_zoom] at h
      rw [← show _ = s' from congrArg (fun x => x.1.2) h]
      rfl
  rw [← hsame] at hown hothers
  exact ⟨hown, hothers⟩

/-- Users, keys with their stamps, invites and invoices are as before. -/
structure SameRows (s s' : StampedWorld) : Prop extends SameAccounts s.world.db s'.world.db where
  /-- The stamps of the keys that are there. -/
  stamps : ∀ k, (s.world.db.userKeys.get? k).isSome → s'.updatedAt k = s.updatedAt k

/-- What the keys would leave is stored already, and was stored just now. -/
def AlreadyStored (s : StampedWorld) (u : Uuid) (keys : List (AssetType × AssetPublicKey)) : Prop :=
  ∀ asset k, lastKey asset keys = some k →
    s.world.db.userKeys.get? (u, asset, "primary") = some (k.row u asset) ∧
      s.updatedAt (u, asset, "primary") = s.world.now

/-- Storing keys changes nothing when they were stored already. -/
theorem sameRows_iff {u : Uuid} {keys : List (AssetType × AssetPublicKey)}
    {s s₁ s' : StampedWorld} {w₂ : World} (hbefore : SameRows s s₁)
    (hnow : s₁.world.now = s.world.now) (hstored : KeysStored u keys s₁.world w₂)
    (hstamped : KeysStamped u keys s₁ s') (hafter : SameAccounts w₂.db s'.world.db) :
    SameRows s s' ↔ AlreadyStored s u keys := by
  constructor
  · intro h asset k hk
    have hthere : s.world.db.userKeys.get? (u, asset, "primary") = some (k.row u asset) := by
      rw [← h.userKeys, hafter.userKeys, hstored.own, hk]
      rfl
    refine ⟨hthere, ?_⟩
    rw [← h.stamps _ (by rw [hthere]; rfl), hstamped.own, hk, ← hnow]
    rfl
  · intro h
    refine ⟨⟨fun v => ?_, fun key => ?_, fun c => ?_, fun id => ?_⟩, fun key hkey => ?_⟩
    · rw [hafter.users, hstored.only]
      exact hbefore.users v
    · rw [hafter.userKeys]
      by_cases hkey : ∀ asset, key ≠ (u, asset, "primary")
      · exact (hstored.others key hkey).trans (hbefore.userKeys key)
      · simp only [not_forall, not_not] at hkey
        obtain ⟨asset, rfl⟩ := hkey
        rw [hstored.own]
        cases hlast : lastKey asset keys with
        | none => exact hbefore.userKeys _
        | some k => exact (h asset k hlast).1.symm
    · rw [hafter.inviteCodes, hstored.only]
      exact hbefore.inviteCodes c
    · rw [hafter.paymentInvoices, hstored.only]
      exact hbefore.paymentInvoices id
    · by_cases hother : ∀ asset, key ≠ (u, asset, "primary")
      · exact (hstamped.others key hother).trans (hbefore.stamps key hkey)
      · simp only [not_forall, not_not] at hother
        obtain ⟨asset, rfl⟩ := hother
        rw [hstamped.own]
        cases hlast : lastKey asset keys with
        | none => exact hbefore.stamps _ hkey
        | some k =>
          rw [(h asset k hlast).2, ← hnow]
          rfl

/-! ### Failed logins -/

/-- A request to one of the two endpoints. -/
inductive LoginCall
  /-- `POST /auth/extension`. -/
  | extension (req : ExtensionRegisterRequest)
  /-- `POST /auth/nostr/register`. -/
  | nostr (req : NostrRegisterRequest)

namespace LoginCall

/-- Its handler. -/
def handler (env : AuthEnv) (a : Answers) : LoginCall → Handler AuthResponse
  | extension req => extensionRegister env a req
  | nostr req => nostrRegister env a req

/-- What the handler does before its first write. -/
def plan (env : AuthEnv) (a : Answers) : LoginCall → Handler LoginPlan
  | extension req => extensionPlan env a req
  | nostr req => nostrPlan env a req

/-- The session it opens. -/
def kind : LoginCall → LoginKind
  | extension _ => extensionKind
  | nostr _ => nostrKind

theorem handler_eq (env : AuthEnv) (a : Answers) (call : LoginCall) :
    call.handler env a = call.plan env a >>= LoginPlan.finish env a call.kind := by
  cases call with
  | extension req => exact extensionRegister_plan env a req
  | nostr req => exact nostrRegister_plan env a req

/-- The handler, with the stamps of the keys. -/
def stampedHandler (env : AuthEnv) (a : Answers) (call : LoginCall) :
    Prog StampedWorld AppError AuthResponse := do
  let plan ← (call.plan env a).zoom StampedWorld.part
  let user ← plan.first.stampedRun env a
  stampedUpsertAllKeys user.id plan.keys
  (signIn env a user call.kind.platform call.kind.deviceInfo call.kind.asset plan.isNew).zoom
    StampedWorld.part

theorem extends_firstWrite (env : AuthEnv) (a : Answers) (first : FirstWrite) :
    Prog.Extends StampedWorld.part (first.stampedRun env a) (first.run env a) := by
  cases first with
  | move target pubkeyHash => exact Prog.extends_zoom _
  | backfill existing o => exact Prog.extends_zoom _
  | create new => exact Prog.extends_zoom _
  | register gates new keys =>
    refine Prog.extends_query fun s => ?_
    simp only [StampedWorld.part]
    cases Lib.replay (consumeGatesScript env.pepper new gates keys ⟨s.world.now, a.userId⟩)
        s.world with
    | ok w => rfl
    | error e => rfl

/-- The stamps apart, it is the handler. -/
theorem extends_handler (env : AuthEnv) (a : Answers) (call : LoginCall) :
    Prog.Extends StampedWorld.part (call.stampedHandler env a) (call.handler env a) := by
  rw [call.handler_eq]
  refine (Prog.extends_zoom _).bind fun plan => ?_
  refine (extends_firstWrite env a plan.first).bind fun user => ?_
  exact (extends_upsertAllKeys user.id plan.keys).bind fun _ => Prog.extends_zoom _

theorem keeps_plan {env : AuthEnv} {a : Answers} {db₀ : Db} (call : LoginCall) :
    (call.plan env a).Keeps (OnDb (OnlyNonces db₀)) fun plan =>
      plan.first.Sound env.pepper db₀ := by
  cases call with
  | extension req => exact keeps_extensionPlan a req
  | nostr req => exact keeps_nostrPlan a req

/-- Until the first write, the clock stands. -/
theorem steps_plan (env : AuthEnv) (a : Answers) (call : LoginCall) :
    (call.plan env a).Steps fun w w' => w'.now = w.now := by
  have hrefl (w : World) : w.now = w.now := rfl
  have hregister (q : Registration) : (registerPlan q).Steps fun w w' => w'.now = w.now :=
    (steps_registrationPlan hrefl q).bind fun _ => trivial
  cases call with
  | extension req =>
    rw [plan, extensionPlan]
    cases btcKey req.keys with
    | none => trivial
    | some key =>
      refine (Prog.steps_ofExcept _).bind fun _ => (Prog.steps_ofExcept _).bind fun _ => ?_
      refine (Prog.steps_ofExcept _).bind fun _ => (Prog.steps_read hrefl).bind fun existing => ?_
      have hproven (pubkeyHash : String) (target : Option UserRow) :
          (provenPlan env a req pubkeyHash existing target).Steps fun w w' => w'.now = w.now := by
        cases target with
        | some target => exact (Prog.steps_ofExcept _).bind fun _ => trivial
        | none =>
          refine (Prog.steps_ofExcept _).bind fun _ => ?_
          refine (steps_fingerprintForRow_of_refl hrefl env existing _).bind fun fingerprint => ?_
          split_ifs
          · exact (Prog.steps_read hrefl).bind fun found => by cases found <;> trivial
          · exact hregister _
      split_ifs
      · exact hproven _ none
      · exact (steps_repointTarget_of_refl hrefl env req _ _).bind fun target => hproven _ target
  | nostr req =>
    have hchallenge : (requireChallenge req.nonce "nostr_register").Steps
        fun w w' => w'.now = w.now := by
      have hconsume : (consumeChallenge req.nonce "nostr_register").Steps
          fun w w' => w'.now = w.now := Prog.steps_query fun _ => rfl
      exact hconsume.bind fun found => by cases found <;> trivial
    refine (Prog.steps_ofExcept _).bind fun _ => hchallenge.bind fun _ => ?_
    refine (Prog.steps_ofExcept _).bind fun pubkey => (Prog.steps_read hrefl).bind
      fun existing => (Prog.steps_ofExcept _).bind fun _ => ?_
    split_ifs
    · refine (Prog.steps_read hrefl).bind fun found => ?_
      cases found with
      | some existing => trivial
      | none =>
        refine (steps_fingerprintMatch hrefl env.pepper _).bind fun owner => ?_
        cases owner with
        | none => trivial
        | some existing =>
          simp only
          split
          · split_ifs <;> trivial
          · trivial
    · exact (steps_rejectKnownFingerprint_of_refl hrefl env.pepper _).bind fun _ => hregister _

/-- The request gets past its first write, for this user and with these keys still to store, and
its next statement is the `n`-th. -/
def PastFirstWrite (env : AuthEnv) (a : Answers) (fails : ℕ → Bool) (w : World) (call : LoginCall)
    (plan : LoginPlan) (user : UserRow) (n : ℕ) : Prop :=
  ∃ w₀ m w₁, (call.plan env a).exec fails 0 w = ((.ok plan, w₀), m) ∧
    (plan.first.run env a).exec fails m w₀ = ((.ok user, w₁), n)

/-- What a first write that succeeded leaves: its user is there, the sessions are as before, and
some user is not, unless nothing was to be written. -/
structure Written (first : FirstWrite) (user : UserRow) (s s' : StampedWorld) : Prop where
  /-- The user is there. -/
  there : (s'.world.db.users.get? user.id).isSome
  /-- The sessions. -/
  sessions : s'.world.db.sessions = s.world.db.sessions
  /-- The users, when something was to be written. -/
  changed : first.writes = true → ∃ u, s'.world.db.users.get? u ≠ s.world.db.users.get? u
  /-- Otherwise everything, the clock included. -/
  same : first.writes = false → SameRows s s' ∧ s'.world.now = s.world.now

/-- A request is refused by then, and has changed nothing, or goes on with the later writes. -/
theorem handler_cases (env : AuthEnv) (a : Answers) (call : LoginCall) (fails : ℕ → Bool)
    (s : StampedWorld) :
    ((∃ e s₁ n, (call.stampedHandler env a).exec fails 0 s = ((.error e, s₁), n) ∧
        SameRows s s₁) ∧
      ∀ plan user n, ¬ call.PastFirstWrite env a fails s.world plan user n) ∨
    ∃ plan user n s₁,
      (∀ plan' user' n', call.PastFirstWrite env a fails s.world plan' user' n' ↔
        plan' = plan ∧ user' = user ∧ n' = n) ∧
      Written plan.first user s s₁ ∧
      (call.stampedHandler env a).exec fails 0 s =
        (stampedUpsertAllKeys user.id plan.keys >>= fun _ => (signIn env a user call.kind.platform
          call.kind.deviceInfo call.kind.asset plan.isNew).zoom StampedWorld.part).exec
            fails n s₁ := by
  obtain ⟨⟨⟨rp, w₀⟩, m⟩, hplan⟩ : ∃ x, (call.plan env a).exec fails 0 s.world = x := ⟨_, rfl⟩
  have hzoom : ((call.plan env a).zoom StampedWorld.part).exec fails 0 s =
      ((rp, ⟨w₀, s.updatedAt⟩), m) := by
    rw [Prog.exec_zoom]
    simp only [StampedWorld.part, hplan]
  have hout := Prog.outcome_exec fails (call.plan env a) 0 s.world
  rw [hplan] at hout
  obtain ⟨hnonces, hsound⟩ := (call.keeps_plan (a := a)).outcome hout ⟨s.world.db.challenges, rfl⟩
  have hclock : w₀.now = s.world.now :=
    (((call.steps_plan env a).keeps (I := fun w => w.now = s.world.now)
      fun w w' h hw => h.trans hw).outcome hout rfl).1
  have hsame : SameRows s ⟨w₀, s.updatedAt⟩ := ⟨.of_nonces hnonces, fun _ _ => rfl⟩
  rw [stampedHandler, Prog.exec_bind, hzoom]
  cases rp with
  | error e =>
    refine .inl ⟨⟨e, _, m, rfl, hsame⟩, ?_⟩
    rintro plan user n ⟨w₀', m', w₁, hplan', -⟩
    cases congrArg (fun x => x.1.1) (hplan.symm.trans hplan')
  | ok plan =>
    obtain ⟨⟨⟨rf, w₁⟩, n⟩, hfirst⟩ : ∃ x, (plan.first.run env a).exec fails m w₀ = x := ⟨_, rfl⟩
    obtain ⟨stamps, hstamped, hkept⟩ :=
      plan.first.stampedRun_exec env a fails m ⟨w₀, s.updatedAt⟩ hfirst
    have hpast (plan' : LoginPlan) (user' : UserRow) (n' : ℕ) :
        call.PastFirstWrite env a fails s.world plan' user' n' ↔
          plan' = plan ∧ rf = .ok user' ∧ n' = n := by
      constructor
      · rintro ⟨w₀', m', w₁', hplan', hfirst'⟩
        cases hplan.symm.trans hplan'
        cases hfirst.symm.trans hfirst'
        exact ⟨rfl, rfl, rfl⟩
      · rintro ⟨rfl, rfl, rfl⟩
        exact ⟨w₀, m, w₁, hplan, hfirst⟩
    simp only
    rw [Prog.exec_bind, hstamped]
    cases rf with
    | error e =>
      obtain rfl := firstWrite_error hfirst
      obtain rfl := hkept (.inl ⟨e, rfl⟩)
      refine .inl ⟨⟨e, _, n, rfl, hsame⟩, fun plan' user' n' hp => ?_⟩
      cases ((hpast plan' user' n').mp hp).2.1
    | ok user =>
      obtain ⟨hthere, hsessions, hwrote⟩ :=
        firstWrite_ok ((hsound plan rfl).congr hnonces.users) hfirst
      refine .inr ⟨plan, user, n, ⟨w₁, stamps⟩, fun plan' user' n' => ?_,
        ⟨hthere, ?_, fun hwrites => ?_, fun hnothing => ?_⟩, rfl⟩
      · rw [hpast]
        simp [eq_comm]
      · exact hsessions.trans hnonces.sessions
      · rw [if_pos hwrites, hnonces.users] at hwrote
        exact hwrote
      · rw [if_neg (by simp [hnothing])] at hwrote
        obtain rfl := hwrote
        obtain rfl := hkept (.inr hnothing)
        exact ⟨hsame, hclock⟩

end LoginCall

/-- **Failed logins that change nothing.** A request leaves users, keys with their stamps, invites
and invoices as they were whenever it fails, if and only if, once it is past its first write, every
later statement succeeds, or nothing was to be written and the keys it stores were stored already,
and just now. -/
theorem failedLogin_changes_nothing_iff (env : AuthEnv) (a : Answers) (call : LoginCall)
    (fails : ℕ → Bool) (s : StampedWorld) :
    (∀ e s' n, (call.stampedHandler env a).exec fails 0 s = ((.error e, s'), n) →
      SameRows s s') ↔
    ∀ plan user n, call.PastFirstWrite env a fails s.world plan user n →
      GoesThrough a fails n call.kind.platform user.id plan.keys s.world.db ∨
        plan.first.writes = false ∧ AlreadyStored s user.id (keptKeys fails n plan.keys) := by
  rcases call.handler_cases env a fails s with
    ⟨⟨e, s₁, n, hexec, hsame⟩, hnot⟩ | ⟨plan, user, n, s₁, hpast, hwritten, hexec⟩
  · refine ⟨fun _ plan user n h => (hnot plan user n h).elim, fun _ e' s' n' h => ?_⟩
    obtain rfl : s₁ = s' := congrArg (fun x => x.1.2) (hexec.symm.trans h)
    exact hsame
  · obtain ⟨⟨⟨r, s'⟩, n'⟩, hrest⟩ : ∃ x, (call.stampedHandler env a).exec fails 0 s = x := ⟨_, rfl⟩
    obtain ⟨w₂, hstored, hstamped, hkept, hgoes⟩ :=
      stampedRest_kept hwritten.there (hexec.symm.trans hrest)
    have hsessions : GoesThrough a fails n call.kind.platform user.id plan.keys s₁.world.db ↔
        GoesThrough a fails n call.kind.platform user.id plan.keys s.world.db := by
      constructor
      · exact fun h => ⟨h.stored, h.minted, hwritten.sessions ▸ h.unused, h.opened⟩
      · exact fun h => ⟨h.stored, h.minted, hwritten.sessions.symm ▸ h.unused, h.opened⟩
    rw [hsessions] at hgoes
    have hthis : (∀ plan' user' n', call.PastFirstWrite env a fails s.world plan' user' n' →
        GoesThrough a fails n' call.kind.platform user'.id plan'.keys s.world.db ∨
          plan'.first.writes = false ∧
            AlreadyStored s user'.id (keptKeys fails n' plan'.keys)) ↔
        GoesThrough a fails n call.kind.platform user.id plan.keys s.world.db ∨
          plan.first.writes = false ∧ AlreadyStored s user.id (keptKeys fails n plan.keys) := by
      refine ⟨fun h => h plan user n ((hpast ..).mpr ⟨rfl, rfl, rfl⟩), fun h plan' user' n' hp => ?_⟩
      obtain ⟨rfl, rfl, rfl⟩ := (hpast ..).mp hp
      exact h
    rw [hthis, hrest]
    cases r with
    | ok resp =>
      refine ⟨fun _ => .inl (hgoes.mp ⟨resp, rfl⟩), fun _ e s' n h => ?_⟩
      cases congrArg (fun x => x.1.1) h
    | error e =>
      have hnot : ¬ GoesThrough a fails n call.kind.platform user.id plan.keys s.world.db :=
        fun hgo => by
          obtain ⟨resp, hresp⟩ := hgoes.mpr hgo
          cases hresp
      have hall : (∀ e' s'' n'', (((.error e : Except AppError AuthResponse), s'), n') =
          ((.error e', s''), n'') → SameRows s s'') ↔ SameRows s s' := by
        refine ⟨fun h => h e s' n' rfl, ?_⟩
        rintro h e' s'' n'' heq
        obtain rfl : s' = s'' := congrArg (fun x => x.1.2) heq
        exact h
      rw [hall, or_iff_right hnot]
      cases hwrites : plan.first.writes with
      | true =>
        -- the row of the user stays changed
        obtain ⟨u, hu⟩ := hwritten.changed hwrites
        refine ⟨fun h => (hu ?_).elim, fun h => (nomatch h.1)⟩
        rw [← h.users u, hkept.users u, hstored.only]
      | false =>
        obtain ⟨hbefore, hclock⟩ := hwritten.same hwrites
        rw [sameRows_iff hbefore hclock hstored hstamped hkept]
        simp

/-- A user without an identity, with the BTC key `K` on file. -/
def keylessWorld : World where
  db := { Db.empty with
    users := ⟨[⟨1, none, none, none, none, some "fp", none, none, none⟩], by simp⟩
    userKeys := ⟨[⟨1, .btc, "K", none, "primary"⟩], by simp⟩ }
  now := 0

/-- Its wallet adopts the row, and submits a key of an unknown asset after those of known ones. -/
def unknownAssetLast : ExtensionRegisterRequest :=
  { walletRequest "K" (some "fp") with
    keys := [⟨"btc", "K", none⟩, ⟨"wow", "W", none⟩, ⟨"doge", "D", none⟩] }

/-- A login that fails with an unknown asset has moved its user to another identity and stored a
key. -/
theorem failedLogin_moved :
    ∃ s' n, ((LoginCall.extension unknownAssetLast).stampedHandler sampleEnv
        (sampleAnswers 2)).exec (fun _ => false) 0 ⟨keylessWorld, fun _ => 0⟩ =
          ((.error (.validationError "Invalid asset: doge"), s'), n) ∧
      s'.world.db.users.get? 1 ≠ keylessWorld.db.users.get? 1 ∧
      s'.world.db.userKeys.get? (1, .wow, "primary") ≠
        keylessWorld.db.userKeys.get? (1, .wow, "primary") ∧
      ¬ SameRows ⟨keylessWorld, fun _ => 0⟩ s' := by
  have hmoved : (((LoginCall.extension unknownAssetLast).stampedHandler sampleEnv
      (sampleAnswers 2)).exec (fun _ => false) 0
        ⟨keylessWorld, fun _ => 0⟩).1.2.world.db.users.get? 1 ≠
          keylessWorld.db.users.get? 1 := by decide +kernel
  exact ⟨_, _, rfl, hmoved, by decide +kernel, fun h => hmoved (h.users 1)⟩

end SmirkBackend
