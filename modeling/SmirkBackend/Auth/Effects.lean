import SmirkBackend.Auth.Nostr
import SmirkBackend.Auth.TokenConservation

/-!
# What the login handlers change

Every statement of a login or registration handler updates one user, creates one, stores a key,
opens a session, or touches neither users nor keys nor sessions.  An invariant that allows these
effects for the users a request acts for is kept by the whole handler.

The invariant with its effects is an `Allows`, and `Allows.keeps_signIn`,
`Allows.keeps_registerNew`, `Allows.keeps_getOrCreateUserByPubkeyHash` and the like say what the
parts of a handler keep.
-/

namespace SmirkBackend

open Lib (Table Patch Prog)

/-- What one statement does to users, keys and sessions. -/
inductive Effect
  | update (u : Uuid) (f : Patch UserRow)
  | create (r : UserRow)
  | key (u : Uuid)
  | session (r : SessionRow)
  | other

/-- The effect leads from one database to the other. -/
def Effect.Writes (db db' : Db) : Effect → Prop
  | update u f => db'.users = (db.users.updateOne u (fun _ => true) f).2 ∧
      db'.userKeys = db.userKeys ∧ db'.sessions = db.sessions
  | create r => db'.users.rows = db.users.rows ++ [r] ∧
      (∀ k, k.1 ≠ r.id → db'.userKeys.get? k = db.userKeys.get? k) ∧ db'.sessions = db.sessions
  | key u => db'.users = db.users ∧
      (∀ k, k.1 ≠ u → db'.userKeys.get? k = db.userKeys.get? k) ∧ db'.sessions = db.sessions
  | session r => db'.users = db.users ∧ db'.userKeys = db.userKeys ∧
      db'.sessions.rows = db.sessions.rows ++ [r]
  | other => db'.users = db.users ∧ db'.userKeys = db.userKeys ∧ db'.sessions = db.sessions

/-- An invariant of the database that a request keeps while it acts for the users of `P`, updates
rows by patches of `F` and creates rows of `N`. -/
structure Allows (I : Db → Prop) (P : Uuid → Prop) (F : Patch UserRow → Prop)
    (N : UserRow → Prop) : Prop where
  /-- Updates of users acted for. -/
  update : ∀ db db' u f, I db → P u → F f → (Effect.update u f).Writes db db' → I db'
  /-- New users, who may be acted for from then on. -/
  create : ∀ db db' r, I db → N r → (Effect.create r).Writes db db' → I db' ∧ P r.id
  /-- Keys of users acted for. -/
  key : ∀ db db' u, I db → P u → (Effect.key u).Writes db db' → I db'
  /-- Sessions of users acted for. -/
  session : ∀ db db' r, I db → P r.userId → (Effect.session r).Writes db db' → I db'
  /-- Everything else. -/
  other : ∀ db db', I db → Effect.other.Writes db db' → I db'

/-- An invariant of the database, of a world. -/
def OnDb (I : Db → Prop) (w : World) : Prop := I w.db

section Statements

variable {I : Db → Prop} {α : Type} {Q : α → Prop}

theorem keeps_select {f : Db → α} (h : ∀ db, I db → Q (f db)) : (select f).Keeps (OnDb I) Q :=
  Prog.keeps_read fun w hw => h w.db hw

theorem keeps_execute {f : Timestamp → Db → Except AppError α × Db}
    (h : ∀ now db, I db → I (f now db).2 ∧ ∀ a, (f now db).1 = .ok a → Q a) :
    (execute f).Keeps (OnDb I) Q :=
  Prog.keeps_query fun w hw => h w.now w.db hw

theorem keeps_fingerprintMatch {pepper : Pepper} {fingerprint : Option String}
    {Q : Option UserRow → Prop} (hnone : Q none)
    (hfound : ∀ db r, I db → r ∈ db.users.rows → Q (some r)) :
    (fingerprintMatch pepper fingerprint).Keeps (OnDb I) Q := by
  cases fingerprint with
  | none => exact hnone
  | some fp =>
    refine keeps_select (f := fun db => db.getUserBySeedFingerprint pepper fp) fun db hdb => ?_
    cases h : db.getUserBySeedFingerprint pepper fp with
    | none => exact hnone
    | some r => exact hfound db r hdb (List.mem_of_find?_eq_some h)

theorem updateUser_writes (u : Uuid) (f : Patch UserRow) (db : Db) :
    (db.updateUser u f).2 = db ∨ (Effect.update u f).Writes db (db.updateUser u f).2 := by
  unfold Db.updateUser
  cases db.users.get? u with
  | none => exact .inl rfl
  | some r =>
    simp only
    cases collision db.users.rows (f.set r) with
    | some c => exact .inl rfl
    | none => exact .inr ⟨rfl, rfl, rfl⟩

theorem updateUser_id {u : Uuid} {f : Patch UserRow} {db : Db} {r : UserRow}
    (h : (db.updateUser u f).1 = .ok (some r)) : r.id = u := by
  unfold Db.updateUser at h
  cases hrow : db.users.get? u with
  | none => simp [hrow] at h
  | some r₀ =>
    simp only [hrow] at h
    cases hcol : collision db.users.rows (f.set r₀) with
    | some c => simp [hcol] at h
    | none =>
      simp only [hcol, Except.ok.injEq, Option.some.injEq] at h
      have hkey : r.id = r₀.id := by
        rw [← h]
        exact f.key_set r₀
      exact hkey.trans (Table.key_of_get? hrow)

end Statements

namespace Allows

variable {I : Db → Prop} {P : Uuid → Prop} {F : Patch UserRow → Prop} {N : UserRow → Prop}
  (hI : Allows I P F N)

include hI

theorem updateUser {u : Uuid} (hu : P u) {f : Patch UserRow} (hf : F f) {db : Db} (hdb : I db) :
    I (db.updateUser u f).2 := by
  rcases updateUser_writes u f db with heq | hw
  · rw [heq]
    exact hdb
  · exact hI.update db _ u f hdb hu hf hw

theorem keeps_updatePubkeyHash {pepper : Pepper} {u : Uuid} {pubkeyHash : String} (hu : P u)
    (hf : F { set := fun r => { r with pubkeyHash := some (pepper "pubkey_hash" pubkeyHash) } }) :
    (updatePubkeyHash pepper u pubkeyHash).Keeps (OnDb I) fun _ => True := by
  refine keeps_execute fun _ db hdb => ?_
  have h := hI.updateUser hu hf hdb
  revert h
  cases db.updateUser u _ with
  | mk res db' => cases res <;> exact fun h => ⟨h, fun _ _ => trivial⟩

theorem keeps_setNostrPubkey {u : Uuid} {nostrPubkey : String} (hu : P u)
    (hf : F { set := fun r => { r with nostrPubkey := some nostrPubkey } }) :
    (setNostrPubkey u nostrPubkey).Keeps (OnDb I) fun _ => True := by
  refine keeps_execute fun _ db hdb => ?_
  have h := hI.updateUser hu hf hdb
  revert h
  cases db.updateUser u _ with
  | mk res db' => cases res <;> exact fun h => ⟨h, fun _ _ => trivial⟩

theorem keeps_backfillOptionals {pepper : Pepper} {existing : UserRow} {o : Optionals}
    (hu : P existing.id) (hf : F (o.fill pepper)) :
    (backfillOptionals pepper existing o).Keeps (OnDb I) fun r => P r.id := by
  unfold backfillOptionals
  split_ifs
  · exact hu
  · refine keeps_execute fun _ db hdb => ?_
    have h := hI.updateUser hu hf hdb
    have hid : ∀ r, (db.updateUser existing.id (o.fill pepper)).1 = .ok (some r) →
        r.id = existing.id := fun r hr => updateUser_id hr
    revert h hid
    cases db.updateUser existing.id (o.fill pepper) with
    | mk res db' =>
      match res with
      | .ok (some r) =>
        refine fun h hid => ⟨h, fun a ha => ?_⟩
        obtain rfl := Except.ok.inj ha
        rw [hid r rfl]
        exact hu
      | .ok none => exact fun h _ => ⟨h, fun a ha => nomatch ha⟩
      | .error c => exact fun h _ => ⟨h, fun a ha => nomatch ha⟩

theorem keeps_createUser {pepper : Pepper} {id : Uuid} {new : NewUser} (hnew : N (new.row pepper id)) :
    (createUser pepper id new).Keeps (OnDb I) fun r => P r.id := by
  refine keeps_execute fun _ db hdb => ?_
  cases h : db.insertUser (new.row pepper id) with
  | error c => exact ⟨hdb, fun a ha => nomatch ha⟩
  | ok db' =>
    obtain ⟨-, users, hins, rfl⟩ := insertUser_eq_ok_iff.mp h
    have hw : (Effect.create (new.row pepper id)).Writes db { db with users := users } :=
      ⟨(Table.insert?_eq_some_iff.mp hins).2, fun _ _ => rfl, rfl⟩
    obtain ⟨hdb', hid⟩ := hI.create _ _ _ hdb hnew hw
    refine ⟨hdb', fun a ha => ?_⟩
    obtain rfl := Except.ok.inj ha
    exact hid

theorem keeps_createUserConsumingGates {pepper : Pepper} {id : Uuid} {new : NewUser}
    (hnew : N (new.row pepper id)) (gates : GatedRegistration)
    (keys : List (AssetType × AssetPublicKey)) :
    (createUserConsumingGates pepper id gates new keys).Keeps (OnDb I) fun r => P r.id := by
  refine Prog.keeps_query fun w hw => ?_
  cases h : Lib.replay (consumeGatesScript pepper new gates keys ⟨w.now, id⟩) w with
  | error e => exact ⟨hw, fun a ha => nomatch ha⟩
  | ok w' =>
    have hspent := spent_of_replay h
    obtain ⟨hdb', hid⟩ := hI.create w.db w'.db _ hw hnew ⟨hspent.users, hspent.keys, hspent.rest.1⟩
    refine ⟨hdb', fun a ha => ?_⟩
    obtain rfl := Except.ok.inj ha
    exact hid

theorem keeps_registerNew {q : Registration} {id : Uuid} (hnew : N (q.new.row q.pepper id)) :
    (registerNew q id).Keeps (OnDb I) fun r => P r.id :=
  (keeps_registrationPlan q).bind fun g _ => hI.keeps_createUserConsumingGates hnew g.1 g.2

theorem keeps_upsertUserKey {k : UserKeyRow} (hu : P k.userId) :
    (upsertUserKey k).Keeps (OnDb I) fun _ => True := by
  refine keeps_execute fun _ db hdb => ?_
  unfold Db.upsertUserKey
  split_ifs
  · exact ⟨hdb, fun _ _ => trivial⟩
  · refine ⟨hI.key db _ k.userId hdb hu ⟨rfl, fun k' hk' => ?_, rfl⟩, fun _ _ => trivial⟩
    change (db.userKeys.upsert k _).get? k' = _
    rw [Table.get?_upsert, if_neg]
    rintro rfl
    exact hk' rfl

theorem keeps_upsertAllKeys {u : Uuid} (hu : P u) (keys : List AssetPublicKey) :
    (upsertAllKeys u keys).Keeps (OnDb I) fun _ => True := by
  induction keys with
  | nil => trivial
  | cons k rest ih =>
    refine (Prog.keeps_ofExcept (Q := fun _ => True) fun _ _ => trivial).bind fun asset _ => ?_
    exact (hI.keeps_upsertUserKey hu).bind fun _ _ => ih

theorem keeps_createSession {r : SessionRow} (hu : P r.userId) :
    (createSession r).Keeps (OnDb I) fun _ => True := by
  refine keeps_execute fun _ db hdb => ?_
  split_ifs
  · exact ⟨hdb, fun _ _ => trivial⟩
  · cases h : db.sessions.insert? r with
    | none => exact ⟨hdb, fun _ _ => trivial⟩
    | some sessions =>
      have hrows := (Table.insert?_eq_some_iff.mp h).2
      exact ⟨hI.session db _ r hdb hu ⟨rfl, rfl, hrows⟩, fun _ _ => trivial⟩

theorem keeps_recordLoginEvent (r : LoginEventRow) :
    (recordLoginEvent r).Keeps (OnDb I) fun _ => True := by
  refine Prog.keeps_attempt (fun w hw => ?_) trivial
  refine hI.other w.db _ hw ?_
  simp only
  split_ifs <;> exact ⟨rfl, rfl, rfl⟩

/-- A login opens a session for its user and says so. -/
theorem keeps_signIn {env : AuthEnv} {a : Answers} {user : UserRow} (hu : P user.id)
    (platform : Platform) (deviceInfo asset : String) (isNew : Bool) :
    (signIn env a user platform deviceInfo asset isNew).Keeps (OnDb I) fun r => P r.user.id := by
  have hissue : (issueSession env a user.id platform deviceInfo).Keeps (OnDb I) fun _ => True := by
    refine (Prog.keeps_ofExcept (Q := fun _ => True) fun _ _ => trivial).bind fun pair _ => ?_
    exact (hI.keeps_createSession hu).bind fun _ _ => trivial
  exact hissue.bind fun pair _ => (hI.keeps_recordLoginEvent _).bind fun _ _ => hu

theorem keeps_getOrCreateUserByPubkeyHash {pepper : Pepper} {id : Uuid} {pubkeyHash : String}
    {username : Option String} {o : Optionals}
    (hfound : ∀ db r, I db → db.getUserByPubkeyHash pepper pubkeyHash = some r → P r.id)
    (hf : F (o.fill pepper)) (hnew : N ((o.newUser username (some pubkeyHash) none).row pepper id)) :
    (getOrCreateUserByPubkeyHash pepper id pubkeyHash username o).Keeps (OnDb I)
      fun r => P r.id := by
  refine (keeps_select (Q := fun found => ∀ r, found = some r → P r.id)
    fun db hdb r hr => hfound db r hdb hr).bind fun found hP => ?_
  cases found with
  | some existing => exact hI.keeps_backfillOptionals (hP existing rfl) hf
  | none => exact hI.keeps_createUser hnew

theorem keeps_repoint {env : AuthEnv} {a : Answers} {req : ExtensionRegisterRequest}
    {pubkeyHash : String} {target : UserRow} (hu : P target.id)
    (hf : F { set := fun r =>
      { r with pubkeyHash := some (env.pepper "pubkey_hash" pubkeyHash) } }) :
    (repoint env a req pubkeyHash target).Keeps (OnDb I) fun r => P r.user.id := by
  refine (Prog.keeps_ofExcept (Q := fun _ => True) fun _ _ => trivial).bind fun _ _ => ?_
  refine (hI.keeps_updatePubkeyHash hu hf).bind fun _ _ => ?_
  exact (hI.keeps_upsertAllKeys hu req.keys).bind fun _ _ => hI.keeps_signIn hu _ _ _ _

theorem keeps_getOrRegister {env : AuthEnv} {a : Answers} {req : ExtensionRegisterRequest}
    {pubkeyHash : String} {existing : Option UserRow}
    (hfound : ∀ db r, I db → db.getUserByPubkeyHash env.pepper pubkeyHash = some r → P r.id)
    (hf : ∀ o : Optionals, F (o.fill env.pepper))
    (hnew : ∀ o : Optionals,
      N ((o.newUser req.username (some pubkeyHash) none).row env.pepper a.userId)) :
    (getOrRegister env a req pubkeyHash existing).Keeps (OnDb I) fun r => P r.user.id := by
  refine (Prog.keeps_ofExcept (Q := fun _ => True) fun _ _ => trivial).bind fun _ _ => ?_
  have hfingerprint : (fingerprintForRow env existing req.seedFingerprint).Keeps (OnDb I)
      fun _ => True := by
    unfold fingerprintForRow
    cases req.seedFingerprint with
    | none => trivial
    | some fp => exact (keeps_select (Q := fun _ => True) fun _ _ => trivial).bind fun _ _ => trivial
  refine hfingerprint.bind fun fingerprint _ => ?_
  split_ifs
  · refine (hI.keeps_getOrCreateUserByPubkeyHash hfound (hf _) (hnew _)).bind fun user hu => ?_
    exact (hI.keeps_upsertAllKeys hu req.keys).bind fun _ _ => hI.keeps_signIn hu _ _ _ _
  · exact (hI.keeps_registerNew (hnew _)).bind fun user hu => hI.keeps_signIn hu _ _ _ _

theorem keeps_consumeChallenge (nonce purpose : String) :
    (consumeChallenge nonce purpose).Keeps (OnDb I) fun _ => True :=
  keeps_execute fun _ db hdb => ⟨hI.other db _ hdb ⟨rfl, rfl, rfl⟩, fun _ _ => trivial⟩

theorem keeps_requireChallenge (nonce purpose : String) :
    (requireChallenge nonce purpose).Keeps (OnDb I) fun _ => True := by
  refine (hI.keeps_consumeChallenge nonce purpose).bind fun found _ => ?_
  cases found <;> trivial

theorem keeps_issueChallenge (nonce purpose : String) (subject : Option String) (ttl : ℤ) :
    (issueChallenge nonce purpose subject ttl).Keeps (OnDb I) fun _ => True := by
  refine (keeps_execute (Q := fun _ => True) fun now db hdb => ?_).bind fun _ _ => trivial
  cases db.challenges.insert? _ with
  | some challenges => exact ⟨hI.other db _ hdb ⟨rfl, rfl, rfl⟩, fun _ _ => trivial⟩
  | none => exact ⟨hdb, fun _ _ => trivial⟩

end Allows

theorem keeps_extractUserIdFromToken {I : Db → Prop} (bearer : Except AppError TokenInfo) :
    (extractUserIdFromToken bearer).Keeps (OnDb I) fun u =>
      ∃ info, bearer = .ok info ∧ u = info.userId := by
  refine (Prog.keeps_ofExcept (Q := fun info => bearer = .ok info) fun _ h => h).bind
    fun info hinfo => ?_
  cases info.sessionId with
  | none => exact ⟨info, hinfo, rfl⟩
  | some session =>
    refine (Prog.keeps_read (Q := fun _ => True) fun _ _ => trivial).bind fun live _ => ?_
    cases live
    · trivial
    · exact ⟨info, hinfo, rfl⟩

end SmirkBackend
