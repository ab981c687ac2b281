import SmirkBackend.Auth.Nostr
import SmirkBackend.Auth.TokenConservation

/-!
# What logins leave alone

The checks of a login only read.  Its other statements write users, keys, sessions and login events,
and those that issue or consume a nonce write nonces.  Whatever does not depend on these tables is
the same after each statement as before it.

A part of the database that does not depend on them is an `OutsideLogins`; `steps_registrationPlan`
and the like are about statements that only read, `OutsideLogins.steps_signIn`,
`OutsideLogins.steps_upsertAllKeys` and the like about the parts of a handler.
-/

namespace SmirkBackend

open Lib (Table Patch Prog)

/-! ### Statements that only read -/

section Steps

variable {R : World → World → Prop} (hrefl : ∀ w, R w w)

include hrefl

theorem steps_extractUserIdFromToken (bearer : Except AppError TokenInfo) :
    (extractUserIdFromToken bearer).Steps R := by
  refine (Prog.steps_ofExcept bearer).bind fun info => ?_
  cases info.sessionId with
  | none => trivial
  | some session =>
    refine (Prog.steps_read hrefl).bind fun live => ?_
    cases live <;> trivial

theorem steps_fingerprintMatch (pepper : Pepper) (fingerprint : Option String) :
    (fingerprintMatch pepper fingerprint).Steps R := by
  cases fingerprint with
  | none => trivial
  | some fp => exact Prog.steps_read hrefl

theorem steps_verifyPaymentSettled (cfg : GateConfig) (provider : String → Except AppError Invoice)
    (pubkeyHash : String) (paymentInvoiceId : Option String) :
    (verifyPaymentSettled cfg provider pubkeyHash paymentInvoiceId).Steps R := by
  unfold verifyPaymentSettled
  split_ifs
  · trivial
  · trivial
  · cases presented paymentInvoiceId with
    | none => trivial
    | some id =>
      refine (Prog.steps_read hrefl).bind fun found => ?_
      cases found.filter fun r => r.pubkeyHash = pubkeyHash with
      | none => trivial
      | some row =>
        simp only
        split_ifs
        · trivial
        · exact Prog.steps_ofExcept _

theorem steps_planGateConsume (cfg : GateConfig) (hashInviteCode : String → String)
    (provider : String → Except AppError Invoice) (pubkeyHash : String)
    (inviteCode paymentInvoiceId : Option String) :
    (planGateConsume cfg hashInviteCode provider pubkeyHash inviteCode paymentInvoiceId).Steps
      R := by
  have hpaid := steps_verifyPaymentSettled hrefl cfg provider pubkeyHash paymentInvoiceId
  have hinvite : (plannedInvite cfg hashInviteCode inviteCode).Steps R := by
    unfold plannedInvite
    split_ifs
    · exact (Prog.steps_ofExcept _).bind fun _ => trivial
    · trivial
  unfold planGateConsume
  split
  · trivial
  · exact hinvite.bind fun _ => hpaid.bind fun _ => trivial
  · exact (Prog.steps_ofExcept _).bind fun _ => trivial
  · exact hpaid.bind fun _ => trivial
  · trivial
  · trivial

theorem steps_ensureUsernameAvailable (username : Option String) :
    (ensureUsernameAvailable username).Steps R := by
  unfold ensureUsernameAvailable
  cases presented username with
  | none => trivial
  | some name =>
    refine (Prog.steps_read hrefl).bind fun found => ?_
    cases found <;> trivial

theorem steps_registrationPlan (q : Registration) : (registrationPlan q).Steps R := by
  refine (steps_ensureUsernameAvailable hrefl _).bind fun _ => ?_
  refine (steps_planGateConsume hrefl _ _ _ _ _ _).bind fun gates => ?_
  exact (Prog.steps_ofExcept _).bind fun _ => trivial

theorem steps_fingerprintForRow_of_refl (env : AuthEnv) (existing : Option UserRow)
    (fingerprint : Option String) : (fingerprintForRow env existing fingerprint).Steps R := by
  unfold fingerprintForRow
  cases fingerprint with
  | none => trivial
  | some fp => exact (Prog.steps_read hrefl).bind fun _ => trivial

theorem steps_repointTarget_of_refl (env : AuthEnv) (req : ExtensionRegisterRequest)
    (publicKey pubkeyHash : String) : (repointTarget env req publicKey pubkeyHash).Steps R := by
  unfold repointTarget
  cases req.seedFingerprint with
  | none => trivial
  | some fp =>
    refine (Prog.steps_read hrefl).bind fun found => ?_
    cases found with
    | none => trivial
    | some target => exact (Prog.steps_read hrefl).bind fun _ => trivial

theorem steps_rejectKnownFingerprint_of_refl (pepper : Pepper) (fingerprint : Option String) :
    (rejectKnownFingerprint pepper fingerprint).Steps R := by
  refine (steps_fingerprintMatch hrefl pepper fingerprint).bind fun found => ?_
  cases found <;> trivial

end Steps

/-! ### Statements of a login -/

/-- A part of the database that does not depend on users, keys, sessions or login events. -/
structure OutsideLogins {γ : Type} (π : Db → γ) : Prop where
  /-- Users. -/
  users : ∀ db t, π { db with users := t } = π db
  /-- Keys. -/
  userKeys : ∀ db t, π { db with userKeys := t } = π db
  /-- Sessions. -/
  sessions : ∀ db t, π { db with sessions := t } = π db
  /-- Login events. -/
  loginEvents : ∀ db t, π { db with loginEvents := t } = π db

/-- A statement leaves the part as it was. -/
def SamePart {γ : Type} (π : Db → γ) (w w' : World) : Prop := π w'.db = π w.db

theorem SamePart.refl {γ : Type} (π : Db → γ) (w : World) : SamePart π w w := rfl

section SamePart

variable {γ α : Type} {π : Db → γ}

theorem steps_select_same (f : Db → α) : (select f).Steps (SamePart π) :=
  Prog.steps_read (SamePart.refl π)

theorem steps_execute_same {f : Timestamp → Db → Except AppError α × Db}
    (h : ∀ now db, π (f now db).2 = π db) : (execute f).Steps (SamePart π) :=
  Prog.steps_query fun w => h w.now w.db

theorem steps_executeIgnored_same {f : Timestamp → Db → Db} (h : ∀ now db, π (f now db) = π db) :
    (executeIgnored f).Steps (SamePart π) :=
  Prog.steps_attempt fun w => h w.now w.db

theorem steps_requireChallenge_same (h : ∀ db t, π { db with challenges := t } = π db)
    (nonce purpose : String) : (requireChallenge nonce purpose).Steps (SamePart π) := by
  refine (steps_execute_same fun _ _ => h _ _).bind fun found => ?_
  cases found <;> trivial

end SamePart

namespace OutsideLogins

variable {γ : Type} {π : Db → γ} (hπ : OutsideLogins π)

include hπ

theorem updateUser (u : Uuid) (f : Patch UserRow) (db : Db) : π (db.updateUser u f).2 = π db := by
  unfold Db.updateUser
  cases db.users.get? u with
  | none => rfl
  | some r =>
    simp only
    cases collision db.users.rows (f.set r) with
    | some c => rfl
    | none => exact hπ.users db _

theorem steps_updatePubkeyHash (pepper : Pepper) (u : Uuid) (pubkeyHash : String) :
    (updatePubkeyHash pepper u pubkeyHash).Steps (SamePart π) := by
  refine steps_execute_same fun _ db => ?_
  have h := hπ.updateUser u
    { set := fun r => { r with pubkeyHash := some (pepper "pubkey_hash" pubkeyHash) } } db
  revert h
  cases db.updateUser u _ with
  | mk res db' => cases res <;> exact id

theorem steps_setNostrPubkey (u : Uuid) (nostrPubkey : String) :
    (setNostrPubkey u nostrPubkey).Steps (SamePart π) := by
  refine steps_execute_same fun _ db => ?_
  have h := hπ.updateUser u { set := fun r => { r with nostrPubkey := some nostrPubkey } } db
  revert h
  cases db.updateUser u _ with
  | mk res db' => cases res <;> exact id

theorem steps_backfillOptionals (pepper : Pepper) (existing : UserRow) (o : Optionals) :
    (backfillOptionals pepper existing o).Steps (SamePart π) := by
  unfold backfillOptionals
  split_ifs
  · trivial
  · refine steps_execute_same fun _ db => ?_
    have h := hπ.updateUser existing.id (o.fill pepper) db
    revert h
    cases db.updateUser existing.id (o.fill pepper) with
    | mk res db' =>
      match res with
      | .ok (some r) => exact id
      | .ok none => exact id
      | .error c => exact id

theorem steps_createUser (pepper : Pepper) (id : Uuid) (new : NewUser) :
    (createUser pepper id new).Steps (SamePart π) := by
  refine steps_execute_same fun _ db => ?_
  cases h : db.insertUser (new.row pepper id) with
  | error c => rfl
  | ok db' =>
    obtain ⟨-, users, -, rfl⟩ := insertUser_eq_ok_iff.mp h
    exact hπ.users db users

theorem steps_getOrCreateUserByPubkeyHash (pepper : Pepper) (id : Uuid) (pubkeyHash : String)
    (username : Option String) (o : Optionals) :
    (getOrCreateUserByPubkeyHash pepper id pubkeyHash username o).Steps (SamePart π) := by
  refine (steps_select_same _).bind fun found => ?_
  cases found with
  | some existing => exact hπ.steps_backfillOptionals pepper existing o
  | none => exact hπ.steps_createUser pepper id _

theorem steps_getOrCreateUserByNostrPubkey (pepper : Pepper) (id : Uuid) (nostrPubkey : String)
    (username : Option String) (o : Optionals) :
    (getOrCreateUserByNostrPubkey pepper id nostrPubkey username o).Steps (SamePart π) := by
  refine (steps_select_same _).bind fun found => ?_
  cases found with
  | some existing => exact hπ.steps_backfillOptionals pepper existing o
  | none =>
    refine (steps_fingerprintMatch (SamePart.refl π) pepper _).bind fun matching => ?_
    cases matching with
    | none => exact hπ.steps_createUser pepper id _
    | some existing =>
      simp only
      cases existing.nostrPubkey with
      | none => trivial
      | some pk =>
        simp only
        split_ifs
        · exact hπ.steps_backfillOptionals pepper existing _
        · trivial

theorem steps_upsertUserKey (k : UserKeyRow) : (upsertUserKey k).Steps (SamePart π) := by
  refine steps_execute_same fun _ db => ?_
  unfold Db.upsertUserKey
  split_ifs
  · rfl
  · exact hπ.userKeys db _

theorem steps_upsertAllKeys (u : Uuid) (keys : List AssetPublicKey) :
    (upsertAllKeys u keys).Steps (SamePart π) := by
  induction keys with
  | nil => trivial
  | cons k rest ih =>
    refine (Prog.steps_ofExcept _).bind fun asset => ?_
    exact (hπ.steps_upsertUserKey _).bind fun _ => ih

theorem steps_createSession (r : SessionRow) : (createSession r).Steps (SamePart π) := by
  refine steps_execute_same fun _ db => ?_
  split_ifs
  · rfl
  · cases db.sessions.insert? r with
    | none => rfl
    | some sessions => exact hπ.sessions db sessions

theorem steps_recordLoginEvent (r : LoginEventRow) :
    (recordLoginEvent r).Steps (SamePart π) := by
  refine steps_executeIgnored_same fun _ db => ?_
  split_ifs
  · rfl
  · exact hπ.loginEvents db _

theorem steps_signIn (env : AuthEnv) (a : Answers) (user : UserRow) (platform : Platform)
    (deviceInfo asset : String) (isNew : Bool) :
    (signIn env a user platform deviceInfo asset isNew).Steps (SamePart π) := by
  have hissue : (issueSession env a user.id platform deviceInfo).Steps (SamePart π) :=
    (Prog.steps_ofExcept _).bind fun _ => (hπ.steps_createSession _).bind fun _ => trivial
  exact hissue.bind fun _ => (hπ.steps_recordLoginEvent _).bind fun _ => trivial

theorem steps_keysAndSignIn (env : AuthEnv) (a : Answers) (user : UserRow)
    (keys : List AssetPublicKey) (platform : Platform) (deviceInfo asset : String) (isNew : Bool) :
    (upsertAllKeys user.id keys >>= fun _ =>
      signIn env a user platform deviceInfo asset isNew).Steps (SamePart π) :=
  (hπ.steps_upsertAllKeys user.id keys).bind fun _ =>
    hπ.steps_signIn env a user platform deviceInfo asset isNew

end OutsideLogins

end SmirkBackend
