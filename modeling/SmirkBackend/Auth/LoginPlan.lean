import SmirkBackend.Auth.Anchor

/-!
# The writes of a login

A login or registration first decides what to do and then does it: it writes the row of its user,
stores the submitted keys one statement at a time, and opens a session.  Only the registration of a
new wallet does the first two in one transaction.

Both handlers are a plan and its execution (`extensionRegister_plan`, `nostrRegister_plan`).
Deciding changes no account, and the first write it decides on acts on the row that was read
(`keeps_extensionPlan`, `keeps_nostrPlan`).
-/

namespace SmirkBackend

open Lib (Table Prog)

/-! ### Plans -/

/-- What a login does to the row of its user. -/
inductive FirstWrite
  /-- The user moves to another identity. -/
  | move (target : UserRow) (pubkeyHash : String)
  /-- Missing optional values are filled in. -/
  | backfill (existing : UserRow) (o : Optionals)
  /-- A user is created. -/
  | create (new : NewUser)
  /-- A user is created with its keys, and its gate tokens are consumed, in one transaction. -/
  | register (gates : GatedRegistration) (new : NewUser) (keys : List (AssetType × AssetPublicKey))

/-- The statement; it returns the user who signs in. -/
def FirstWrite.run (env : AuthEnv) (a : Answers) : FirstWrite → Handler UserRow
  | move target pubkeyHash => do
    updatePubkeyHash env.pepper target.id pubkeyHash
    return target
  | backfill existing o => backfillOptionals env.pepper existing o
  | create new => createUser env.pepper a.userId new
  | register gates new keys => createUserConsumingGates env.pepper a.userId gates new keys

/-- What a request has decided. -/
structure LoginPlan where
  /-- The first write. -/
  first : FirstWrite
  /-- Keys to store after it. -/
  keys : List AssetPublicKey
  /-- The user is new. -/
  isNew : Bool

/-- Kind of session and event of a handler. -/
structure LoginKind where
  /-- Kind of client. -/
  platform : Platform
  /-- Description of the client. -/
  deviceInfo : String
  /-- Login method. -/
  asset : String

/-- The writes. -/
def LoginPlan.finish (env : AuthEnv) (a : Answers) (kind : LoginKind) (plan : LoginPlan) :
    Handler AuthResponse := do
  let user ← plan.first.run env a
  upsertAllKeys user.id plan.keys
  signIn env a user kind.platform kind.deviceInfo kind.asset plan.isNew

/-- The registration of a new wallet, planned. -/
def registerPlan (q : Registration) : Handler LoginPlan := do
  let (gates, keys) ← registrationPlan q
  return ⟨.register gates q.new keys, [], true⟩

/-- `get_or_create_user_by_pubkey_hash`, planned. -/
def pubkeyHashPlan (env : AuthEnv) (req : ExtensionRegisterRequest) (pubkeyHash : String)
    (o : Optionals) : Handler LoginPlan := do
  match ← select fun db => db.getUserByPubkeyHash env.pepper pubkeyHash with
  | some existing => return ⟨.backfill existing o, req.keys, false⟩
  | none => return ⟨.create (o.newUser req.username (some pubkeyHash) none), req.keys, false⟩

/-- The decision of `extension_register`, once the key is proven. -/
def provenPlan (env : AuthEnv) (a : Answers) (req : ExtensionRegisterRequest)
    (pubkeyHash : String) (existing target : Option UserRow) : Handler LoginPlan :=
  match target with
  | some target => do
    .ofExcept (enforcePow env.pow (toLowercase pubkeyHash) false req.altchaSolution)
    return ⟨.move target pubkeyHash, req.keys, false⟩
  | none => do
    .ofExcept (enforcePow env.pow (toLowercase pubkeyHash) existing.isSome req.altchaSolution)
    let fingerprint ← fingerprintForRow env existing req.seedFingerprint
    if existing.isSome then pubkeyHashPlan env req pubkeyHash (req.optionals fingerprint)
    else registerPlan (req.registration env a pubkeyHash fingerprint)

/-- The decision of `extension_register`. -/
def extensionPlan (env : AuthEnv) (a : Answers) (req : ExtensionRegisterRequest) :
    Handler LoginPlan :=
  match btcKey req.keys with
  | none => .fail (.validationError "BTC public key is required")
  | some key => do
    let pubkeyHash := env.hashPublicKey key.publicKey
    .ofExcept (validateOptional req.username)
    .ofExcept (checkDrift a.now req.signedTimestamp)
    .ofExcept
      (env.verifyBitcoinSignature (authMessage req.signedTimestamp) req.signature key.publicKey)
    let existing ← select fun db => db.getUserByPubkeyHash env.pepper pubkeyHash
    let target ← if existing.isSome then .ret none
      else repointTarget env req key.publicKey pubkeyHash
    provenPlan env a req pubkeyHash existing target

/-- `get_or_create_user_by_nostr_pubkey`, planned. -/
def nostrPubkeyPlan (env : AuthEnv) (req : NostrRegisterRequest) (pubkey : String) :
    Handler LoginPlan := do
  match ← select fun db => db.findUserByNostrPubkey pubkey with
  | some existing => return ⟨.backfill existing req.optionals, req.keys, false⟩
  | none =>
    match ← fingerprintMatch env.pepper req.optionals.seedFingerprint with
    | some existing =>
      match existing.nostrPubkey with
      | some pk =>
        if pk = pubkey then
          return ⟨.backfill existing { req.optionals with seedFingerprint := none }, req.keys, false⟩
        else .fail (.conflict ("This wallet is already registered under a different Nostr identity. " ++
          "Sign in instead."))
      | none => .fail alreadyHasAccount
    | none => return ⟨.create (req.optionals.newUser req.username none (some pubkey)), req.keys, false⟩

/-- The decision of `nostr_register`. -/
def nostrPlan (env : AuthEnv) (a : Answers) (req : NostrRegisterRequest) : Handler LoginPlan := do
  .ofExcept (validateOptional req.username)
  let _ ← requireChallenge req.nonce "nostr_register"
  let pubkey ← .ofExcept
    (proveNostr env a req.nostrToken "/auth/nostr/register" "nostr_register" req.nonce)
  let existing ← select fun db => db.findUserByNostrPubkey pubkey
  .ofExcept (enforcePow env.pow pubkey existing.isSome req.altchaSolution)
  if existing.isSome then nostrPubkeyPlan env req pubkey
  else
    rejectKnownFingerprint env.pepper req.seedFingerprint
    registerPlan (req.registration env a pubkey)

/-! ### The handlers, planned -/

/-- The session of the extension. -/
def extensionKind : LoginKind := ⟨.extension, "Browser Extension", "btc"⟩

/-- The session of a Nostr login. -/
def nostrKind : LoginKind := ⟨.nostr, "Nostr", "nostr"⟩

theorem registerPlan_finish {env : AuthEnv} {a : Answers} (kind : LoginKind) {q : Registration}
    (hpepper : q.pepper = env.pepper) :
    (registerPlan q >>= LoginPlan.finish env a kind) = (registerNew q a.userId >>= fun user =>
      signIn env a user kind.platform kind.deviceInfo kind.asset true) := by
  rw [registerPlan, registerNew, Prog.bind_bind, Prog.bind_bind]
  congr 1
  funext ⟨gates, keys⟩
  rw [hpepper]
  rfl

theorem pubkeyHashPlan_finish {env : AuthEnv} {a : Answers} (kind : LoginKind)
    {req : ExtensionRegisterRequest} {pubkeyHash : String} {o : Optionals} :
    (pubkeyHashPlan env req pubkeyHash o >>= LoginPlan.finish env a kind) =
      (getOrCreateUserByPubkeyHash env.pepper a.userId pubkeyHash req.username o >>= fun user =>
        upsertAllKeys user.id req.keys >>= fun _ =>
          signIn env a user kind.platform kind.deviceInfo kind.asset false) := by
  rw [pubkeyHashPlan, getOrCreateUserByPubkeyHash, Prog.bind_bind, Prog.bind_bind]
  congr 1
  funext found
  cases found <;> rfl

theorem nostrPubkeyPlan_finish {env : AuthEnv} {a : Answers} (kind : LoginKind)
    {req : NostrRegisterRequest} {pubkey : String} :
    (nostrPubkeyPlan env req pubkey >>= LoginPlan.finish env a kind) =
      (getOrCreateUserByNostrPubkey env.pepper a.userId pubkey req.username req.optionals >>=
        fun user => upsertAllKeys user.id req.keys >>= fun _ =>
          signIn env a user kind.platform kind.deviceInfo kind.asset false) := by
  rw [nostrPubkeyPlan, getOrCreateUserByNostrPubkey, Prog.bind_bind, Prog.bind_bind]
  congr 1
  funext found
  cases found with
  | some existing => rfl
  | none =>
    simp only [Prog.bind_bind]
    congr 1
    funext owner
    cases owner with
    | none => rfl
    | some existing =>
      cases hpk : existing.nostrPubkey with
      | none => simp only [hpk, Prog.fail_bind]
      | some pk =>
        simp only [hpk]
        split_ifs
        · rfl
        · rfl

theorem provenPlan_finish (env : AuthEnv) (a : Answers) (req : ExtensionRegisterRequest)
    (pubkeyHash : String) (existing target : Option UserRow) :
    (provenPlan env a req pubkeyHash existing target >>= LoginPlan.finish env a extensionKind) =
      match target with
      | some target => repoint env a req pubkeyHash target
      | none => getOrRegister env a req pubkeyHash existing := by
  cases target with
  | some target =>
    simp only [repoint, provenPlan, Prog.bind_bind, Prog.pure_eq, Prog.ret_bind, LoginPlan.finish,
      FirstWrite.run, extensionKind]
  | none =>
    simp only [getOrRegister, provenPlan, Prog.bind_bind]
    congr 1
    funext _
    congr 1
    funext fingerprint
    split_ifs
    · exact pubkeyHashPlan_finish extensionKind
    · exact registerPlan_finish extensionKind rfl

/-- `extension_register` decides and then writes. -/
theorem extensionRegister_plan (env : AuthEnv) (a : Answers) (req : ExtensionRegisterRequest) :
    extensionRegister env a req =
      extensionPlan env a req >>= LoginPlan.finish env a extensionKind := by
  unfold extensionRegister extensionPlan
  cases btcKey req.keys with
  | none => rfl
  | some key =>
    simp only [Prog.bind_bind]
    congr 1
    funext _
    congr 1
    funext _
    congr 1
    funext _
    congr 1
    funext existing
    split_ifs
    · exact (provenPlan_finish env a req _ existing none).symm
    · rw [Prog.bind_bind]
      congr 1
      funext target
      exact (provenPlan_finish env a req _ existing target).symm

/-- `nostr_register` decides and then writes. -/
theorem nostrRegister_plan (env : AuthEnv) (a : Answers) (req : NostrRegisterRequest) :
    nostrRegister env a req = nostrPlan env a req >>= LoginPlan.finish env a nostrKind := by
  unfold nostrRegister nostrPlan
  simp only [Prog.bind_bind]
  congr 1
  funext _
  congr 1
  funext _
  congr 1
  funext pubkey
  congr 1
  funext existing
  congr 1
  funext _
  split_ifs
  · exact (nostrPubkeyPlan_finish nostrKind).symm
  · rw [Prog.bind_bind]
    congr 1
    funext _
    exact (registerPlan_finish nostrKind rfl).symm

/-! ### What is decided -/

/-- The first write acts on the row as it was read, and a move changes its identity. -/
def FirstWrite.Sound (pepper : Pepper) (db : Db) : FirstWrite → Prop
  | move target pubkeyHash => db.users.get? target.id = some target ∧
      target.pubkeyHash ≠ some (pepper "pubkey_hash" pubkeyHash)
  | backfill existing _ => db.users.get? existing.id = some existing
  | create _ => True
  | register .. => True

theorem FirstWrite.Sound.congr {pepper : Pepper} {db db' : Db} {first : FirstWrite}
    (h : first.Sound pepper db) (husers : db'.users = db.users) : first.Sound pepper db' := by
  cases first with
  | move target pubkeyHash => exact ⟨husers ▸ h.1, h.2⟩
  | backfill existing o => exact (congrArg (Table.get? · existing.id) husers).trans h
  | create new => trivial
  | register gates new keys => trivial

/-- The same database, but for the nonces. -/
def OnlyNonces (db db' : Db) : Prop := ∃ challenges, db' = { db with challenges := challenges }

theorem OnlyNonces.users {db db' : Db} (h : OnlyNonces db db') : db'.users = db.users := by
  obtain ⟨challenges, rfl⟩ := h
  rfl

theorem OnlyNonces.sessions {db db' : Db} (h : OnlyNonces db db') : db'.sessions = db.sessions := by
  obtain ⟨challenges, rfl⟩ := h
  rfl

section Plans

variable {env : AuthEnv} {db₀ : Db}

theorem keeps_of_reads {α : Type} {I : World → Prop} {p : Handler α}
    (h : p.Steps Eq) : p.Keeps I fun _ => True :=
  h.keeps fun _ _ heq hw => heq ▸ hw

theorem get?_of_find {db : Db} (hdb : OnlyNonces db₀ db) {p : UserRow → Bool} {r : UserRow}
    (h : db.users.rows.find? p = some r) : db₀.users.get? r.id = some r := by
  rw [← hdb.users]
  exact Table.get?_of_mem (List.mem_of_find?_eq_some h)

theorem keeps_registerPlan (q : Registration) :
    (registerPlan q).Keeps (OnDb (OnlyNonces db₀)) fun plan => plan.first.Sound env.pepper db₀ :=
  (keeps_of_reads (steps_registrationPlan (fun _ => rfl) q)).bind fun _ _ => trivial

theorem keeps_pubkeyHashPlan (req : ExtensionRegisterRequest) (pubkeyHash : String)
    (o : Optionals) : (pubkeyHashPlan env req pubkeyHash o).Keeps (OnDb (OnlyNonces db₀))
      fun plan => plan.first.Sound env.pepper db₀ := by
  refine (keeps_select (Q := fun found => ∀ r, found = some r → db₀.users.get? r.id = some r)
    fun db hdb r hr => get?_of_find hdb hr).bind fun found hfound => ?_
  cases found with
  | some existing => exact hfound existing rfl
  | none => trivial

theorem keeps_repointTarget (req : ExtensionRegisterRequest) (publicKey pubkeyHash : String) :
    (repointTarget env req publicKey pubkeyHash).Keeps (OnDb (OnlyNonces db₀))
      fun target => ∀ t, target = some t → db₀.users.get? t.id = some t := by
  unfold repointTarget
  cases req.seedFingerprint with
  | none => exact fun t ht => nomatch ht
  | some fp =>
    refine (keeps_select (Q := fun found => ∀ r, found = some r → db₀.users.get? r.id = some r)
      fun db hdb r hr => get?_of_find hdb hr).bind fun found hfound => ?_
    cases found with
    | none => exact fun t ht => nomatch ht
    | some target =>
      refine (keeps_select fun _ _ => trivial).bind fun stored (_ : True) => ?_
      intro t ht
      split_ifs at ht
      obtain rfl := Option.some.inj ht
      exact hfound target rfl

theorem keeps_provenPlan (a : Answers) (req : ExtensionRegisterRequest) (pubkeyHash : String)
    (existing target : Option UserRow) (htarget : ∀ t, target = some t →
      (FirstWrite.move t pubkeyHash).Sound env.pepper db₀) :
    (provenPlan env a req pubkeyHash existing target).Keeps (OnDb (OnlyNonces db₀))
      fun plan => plan.first.Sound env.pepper db₀ := by
  unfold provenPlan
  cases target with
  | some t => exact (keeps_of_reads (Prog.steps_ofExcept _)).bind fun _ _ => htarget t rfl
  | none =>
    refine (keeps_of_reads (Prog.steps_ofExcept _)).bind fun _ _ => ?_
    have hfingerprint : (fingerprintForRow env existing req.seedFingerprint).Steps Eq :=
      steps_fingerprintForRow_of_refl (fun _ => rfl) _ _ _
    refine (keeps_of_reads hfingerprint).bind fun fingerprint _ => ?_
    split_ifs
    · exact keeps_pubkeyHashPlan req pubkeyHash _
    · exact keeps_registerPlan _

/-- Deciding a wallet's request. -/
theorem keeps_extensionPlan (a : Answers) (req : ExtensionRegisterRequest) :
    (extensionPlan env a req).Keeps (OnDb (OnlyNonces db₀))
      fun plan => plan.first.Sound env.pepper db₀ := by
  unfold extensionPlan
  cases btcKey req.keys with
  | none => trivial
  | some key =>
    refine (keeps_of_reads (Prog.steps_ofExcept _)).bind fun _ _ => ?_
    refine (keeps_of_reads (Prog.steps_ofExcept _)).bind fun _ _ => ?_
    refine (keeps_of_reads (Prog.steps_ofExcept _)).bind fun _ _ => ?_
    -- a key that is nobody's identity moves onto a row with another one
    refine (keeps_select (Q := fun found => found.isSome = false → ∀ r ∈ db₀.users.rows,
        r.pubkeyHash ≠ some (env.pepper "pubkey_hash" (env.hashPublicKey key.publicKey)))
      fun db hdb hnone r hr => ?_).bind fun existing hexisting => ?_
    · rw [← hdb.users] at hr
      have hunknown : db.getUserByPubkeyHash env.pepper (env.hashPublicKey key.publicKey) = none := by
        simpa using hnone
      simpa using List.find?_eq_none.mp hunknown r hr
    · split_ifs with hsome
      · exact keeps_provenPlan a req _ _ none fun t ht => nomatch ht
      · refine (keeps_repointTarget req key.publicKey _).bind fun target htarget => ?_
        exact keeps_provenPlan a req _ _ target fun t ht => ⟨htarget t ht,
          hexisting (by simpa using hsome) t (Table.mem_of_get? (htarget t ht))⟩

theorem keeps_nostrPubkeyPlan (req : NostrRegisterRequest) (pubkey : String) :
    (nostrPubkeyPlan env req pubkey).Keeps (OnDb (OnlyNonces db₀))
      fun plan => plan.first.Sound env.pepper db₀ := by
  refine (keeps_select (Q := fun found => ∀ r, found = some r → db₀.users.get? r.id = some r)
    fun db hdb r hr => get?_of_find hdb hr).bind fun found hfound => ?_
  cases found with
  | some existing => exact hfound existing rfl
  | none =>
    refine (keeps_fingerprintMatch (Q := fun found => ∀ r, found = some r →
        db₀.users.get? r.id = some r) (fun _ h => nomatch h) fun db r hdb hr _ heq => ?_).bind
      fun owner howner => ?_
    · obtain rfl := Option.some.inj heq
      rw [← hdb.users]
      exact Table.get?_of_mem hr
    · cases owner with
      | none => trivial
      | some existing =>
        cases hpk : existing.nostrPubkey with
        | none =>
          simp only [hpk]
          trivial
        | some pk =>
          simp only [hpk]
          split_ifs
          · exact howner existing rfl
          · trivial

/-- Deciding a request with a Nostr key. -/
theorem keeps_nostrPlan (a : Answers) (req : NostrRegisterRequest) :
    (nostrPlan env a req).Keeps (OnDb (OnlyNonces db₀))
      fun plan => plan.first.Sound env.pepper db₀ := by
  have hchallenge : (requireChallenge req.nonce "nostr_register").Keeps (OnDb (OnlyNonces db₀))
      fun _ => True := by
    refine (keeps_execute (Q := fun _ => True) fun now db hdb => ⟨?_, fun _ _ => trivial⟩).bind
      fun found _ => ?_
    · obtain ⟨challenges, rfl⟩ := hdb
      exact ⟨_, rfl⟩
    · cases found <;> trivial
  have hreject : (rejectKnownFingerprint env.pepper req.seedFingerprint).Steps Eq :=
    steps_rejectKnownFingerprint_of_refl (fun _ => rfl) _ _
  unfold nostrPlan
  refine (keeps_of_reads (Prog.steps_ofExcept _)).bind fun _ _ => ?_
  refine hchallenge.bind fun _ _ => ?_
  refine (keeps_of_reads (Prog.steps_ofExcept _)).bind fun pubkey _ => ?_
  refine (keeps_of_reads (Prog.steps_read fun _ => rfl)).bind fun existing _ => ?_
  refine (keeps_of_reads (Prog.steps_ofExcept _)).bind fun _ _ => ?_
  split_ifs
  · exact keeps_nostrPubkeyPlan req pubkey
  · exact (keeps_of_reads hreject).bind fun _ _ => keeps_registerPlan _

end Plans

end SmirkBackend
