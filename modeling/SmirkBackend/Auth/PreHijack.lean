import SmirkBackend.Auth.Takeover

/-!
# Sessions of several parties

Parties send requests to the login, registration, link and key endpoints.  A party signs with its
own keys only and presents only bearer tokens it was given, but it may submit any public key and any
seed fingerprint.  Each user then belongs to one party, as long as no wallet is moved onto a row
whose credentials another party holds; a Nostr registration with a foreign BTC key creates such a
row.

* `owned_run` : every user has one owner.
* `exclusive_of_movesOwnRows` : in runs that move own rows only, a session that a wallet got is for
  a user nobody else has a session for (`Exclusive`).
* `adoption_not_exclusive` : a run that moves a foreign one.
-/

namespace SmirkBackend

open Lib (Table Patch Prog System)

/-- A request to one of the endpoints. -/
inductive Request
  | extensionRegister (req : ExtensionRegisterRequest)
  | nostrLogin (authorization : Option String)
  | nostrRegisterChallenge (nonce : String)
  | nostrRegister (req : NostrRegisterRequest)
  | nostrLinkChallenge (bearer : Except AppError TokenInfo) (nonce : String)
  | nostrLink (bearer : Except AppError TokenInfo) (req : NostrLinkRequest)
  | registerKey (bearer : Except AppError TokenInfo) (req : RegisterKeyRequest)

namespace Request

/-- The user of the session that an answer carries. -/
def sessionOf (p : Handler AuthResponse) : Handler (Option Uuid) := do
  let resp ← p
  return some resp.user.id

/-- An answer without a session. -/
def noSession {α : Type} (p : Handler α) : Handler (Option Uuid) := do
  let _ ← p
  return none

/-- The handler of a request. -/
def handle (env : AuthEnv) (a : Answers) : Request → Handler (Option Uuid)
  | extensionRegister req => sessionOf (SmirkBackend.extensionRegister env a req)
  | nostrLogin authorization => sessionOf (SmirkBackend.nostrLogin env a authorization)
  | nostrRegisterChallenge nonce => noSession (SmirkBackend.nostrRegisterChallenge nonce)
  | nostrRegister req => sessionOf (SmirkBackend.nostrRegister env a req)
  | nostrLinkChallenge bearer nonce => noSession (SmirkBackend.nostrLinkChallenge bearer nonce)
  | nostrLink bearer req => noSession (SmirkBackend.nostrLink env a bearer req)
  | registerKey bearer req => noSession (SmirkBackend.registerKey bearer req)

/-- The BTC signatures in a request. -/
def btcSignatures : Request → List String
  | extensionRegister req => req.signature :: req.rotationSignature.toList
  | _ => []

/-- The signed events in a request. -/
def nostrTokens : Request → List String
  | nostrLogin authorization => authorization.toList
  | nostrRegister req => [req.nostrToken]
  | nostrLink _ req => [req.nostrToken]
  | _ => []

/-- The bearer token of a request. -/
def bearer : Request → Except AppError TokenInfo
  | nostrLinkChallenge bearer _ => bearer
  | nostrLink bearer _ => bearer
  | registerKey bearer _ => bearer
  | _ => .error (.authError "Missing authorization header")

end Request

/-- Who holds which key. -/
structure Holders (π : Type) where
  /-- Holder of a BTC key. -/
  btc : String → π
  /-- Holder of a Nostr key. -/
  npub : String → π

/-- The service and the sessions the parties were given. -/
structure Accounts (π : Type) where
  /-- Database and clock. -/
  world : World
  /-- A party and the user of a session it was given. -/
  obtained : List (π × Uuid)

/-- A request, with who sent it, what it met and how it ended. -/
structure Call (π : Type) where
  /-- The sender. -/
  party : π
  /-- The request. -/
  request : Request
  /-- What it met outside the database. -/
  answers : Answers
  /-- The time of the database. -/
  now : Timestamp
  /-- The answer: the user of a session, if it carries one. -/
  result : Except AppError (Option Uuid)

section

variable {π : Type} (env : AuthEnv) (holders : Holders π)

/-- The party can send the request: it holds the keys that signed it and was given its token. -/
structure MaySend (obtained : List (π × Uuid)) (p : π) (q : Request) : Prop where
  /-- BTC signatures. -/
  btc : ∀ sig ∈ q.btcSignatures, ∀ msg key,
    env.verifyBitcoinSignature msg sig key = .ok () → holders.btc key = p
  /-- Signed events. -/
  nostr : ∀ token ∈ q.nostrTokens, ∀ now maxAge ev,
    parseAuthenticated env.crypto token now maxAge = .ok ev →
      holders.npub (toLowercase ev.pubkey) = p
  /-- The bearer token. -/
  bearer : ∀ info, q.bearer = .ok info → (p, info.userId) ∈ obtained

/-- The session a call gave. -/
def Call.gave (l : Call π) : List (π × Uuid) :=
  match l.result with
  | .ok (some u) => [(l.party, u)]
  | _ => []

/-- The runs of requests that the parties can send. -/
def accounts : System (Accounts π) (Call π) where
  step σ l σ' := MaySend env holders σ.obtained l.party l.request ∧
    (l.request.handle env l.answers).Outcome { σ.world with now := l.now } l.result σ'.world ∧
    σ'.obtained = σ.obtained ++ l.gave

/-- Sessions that wallets were given in the calls are for users that no other party has a session
for. -/
def Exclusive (ls : List (Call π)) (σ : Accounts π) : Prop :=
  ∀ l ∈ ls, ∀ req u, l.request = .extensionRegister req → l.result = .ok (some u) →
    ∀ q, (q, u) ∈ σ.obtained → q = l.party

/-- The credentials of a row, where it has them, are held by the party. -/
def HoldsRow (p : π) (r : UserRow) : Prop :=
  (∀ key, r.pubkeyHash = some (env.pepper "pubkey_hash" (env.hashPublicKey key)) →
    holders.btc key = p) ∧
    ∀ npub, r.nostrPubkey = some npub → holders.npub npub = p

/-- If the call moves a wallet onto an existing row, the party holds the credentials of that
row. -/
def MovesOwnRows (σ : Accounts π) (l : Call π) (_ : Accounts π) : Prop :=
  ∀ req key target, l.request = .extensionRegister req → FreshlySigned env l.answers req key →
    Repointed env req key σ.world.db target →
    enforcePow env.pow (toLowercase (env.hashPublicKey key.publicKey)) false req.altchaSolution =
      .ok () →
    HoldsRow env holders l.party target

/-! ### One owner for each user -/

/-- Credentials are held by the owner of their user, and every user has some. -/
structure Owned (own : Uuid → π) (db : Db) : Prop where
  /-- Credentials are the owner's. -/
  held : ∀ r ∈ db.users.rows, HoldsRow env holders (own r.id) r
  /-- Every user has one. -/
  some : ∀ r ∈ db.users.rows,
    (∃ key, r.pubkeyHash = some (env.pepper "pubkey_hash" (env.hashPublicKey key))) ∨
      ∃ npub, r.nostrPubkey = some npub

variable {env holders}

theorem Owned.own_eq {own : Uuid → π} {db : Db} (h : Owned env holders own db) {r : UserRow}
    (hr : r ∈ db.users.rows) {p : π} (hp : HoldsRow env holders p r) : own r.id = p := by
  rcases h.some r hr with ⟨key, hkey⟩ | ⟨npub, hnpub⟩
  · rw [← (h.held r hr).1 key hkey, hp.1 key hkey]
  · rw [← (h.held r hr).2 npub hnpub, hp.2 npub hnpub]

/-- Users do not disappear. -/
def Grown (db₀ db : Db) : Prop := ∀ u, (db₀.users.get? u).isSome → (db.users.get? u).isSome

/-- A patch that sets credentials of the party at most. -/
def SetsHeld (env : AuthEnv) (holders : Holders π) (p : π) (f : Patch UserRow) : Prop :=
  ∀ r, ((f.set r).pubkeyHash = r.pubkeyHash ∨ ∃ key, holders.btc key = p ∧
      (f.set r).pubkeyHash = some (env.pepper "pubkey_hash" (env.hashPublicKey key))) ∧
    ((f.set r).nostrPubkey = r.nostrPubkey ∨ ∃ npub, holders.npub npub = p ∧
      (f.set r).nostrPubkey = some npub)

/-- A row with credentials of the party. -/
def NewHeld (env : AuthEnv) (holders : Holders π) (p : π) (r : UserRow) : Prop :=
  HoldsRow env holders p r ∧
    ((∃ key, r.pubkeyHash = some (env.pepper "pubkey_hash" (env.hashPublicKey key))) ∨
      ∃ npub, r.nostrPubkey = some npub)

/-- The owners while a party acts: new users are its own. -/
def ownWhile (own : Uuid → π) (db₀ : Db) (p : π) (u : Uuid) : π :=
  if (db₀.users.get? u).isSome then own u else p

theorem ownWhile_of_mem {own : Uuid → π} {db₀ : Db} {p : π} {u : Uuid}
    (hu : (db₀.users.get? u).isSome) : ownWhile own db₀ p u = own u := if_pos hu

theorem Owned.of_users {own : Uuid → π} {db db' : Db} (h : Owned env holders own db)
    (husers : db'.users = db.users) : Owned env holders own db' :=
  ⟨husers ▸ h.held, husers ▸ h.some⟩

variable (env holders) in
/-- Credentials are held by the owner of their user. -/
def HeldRows (own : Uuid → π) (db : Db) : Prop :=
  ∀ r ∈ db.users.rows, HoldsRow env holders (own r.id) r

theorem HeldRows.while {own : Uuid → π} {db : Db} (h : HeldRows env holders own db) (p : π) :
    HeldRows env holders (ownWhile own db p) db := by
  intro r hr
  have hmem : (db.users.get? r.id).isSome := by
    rw [show db.users.get? r.id = _ from Table.get?_of_mem hr]
    rfl
  rw [ownWhile_of_mem hmem]
  exact h r hr

theorem Owned.while {own : Uuid → π} {db : Db} (h : Owned env holders own db) (p : π) :
    Owned env holders (ownWhile own db p) db :=
  ⟨HeldRows.while h.held p, h.some⟩

theorem holdsRow_set (hinj : Function.Injective fun key =>
      env.pepper "pubkey_hash" (env.hashPublicKey key))
    {p : π} {f : Patch UserRow} (hf : SetsHeld env holders p f) {r : UserRow}
    (hr : HoldsRow env holders p r) : HoldsRow env holders p (f.set r) := by
  obtain ⟨hhash, hnostr⟩ := hf r
  constructor
  · intro key hkey
    rcases hhash with hsame | ⟨key', hheld, hset⟩
    · exact hr.1 key (hsame ▸ hkey)
    · rw [hset] at hkey
      rw [← hinj (Option.some.inj hkey)]
      exact hheld
  · intro npub hnpub
    rcases hnostr with hsame | ⟨npub', hheld, hset⟩
    · exact hr.2 npub (hsame ▸ hnpub)
    · rw [hset] at hnpub
      rw [← Option.some.inj hnpub]
      exact hheld

theorem credential_set {p : π} {f : Patch UserRow} (hf : SetsHeld env holders p f) {r : UserRow}
    (hr : (∃ key, r.pubkeyHash = some (env.pepper "pubkey_hash" (env.hashPublicKey key))) ∨
      ∃ npub, r.nostrPubkey = some npub) :
    (∃ key, (f.set r).pubkeyHash = some (env.pepper "pubkey_hash" (env.hashPublicKey key))) ∨
      ∃ npub, (f.set r).nostrPubkey = some npub := by
  obtain ⟨hhash, hnostr⟩ := hf r
  rcases hr with ⟨key, hkey⟩ | ⟨npub, hnpub⟩
  · rcases hhash with hsame | ⟨key', -, hset⟩
    · exact .inl ⟨key, hsame.trans hkey⟩
    · exact .inl ⟨key', hset⟩
  · rcases hnostr with hsame | ⟨npub', -, hset⟩
    · exact .inr ⟨npub, hsame.trans hnpub⟩
    · exact .inr ⟨npub', hset⟩

theorem rows_of_update {db db' : Db} {u : Uuid} {f : Patch UserRow}
    (hw : (Effect.update u f).Writes db db') : ∀ r' ∈ db'.users.rows, ∃ r ∈ db.users.rows,
      r' = r ∨ (r.id = u ∧ r' = f.set r) := by
  intro r' hr'
  rw [hw.1] at hr'
  obtain ⟨r, hr, rfl⟩ := List.mem_map.mp hr'
  refine ⟨r, hr, ?_⟩
  split_ifs with hid
  · have hkey : Lib.key r = u := by simpa using hid
    exact .inr ⟨hkey, rfl⟩
  · exact .inl rfl

variable (holders) in
/-- What a party does to its own users and with its own credentials keeps the credentials of every
user with its owner. -/
theorem held_allows (hinj : Function.Injective fun key =>
      env.pepper "pubkey_hash" (env.hashPublicKey key)) (own : Uuid → π) (db₀ : Db) (p : π) :
    Allows (fun db => HeldRows env holders (ownWhile own db₀ p) db ∧ Grown db₀ db)
      (fun u => ownWhile own db₀ p u = p) (SetsHeld env holders p) (HoldsRow env holders p) where
  update db db' u f h hu hf hw := by
    obtain ⟨hheld, hgrown⟩ := h
    refine ⟨fun r' hr' => ?_, fun v hv => ?_⟩
    · obtain ⟨r, hr, rfl | ⟨hid, rfl⟩⟩ := rows_of_update hw r' hr'
      · exact hheld r' hr
      · have hrow := hheld r hr
        rw [hid, hu] at hrow
        rw [show (f.set r).id = u from (f.key_set r).trans hid, hu]
        exact holdsRow_set hinj hf hrow
    · rw [hw.1, Table.get?_updateOne, Option.isSome_map]
      exact hgrown v hv
  create db db' r h hr hw := by
    obtain ⟨hheld, hgrown⟩ := h
    have hins := Table.insert?_of_rows_append hw.1
    -- the identifier was free, so it is the party's
    have hmine : ownWhile own db₀ p r.id = p := by
      refine if_neg fun hold => ?_
      have hfree : db.users.get? r.id = none := (Table.insert?_eq_some_iff.mp hins).1
      have hthere := hgrown r.id hold
      simp [hfree] at hthere
    refine ⟨⟨fun r' hr' => ?_, fun v hv => ?_⟩, hmine⟩
    · rw [hw.1, List.mem_append, List.mem_singleton] at hr'
      rcases hr' with hr' | rfl
      · exact hheld r' hr'
      · rw [hmine]
        exact hr
    · rw [Table.get?_insert? hins]
      split_ifs
      · rfl
      · exact hgrown v hv
  key db db' u h _ hw := ⟨fun r hr => h.1 r (hw.1 ▸ hr), fun v hv => hw.1 ▸ h.2 v hv⟩
  session db db' r h _ hw := ⟨fun r hr => h.1 r (hw.1 ▸ hr), fun v hv => hw.1 ▸ h.2 v hv⟩
  other db db' h hw := ⟨fun r hr => h.1 r (hw.1 ▸ hr), fun v hv => hw.1 ▸ h.2 v hv⟩

variable (holders) in
/-- What a party does to its own users and with its own credentials keeps every user with its
owner. -/
theorem owned_allows (hinj : Function.Injective fun key =>
      env.pepper "pubkey_hash" (env.hashPublicKey key)) (own : Uuid → π) (db₀ : Db) (p : π) :
    Allows (fun db => Owned env holders (ownWhile own db₀ p) db ∧ Grown db₀ db)
      (fun u => ownWhile own db₀ p u = p) (SetsHeld env holders p) (NewHeld env holders p) where
  update db db' u f h hu hf hw := by
    obtain ⟨hheld, hgrown⟩ :=
      (held_allows holders hinj own db₀ p).update db db' u f ⟨h.1.held, h.2⟩ hu hf hw
    refine ⟨⟨hheld, fun r' hr' => ?_⟩, hgrown⟩
    obtain ⟨r, hr, rfl | ⟨-, rfl⟩⟩ := rows_of_update hw r' hr'
    · exact h.1.some r' hr
    · exact credential_set hf (h.1.some r hr)
  create db db' r h hr hw := by
    obtain ⟨⟨hheld, hgrown⟩, hmine⟩ :=
      (held_allows holders hinj own db₀ p).create db db' r ⟨h.1.held, h.2⟩ hr.1 hw
    refine ⟨⟨⟨hheld, fun r' hr' => ?_⟩, hgrown⟩, hmine⟩
    rw [hw.1, List.mem_append, List.mem_singleton] at hr'
    rcases hr' with hr' | rfl
    · exact h.1.some r' hr'
    · exact hr.2
  key db db' u h _ hw := ⟨h.1.of_users hw.1, fun v hv => hw.1 ▸ h.2 v hv⟩
  session db db' r h _ hw := ⟨h.1.of_users hw.1, fun v hv => hw.1 ▸ h.2 v hv⟩
  other db db' h hw := ⟨h.1.of_users hw.1, fun v hv => hw.1 ▸ h.2 v hv⟩

end

/-! ### What a request keeps -/

theorem verifyNip98_eq_ok {crypto : Nip98Crypto} {header url method : String} {now maxAge : Int64}
    {pubkey : String} (h : verifyNip98 crypto header url method now maxAge = .ok pubkey) :
    ∃ ev, parseAuthenticated crypto header now maxAge = .ok ev ∧
      pubkey = toLowercase ev.pubkey := by
  unfold verifyNip98 at h
  obtain ⟨ev, hev, h⟩ := bind_eq_ok_iff.mp h
  obtain ⟨u, -, h⟩ := bind_eq_ok_iff.mp h
  refine ⟨ev, hev, ?_⟩
  split_ifs at h
  · cases h
  · obtain ⟨m, -, h⟩ := bind_eq_ok_iff.mp h
    split_ifs at h
    · cases h
    · exact (Except.ok.inj h).symm

theorem proveNostr_eq_ok {env : AuthEnv} {a : Answers} {token path purpose nonce pubkey : String}
    (h : proveNostr env a token path purpose nonce = .ok pubkey) :
    ∃ ev, parseAuthenticated env.crypto token a.now nip98ActionMaxAgeSecs = .ok ev ∧
      pubkey = toLowercase ev.pubkey := by
  unfold proveNostr at h
  obtain ⟨url, -, h⟩ := bind_eq_ok_iff.mp h
  have hmax : 0 ≤ nip98ActionMaxAgeSecs.toInt := by decide
  obtain ⟨ev, hev, -, hpubkey⟩ := verifySignedAction_eq_ok hmax (mapError_eq_ok_iff.mp h)
  exact ⟨ev, (parseAuthenticated_eq_ok_iff hmax).mpr hev, hpubkey⟩

namespace Allows

variable {I : Db → Prop} {P : Uuid → Prop} {F : Patch UserRow → Prop} {N : UserRow → Prop}
  (hI : Allows I P F N)

include hI

theorem keeps_nostrLogin {env : AuthEnv} {a : Answers} {authorization : Option String}
    (hfound : ∀ auth ∈ authorization, ∀ now maxAge ev,
      parseAuthenticated env.crypto auth now maxAge = .ok ev → ∀ db r, I db → r ∈ db.users.rows →
        r.nostrPubkey = some (toLowercase ev.pubkey) → P r.id) :
    (nostrLogin env a authorization).Keeps (OnDb I) fun r => P r.user.id := by
  unfold nostrLogin
  cases authorization with
  | none => trivial
  | some auth =>
    refine (Prog.keeps_ofExcept (Q := fun _ => True) fun _ _ => trivial).bind fun url _ => ?_
    refine (Prog.keeps_ofExcept (Q := fun pubkey => ∀ db r, I db → r ∈ db.users.rows →
      r.nostrPubkey = some pubkey → P r.id) fun pubkey hpubkey => ?_).bind fun pubkey hP => ?_
    · obtain ⟨ev, hev, rfl⟩ := verifyNip98_eq_ok (mapError_eq_ok_iff.mp hpubkey)
      exact hfound auth rfl _ _ ev hev
    · refine (keeps_select (Q := fun found => ∀ r, found = some r → P r.id)
        fun db hdb r hr => ?_).bind fun found hfound' => ?_
      · exact hP db r hdb (List.mem_of_find?_eq_some hr) (by simpa using List.find?_some hr)
      · cases found with
        | some user => exact hI.keeps_signIn (hfound' user rfl) _ _ _ _
        | none => trivial

theorem keeps_getOrCreateUserByNostrPubkey {pepper : Pepper} {id : Uuid} {npub : String}
    {username : Option String} {o : Optionals}
    (hfound : ∀ db r, I db → r ∈ db.users.rows → r.nostrPubkey = some npub → P r.id)
    (hf : ∀ o : Optionals, F (o.fill pepper))
    (hnew : N ((o.newUser username none (some npub)).row pepper id)) :
    (getOrCreateUserByNostrPubkey pepper id npub username o).Keeps (OnDb I) fun r => P r.id := by
  refine (keeps_select (Q := fun found => ∀ r, found = some r → P r.id)
    fun db hdb r hr => ?_).bind fun found hP => ?_
  · exact hfound db r hdb (List.mem_of_find?_eq_some hr) (by simpa using List.find?_some hr)
  · cases found with
    | some existing => exact hI.keeps_backfillOptionals (hP existing rfl) (hf o)
    | none =>
      have hmatch : (fingerprintMatch pepper o.seedFingerprint).Keeps (OnDb I) fun found =>
          ∀ r, found = some r → r.nostrPubkey = some npub → P r.id := by
        refine keeps_fingerprintMatch (fun r hr => nomatch hr) fun db r hdb hr r' hr' => ?_
        obtain rfl := Option.some.inj hr'
        exact hfound db r hdb hr
      refine hmatch.bind fun found hP => ?_
      cases found with
      | none => exact hI.keeps_createUser hnew
      | some existing =>
        cases hpk : existing.nostrPubkey with
        | none => simp [hpk]
        | some pk =>
          simp only [hpk]
          split_ifs with heq
          · exact hI.keeps_backfillOptionals (hP existing rfl (heq ▸ hpk)) (hf _)
          · trivial

theorem keeps_nostrRegister {env : AuthEnv} {a : Answers} {req : NostrRegisterRequest}
    (hfound : ∀ now maxAge ev, parseAuthenticated env.crypto req.nostrToken now maxAge = .ok ev →
      (∀ db r, I db → r ∈ db.users.rows → r.nostrPubkey = some (toLowercase ev.pubkey) → P r.id) ∧
        N ((req.optionals.newUser req.username none (some (toLowercase ev.pubkey))).row env.pepper
          a.userId))
    (hf : ∀ o : Optionals, F (o.fill env.pepper)) :
    (nostrRegister env a req).Keeps (OnDb I) fun r => P r.user.id := by
  refine (Prog.keeps_ofExcept (Q := fun _ => True) fun _ _ => trivial).bind fun _ _ => ?_
  refine (hI.keeps_requireChallenge _ _).bind fun _ _ => ?_
  refine (Prog.keeps_ofExcept (Q := fun pubkey =>
    (∀ db r, I db → r ∈ db.users.rows → r.nostrPubkey = some pubkey → P r.id) ∧
      N ((req.optionals.newUser req.username none (some pubkey)).row env.pepper a.userId))
    fun pubkey hpubkey => ?_).bind fun pubkey hP => ?_
  · obtain ⟨ev, hev, rfl⟩ := proveNostr_eq_ok hpubkey
    exact hfound _ _ ev hev
  · refine (keeps_select (Q := fun _ => True) fun _ _ => trivial).bind fun existing _ => ?_
    refine (Prog.keeps_ofExcept (Q := fun _ => True) fun _ _ => trivial).bind fun _ _ => ?_
    split_ifs
    · refine (hI.keeps_getOrCreateUserByNostrPubkey hP.1 hf hP.2).bind fun user hu => ?_
      exact (hI.keeps_upsertAllKeys hu req.keys).bind fun _ _ => hI.keeps_signIn hu _ _ _ _
    · have hreject : (rejectKnownFingerprint env.pepper req.seedFingerprint).Keeps (OnDb I)
          fun _ => True := by
        refine (keeps_fingerprintMatch (Q := fun _ => True) trivial fun _ _ _ _ => trivial).bind
          fun found _ => ?_
        cases found <;> trivial
      refine hreject.bind fun _ _ => ?_
      refine (hI.keeps_registerNew ?_).bind fun user hu => hI.keeps_signIn hu _ _ _ _
      exact hP.2

/-- A wallet request acts for the row of its key, or for one that its key moves onto. -/
theorem extensionRegister {env : AuthEnv} {a : Answers} {req : ExtensionRegisterRequest}
    {w w' : World} {r : Except AppError AuthResponse}
    (hkey : ∀ key, FreshlySigned env a req key →
      (∀ db r, I db → db.getUserByPubkeyHash env.pepper (env.hashPublicKey key.publicKey) = some r →
        P r.id) ∧
      F { set := fun r => { r with
        pubkeyHash := some (env.pepper "pubkey_hash" (env.hashPublicKey key.publicKey)) } } ∧
      ∀ o : Optionals, N ((o.newUser req.username (some (env.hashPublicKey key.publicKey)) none).row
        env.pepper a.userId))
    (hmoves : ∀ key target, FreshlySigned env a req key → Repointed env req key w.db target →
      enforcePow env.pow (toLowercase (env.hashPublicKey key.publicKey)) false req.altchaSolution =
        .ok () → P target.id)
    (hf : ∀ o : Optionals, F (o.fill env.pepper))
    (h : (extensionRegister env a req).Outcome w r w') (hw : I w.db) :
    I w'.db ∧ ∀ resp, r = .ok resp → P resp.user.id := by
  rcases extensionRegister_cases h with ⟨rfl, e, rfl⟩ | ⟨key, hsigned, ⟨target, hrep, h⟩ | ⟨-, h⟩⟩
  · exact ⟨hw, fun _ hr => nomatch hr⟩
  · obtain ⟨-, hset, -⟩ := hkey key hsigned
    cases hpow : enforcePow env.pow (toLowercase (env.hashPublicKey key.publicKey)) false
        req.altchaSolution with
    | error e =>
      simp only [repoint, hpow, Prog.ofExcept_error, Prog.fail_bind] at h
      cases h
      exact ⟨hw, fun _ hr => nomatch hr⟩
    | ok u => exact (hI.keeps_repoint (hmoves key target hsigned hrep hpow) hset).outcome h hw
  · obtain ⟨hfound, -, hnew⟩ := hkey key hsigned
    exact (hI.keeps_getOrRegister hfound hf hnew).outcome h hw

theorem keeps_nostrLink {env : AuthEnv} {a : Answers} {bearer : Except AppError TokenInfo}
    {req : NostrLinkRequest} (hbearer : ∀ info, bearer = .ok info → P info.userId)
    (hset : ∀ now maxAge ev, parseAuthenticated env.crypto req.nostrToken now maxAge = .ok ev →
      F { set := fun r => { r with nostrPubkey := some (toLowercase ev.pubkey) } }) :
    (nostrLink env a bearer req).Keeps (OnDb I) fun _ => True := by
  refine (keeps_extractUserIdFromToken bearer).bind fun u hu => ?_
  obtain ⟨info, hinfo, rfl⟩ := hu
  refine (hI.keeps_requireChallenge _ _).bind fun consumed _ => ?_
  have hprove : (do
      let pubkey ← .ofExcept (proveNostr env a req.nostrToken "/auth/nostr/link" "nostr_link" req.nonce)
      setNostrPubkey info.userId pubkey
      recordLoginEvent ⟨a.eventId, some info.userId, "btc", Platform.nostr.asStr, none⟩
      return pubkey : Handler String).Keeps (OnDb I) fun _ => True := by
    refine (Prog.keeps_ofExcept (Q := fun pubkey =>
      F { set := fun r => { r with nostrPubkey := some pubkey } }) fun pubkey hpubkey => ?_).bind
      fun pubkey hF => ?_
    · obtain ⟨ev, hev, rfl⟩ := proveNostr_eq_ok hpubkey
      exact hset _ _ ev hev
    · refine (hI.keeps_setNostrPubkey (hbearer info hinfo) hF).bind fun _ _ => ?_
      exact (hI.keeps_recordLoginEvent _).bind fun _ _ => trivial
  split_ifs
  · trivial
  · exact hprove

theorem keeps_registerKey {bearer : Except AppError TokenInfo} {req : RegisterKeyRequest}
    (hbearer : ∀ info, bearer = .ok info → P info.userId) :
    (registerKey bearer req).Keeps (OnDb I) fun _ => True := by
  refine (keeps_extractUserIdFromToken bearer).bind fun u hu => ?_
  obtain ⟨info, hinfo, rfl⟩ := hu
  refine (Prog.keeps_ofExcept (Q := fun _ => True) fun _ _ => trivial).bind fun asset _ => ?_
  refine (Prog.keeps_ofExcept (Q := fun _ => True) fun _ _ => trivial).bind fun keyType _ => ?_
  exact (hI.keeps_upsertUserKey (hbearer info hinfo)).bind fun _ _ => trivial

end Allows

/-! ### Sessions are for existing users -/

/-- A handler whose answer carries a session for a user that exists. -/
def SignsIn (p : Handler AuthResponse) : Prop :=
  ∀ w resp w', p.Outcome w (.ok resp) w' → (w'.db.users.get? resp.user.id).isSome

theorem SignsIn.bind {α : Type} {p : Handler α} {f : α → Handler AuthResponse}
    (h : ∀ x, SignsIn (f x)) : SignsIn (p >>= f) := by
  intro w resp w' hout
  rcases Prog.outcome_bind hout with ⟨e, -, he⟩ | ⟨x, w₁, -, hf⟩
  · cases he
  · exact h x w₁ resp w' hf

theorem signsIn_fail (e : AppError) : SignsIn (.fail e) := by
  intro w resp w' hout
  cases hout

/-- A session that was stored is for a user that exists. -/
theorem createSession_outcome {r : SessionRow} {w w' : World} {u : Unit}
    (h : (createSession r).Outcome w (.ok u) w') : (w'.db.users.get? r.userId).isSome := by
  rcases Prog.outcome_query h with ⟨hres, hw⟩ | ⟨hres, -⟩
  · by_cases hsome : (w.db.users.get? r.userId).isSome
    · -- the statement leaves the users alone
      have husers : w'.db.users = w.db.users := by
        rw [hw]
        simp only
        split_ifs
        · rfl
        · cases w.db.sessions.insert? r <;> rfl
      rw [husers]
      exact hsome
    · simp [Option.not_isSome_iff_eq_none.mp hsome] at hres
  · cases hres

theorem signsIn_signIn (env : AuthEnv) (a : Answers) (user : UserRow) (platform : Platform)
    (deviceInfo asset : String) (isNew : Bool) :
    SignsIn (signIn env a user platform deviceInfo asset isNew) := by
  intro w resp w' h
  rcases Prog.outcome_bind h with ⟨e, -, he⟩ | ⟨pair, w₁, hissue, h⟩
  · cases he
  rcases Prog.outcome_bind h with ⟨e, -, he⟩ | ⟨_, w₂, hevent, h⟩
  · cases he
  have hsession : (w₁.db.users.get? user.id).isSome := by
    rcases Prog.outcome_bind hissue with ⟨e, -, he⟩ | ⟨pair', w₀, -, hissue⟩
    · cases he
    rcases Prog.outcome_bind hissue with ⟨e, -, he⟩ | ⟨_, w₀', hcreate, hret⟩
    · cases he
    cases hret
    exact createSession_outcome hcreate
  -- the login event leaves the users alone
  have hevent : w₂.db.users = w₁.db.users := by
    cases hevent with
    | act h =>
      cases h
      simp only
      split_ifs <;> rfl
    | fault h =>
      cases h
      rfl
  cases h
  rw [hevent]
  exact hsession

theorem signsIn_nostrLogin (env : AuthEnv) (a : Answers) (authorization : Option String) :
    SignsIn (nostrLogin env a authorization) := by
  unfold nostrLogin
  cases authorization with
  | none => exact signsIn_fail _
  | some auth =>
    refine .bind fun url => .bind fun pubkey => .bind fun found => ?_
    cases found with
    | some user => exact signsIn_signIn _ _ _ _ _ _ _
    | none => exact signsIn_fail _

theorem signsIn_nostrRegister (env : AuthEnv) (a : Answers) (req : NostrRegisterRequest) :
    SignsIn (nostrRegister env a req) := by
  refine .bind fun _ => .bind fun _ => .bind fun pubkey => .bind fun existing => .bind fun _ => ?_
  split_ifs
  · exact .bind fun user => .bind fun _ => signsIn_signIn _ _ _ _ _ _ _
  · exact .bind fun _ => .bind fun user => signsIn_signIn _ _ _ _ _ _ _

theorem signsIn_extensionRegister (env : AuthEnv) (a : Answers) (req : ExtensionRegisterRequest) :
    SignsIn (extensionRegister env a req) := by
  have hrepoint : ∀ h target, SignsIn (repoint env a req h target) := fun h target =>
    .bind fun _ => .bind fun _ => .bind fun _ => signsIn_signIn _ _ _ _ _ _ _
  have hregister : ∀ h existing, SignsIn (getOrRegister env a req h existing) := by
    intro h existing
    refine .bind fun _ => .bind fun fingerprint => ?_
    split_ifs
    · exact .bind fun user => .bind fun _ => signsIn_signIn _ _ _ _ _ _ _
    · exact .bind fun user => signsIn_signIn _ _ _ _ _ _ _
  intro w resp w' h
  rcases extensionRegister_cases h with ⟨-, e, he⟩ | ⟨key, -, ⟨target, -, h⟩ | ⟨-, h⟩⟩
  · cases he
  · exact hrepoint _ target w resp w' h
  · exact hregister _ _ w resp w' h

theorem sessionOf_outcome {h : Handler AuthResponse} {I : Db → Prop} {P : Uuid → Prop} {w w' : World}
    {r : Except AppError (Option Uuid)}
    (hkeeps : ∀ r' w'', h.Outcome w r' w'' → I w''.db ∧ ∀ resp, r' = .ok resp → P resp.user.id)
    (hout : (Request.sessionOf h).Outcome w r w') : I w'.db ∧ ∀ u, r = .ok (some u) → P u := by
  rcases Prog.outcome_bind hout with ⟨e, he, rfl⟩ | ⟨resp, w₁, hok, hret⟩
  · exact ⟨(hkeeps _ _ he).1, fun _ hu => nomatch hu⟩
  · cases hret
    obtain ⟨hI, hP⟩ := hkeeps _ _ hok
    refine ⟨hI, fun u hu => ?_⟩
    obtain rfl := Option.some.inj (Except.ok.inj hu)
    exact hP resp rfl

theorem noSession_outcome {α : Type} {h : Handler α} {Q : α → Prop} {I : Db → Prop}
    {P : Uuid → Prop} {w w' : World} {r : Except AppError (Option Uuid)}
    (hkeeps : h.Keeps (OnDb I) Q) (hout : (Request.noSession h).Outcome w r w') (hw : I w.db) :
    I w'.db ∧ ∀ u, r = .ok (some u) → P u := by
  have hnone : (Request.noSession h).Keeps (OnDb I) fun u => u = none := hkeeps.bind fun _ _ => rfl
  obtain ⟨hI, hres⟩ := hnone.outcome hout hw
  refine ⟨hI, fun u hu => ?_⟩
  cases hres _ hu

/-- Whatever a request does, a session it gives is for a user that exists. -/
theorem handle_isSome {env : AuthEnv} {a : Answers} {q : Request} {w w' : World} {u : Uuid}
    (hout : (q.handle env a).Outcome w (.ok (some u)) w') : (w'.db.users.get? u).isSome := by
  have hsession {h : Handler AuthResponse} (hsigns : SignsIn h)
      (hout : (Request.sessionOf h).Outcome w (.ok (some u)) w') :
      (w'.db.users.get? u).isSome := by
    rcases Prog.outcome_bind hout with ⟨e, -, he⟩ | ⟨resp, w₁, hok, hret⟩
    · cases he
    · cases hret
      exact hsigns _ _ _ hok
  have hnone {α : Type} {h : Handler α}
      (hout : (Request.noSession h).Outcome w (.ok (some u)) w') :
      (w'.db.users.get? u).isSome := by
    rcases Prog.outcome_bind hout with ⟨e, -, he⟩ | ⟨_, w₁, -, hret⟩
    · cases he
    · cases hret
  cases q with
  | extensionRegister req => exact hsession (signsIn_extensionRegister _ _ _) hout
  | nostrLogin authorization => exact hsession (signsIn_nostrLogin _ _ _) hout
  | nostrRegisterChallenge nonce => exact hnone hout
  | nostrRegister req => exact hsession (signsIn_nostrRegister _ _ _) hout
  | nostrLinkChallenge bearer nonce => exact hnone hout
  | nostrLink bearer req => exact hnone hout
  | registerKey bearer req => exact hnone hout

/-! ### Runs -/

section

variable {π : Type} {env : AuthEnv} {holders : Holders π}

/-- Every user has one owner, and sessions were given to owners. -/
structure OwnedAccounts (env : AuthEnv) (holders : Holders π) (own : Uuid → π) (σ : Accounts π) :
    Prop where
  /-- Users. -/
  users : Owned env holders own σ.world.db
  /-- Sessions. -/
  sessions : ∀ x ∈ σ.obtained, own x.2 = x.1 ∧ (σ.world.db.users.get? x.2).isSome

theorem setsHeld_fill (p : π) (pepper : Pepper) (o : Optionals) :
    SetsHeld env holders p (o.fill pepper) := fun _ => ⟨.inl rfl, .inl rfl⟩

theorem newHeld_nostr {p : π} {npub : String} (hheld : holders.npub npub = p) (pepper : Pepper)
    (o : Optionals) (username : Option String) (id : Uuid) :
    NewHeld env holders p ((o.newUser username none (some npub)).row pepper id) := by
  refine ⟨⟨fun key hkey => (nomatch hkey), fun npub' hnpub => ?_⟩, .inr ⟨npub, rfl⟩⟩
  obtain rfl := Option.some.inj hnpub
  exact hheld

theorem newHeld_btc (hinj : Function.Injective fun key =>
      env.pepper "pubkey_hash" (env.hashPublicKey key))
    {p : π} {key : String} (hheld : holders.btc key = p) (o : Optionals) (username : Option String)
    (id : Uuid) :
    NewHeld env holders p
      ((o.newUser username (some (env.hashPublicKey key)) none).row env.pepper id) := by
  refine ⟨⟨fun key' hkey => ?_, fun npub hnpub => (nomatch hnpub)⟩, .inl ⟨key, rfl⟩⟩
  rw [← hinj (Option.some.inj hkey)]
  exact hheld

/-- Whatever a party can send does what the party may do with its own users and its own credentials,
as long as the credentials of a user are its owner's and wallets move onto own rows only. -/
theorem handle_of_allows (hinj : Function.Injective fun key =>
      env.pepper "pubkey_hash" (env.hashPublicKey key)) {I : Db → Prop} {N : UserRow → Prop}
    {own : Uuid → π} {p : π} {obtained : List (π × Uuid)} {q : Request} {a : Answers} {w w' : World}
    {r : Except AppError (Option Uuid)}
    (hallows : Allows I (fun u => own u = p) (SetsHeld env holders p) N)
    (hrows : ∀ db, I db → HeldRows env holders own db)
    (hnew : ∀ r, NewHeld env holders p r → N r)
    (hsend : MaySend env holders obtained p q)
    (hbearer : ∀ info, q.bearer = .ok info → own info.userId = p)
    (hmoves : ∀ req key target, q = .extensionRegister req → FreshlySigned env a req key →
      Repointed env req key w.db target →
      enforcePow env.pow (toLowercase (env.hashPublicKey key.publicKey)) false req.altchaSolution =
        .ok () → own target.id = p)
    (hout : (q.handle env a).Outcome w r w') (hw : I w.db) :
    I w'.db ∧ ∀ u, r = .ok (some u) → own u = p := by
  -- a row with a Nostr key of the party is the party's
  have hnostr : ∀ npub, holders.npub npub = p → ∀ db (r : UserRow), I db →
      r ∈ db.users.rows → r.nostrPubkey = some npub → own r.id = p := by
    intro npub hheld db r hdb hr hnpub
    rw [← (hrows db hdb r hr).2 npub hnpub]
    exact hheld
  cases q with
  | extensionRegister req =>
    refine sessionOf_outcome (fun r' w'' h => ?_) hout
    refine hallows.extensionRegister (fun key hsigned => ?_)
      (fun key target => hmoves req key target rfl) (setsHeld_fill p env.pepper) h hw
    have hheld := hsend.btc _ (.head _) _ _ hsigned.signed
    refine ⟨fun db r hdb hr => ?_, fun r => ⟨.inr ⟨_, hheld, rfl⟩, .inl rfl⟩,
      fun o => hnew _ (newHeld_btc hinj hheld o _ _)⟩
    have hhash := List.find?_some hr
    simp only [decide_eq_true_eq] at hhash
    rw [← (hrows db hdb r (List.mem_of_find?_eq_some hr)).1 key.publicKey hhash]
    exact hheld
  | nostrLogin authorization =>
    refine sessionOf_outcome (fun r' w'' h => ?_) hout
    refine (hallows.keeps_nostrLogin fun auth hauth now maxAge ev hev => ?_).outcome h hw
    exact hnostr _ (hsend.nostr auth (by simpa [Request.nostrTokens] using hauth) now maxAge ev hev)
  | nostrRegisterChallenge nonce =>
    exact noSession_outcome (hallows.keeps_issueChallenge _ _ _ _) hout hw
  | nostrRegister req =>
    refine sessionOf_outcome (fun r' w'' h => ?_) hout
    refine (hallows.keeps_nostrRegister (fun now maxAge ev hev => ?_)
      (setsHeld_fill _ env.pepper)).outcome h hw
    have hheld := hsend.nostr _ (.head _) now maxAge ev hev
    exact ⟨hnostr _ hheld, hnew _ (newHeld_nostr hheld _ _ _ _)⟩
  | nostrLinkChallenge bearer nonce =>
    have hkeeps := (keeps_extractUserIdFromToken bearer).bind fun u _ =>
      hallows.keeps_issueChallenge nonce "nostr_link" (some (uuidText u)) nostrLinkNonceTtlSecs
    exact noSession_outcome hkeeps hout hw
  | nostrLink bearer req =>
    refine noSession_outcome (hallows.keeps_nostrLink hbearer fun now maxAge ev hev => ?_) hout hw
    exact fun r => ⟨.inl rfl, .inr ⟨_, hsend.nostr _ (.head _) now maxAge ev hev, rfl⟩⟩
  | registerKey bearer req => exact noSession_outcome (hallows.keeps_registerKey hbearer) hout hw

/-- What a call establishes: owners are kept, users remain, and a session is for an existing user of
the caller. -/
structure CallOk (env : AuthEnv) (holders : Holders π) (own : Uuid → π) (db₀ : Db) (p : π)
    (r : Except AppError (Option Uuid)) (db : Db) : Prop where
  /-- Owners. -/
  owned : Owned env holders (ownWhile own db₀ p) db
  /-- Users. -/
  grown : Grown db₀ db
  /-- The session. -/
  session : ∀ u, r = .ok (some u) → ownWhile own db₀ p u = p ∧ (db.users.get? u).isSome

/-- Whatever a party can send keeps the owners. -/
theorem handle_callOk (hinj : Function.Injective fun key =>
      env.pepper "pubkey_hash" (env.hashPublicKey key)) {own : Uuid → π} {σ : Accounts π}
    (hσ : OwnedAccounts env holders own σ) {l : Call π}
    (hsend : MaySend env holders σ.obtained l.party l.request)
    (hmoves : MovesOwnRows env holders σ l σ) {w' : World}
    (hout : (l.request.handle env l.answers).Outcome { σ.world with now := l.now } l.result w') :
    CallOk env holders own σ.world.db l.party l.result w'.db := by
  have hstart : Owned env holders (ownWhile own σ.world.db l.party) σ.world.db ∧
      Grown σ.world.db σ.world.db := ⟨hσ.users.while l.party, fun _ hu => hu⟩
  have hbearer : ∀ info, l.request.bearer = .ok info →
      ownWhile own σ.world.db l.party info.userId = l.party := by
    intro info hinfo
    obtain ⟨hown, hthere⟩ := hσ.sessions _ (hsend.bearer info hinfo)
    exact (ownWhile_of_mem hthere).trans hown
  obtain ⟨⟨howned, hgrown⟩, hmine⟩ := handle_of_allows hinj
    (owned_allows holders hinj own σ.world.db l.party) (fun _ hdb => hdb.1.held) (fun _ hr => hr)
    hsend hbearer (fun req key target hreq hsigned hrep hpow => by
      obtain ⟨fp, -, hfp⟩ := hrep.located
      exact hstart.1.own_eq (List.mem_of_find?_eq_some hfp)
        (hmoves req key target hreq hsigned hrep hpow)) hout hstart
  refine ⟨howned, hgrown, fun u hu => ⟨hmine u hu, ?_⟩⟩
  rw [hu] at hout
  exact handle_isSome hout

theorem owned_step (hinj : Function.Injective fun key =>
      env.pepper "pubkey_hash" (env.hashPublicKey key)) {σ σ' : Accounts π} {l : Call π}
    (hstep : ((accounts env holders).only (MovesOwnRows env holders)).step σ l σ')
    (hσ : ∃ own, OwnedAccounts env holders own σ) : ∃ own, OwnedAccounts env holders own σ' := by
  obtain ⟨own, hσ⟩ := hσ
  obtain ⟨⟨hsend, hout, hobtained⟩, hmoves⟩ := hstep
  have hok := handle_callOk hinj hσ hsend hmoves hout
  refine ⟨ownWhile own σ.world.db l.party, hok.owned, fun x hx => ?_⟩
  rw [hobtained, List.mem_append] at hx
  rcases hx with hx | hx
  · obtain ⟨hown, hthere⟩ := hσ.sessions x hx
    exact ⟨(ownWhile_of_mem hthere).trans hown, hok.grown x.2 hthere⟩
  · unfold Call.gave at hx
    split at hx
    · rename_i u hu
      obtain rfl := List.mem_singleton.mp hx
      exact hok.session u hu
    · cases hx

theorem owned_run (hinj : Function.Injective fun key =>
      env.pepper "pubkey_hash" (env.hashPublicKey key)) {σ σ' : Accounts π} {ls : List (Call π)}
    (hrun : ((accounts env holders).only (MovesOwnRows env holders)).Run σ ls σ')
    (hσ : ∃ own, OwnedAccounts env holders own σ) : ∃ own, OwnedAccounts env holders own σ' :=
  hrun.invariant (I := fun σ => ∃ own, OwnedAccounts env holders own σ)
    (fun _ _ _ hstep h => owned_step hinj hstep h) hσ

theorem obtained_of_call {ok : Accounts π → Call π → Accounts π → Prop} {σ σ' : Accounts π}
    {ls : List (Call π)} (hrun : ((accounts env holders).only ok).Run σ ls σ') :
    (∀ x ∈ σ.obtained, x ∈ σ'.obtained) ∧
      ∀ l ∈ ls, ∀ u, l.result = .ok (some u) → (l.party, u) ∈ σ'.obtained := by
  induction hrun with
  | nil σ => exact ⟨fun _ hx => hx, fun l hl => nomatch hl⟩
  | @cons σ σ₁ σ' l ls hstep _ ih =>
    obtain ⟨⟨-, -, hobtained⟩, -⟩ := hstep
    have hkept : ∀ x ∈ σ.obtained ++ l.gave, x ∈ σ'.obtained := fun x hx => ih.1 x (hobtained ▸ hx)
    refine ⟨fun x hx => hkept x (List.mem_append_left _ hx), fun l' hl' u hu => ?_⟩
    rcases List.mem_cons.mp hl' with rfl | hl'
    · exact hkept _ (List.mem_append_right _ (by simp [Call.gave, hu]))
    · exact ih.2 l' hl' u hu

/-- **No pre-hijacking, on runs that move own rows only.** From a service without users, a session
that a wallet was given is for a user that no other party has, had or gets a session for. -/
theorem exclusive_of_movesOwnRows (hinj : Function.Injective fun key =>
      env.pepper "pubkey_hash" (env.hashPublicKey key)) {w₀ : World}
    (hempty : w₀.db.users.rows = []) {ls : List (Call π)} {σ : Accounts π}
    (hrun : ((accounts env holders).only (MovesOwnRows env holders)).Run ⟨w₀, []⟩ ls σ) :
    Exclusive ls σ := by
  intro l hl req u hreq hres q hq
  have hstart : OwnedAccounts env holders (fun _ => l.party) ⟨w₀, []⟩ :=
    ⟨⟨by simp [hempty], by simp [hempty]⟩, fun x hx => nomatch hx⟩
  obtain ⟨own, hσ⟩ := owned_run hinj hrun ⟨_, hstart⟩
  have hcall := (obtained_of_call hrun).2 l hl u hres
  calc q = own u := ((hσ.sessions _ hq).1).symm
    _ = l.party := (hσ.sessions _ hcall).1

end

/-! ### A row that a wallet joins -/

/-- A call with the answer the service gives without faults. -/
def answered {π : Type} (env : AuthEnv) (σ : Accounts π) (p : π) (q : Request) (a : Answers) :
    Call π :=
  ⟨p, q, a, 0, ((q.handle env a).run { σ.world with now := 0 }).1⟩

/-- The service after such a call. -/
def Accounts.after {π : Type} (env : AuthEnv) (σ : Accounts π) (l : Call π) : Accounts π :=
  ⟨((l.request.handle env l.answers).run { σ.world with now := l.now }).2, σ.obtained ++ l.gave⟩

theorem step_answered {π : Type} {env : AuthEnv} {holders : Holders π} {σ : Accounts π} {p : π}
    {q : Request} {a : Answers} (h : MaySend env holders σ.obtained p q) :
    (accounts env holders).step σ (answered env σ p q a)
      (σ.after env (answered env σ p q a)) :=
  ⟨h, Prog.outcome_run _ _, rfl⟩

/-- Two parties. -/
inductive Party
  | wallet
  | other
  deriving DecidableEq

/-- A Nostr registration with the BTC key and the fingerprint of a wallet. -/
def nostrRequest : NostrRegisterRequest where
  nostrToken := "Nostr event"
  nonce := "nonce"
  keys := [⟨"btc", "K", none⟩]
  username := none
  walletBirthday := none
  seedFingerprint := some "fp"
  xmrStartHeight := none
  wowStartHeight := none
  altchaSolution := none
  inviteCode := none
  paymentInvoiceId := none

/-- The BTC keys are the wallet's, the Nostr keys those of `p`. -/
def sampleHolders (p : Party) : Holders Party := ⟨fun _ => .wallet, fun _ => p⟩

/-- Nobody is registered. -/
def nobody : Accounts Party := ⟨⟨Db.empty, 0⟩, []⟩

/-- `p` asks for a nonce. -/
def firstCall (p : Party) : Call Party :=
  answered sampleEnv nobody p (.nostrRegisterChallenge "nonce") (sampleAnswers 1)

/-- `p` registers a Nostr key with the wallet's BTC key. -/
def secondCall (p : Party) : Call Party :=
  answered sampleEnv (nobody.after sampleEnv (firstCall p)) p (.nostrRegister nostrRequest)
    (sampleAnswers 2)

/-- `p` has registered. -/
def registered (p : Party) : Accounts Party :=
  (nobody.after sampleEnv (firstCall p)).after sampleEnv (secondCall p)

/-- The wallet signs in. -/
def thirdCall (p : Party) : Call Party :=
  answered sampleEnv (registered p) .wallet (.extensionRegister (walletRequest "K" (some "fp")))
    (sampleAnswers 3)

/-- The wallet has signed in. -/
def joined (p : Party) : Accounts Party := (registered p).after sampleEnv (thirdCall p)

theorem joined_obtained (p : Party) : (joined p).obtained = [(p, 2), (.wallet, 2)] := by
  cases p <;> decide +kernel

theorem joined_maySend (p : Party) :
    MaySend sampleEnv (sampleHolders p) [] p (.nostrRegisterChallenge "nonce") ∧
      MaySend sampleEnv (sampleHolders p) [] p (.nostrRegister nostrRequest) ∧
      MaySend sampleEnv (sampleHolders p) [(p, 2)] .wallet
        (.extensionRegister (walletRequest "K" (some "fp"))) := by
  refine ⟨⟨?_, ?_, ?_⟩, ⟨?_, ?_, ?_⟩, ⟨?_, ?_, ?_⟩⟩
  all_goals simp [Request.btcSignatures, Request.nostrTokens, Request.bearer, sampleHolders]

/-- **A wallet joins a row of another party**: whoever registers first with a Nostr key of its own
and the wallet's public BTC key and fingerprint has a session for the user that the wallet gets. -/
theorem adoption_not_exclusive :
    ∃ (w₀ : World) (ls : List (Call Party)) (σ : Accounts Party), w₀.db.users.rows = [] ∧
      (accounts sampleEnv (sampleHolders .other)).Run ⟨w₀, []⟩ ls σ ∧ ¬ Exclusive ls σ := by
  obtain ⟨h₁, h₂, h₃⟩ := joined_maySend .other
  refine ⟨⟨Db.empty, 0⟩, [firstCall .other, secondCall .other, thirdCall .other], joined .other, rfl,
    .cons (step_answered h₁) (.cons (step_answered h₂) (.cons (step_answered h₃) (.nil _))), ?_⟩
  intro hexclusive
  have hmem : (Party.other, 2) ∈ (joined .other).obtained := by
    rw [joined_obtained]
    decide
  cases hexclusive (thirdCall .other) (.tail _ (.tail _ (.head _))) _ 2 rfl rfl .other hmem

/-- The wallet that registers its own Nostr key first moves onto its own row. -/
theorem ownAdoption_exclusive :
    Exclusive [firstCall .wallet, secondCall .wallet, thirdCall .wallet] (joined .wallet) := by
  obtain ⟨h₁, h₂, h₃⟩ := joined_maySend .wallet
  have hown : ∀ σ l σ', l.party = .wallet →
      MovesOwnRows sampleEnv (sampleHolders .wallet) σ l σ' :=
    fun σ l σ' hl req key target _ _ _ _ => ⟨fun _ _ => hl.symm, fun _ _ => hl.symm⟩
  have hrun : ((accounts sampleEnv (sampleHolders .wallet)).only
      (MovesOwnRows sampleEnv (sampleHolders .wallet))).Run nobody
      [firstCall .wallet, secondCall .wallet, thirdCall .wallet] (joined .wallet) :=
    .cons ⟨step_answered h₁, hown _ _ _ rfl⟩ (.cons ⟨step_answered h₂, hown _ _ _ rfl⟩
      (.cons ⟨step_answered h₃, hown _ _ _ rfl⟩ (.nil _)))
  exact exclusive_of_movesOwnRows (fun _ _ h => h) rfl hrun

end SmirkBackend
