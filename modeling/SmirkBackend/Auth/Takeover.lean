import SmirkBackend.Auth.Effects

/-!
# No takeover through wallet registration

A request to `POST /auth/extension` that changes the identity or the keys of an existing user, or
opens a session for it, carries a fresh signature under the submitted BTC key, and that key is the
user's identity, or the key on file of a user without identity, or was approved by the key on file.

`extensionRegister_cases` lists what the handler can do, and `extensionRegister_entitled` proves
this of every database and request.
-/

namespace SmirkBackend

open Lib (Table Patch Prog)

/-- The request carries a fresh signature under the BTC key it submits. -/
structure FreshlySigned (env : AuthEnv) (a : Answers) (req : ExtensionRegisterRequest)
    (key : AssetPublicKey) : Prop where
  /-- The key is the submitted one. -/
  submitted : btcKey req.keys = some key
  /-- The timestamp is at most five minutes from the clock. -/
  fresh : (a.now.toInt - req.signedTimestamp.toInt).natAbs ≤ 300
  /-- The key signed the timestamp. -/
  signed : env.verifyBitcoinSignature (authMessage req.signedTimestamp) req.signature
    key.publicKey = .ok ()

/-- The key on file for the user approved the move: a signature of the message that names this
instance, the new key and the timestamp. -/
def MoveApproved (env : AuthEnv) (req : ExtensionRegisterRequest) (db : Db) (u : Uuid)
    (pubkeyHash : String) : Prop :=
  ∃ stored sig msg, db.getUserKey u .btc = some stored ∧ req.rotationSignature = some sig ∧
    rotationMessage env.publicApiUrl pubkeyHash req.signedTimestamp = some msg ∧
    env.verifyBitcoinSignature msg sig stored.publicKey = .ok ()

/-- The submitted key may act for the user. -/
def Entitled (env : AuthEnv) (req : ExtensionRegisterRequest) (key : AssetPublicKey) (db : Db)
    (R : UserRow) : Prop :=
  R.pubkeyHash = some (env.pepper "pubkey_hash" (env.hashPublicKey key.publicKey)) ∨
    (R.pubkeyHash = none ∧
      ∃ stored, db.getUserKey R.id .btc = some stored ∧ stored.publicKey = key.publicKey) ∨
    MoveApproved env req db R.id (env.hashPublicKey key.publicKey)

/-- The user keeps its identity and its keys, and has no new session. -/
structure Untouched (R : UserRow) (db db' : Db) : Prop where
  /-- The identity. -/
  identity : (db'.users.get? R.id).map UserRow.pubkeyHash = some R.pubkeyHash
  /-- The keys. -/
  keys : ∀ k, k.1 = R.id → db'.userKeys.get? k = db.userKeys.get? k
  /-- The sessions. -/
  sessions : ∀ s ∈ db'.sessions.rows, s.userId = R.id → s ∈ db.sessions.rows

theorem Untouched.refl {R : UserRow} {db : Db} (hR : R ∈ db.users.rows) : Untouched R db db :=
  ⟨by rw [show db.users.get? R.id = some R from Table.get?_of_mem hR]; rfl, fun _ _ => rfl,
    fun _ hs _ => hs⟩

/-- Effects on other users leave a user untouched. -/
theorem untouched_allows (R : UserRow) (db₀ : Db) :
    Allows (Untouched R db₀) (fun u => u ≠ R.id) (fun _ => True) (fun _ => True) where
  update db db' u f h hu _ hw := by
    obtain ⟨husers, hkeys, hsessions⟩ := hw
    refine ⟨?_, hkeys ▸ h.keys, hsessions ▸ h.sessions⟩
    rw [husers, Table.get?_updateOne_of_ne _ (Ne.symm hu)]
    exact h.identity
  create db db' r h _ hw := by
    obtain ⟨husers, hkeys, hsessions⟩ := hw
    have hins := Table.insert?_of_rows_append husers
    -- the new user is another one: its identifier was free
    have hne : r.id ≠ R.id := by
      intro heq
      have hfree : db.users.get? R.id = none := heq ▸ (Table.insert?_eq_some_iff.mp hins).1
      have hid := h.identity
      simp [hfree] at hid
    refine ⟨⟨?_, fun k hk => ?_, hsessions ▸ h.sessions⟩, hne⟩
    · rw [Table.get?_insert? hins, if_neg (show R.id ≠ Lib.key r from Ne.symm hne)]
      exact h.identity
    · rw [hkeys k (by rw [hk]; exact Ne.symm hne)]
      exact h.keys k hk
  key db db' u h hu hw := by
    obtain ⟨husers, hkeys, hsessions⟩ := hw
    refine ⟨husers ▸ h.identity, fun k hk => ?_, hsessions ▸ h.sessions⟩
    rw [hkeys k (by rw [hk]; exact Ne.symm hu)]
    exact h.keys k hk
  session db db' r h hu hw := by
    obtain ⟨husers, hkeys, hsessions⟩ := hw
    refine ⟨husers ▸ h.identity, hkeys ▸ h.keys, fun s hs hsu => ?_⟩
    rw [hsessions, List.mem_append, List.mem_singleton] at hs
    rcases hs with hs | rfl
    · exact h.sessions s hs hsu
    · exact (hu hsu).elim
  other db db' h hw := by
    obtain ⟨husers, hkeys, hsessions⟩ := hw
    exact ⟨husers ▸ h.identity, hkeys ▸ h.keys, hsessions ▸ h.sessions⟩

/-! ### The paths of the handler -/

/-- The handler moves the submitted key onto a row. -/
structure Repointed (env : AuthEnv) (req : ExtensionRegisterRequest) (key : AssetPublicKey)
    (db : Db) (target : UserRow) : Prop where
  /-- The key is nobody's identity. -/
  unknown : db.getUserByPubkeyHash env.pepper (env.hashPublicKey key.publicKey) = none
  /-- The fingerprint locates the row. -/
  located : ∃ fp, req.seedFingerprint = some fp ∧
    db.getUserBySeedFingerprint env.pepper fp = some target
  /-- The row is adopted, or the move is approved. -/
  proven : adoptable target (db.getUserKey target.id .btc) key.publicKey ∨
    rotationProven env req (env.hashPublicKey key.publicKey) (db.getUserKey target.id .btc)

theorem checkDrift_eq_ok {now signedTimestamp : Int64} {u : Unit}
    (h : checkDrift now signedTimestamp = .ok u) :
    (now.toInt - signedTimestamp.toInt).natAbs ≤ 300 := by
  simp only [checkDrift] at h
  split_ifs at h with _ hdrift
  simpa [signedTsMaxDriftSecs] using hdrift

/-- The search for a row to move onto finds the one there is, if it does not fail. -/
theorem repointTarget_outcome {env : AuthEnv} {req : ExtensionRegisterRequest}
    {key : AssetPublicKey} {w w' : World} {r : Except AppError (Option UserRow)}
    (hunknown : w.db.getUserByPubkeyHash env.pepper (env.hashPublicKey key.publicKey) = none)
    (h : (repointTarget env req key.publicKey (env.hashPublicKey key.publicKey)).Outcome w r w') :
    w' = w ∧ (∀ target, r = .ok (some target) → Repointed env req key w.db target) ∧
      (r = .ok none → ∀ target, ¬ Repointed env req key w.db target) := by
  unfold repointTarget at h
  cases hfp : req.seedFingerprint with
  | none =>
    rw [hfp] at h
    cases h
    refine ⟨rfl, fun _ h => (nomatch h), fun _ target hrep => ?_⟩
    obtain ⟨fp, heq, -⟩ := hrep.located
    simp [hfp] at heq
  | some fp =>
    simp only [hfp] at h
    rcases Prog.outcome_read_bind h with ⟨rfl, rfl⟩ | h
    · exact ⟨rfl, fun _ h => (nomatch h), fun h => (nomatch h)⟩
    · -- whoever is moved onto is the row with the fingerprint
      have hlocated (target : UserRow) (hrep : Repointed env req key w.db target) :
          w.db.getUserBySeedFingerprint env.pepper fp = some target := by
        obtain ⟨fp', heq, htarget⟩ := hrep.located
        obtain rfl := Option.some.inj (hfp.symm.trans heq)
        exact htarget
      cases htarget : w.db.getUserBySeedFingerprint env.pepper fp with
      | none =>
        simp only [htarget] at h
        cases h
        refine ⟨rfl, fun _ h => (nomatch h), fun _ target hrep => ?_⟩
        cases htarget.symm.trans (hlocated target hrep)
      | some target =>
        simp only [htarget] at h
        rcases Prog.outcome_read_bind h with ⟨rfl, rfl⟩ | h
        · exact ⟨rfl, fun _ h => (nomatch h), fun h => (nomatch h)⟩
        · cases h
          refine ⟨rfl, fun target' heq => ?_, fun heq target' hrep => ?_⟩
          · have heq := Except.ok.inj heq
            split_ifs at heq with hproven
            obtain rfl := Option.some.inj heq
            exact ⟨hunknown, ⟨fp, hfp, htarget⟩, by simpa using hproven⟩
          · obtain rfl := Option.some.inj (htarget.symm.trans (hlocated target' hrep))
            have heq := Except.ok.inj heq
            split_ifs at heq with hproven
            exact hproven (by simpa using hrep.proven)

/-- **What the handler can do**: refuse, move the key onto a row, or, when there is none to move
onto, go on with the row of the key. -/
theorem extensionRegister_cases {env : AuthEnv} {a : Answers} {req : ExtensionRegisterRequest}
    {w w' : World} {r : Except AppError AuthResponse}
    (h : (extensionRegister env a req).Outcome w r w') :
    (w' = w ∧ ∃ e, r = .error e) ∨ ∃ key, FreshlySigned env a req key ∧
      ((∃ target, Repointed env req key w.db target ∧
          (repoint env a req (env.hashPublicKey key.publicKey) target).Outcome w r w') ∨
        ((∀ target, ¬ Repointed env req key w.db target) ∧
          (getOrRegister env a req (env.hashPublicKey key.publicKey)
            (w.db.getUserByPubkeyHash env.pepper (env.hashPublicKey key.publicKey))).Outcome
              w r w')) := by
  unfold extensionRegister at h
  cases hkey : btcKey req.keys with
  | none =>
    rw [hkey] at h
    cases h
    exact .inl ⟨rfl, _, rfl⟩
  | some key =>
    simp only [hkey] at h
    rcases Prog.outcome_ofExcept_bind h with ⟨e, rfl, rfl⟩ | ⟨_, _, h⟩
    · exact .inl ⟨rfl, e, rfl⟩
    rcases Prog.outcome_ofExcept_bind h with ⟨e, rfl, rfl⟩ | ⟨_, hdrift, h⟩
    · exact .inl ⟨rfl, e, rfl⟩
    rcases Prog.outcome_ofExcept_bind h with ⟨e, rfl, rfl⟩ | ⟨_, hsigned, h⟩
    · exact .inl ⟨rfl, e, rfl⟩
    have hfresh : FreshlySigned env a req key := ⟨hkey, checkDrift_eq_ok hdrift, hsigned⟩
    rcases Prog.outcome_read_bind h with ⟨rfl, rfl⟩ | h
    · exact .inl ⟨rfl, _, rfl⟩
    cases hexisting : w.db.getUserByPubkeyHash env.pepper (env.hashPublicKey key.publicKey) with
    | some me =>
      simp only [hexisting, Option.isSome_some, if_true, Prog.ret_bind] at h
      refine .inr ⟨key, hfresh, .inr ⟨fun target hrep => ?_, hexisting ▸ h⟩⟩
      cases hexisting.symm.trans hrep.unknown
    | none =>
      simp only [hexisting, Option.isSome_none, Bool.false_eq_true, if_false] at h
      rcases Prog.outcome_bind h with ⟨e, htarget, rfl⟩ | ⟨found, w₁, htarget, h⟩
      · exact .inl ⟨(repointTarget_outcome hexisting htarget).1, e, rfl⟩
      · obtain ⟨rfl, hrep, hnone⟩ := repointTarget_outcome hexisting htarget
        cases found with
        | some target => exact .inr ⟨key, hfresh, .inl ⟨target, hrep target rfl, h⟩⟩
        | none => exact .inr ⟨key, hfresh, .inr ⟨hnone rfl, hexisting ▸ h⟩⟩

theorem Repointed.entitled {env : AuthEnv} {req : ExtensionRegisterRequest} {key : AssetPublicKey}
    {db : Db} {target : UserRow} (h : Repointed env req key db target) :
    Entitled env req key db target := by
  rcases h.proven with hadopt | hrot
  · simp only [adoptable, Bool.and_eq_true, Option.isNone_iff_eq_none, Option.any_eq_true,
      decide_eq_true_eq] at hadopt
    exact .inr (.inl hadopt)
  · unfold rotationProven at hrot
    split at hrot
    · rename_i sig stored msg hsig hstored hmsg
      refine .inr (.inr ⟨stored, sig, msg, hstored, hsig, hmsg, ?_⟩)
      cases hv : env.verifyBitcoinSignature msg sig stored.publicKey with
      | ok u => rfl
      | error e => simp [hv, Except.isOk, Except.toBool] at hrot
    · cases hrot

/-- **No takeover.** A request that changed an existing user's identity or keys, or opened a session
for it, carried a fresh signature under its BTC key, and that key was entitled to the user. -/
theorem extensionRegister_entitled {env : AuthEnv} {a : Answers} {req : ExtensionRegisterRequest}
    {w w' : World} {r : Except AppError AuthResponse}
    (h : (extensionRegister env a req).Outcome w r w') {R : UserRow} (hR : R ∈ w.db.users.rows)
    (hacted : ¬ Untouched R w.db w'.db ∨ ∃ resp, r = .ok resp ∧ resp.user.id = R.id) :
    ∃ key, FreshlySigned env a req key ∧ Entitled env req key w.db R := by
  have hallows := untouched_allows R w.db
  have hstart : OnDb (Untouched R w.db) w := Untouched.refl hR
  -- whatever keeps the user untouched and answers for another one contradicts `hacted`
  have hcontra : (Untouched R w.db w'.db ∧ ∀ resp, r = .ok resp → resp.user.id ≠ R.id) → False := by
    rintro ⟨hsame, hother⟩
    rcases hacted with hn | ⟨resp, hr, hid⟩
    · exact hn hsame
    · exact hother resp hr hid
  rcases extensionRegister_cases h with ⟨rfl, e, rfl⟩ | ⟨key, hsigned, hpath⟩
  · exact (hcontra ⟨hstart, fun _ h => nomatch h⟩).elim
  · refine ⟨key, hsigned, ?_⟩
    rcases hpath with ⟨target, hrep, hout⟩ | ⟨-, hout⟩
    · by_cases htarget : target.id = R.id
      · have hmem : target ∈ w.db.users.rows := by
          obtain ⟨fp, -, hfp⟩ := hrep.located
          exact List.mem_of_find?_eq_some hfp
        obtain rfl : target = R := Table.eq_of_mem_of_key hmem hR htarget
        exact hrep.entitled
      · exact (hcontra ((hallows.keeps_repoint htarget trivial).outcome hout hstart)).elim
    · by_cases hidentity :
        R.pubkeyHash = some (env.pepper "pubkey_hash" (env.hashPublicKey key.publicKey))
      · exact .inl hidentity
      · -- the row of the key is another one, now and whenever it is looked up again
        refine (hcontra ((hallows.keeps_getOrRegister (fun db r hdb hr hid => ?_)
          (fun _ => trivial) fun _ => trivial).outcome hout hstart)).elim
        have hrow : db.users.get? R.id = some r := by
          rw [← hid]
          exact Table.get?_of_mem (List.mem_of_find?_eq_some hr)
        have hsame := hdb.identity
        rw [hrow] at hsame
        have hhash := List.find?_some hr
        simp only [decide_eq_true_eq] at hhash
        exact hidentity ((Option.some.inj hsame).symm.trans hhash)

/-- A signed registration of the Nostr key `npub`. -/
def sampleEvent : Nip98Event where
  id := "id"
  pubkey := "npub"
  createdAt := 1000
  kind := 27235
  tags := [["u", "https://api/auth/nostr/register"], ["method", "POST"],
    ["purpose", "nostr_register"], ["challenge", "nonce"],
    ["payload", "POST\n/api/v1/auth/nostr/register\n\n"]]
  content := ""
  sig := "sig"

/-- An instance where a text is its own hash and a key signs with its name. -/
def sampleEnv : AuthEnv where
  pepper _ v := v
  hashPublicKey k := k
  verifyBitcoinSignature _ sig key :=
    if sig = key then .ok () else .error (.authError "signature verification failed")
  hashInviteCode code := code
  hashRefreshToken token := token
  descriptorSha256 d := d
  emptyBodyHash := ""
  crypto :=
    { decode := fun token => if token = "event" then some sampleEvent else none
      eventId := fun _ _ _ _ _ => "id"
      hexDecode := fun text => some (List.replicate (if text = "sig" then 64 else 32) 0)
      verifyRaw := fun _ _ _ => true }
  publicApiUrl := some "https://api"
  pow := ⟨false, false, []⟩
  gates := ⟨.all, false, false, false⟩
  refreshTokenExpiryDays := 30

/-- The answers to the `n`-th request. -/
def sampleAnswers (n : Uuid) : Answers where
  now := 1000
  issuedAt := 0
  userId := n
  sessionId := n
  eventId := n
  provider _ := .error (.internal "payment provider not configured")
  createTokenPair _ _ _ := .ok ⟨"access", "refresh", 86400⟩

/-- A wallet that submits its BTC key. -/
def walletRequest (key : String) (fingerprint : Option String) : ExtensionRegisterRequest where
  keys := [⟨"btc", key, none⟩]
  username := none
  walletBirthday := none
  seedFingerprint := fingerprint
  xmrStartHeight := none
  wowStartHeight := none
  signedTimestamp := 990
  signature := key
  rotationSignature := none
  altchaSolution := none
  inviteCode := none
  paymentInvoiceId := none

/-- A user whose identity is the BTC key. -/
def walletUser : UserRow := ⟨1, none, some "K", none, none, none, none, none, none⟩

/-- A database with that user. -/
def walletWorld : World := ⟨{ Db.empty with users := ⟨[walletUser], by simp⟩ }, 0⟩

/-- A known wallet signs in by its own key. -/
theorem walletUser_entitled :
    ∃ key, FreshlySigned sampleEnv (sampleAnswers 2) (walletRequest "K" none) key ∧
      Entitled sampleEnv (walletRequest "K" none) key walletWorld.db walletUser :=
  extensionRegister_entitled (Prog.outcome_run _ walletWorld) (.head _) (.inr ⟨_, rfl, rfl⟩)

end SmirkBackend
