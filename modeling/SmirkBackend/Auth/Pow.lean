import SmirkBackend.Auth.Nostr

/-!
# Registration on one node

A node keeps in memory which proof-of-work solutions it has seen.  The solution a new wallet
presents is checked and spent there, between two statements of its registration; what comes before
and after is the handler of the database.  The verifier of solutions is a parameter.

An accepted solution was not spent before, and is now (`verifyPayload_path`); where the gate
applies, a solution was accepted (`enforcePowAt_path`).
-/

namespace SmirkBackend

open Lib (HasKey Table Prog)

/-! ### Spent solutions -/

/-- `CHALLENGE_TTL_SECONDS`. -/
def challengeTtlSeconds : ℤ := 600

/-- A spent solution: the signature of its challenge, and when it was seen. -/
structure SpentSolution where
  /-- Signature of the challenge. -/
  signature : String
  /-- When it was spent, on the process's clock. -/
  seen : Timestamp

instance : HasKey SpentSolution String := ⟨SpentSolution.signature⟩

/-- The database, and what one process keeps in memory. -/
structure Node where
  /-- The database and its clock. -/
  world : World
  /-- `spent_solutions`. -/
  spent : Table SpentSolution
  /-- The monotonic clock of the process. -/
  instant : Timestamp

/-- The database as a part of the node. -/
def Node.database : Prog.Part Node World where
  get n := n.world
  set w n := { n with world := w }
  get_set _ _ := rfl
  set_set _ _ _ := rfl
  set_get _ := rfl

/-- The entries that are not older than a challenge can be. -/
def Node.retained (n : Node) : Table SpentSolution :=
  n.spent.deleteWhere fun s => !decide (n.instant - s.seen < seconds challengeTtlSeconds)

/-- The node after a solution was seen. -/
def Node.spend (signature : String) (n : Node) : Node :=
  { n with
    spent := n.retained.upsert ⟨signature, n.instant⟩
      { set := fun s => { s with seen := n.instant } } }

/-- `spend_solution`: pruning and spending are one step. -/
def spendSolution (signature : String) : Prog Node AppError Bool :=
  .mem (Node.spend signature) fun n => .ret (n.retained.get? signature).isNone

/-- Answer of the verifier. -/
structure VerifyResult where
  /-- The solution is good. -/
  verified : Bool
  /-- The challenge has expired. -/
  expired : Bool
  /-- The challenge is not ours. -/
  invalidSignature : Option Bool
  /-- The work is wrong. -/
  invalidSolution : Option Bool

/-- Why a solution is rejected. -/
def VerifyResult.reason (r : VerifyResult) : String :=
  if r.expired then "challenge expired (re-fetch the challenge)"
  else if r.invalidSignature.getD false then "invalid signature"
  else if r.invalidSolution.getD false then "wrong solution"
  else "rejected"

/-- A submitted solution. -/
structure Payload where
  /-- What the challenge asks for, as text. -/
  challenge : String
  /-- Signature of the challenge. -/
  signature : Option String
  /-- The solution, as text. -/
  solution : String

/-- What a node takes from the instance. -/
structure NodeEnv where
  /-- Login and registration. -/
  auth : AuthEnv
  /-- `verify_solution` with the instance's key, at a time in seconds. -/
  verifySolution : Int64 → Payload → Except String VerifyResult

/-- `verify_payload`. -/
def verifyPayload (env : NodeEnv) (now : Int64) (payload : Payload) : Prog Node AppError Unit :=
  match env.verifySolution now payload with
  | .error e => .fail (.validationError s!"PoW verify failed: {e}")
  | .ok result =>
    if !result.verified then
      .fail (.validationError ("PoW solution rejected (" ++ result.reason ++ ")"))
    else
      match payload.signature with
      | none => .fail (.validationError "PoW solution rejected (missing signature)")
      | some signature => do
        if ← spendSolution signature then .ret ()
        else .fail (.validationError "PoW solution rejected (already used; re-fetch the challenge)")

/-- `enforce_pow`, with the check of the solution. -/
def enforcePowAt (env : NodeEnv) (now : Int64) (pubkeyHashLc : String) (returning : Bool)
    (solution : Option Payload) : Prog Node AppError Unit :=
  if returning then .ret ()
  else if powApplies env.auth.pow pubkeyHashLc then
    match solution with
    | some payload => verifyPayload env now payload
    | none => .fail (.validationError
        ("Proof-of-work solution is required to create a new wallet. Please upgrade to a newer " ++
          "Smirk client."))
  else
    match solution with
    | some payload => if env.auth.pow.enabled then verifyPayload env now payload else .ret ()
    | none => .ret ()

/-- The solution was good and not seen before, and is spent. -/
def SolutionSpent (env : NodeEnv) (now : Int64) (payload : Payload) (n n' : Node) : Prop :=
  ∃ result signature, env.verifySolution now payload = .ok result ∧ result.verified ∧
    payload.signature = some signature ∧ n.retained.get? signature = none ∧
    n'.spent.get? signature = some ⟨signature, n.instant⟩

/-- A solution that is accepted was not spent before, and is now. -/
theorem verifyPayload_path {env : NodeEnv} {now : Int64} {payload : Payload}
    {t : List (Node × Node)} (h : (verifyPayload env now payload).Path t (.ok ())) :
    ∃ x, t = [x] ∧ SolutionSpent env now payload x.1 x.2 := by
  unfold verifyPayload at h
  cases hresult : env.verifySolution now payload with
  | error e =>
    simp only [hresult] at h
    cases h
  | ok result =>
    simp only [hresult] at h
    split_ifs at h with hverified
    · cases h
    cases hsig : payload.signature with
    | none =>
      simp only [hsig] at h
      cases h
    | some signature =>
      simp only [hsig] at h
      cases h with
      | @mem _ _ n _ _ h =>
        cases hfresh : n.retained.get? signature with
        | some s =>
          simp only [hfresh] at h
          cases h
        | none =>
          simp only [hfresh] at h
          cases h
          refine ⟨_, rfl, result, signature, hresult, by simpa using hverified, hsig, hfresh, ?_⟩
          change (n.retained.upsert _ _).get? signature = _
          rw [Table.get?_upsert, if_pos (show signature = Lib.key _ from rfl), hfresh]
          rfl

/-- A new wallet that passes where the gate applies has spent a solution. -/
theorem enforcePowAt_path {env : NodeEnv} {now : Int64} {pubkeyHashLc : String}
    {solution : Option Payload} {t : List (Node × Node)}
    (h : (enforcePowAt env now pubkeyHashLc false solution).Path t (.ok ()))
    (happlies : powApplies env.auth.pow pubkeyHashLc) :
    ∃ payload x, solution = some payload ∧ x ∈ t ∧ SolutionSpent env now payload x.1 x.2 := by
  unfold enforcePowAt at h
  simp only [Bool.false_eq_true, if_false, happlies, if_true] at h
  cases solution with
  | none => cases h
  | some payload =>
    obtain ⟨x, rfl, hspent⟩ := verifyPayload_path h
    exact ⟨payload, x, rfl, by simp, hspent⟩

/-! ### Registration -/

/-- The request, its solution checked. -/
def ExtensionRegisterRequest.cleared (req : ExtensionRegisterRequest) : ExtensionRegisterRequest :=
  { req with altchaSolution := some (.ok ()) }

/-- The request, its solution checked. -/
def NostrRegisterRequest.cleared (req : NostrRegisterRequest) : NostrRegisterRequest :=
  { req with altchaSolution := some (.ok ()) }

/-- `extension_register`, with the check of the solution at a time in seconds. -/
def extensionRegisterAt (env : NodeEnv) (a : Answers) (checkedAt : Int64)
    (req : ExtensionRegisterRequest) (solution : Option Payload) :
    Prog Node AppError AuthResponse :=
  match btcKey req.keys with
  | none => .fail (.validationError "BTC public key is required")
  | some key => do
    let pubkeyHash := env.auth.hashPublicKey key.publicKey
    .ofExcept (validateOptional req.username)
    .ofExcept (checkDrift a.now req.signedTimestamp)
    .ofExcept (env.auth.verifyBitcoinSignature (authMessage req.signedTimestamp) req.signature
      key.publicKey)
    let existing ← (select fun db =>
      db.getUserByPubkeyHash env.auth.pepper pubkeyHash).zoom Node.database
    let target ← if existing.isSome then .ret none
      else (repointTarget env.auth req key.publicKey pubkeyHash).zoom Node.database
    enforcePowAt env checkedAt (toLowercase pubkeyHash) existing.isSome solution
    match target with
    | some target => (repoint env.auth a req.cleared pubkeyHash target).zoom Node.database
    | none => (getOrRegister env.auth a req.cleared pubkeyHash existing).zoom Node.database

/-- A known Nostr key signs in, a new one registers. -/
def nostrGetOrRegister (env : AuthEnv) (a : Answers) (req : NostrRegisterRequest) (pubkey : String)
    (existing : Option UserRow) : Handler AuthResponse := do
  .ofExcept (enforcePow env.pow pubkey existing.isSome req.altchaSolution)
  if existing.isSome then
    let user ← getOrCreateUserByNostrPubkey env.pepper a.userId pubkey req.username req.optionals
    upsertAllKeys user.id req.keys
    signIn env a user .nostr "Nostr" "nostr" false
  else
    rejectKnownFingerprint env.pepper req.seedFingerprint
    let user ← registerNew (req.registration env a pubkey) a.userId
    signIn env a user .nostr "Nostr" "nostr" true

/-- The end of `nostr_register`. -/
theorem nostrRegister_eq (env : AuthEnv) (a : Answers) (req : NostrRegisterRequest) :
    nostrRegister env a req = (do
      .ofExcept (validateOptional req.username)
      let _ ← requireChallenge req.nonce "nostr_register"
      let pubkey ← .ofExcept
        (proveNostr env a req.nostrToken "/auth/nostr/register" "nostr_register" req.nonce)
      let existing ← select fun db => db.findUserByNostrPubkey pubkey
      nostrGetOrRegister env a req pubkey existing) := rfl

/-- `nostr_register`, with the check of the solution at a time in seconds. -/
def nostrRegisterAt (env : NodeEnv) (a : Answers) (checkedAt : Int64) (req : NostrRegisterRequest)
    (solution : Option Payload) : Prog Node AppError AuthResponse := do
  .ofExcept (validateOptional req.username)
  let _ ← (requireChallenge req.nonce "nostr_register").zoom Node.database
  let pubkey ← .ofExcept
    (proveNostr env.auth a req.nostrToken "/auth/nostr/register" "nostr_register" req.nonce)
  let existing ← (select fun db => db.findUserByNostrPubkey pubkey).zoom Node.database
  enforcePowAt env checkedAt pubkey existing.isSome solution
  (nostrGetOrRegister env.auth a req.cleared pubkey existing).zoom Node.database

end SmirkBackend
