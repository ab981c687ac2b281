import SmirkBackend.Auth.Pow
import SmirkBackend.Auth.Statements
import SmirkBackend.Erasure.Execute

/-!
# Completeness of the registration gates

Wallets register and sign in concurrently, statement by statement, while anything else in the
database may change.  A request decides by one lookup whether its wallet is known, and a known
wallet is looked up again by a statement that creates the row when it is gone.  Where the second
lookup finds what the first one found, every row is created together with the spending of the
tokens that the gates ask for; where it does not, the gates are bypassed.

* `gate_completeness` : rows are created through the gates (`Gated`), as long as the second lookup
  finds what the first one found (`StaysKnown`).
* `erased_wallet_bypasses_gates` : an erasure between the two lookups.
-/

namespace SmirkBackend

open Lib (Table Patch Prog)

/-! ### Statements that create a row -/

/-- A user is there who was not. -/
def createsUser (w w' : World) : Bool :=
  w'.db.users.rows.any fun r => (w.db.users.get? r.id).isNone

/-- The effects that create no user. -/
def Effect.Barren : Effect → Prop
  | create _ => False
  | _ => True

theorem createsUser_of_users {w w' : World} (h : w'.db.users = w.db.users) :
    createsUser w w' = false := by
  simp only [createsUser, h, List.any_eq_false, Option.isNone_iff_eq_none]
  intro r hr
  rw [show w.db.users.get? r.id = some r from Table.get?_of_mem hr]
  simp

theorem createsUser_of_does {w w' : World} (h : Does Effect.Barren w w') :
    createsUser w w' = false := by
  obtain ⟨eff, hbarren, hwrites⟩ := h
  cases eff with
  | create r => exact hbarren.elim
  | key u => exact createsUser_of_users hwrites.1
  | session r => exact createsUser_of_users hwrites.1
  | other => exact createsUser_of_users hwrites.1
  | update u f =>
    simp only [createsUser, List.any_eq_false, Option.isNone_iff_eq_none]
    intro r hr hnone
    -- an update keeps the identifiers
    have hget : w'.db.users.get? r.id = some r := Table.get?_of_mem hr
    rw [hwrites.1, Table.get?_updateOne, hnone] at hget
    simp at hget

theorem atMost_of_does {α : Type} {p : Handler α} (hp : p.Steps (Does Effect.Barren)) :
    p.AtMost (fun x => createsUser x.1 x.2) 0 :=
  Prog.atMost_of_steps (fun _ => createsUser_of_users rfl)
    (hp.mono fun _ _ h => createsUser_of_does h)

theorem not_creates {α : Type} {p : Handler α} (hp : p.Steps (Does Effect.Barren))
    {t₁ t₂ : List (World × World)} {x : World × World} {r : Except AppError α}
    (h : p.Path (t₁ ++ x :: t₂) r) : createsUser x.1 x.2 ≠ true := by
  have hdoes := Prog.path_steps (Does.refl trivial) hp h x (by simp)
  simp [createsUser_of_does hdoes]

theorem steps_keysAndSignIn (env : AuthEnv) (a : Answers) (user : UserRow)
    (keys : List AssetPublicKey) (platform : Platform) (deviceInfo asset : String) (isNew : Bool) :
    (upsertAllKeys user.id keys >>= fun _ =>
      signIn env a user platform deviceInfo asset isNew).Steps (Does Effect.Barren) :=
  (Does.steps_upsertAllKeys trivial trivial keys).bind fun _ =>
    Does.steps_signIn trivial fun _ => trivial

/-- The tokens that the gates ask for were spent by the statement that created the row. -/
def PaidFor (cfg : GateConfig) (w w' : World) : Prop :=
  ∃ gates row now, GateTokens cfg gates ∧ Spent gates row now w w'

/-- A registration creates its row and spends its tokens in one statement. -/
theorem registerNew_creates {q : Registration} {id : Uuid} {t₁ t₂ : List (World × World)}
    {x : World × World} {r : Except AppError UserRow}
    (h : (registerNew q id).Path (t₁ ++ x :: t₂) r) (hx : createsUser x.1 x.2) :
    PaidFor q.gates x.1 x.2 := by
  have hplan : (registrationPlan q).AtMost (fun x => createsUser x.1 x.2) 0 :=
    atMost_of_does (steps_registrationPlan (Does.refl trivial) q)
  obtain ⟨t₀, t₃, plan, rfl, hpath, h⟩ := hplan.path_after h hx
  have htokens : GateTokens q.gates plan.1 := (keeps_registrationPlan q).path hpath
  have hmem : x ∈ t₃ ++ x :: t₂ := by simp
  obtain ⟨w, ⟨ht, -⟩ | ⟨ht, -⟩⟩ := Prog.path_query h
  · rw [ht, List.mem_singleton] at hmem
    subst hmem
    simp only at hx ⊢
    cases hreplay : Lib.replay (consumeGatesScript q.pepper q.new plan.1 plan.2 ⟨w.now, id⟩) w with
    | error e =>
      simp only [hreplay] at hx
      rw [createsUser_of_users rfl] at hx
      cases hx
    | ok w' => exact ⟨plan.1, _, _, htokens, spent_of_replay hreplay⟩
  · rw [ht, List.mem_singleton] at hmem
    subst hmem
    rw [createsUser_of_users rfl] at hx
    cases hx

theorem getOrCreateUserByPubkeyHash_creates {pepper : Pepper} {id : Uuid} {pubkeyHash : String}
    {username : Option String} {o : Optionals} {t₁ t₂ : List (World × World)} {x : World × World}
    {r : Except AppError UserRow}
    (h : (getOrCreateUserByPubkeyHash pepper id pubkeyHash username o).Path (t₁ ++ x :: t₂) r)
    (hx : createsUser x.1 x.2) :
    ∃ y, t₁[0]? = some y ∧ y.1.db.getUserByPubkeyHash pepper pubkeyHash = none := by
  obtain ⟨t₀, t₃, found, rfl, hpath, hrest⟩ :=
    (atMost_of_does (Does.steps_select trivial _)).path_after h hx
  obtain ⟨w, rfl, hread⟩ := Prog.path_read hpath
  have hfound : found = w.db.getUserByPubkeyHash pepper pubkeyHash :=
    Except.ok.inj (hread.resolve_right nofun)
  cases found with
  | none => exact ⟨(w, w), rfl, hfound.symm⟩
  | some existing =>
    exact (not_creates (Does.steps_backfillOptionals trivial trivial) hrest hx).elim

theorem getOrCreateUserByNostrPubkey_creates {pepper : Pepper} {id : Uuid} {nostrPubkey : String}
    {username : Option String} {o : Optionals} {t₁ t₂ : List (World × World)} {x : World × World}
    {r : Except AppError UserRow}
    (h : (getOrCreateUserByNostrPubkey pepper id nostrPubkey username o).Path (t₁ ++ x :: t₂) r)
    (hx : createsUser x.1 x.2) :
    ∃ y, t₁[0]? = some y ∧ y.1.db.findUserByNostrPubkey nostrPubkey = none := by
  obtain ⟨t₀, t₃, found, rfl, hpath, hrest⟩ :=
    (atMost_of_does (Does.steps_select trivial _)).path_after h hx
  obtain ⟨w, rfl, hread⟩ := Prog.path_read hpath
  have hfound : found = w.db.findUserByNostrPubkey nostrPubkey :=
    Except.ok.inj (hread.resolve_right nofun)
  cases found with
  | none => exact ⟨(w, w), rfl, hfound.symm⟩
  | some existing =>
    exact (not_creates (Does.steps_backfillOptionals trivial trivial) hrest hx).elim

/-! ### The second half of a registration -/

/-- How many statements a known wallet issues before it is looked up again. -/
def fingerprintLookups (fingerprint : Option String) : ℕ := if fingerprint.isSome then 1 else 0

theorem fingerprintForRow_path {env : AuthEnv} {existing : Option UserRow}
    {fingerprint : Option String} {t : List (World × World)} {r : Except AppError (Option String)}
    (h : (fingerprintForRow env existing fingerprint).Path t r) :
    t.length = fingerprintLookups fingerprint := by
  unfold fingerprintForRow at h
  cases fingerprint with
  | none =>
    cases h
    rfl
  | some fp =>
    rcases Prog.path_bind h with ⟨e, hread, -⟩ | ⟨t₁, t₂, owner, rfl, hread, hret⟩
    · obtain ⟨w, rfl, -⟩ := Prog.path_read hread
      rfl
    · obtain ⟨w, rfl, -⟩ := Prog.path_read hread
      cases hret
      rfl

/-- A wallet that is new pays; one that was known and creates a row was not found again. -/
theorem getOrRegister_creates {env : AuthEnv} {a : Answers} {req : ExtensionRegisterRequest}
    {pubkeyHash : String} {existing : Option UserRow} {t₁ t₂ : List (World × World)}
    {x : World × World} {r : Except AppError AuthResponse}
    (h : (getOrRegister env a req pubkeyHash existing).Path (t₁ ++ x :: t₂) r)
    (hx : createsUser x.1 x.2) :
    (existing = none ∧ PaidFor env.gates x.1 x.2) ∨
      (existing.isSome ∧ ∃ y, t₁[fingerprintLookups req.seedFingerprint]? = some y ∧
        y.1.db.getUserByPubkeyHash env.pepper pubkeyHash = none) := by
  obtain ⟨-, -, h₁⟩ := Prog.path_after_ofExcept h
  obtain ⟨t₀, t₃, fingerprint, rfl, hpath, h₂⟩ :=
    (atMost_of_does (Does.steps_fingerprintForRow trivial env _ _)).path_after h₁ hx
  have hlen := fingerprintForRow_path hpath
  cases existing with
  | none =>
    left
    obtain ⟨t₄, r', h₃⟩ := Prog.AtMost.path_before
      (fun _ => atMost_of_does (Does.steps_signIn trivial fun _ => trivial)) h₂ hx
    exact ⟨rfl, registerNew_creates h₃ hx⟩
  | some existing =>
    right
    obtain ⟨t₄, r', h₃⟩ := Prog.AtMost.path_before
      (fun user => atMost_of_does (steps_keysAndSignIn env a user _ _ _ _ _)) h₂ hx
    obtain ⟨y, hy, hnone⟩ := getOrCreateUserByPubkeyHash_creates h₃ hx
    refine ⟨rfl, y, ?_, hnone⟩
    rw [← hlen, List.getElem?_append_right le_rfl, Nat.sub_self]
    exact hy

theorem nostrGetOrRegister_creates {env : AuthEnv} {a : Answers} {req : NostrRegisterRequest}
    {pubkey : String} {existing : Option UserRow} {t₁ t₂ : List (World × World)}
    {x : World × World} {r : Except AppError AuthResponse}
    (h : (nostrGetOrRegister env a req pubkey existing).Path (t₁ ++ x :: t₂) r)
    (hx : createsUser x.1 x.2) :
    (existing = none ∧ PaidFor env.gates x.1 x.2) ∨
      (existing.isSome ∧ ∃ y, t₁[0]? = some y ∧ y.1.db.findUserByNostrPubkey pubkey = none) := by
  obtain ⟨-, -, h₁⟩ := Prog.path_after_ofExcept h
  cases existing with
  | none =>
    left
    have hreject : (rejectKnownFingerprint env.pepper req.seedFingerprint).Steps
        (Does Effect.Barren) := steps_rejectKnownFingerprint_of_refl (Does.refl trivial) _ _
    obtain ⟨t₀, t₃, -, rfl, -, h₂⟩ := (atMost_of_does hreject).path_after h₁ hx
    obtain ⟨t₄, r', h₃⟩ := Prog.AtMost.path_before
      (fun _ => atMost_of_does (Does.steps_signIn trivial fun _ => trivial)) h₂ hx
    exact ⟨rfl, registerNew_creates h₃ hx⟩
  | some existing =>
    right
    obtain ⟨t₄, r', h₂⟩ := Prog.AtMost.path_before
      (fun user => atMost_of_does (steps_keysAndSignIn env a user _ _ _ _ _)) h₁ hx
    exact ⟨rfl, getOrCreateUserByNostrPubkey_creates h₂ hx⟩

/-! ### Registrations on a node -/

/-- A registration, with the solution it presents and the time when this is checked. -/
inductive RegisterRequest
  | extension (a : Answers) (req : ExtensionRegisterRequest) (checkedAt : Int64)
      (solution : Option Payload)
  | nostr (a : Answers) (req : NostrRegisterRequest) (checkedAt : Int64)
      (solution : Option Payload)

namespace RegisterRequest

/-- The handler of a request. -/
def program (env : NodeEnv) : RegisterRequest → Prog Node AppError AuthResponse
  | extension a req checkedAt solution => extensionRegisterAt env a checkedAt req solution
  | nostr a req checkedAt solution => nostrRegisterAt env a checkedAt req solution

/-- The hash of the BTC key, or the Nostr key, that a request proves. -/
def identity (env : NodeEnv) : RegisterRequest → Option String
  | extension _ req _ _ => (btcKey req.keys).map fun key => env.auth.hashPublicKey key.publicKey
  | nostr a req _ _ => (proveNostr env.auth a req.nostrToken "/auth/nostr/register"
      "nostr_register" req.nonce).toOption

/-- The row of an identity. -/
def lookup (env : NodeEnv) (db : Db) (identity : String) : RegisterRequest → Option UserRow
  | extension .. => db.getUserByPubkeyHash env.auth.pepper identity
  | nostr .. => db.findUserByNostrPubkey identity

/-- The row of the request's identity is there. -/
def finds (env : NodeEnv) (db : Db) (q : RegisterRequest) : Bool :=
  (q.identity env).any fun identity => (q.lookup env db identity).isSome

/-- The proof-of-work gate applies to the request. -/
def needsWork (env : NodeEnv) (q : RegisterRequest) : Bool :=
  (q.identity env).any fun identity => powApplies env.auth.pow <|
    match q with
    | extension .. => toLowercase identity
    | nostr .. => identity

/-- The presented solution. -/
def solution : RegisterRequest → Option Payload
  | extension _ _ _ solution => solution
  | nostr _ _ _ solution => solution

/-- When it is checked. -/
def checkedAt : RegisterRequest → Int64
  | extension _ _ checkedAt _ => checkedAt
  | nostr _ _ checkedAt _ => checkedAt

/-- Which statement looks the identity up. -/
def firstLookup : RegisterRequest → ℕ
  | extension .. => 0
  | nostr .. => 1

/-- Which statement looks it up again, when the first one found it. -/
def secondLookup : RegisterRequest → ℕ
  | extension _ req _ _ => 1 + fingerprintLookups req.seedFingerprint
  | nostr .. => 2

end RegisterRequest

/-- The request is one of a known wallet: its first lookup found a row. -/
def Returning (env : NodeEnv) (q : RegisterRequest) (t : List (Node × Node)) : Prop :=
  ∃ x, t[q.firstLookup]? = some x ∧ q.finds env x.1.world.db

/-- What the first lookup of a request finds, the second one finds. -/
def StaysKnown (env : NodeEnv) (q : RegisterRequest) (t : List (Node × Node)) : Prop :=
  ∀ x y, t[q.firstLookup]? = some x → t[q.secondLookup]? = some y →
    q.finds env x.1.world.db → q.finds env y.1.world.db

theorem StaysKnown.of_append {env : NodeEnv} {q : RegisterRequest} {t t' : List (Node × Node)}
    (h : StaysKnown env q (t ++ t')) : StaysKnown env q t := by
  have hstart {n : ℕ} {x : Node × Node} (hx : t[n]? = some x) : (t ++ t')[n]? = some x := by
    rwa [List.getElem?_append_left (List.getElem?_eq_some_iff.mp hx).1]
  exact fun x y hx hy => h x y (hstart hx) (hstart hy)

/-- The statement `x` that creates a row, after the statements `t` of the same request, does it
through the gates. -/
structure Gated (env : NodeEnv) (q : RegisterRequest) (t : List (Node × Node)) (x : Node × Node) :
    Prop where
  /-- It spends the tokens that the gates ask for. -/
  tokens : PaidFor env.auth.gates x.1.world x.2.world
  /-- A fresh solution was spent before, where one is needed. -/
  work : q.needsWork env → ∃ payload y, q.solution = some payload ∧ y ∈ t ∧
    SolutionSpent env q.checkedAt payload y.1 y.2
  /-- The wallet was not known. -/
  unknown : ¬ Returning env q t

/-- The check of a solution does not touch the database. -/
theorem steps_enforcePowAt (env : NodeEnv) (now : Int64) (pubkeyHashLc : String) (returning : Bool)
    (solution : Option Payload) :
    (enforcePowAt env now pubkeyHashLc returning solution).Steps
      fun n n' => n'.world = n.world := by
  have hverify (payload : Payload) :
      (verifyPayload env now payload).Steps fun n n' => n'.world = n.world := by
    unfold verifyPayload
    cases env.verifySolution now payload with
    | error e => trivial
    | ok result =>
      simp only
      split_ifs
      · trivial
      · cases payload.signature with
        | none => trivial
        | some signature =>
          refine Prog.Steps.bind (p := spendSolution signature) ⟨fun _ => rfl, fun _ => trivial⟩
            fun fresh => ?_
          cases fresh <;> trivial
  unfold enforcePowAt
  split_ifs <;> cases solution <;> first | trivial | exact hverify _

/-- A statement on a node that creates a row. -/
def createsOn (x : Node × Node) : Bool := createsUser x.1.world x.2.world

theorem atMost_zoom {α : Type} {p : Handler α} (hp : p.Steps (Does Effect.Barren)) :
    (p.zoom Node.database).AtMost createsOn 0 :=
  (atMost_of_does hp).zoom

theorem atMost_enforcePowAt (env : NodeEnv) (now : Int64) (pubkeyHashLc : String)
    (returning : Bool) (solution : Option Payload) :
    (enforcePowAt env now pubkeyHashLc returning solution).AtMost createsOn 0 := by
  refine Prog.atMost_of_steps (fun _ => createsUser_of_users rfl) ?_
  refine (steps_enforcePowAt env now pubkeyHashLc returning solution).mono fun n n' h => ?_
  exact createsUser_of_users (congrArg (fun w => w.db.users) h)

theorem path_database {α : Type} {p : Handler α} {t₁ t₂ : List (Node × Node)} {x : Node × Node}
    {r : Except AppError α} (h : (p.zoom Node.database).Path (t₁ ++ x :: t₂) r) :
    p.Path (t₁.map (fun y => (y.1.world, y.2.world)) ++ (x.1.world, x.2.world) ::
      t₂.map fun y => (y.1.world, y.2.world)) r := by
  have hpath := Prog.path_zoom h
  rwa [List.map_append, List.map_cons] at hpath

theorem path_select {α : Type} {f : Db → α} {t : List (Node × Node)} {a : α}
    (h : ((select f).zoom Node.database).Path t (.ok a)) :
    ∃ y, t = [y] ∧ a = f y.1.world.db := by
  obtain ⟨w, ht, hread⟩ := Prog.path_read (Prog.path_zoom h)
  obtain ⟨y, rfl, hy⟩ := List.map_eq_singleton_iff.mp ht
  obtain rfl : y.1.world = w := congrArg Prod.fst hy
  exact ⟨y, rfl, Except.ok.inj (hread.resolve_right nofun)⟩

theorem extensionRegisterAt_gated {env : NodeEnv} {a : Answers} {req : ExtensionRegisterRequest}
    {checkedAt : Int64} {solution : Option Payload} {t₁ t₂ : List (Node × Node)} {x : Node × Node}
    {r : Except AppError AuthResponse}
    (h : (extensionRegisterAt env a checkedAt req solution).Path (t₁ ++ x :: t₂) r)
    (hx : createsOn x) (hstays : StaysKnown env (.extension a req checkedAt solution) t₁) :
    Gated env (.extension a req checkedAt solution) t₁ x := by
  unfold extensionRegisterAt at h
  cases hkey : btcKey req.keys with
  | none =>
    rw [hkey] at h
    exact (Prog.not_path_fail h).elim
  | some key =>
    simp only [hkey] at h
    obtain ⟨-, -, h₁⟩ := Prog.path_after_ofExcept h
    obtain ⟨-, -, h₂⟩ := Prog.path_after_ofExcept h₁
    obtain ⟨-, -, h₃⟩ := Prog.path_after_ofExcept h₂
    obtain ⟨t₀, t₃, existing, rfl, hread, h₄⟩ :=
      (atMost_zoom (Does.steps_select trivial _)).path_after h₃ hx
    obtain ⟨y, rfl, hexisting⟩ := path_select hread
    have hfinds (db : Db) : (RegisterRequest.extension a req checkedAt solution).finds env db =
        (db.getUserByPubkeyHash env.auth.pepper (env.auth.hashPublicKey key.publicKey)).isSome := by
      simp [RegisterRequest.finds, RegisterRequest.identity, RegisterRequest.lookup, hkey]
    cases existing with
    | some existing =>
      -- the wallet was known: the row was gone at the second lookup
      rcases getOrRegister_creates (path_database h₄) hx with ⟨hnone, -⟩ | ⟨-, z, hz, hgone⟩
      · cases hnone
      · rw [List.getElem?_map, Option.map_eq_some_iff] at hz
        obtain ⟨z, hz, rfl⟩ := hz
        have hagain := hstays y z rfl (by rw [RegisterRequest.secondLookup, Nat.add_comm]; exact hz)
          (by rw [hfinds, ← hexisting]; rfl)
        rw [hfinds, hgone] at hagain
        cases hagain
    | none =>
      obtain ⟨t₄, t₅, target, rfl, -, h₅⟩ :=
        (atMost_zoom (Does.steps_repointTarget trivial env.auth req _ _)).path_after h₄ hx
      obtain ⟨t₆, t₇, _, rfl, hpow, h₆⟩ :=
        (atMost_enforcePowAt env checkedAt _ _ solution).path_after h₅ hx
      cases target with
      | some target =>
        have hrepoint : (repoint env.auth a req.cleared (env.auth.hashPublicKey key.publicKey)
            target).Steps (Does Effect.Barren) := by
          refine (Prog.steps_ofExcept _).bind fun _ => ?_
          refine (Does.steps_updatePubkeyHash trivial trivial).bind fun _ => ?_
          exact steps_keysAndSignIn ..
        exact (not_creates hrepoint (path_database h₆) hx).elim
      | none =>
        rcases getOrRegister_creates (path_database h₆) hx with ⟨-, hpaid⟩ | ⟨hsome, -⟩
        · refine ⟨hpaid, fun hwork => ?_, fun hret => ?_⟩
          · have happlies : powApplies env.auth.pow
                (toLowercase (env.auth.hashPublicKey key.publicKey)) := by
              simpa [RegisterRequest.needsWork, RegisterRequest.identity, hkey] using hwork
            obtain ⟨payload, z, hsolution, hz, hspent⟩ := enforcePowAt_path hpow happlies
            exact ⟨payload, z, hsolution, by simp [hz], hspent⟩
          · obtain ⟨z, hz, hfound⟩ := hret
            obtain rfl : y = z := Option.some.inj hz
            rw [hfinds, ← hexisting] at hfound
            cases hfound
        · cases hsome

theorem requireChallenge_path {nonce purpose : String} {t : List (World × World)}
    {c : ChallengeRow} (h : (requireChallenge nonce purpose).Path t (.ok c)) : t.length = 1 := by
  obtain ⟨t₁, t₂, found, rfl, hconsume, hrest⟩ := Prog.path_bind_ok h
  have hnil : t₂ = [] := by
    cases found with
    | none => cases hrest
    | some row =>
      cases hrest
      rfl
  obtain ⟨w, ⟨rfl, -⟩ | ⟨rfl, -⟩⟩ := Prog.path_query hconsume <;> simp [hnil]

theorem nostrRegisterAt_gated {env : NodeEnv} {a : Answers} {req : NostrRegisterRequest}
    {checkedAt : Int64} {solution : Option Payload} {t₁ t₂ : List (Node × Node)} {x : Node × Node}
    {r : Except AppError AuthResponse}
    (h : (nostrRegisterAt env a checkedAt req solution).Path (t₁ ++ x :: t₂) r)
    (hx : createsOn x) (hstays : StaysKnown env (.nostr a req checkedAt solution) t₁) :
    Gated env (.nostr a req checkedAt solution) t₁ x := by
  obtain ⟨-, -, h₁⟩ := Prog.path_after_ofExcept h
  obtain ⟨tc, t₃, consumed, rfl, hconsume, h₂⟩ :=
    (atMost_zoom (Does.steps_requireChallenge trivial _ _)).path_after h₁ hx
  -- the nonce is the first statement, the lookup the second
  have hlen := requireChallenge_path (Prog.path_zoom hconsume)
  rw [List.length_map] at hlen
  obtain ⟨pubkey, hproof, h₃⟩ := Prog.path_after_ofExcept h₂
  obtain ⟨t₀, t₄, existing, rfl, hread, h₄⟩ :=
    (atMost_zoom (Does.steps_select trivial _)).path_after h₃ hx
  obtain ⟨y, rfl, hexisting⟩ := path_select hread
  have hfirst : (tc ++ ([y] ++ t₄))[1]? = some y := by
    rw [List.getElem?_append_right hlen.le, hlen]
    rfl
  have hfinds (db : Db) : (RegisterRequest.nostr a req checkedAt solution).finds env db =
      (db.findUserByNostrPubkey pubkey).isSome := by
    simp [RegisterRequest.finds, RegisterRequest.identity, RegisterRequest.lookup, hproof,
      Except.toOption]
  obtain ⟨t₅, t₆, _, rfl, hpow, h₅⟩ :=
    (atMost_enforcePowAt env checkedAt pubkey existing.isSome solution).path_after h₄ hx
  cases existing with
  | some existing =>
    -- the wallet was known: the row was gone at the second lookup
    rcases nostrGetOrRegister_creates (path_database h₅) hx with ⟨hnone, -⟩ | ⟨-, z, hz, hgone⟩
    · cases hnone
    · rw [List.getElem?_map, Option.map_eq_some_iff] at hz
      obtain ⟨z, hz, rfl⟩ := hz
      cases hpow
      have hsecond : (tc ++ ([y] ++ ([] ++ t₆)))[2]? = some z := by
        rw [List.getElem?_append_right (by omega), hlen]
        exact hz
      have hagain := hstays y z hfirst hsecond (by rw [hfinds, ← hexisting]; rfl)
      rw [hfinds, hgone] at hagain
      cases hagain
  | none =>
    rcases nostrGetOrRegister_creates (path_database h₅) hx with ⟨-, hpaid⟩ | ⟨hsome, -⟩
    · refine ⟨hpaid, fun hwork => ?_, fun hret => ?_⟩
      · have happlies : powApplies env.auth.pow pubkey := by
          simpa [RegisterRequest.needsWork, RegisterRequest.identity, hproof, Except.toOption]
            using hwork
        obtain ⟨payload, z, hsolution, hz, hspent⟩ := enforcePowAt_path hpow happlies
        exact ⟨payload, z, hsolution, by simp [hz], hspent⟩
      · obtain ⟨z, hz, hfound⟩ := hret
        obtain rfl : y = z := Option.some.inj (hfirst.symm.trans hz)
        rw [hfinds, ← hexisting] at hfound
        cases hfound
    · cases hsome

section Runs

variable {ι : Type} [DecidableEq ι]

/-- **Completeness of the gates.** In every run, whatever else happens to the database, a request
whose second lookup finds what the first one found creates a row only in a statement that spends
the tokens the gates ask for, after spending a fresh solution where one is needed, and only when
its wallet was not known. -/
theorem gate_completeness {env : NodeEnv} {reqs : ι → RegisterRequest} {others : Node → Node → Prop}
    {n₀ : Node} {es : List (Prog.Event ι Node)}
    {c : Node × (ι → Prog Node AppError AuthResponse)}
    (hrun : (Prog.pool others).Run (n₀, fun i => (reqs i).program env) es c) (i : ι)
    (hstays : StaysKnown env (reqs i) (Prog.eventsOf i es)) :
    ∀ es₁ e es₂, es = es₁ ++ e :: es₂ → e.who = some i → createsUser e.pre.world e.post.world →
      Gated env (reqs i) (Prog.eventsOf i es₁) (e.pre, e.post) := by
  intro es₁ e es₂ hes hwho hcreates
  obtain ⟨t, r, hrest⟩ := Prog.exists_path c.1 (c.2 i)
  have hpath := Prog.path_of_run hrun i hrest
  have hsplit : Prog.eventsOf i es =
      Prog.eventsOf i es₁ ++ (e.pre, e.post) :: Prog.eventsOf i es₂ := by
    rw [hes, Prog.eventsOf_append, Prog.eventsOf_cons_self hwho]
  rw [hsplit, List.append_assoc, List.cons_append] at hpath
  rw [hsplit] at hstays
  simp only at hpath
  cases hq : reqs i with
  | extension a req checkedAt solution =>
    rw [hq] at hpath hstays
    exact extensionRegisterAt_gated hpath hcreates hstays.of_append
  | nostr a req checkedAt solution =>
    rw [hq] at hpath hstays
    exact nostrRegisterAt_gated hpath hcreates hstays.of_append

end Runs

/-! ### Two wallets -/

/-- An instance with an invite gate, where every new wallet needs a solution. -/
def gatedEnv : NodeEnv where
  auth := { sampleEnv with gates := ⟨.all, true, false, false⟩, pow := ⟨true, true, []⟩ }
  verifySolution _ _ := .ok ⟨true, false, none, none⟩

/-- A wallet that presents an invite and a solution. -/
def invitedWallet (n : Uuid) (key signature : String) : RegisterRequest :=
  .extension (sampleAnswers n) { walletRequest key none with inviteCode := some "code" } 1000
    (some ⟨"challenge", some signature, "solution"⟩)

/-- Two wallets with the same invite. -/
def invitedWallets (i : Bool) : RegisterRequest :=
  if i then invitedWallet 2 "K" "first" else invitedWallet 3 "L" "second"

/-- The two wallets, at the start; the database has their invite. -/
def invitedStart : Node × (Bool → Prog Node AppError AuthResponse) :=
  (⟨inviteWorld, .empty, 0⟩, fun i => (invitedWallets i).program gatedEnv)

/-- Each makes a lookup, spends its solution and runs its transaction; the wallet that began later
gets there first. -/
def invitedTurns : List (Bool × ℕ) := [(false, 2), (true, 3), (false, 1)]

/-- The transaction of the faster wallet. -/
def paidEvent : Prog.Event Bool Node :=
  (Prog.playTrace invitedTurns invitedStart).get ⟨4, by decide +kernel⟩

/-- The faster wallet spends the invite; the other one has no row. -/
theorem contested_invite_gated :
    ∃ es₁ e es₂, Prog.playTrace invitedTurns invitedStart = es₁ ++ e :: es₂ ∧
      e.who = some true ∧ createsUser e.pre.world e.post.world ∧
      Gated gatedEnv (invitedWallets true) (Prog.eventsOf true es₁) (e.pre, e.post) ∧
      (Prog.play invitedTurns invitedStart).1.world.db.users.rows.map UserRow.id = [2] := by
  have hstays : StaysKnown gatedEnv (invitedWallets true)
      (Prog.eventsOf true (Prog.playTrace invitedTurns invitedStart)) := by
    intro x y hx _ hfound
    obtain rfl := Option.some.inj hx
    exact absurd hfound (by decide +kernel)
  have hsplit : Prog.playTrace invitedTurns invitedStart =
      (Prog.playTrace invitedTurns invitedStart).take 4 ++ paidEvent ::
        (Prog.playTrace invitedTurns invitedStart).drop 5 :=
    (List.take_append_drop 4 _).symm.trans (congrArg _ (List.drop_eq_getElem_cons _))
  exact ⟨_, _, _, hsplit, rfl, by decide +kernel,
    gate_completeness (Prog.run_play (fun _ _ => False) invitedTurns invitedStart) true hstays
      _ _ _ hsplit rfl (by decide +kernel), by decide +kernel⟩

/-- An erasure is executed. -/
def Erases (n n' : Node) : Prop :=
  ∃ id, n' = { n with world := { n.world with
    db := (executeErasure (fun h _ _ _ => h) n.world.now id true n.world.db).2 } }

/-- A known wallet that presents nothing. -/
def knownWallet : RegisterRequest :=
  .extension (sampleAnswers 2) (walletRequest "K" none) 1000 none

/-- A node whose database has the wallet and its confirmed erasure, and no invite. -/
def erasureNode : Node where
  world := { walletWorld with
    db := { walletWorld.db with
      erasureRequests := ⟨[⟨7, some 1, "subject", .confirmed, 0, 0, some 0, none, none⟩],
        by simp⟩ } }
  spent := .empty
  instant := 0

/-- The node once the erasure is executed. -/
def erasedNode : Node :=
  { erasureNode with world := { erasureNode.world with
    db := (executeErasure (fun h _ _ _ => h) 0 7 true erasureNode.world.db).2 } }

/-- The known wallet after its first lookup, when the erasure is executed. -/
def bypassMiddle : Node × (Unit → Prog Node AppError AuthResponse) :=
  (erasedNode, (Prog.play [((), 1)] (erasureNode, fun _ => knownWallet.program gatedEnv)).2)

/-- The events up to the second lookup. -/
def bypassEvents : List (Prog.Event Unit Node) :=
  ⟨some (), erasureNode, erasureNode⟩ :: ⟨none, erasureNode, erasedNode⟩ ::
    Prog.playTrace [((), 1)] bypassMiddle

/-- A known wallet is erased between its two lookups: its row is created again, without an invite
or a solution. -/
theorem erased_wallet_bypasses_gates :
    gatedEnv.auth.gates.requireInvite = true ∧ knownWallet.needsWork gatedEnv = true ∧
      ∃ e es₂ c, (Prog.pool Erases).Run (erasureNode, fun _ => knownWallet.program gatedEnv)
          (bypassEvents ++ e :: es₂) c ∧
        e.who = some () ∧ createsUser e.pre.world e.post.world ∧
        Returning gatedEnv knownWallet (Prog.eventsOf () bypassEvents) ∧
        ¬ PaidFor gatedEnv.auth.gates e.pre.world e.post.world ∧ e.post.spent.rows = [] ∧
        ¬ Gated gatedEnv knownWallet (Prog.eventsOf () bypassEvents) (e.pre, e.post) := by
  refine ⟨rfl, rfl, ⟨some (), erasedNode, (Prog.play [((), 2)] bypassMiddle).1⟩, [],
    Prog.play [((), 2)] bypassMiddle, ?_, rfl, rfl, ⟨(erasureNode, erasureNode), rfl, rfl⟩,
    fun hpaid => ?_, rfl, fun hgated => ?_⟩
  · have hfirst := Prog.run_play Erases [((), 1)]
      (erasureNode, fun _ : Unit => knownWallet.program gatedEnv)
    have herase : (Prog.pool Erases).step
        (Prog.play [((), 1)] (erasureNode, fun _ => knownWallet.program gatedEnv))
        ⟨none, erasureNode, erasedNode⟩ bypassMiddle := ⟨rfl, rfl, ⟨7, rfl⟩, rfl⟩
    exact hfirst.trans (.cons herase (Prog.run_play Erases [((), 2)] bypassMiddle))
  · -- the gate asks for an invite, and there is none
    obtain ⟨gates, row, now, htokens, hspent⟩ := hpaid
    obtain ⟨code, hcode⟩ := Option.isSome_iff_exists.mp (htokens.whenAll rfl).1
    obtain ⟨r, hr, -⟩ := hspent.inviteFree code hcode
    cases hr
  · exact hgated.unknown ⟨(erasureNode, erasureNode), rfl, rfl⟩

end SmirkBackend
