import SmirkBackend.Auth.KeyTypes

/-!
# The policy of names

A name is short, lower-case, and not reserved: `set_username` checks all of this.  Registration has
a check of its own that knows no reserved names, and the legacy import carries over the name of the
identity, lower-cased, without a check.

`storesName_valid_iff` says which requests store valid names only; runs of such requests keep the
policy (`username_policy_kept`), other requests do not (`username_policy_broken`).
-/

namespace SmirkBackend

open Lib (Table Patch Prog)

/-- Every name obeys the policy. -/
def UsernamesValid (db : Db) : Prop :=
  ∀ r ∈ db.users.rows, ∀ name, r.username = some name → Users.validateUsername name = .ok ()

/-- A request that stores valid names only. -/
def WriterCall.NamesValid (env : WebsiteEnv) : WriterCall → Prop
  | extension a req => ExtensionAccepted env.auth a req →
      ∀ name, req.username = some name → name ∉ Users.reservedUsernames
  | nostr a req => NostrAccepted env.auth a req →
      ∀ name, req.username = some name → name ∉ Users.reservedUsernames
  | registerKey _ _ => True
  | setUsername _ _ => True
  | website a req => ∀ identity, ImportAccepted env a req identity →
      ∀ name, identity.username = some name →
        Users.validateUsername (env.lowercase name) = .ok ()

theorem valid_iff_of_registered {username : Option String} {name : String}
    (hvalid : validateOptional username = .ok ()) (hname : username = some name) :
    Users.validateUsername name = .ok () ↔ name ∉ Users.reservedUsernames := by
  subst hname
  rw [validateUsername_iff]
  exact and_iff_right hvalid

/-- **A request stores valid names only, if and only if** it registers no reserved name and imports
no name that is invalid in lower case. -/
theorem storesName_valid_iff {env : WebsiteEnv} {call : WriterCall} : call.NamesValid env ↔
    ∀ name, call.StoresName env name → Users.validateUsername name = .ok () := by
  cases call with
  | extension a req =>
    constructor
    · rintro h _ (⟨haccepted, hname⟩)
      exact (valid_iff_of_registered haccepted.username hname).mpr (h haccepted _ hname)
    · intro h haccepted name hname
      exact (valid_iff_of_registered haccepted.username hname).mp (h _ (.extension haccepted hname))
  | nostr a req =>
    constructor
    · rintro h _ (_ | ⟨haccepted, hname⟩)
      exact (valid_iff_of_registered haccepted.username hname).mpr (h haccepted _ hname)
    · intro h haccepted name hname
      exact (valid_iff_of_registered haccepted.username hname).mp (h _ (.nostr haccepted hname))
  | registerKey bearer req =>
    constructor
    · rintro - _ ⟨⟩
    · exact fun _ => trivial
  | setUsername bearer username =>
    constructor
    · rintro - _ (_ | _ | hvalid)
      exact hvalid
    · exact fun _ => trivial
  | website a req =>
    constructor
    · rintro h _ (_ | _ | _ | ⟨haccepted, hname⟩)
      exact h _ haccepted _ hname
    · exact fun h identity haccepted name hname => h _ (.website haccepted hname)

/-! ### Runs -/

/-- What others do: they store no name. -/
def StoresNoName (w w' : World) : Prop :=
  ∀ r ∈ w'.db.users.rows, ∀ name, r.username = some name →
    ∃ r₀ ∈ w.db.users.rows, r₀.username = some name

/-- **The policy holds** in every run of registrations, `POST /keys`, changes of names and legacy
imports, if every request stores valid names only. -/
theorem username_policy_kept {ι : Type} [DecidableEq ι] (env : WebsiteEnv) (call : ι → WriterCall)
    (hcalls : ∀ i, (call i).NamesValid env) (w₀ : World) (hstart : UsernamesValid w₀.db)
    {es : List (Prog.Event ι World)} {c : World × (ι → Handler Unit)}
    (hrun : (Prog.pool StoresNoName).Run (w₀, fun i => (call i).handler env) es c) :
    (∀ e ∈ es, UsernamesValid e.pre.db) ∧ UsernamesValid c.1.db := by
  refine Prog.invariant_of_run (I := fun w => UsernamesValid w.db) hrun ?_ hstart
  rintro es₁ e es₂ rfl - h r hr name hname
  obtain ⟨henv, hcall⟩ := Prog.event_of_run (fun i => Writes.refl) hrun
    (fun i => steps_writer env (call i)) e (by simp)
  cases hwho : e.who with
  | none =>
    obtain ⟨r₀, hr₀, hname₀⟩ := henv hwho r hr name hname
    exact h r₀ hr₀ name hname₀
  | some i =>
    rcases (hcall i hwho).names r hr name hname with ⟨r₀, hr₀, hname₀⟩ | hnew
    · exact h r₀ hr₀ name hname₀
    · exact storesName_valid_iff.mp (hcalls i) name hnew

/-! ### Samples -/

/-- Two wallets that register names: one that is free, and one of the requests below. -/
def namedWallet (key name : String) : ExtensionRegisterRequest :=
  { walletRequest key none with username := some name }

/-- A wallet registers a name, and changes it to a text in upper case. -/
def politeCall : Fin 2 → WriterCall
  | 0 => .extension (sampleAnswers 2) (namedWallet "K" "alice")
  | 1 => .setUsername (.ok ⟨2, none⟩) "ALICE_2"

/-- The two requests, about to begin on an empty database. -/
def politeStart : World × (Fin 2 → Handler Unit) :=
  (⟨Db.empty, 0⟩, fun i => (politeCall i).handler sampleWebsiteEnv)

/-- One request after the other. -/
def politeTurns : List (Fin 2 × ℕ) := Lib.numbered [(0, 8), (1, 2)]

theorem username_policy_kept_sample :
    UsernamesValid (Prog.play politeTurns politeStart).1.db ∧
      (Prog.play politeTurns politeStart).1.db.users.rows.map UserRow.username =
        [some "alice_2"] := by
  have hcalls : ∀ i, (politeCall i).NamesValid sampleWebsiteEnv := by
    intro i
    match i with
    | 0 =>
      intro _ name hname
      obtain rfl : "alice" = name := Option.some.inj hname
      decide +kernel
    | 1 => trivial
  exact ⟨(username_policy_kept sampleWebsiteEnv politeCall hcalls ⟨Db.empty, 0⟩ nofun
    (Prog.run_play StoresNoName politeTurns politeStart)).2, by decide +kernel⟩

/-- What the legacy instance knows: one identity, with a name of one letter. -/
def legacyAnswers : WebsiteAnswers where
  auth := sampleAnswers 3
  clock := 10
  challenge := some ⟨"nonce", 0, "origin", 20⟩
  findByProvenKey _ _ := .ok (some ⟨some "X", [⟨"btc", "L", none⟩]⟩)

/-- A wallet registers a reserved name, and a legacy wallet signs in. -/
def rudeCall : Fin 2 → WriterCall
  | 0 => .extension (sampleAnswers 2) (namedWallet "K" "admin")
  | 1 => .website legacyAnswers ⟨"btc", "L", "L"⟩

/-- The two requests, about to begin on an empty database. -/
def rudeStart : World × (Fin 2 → Handler Unit) :=
  (⟨Db.empty, 0⟩, fun i => (rudeCall i).handler sampleWebsiteEnv)

/-- The names after some turns. -/
def rudeNames (turns : List (Fin 2 × ℕ)) : List (Option String) :=
  (Prog.play turns rudeStart).1.db.users.rows.map UserRow.username

/-- Registration stores a reserved name; the legacy import stores a name of any form. -/
theorem username_policy_broken :
    ¬ (∀ (es : List (Prog.Event (Fin 2) World)) (c : World × (Fin 2 → Handler Unit)),
      (Prog.pool StoresNoName).Run rudeStart es c → UsernamesValid c.1.db) ∧
    rudeNames [(0, 8)] = [some "admin"] ∧ rudeNames [(1, 9)] = [some "x"] ∧
    Users.validateUsername "admin" = .error (.conflict "That username is not available") ∧
    Users.validateUsername "x" = .error (.validationError "Username must be 3-32 characters") := by
  have hnames : rudeNames [(0, 8)] = [some "admin"] := by decide +kernel
  have hreserved : Users.validateUsername "admin" =
      .error (.conflict "That username is not available") := by decide +kernel
  refine ⟨fun hclaim => ?_, hnames, by decide +kernel, hreserved, by decide +kernel⟩
  have hvalid := hclaim _ _ (Prog.run_play StoresNoName [(0, 8)] rudeStart)
  obtain ⟨r, hr, hname⟩ : ∃ r ∈ (Prog.play [(0, 8)] rudeStart).1.db.users.rows,
      r.username = some "admin" := by
    have hmem : some "admin" ∈ rudeNames [(0, 8)] := by simp [hnames]
    exact List.mem_map.mp hmem
  have hok := hvalid r hr "admin" hname
  rw [hreserved] at hok
  cases hok

end SmirkBackend
