import SmirkBackend.Auth.TokenConservation
import SmirkBackend.Auth.Writers

/-!
# The import of legacy users

`smirk-admin migrate-legacy` goes through the users of a legacy database and creates, in this one,
those it does not have yet.  A row is skipped if a key of it was seen before in the batch, or if the
target has its identity; a name or a Nostr key that cannot be used is left out.  The list of rows is
what the source answers; the flags of the command and its printed lines are not modelled.

What the import does depends on the target only by the values that are taken in the unique columns
of `users` (`Taken`), and `outcomes` computes it over these alone.  The counters of the summary are
natural numbers here and 32-bit words in the source, which a batch of fewer than `2 ^ 32` rows does
not tell apart.

`migrateLegacy_run` : the batch has the computed outcomes.
-/

namespace SmirkBackend

open Lib (Table Prog)

/-! ### The command -/

/-- A user of the legacy database. -/
structure LegacyUser where
  /-- Reserved name. -/
  username : Option String
  /-- Hash of the identity key. -/
  pubkeyHash : String
  /-- Linked Nostr key. -/
  nostrPubkey : Option String
  /-- Fingerprint of the seed. -/
  seedFingerprint : Option String
  /-- First use of the wallet. -/
  walletBirthday : Option Timestamp
  /-- Height the XMR wallet starts at. -/
  xmrStartHeight : Option Int64
  /-- Height the WOW wallet starts at. -/
  wowStartHeight : Option Int64

/-- What the command is run with. -/
structure MigrateEnv where
  /-- Keyed hash of the stored columns, under the server's pepper. -/
  pepper : Pepper
  /-- `str::to_lowercase`. -/
  lowercase : String → String

/-- The identifiers the target generates for one row. -/
structure RowIds where
  /-- Of the first attempt to create the user. -/
  first : Uuid
  /-- Of the second. -/
  retry : Uuid

/-- `ImportOutcome`. -/
inductive ImportOutcome
  /-- Created, or to be created; what was left out. -/
  | created (usernameDropped nostrDropped : Bool)
  /-- Already there. -/
  | skipped
  deriving DecidableEq

/-- The keys of a row are new in the batch, and the keys seen after it. -/
def claimKeys (seen : List String) (u : LegacyUser) : Bool × List String :=
  if "pk:" ++ u.pubkeyHash ∈ seen then (false, seen)
  else
    match u.seedFingerprint with
    | none => (true, ("pk:" ++ u.pubkeyHash) :: seen)
    | some fp =>
      -- the first key stays in the set when the second one was seen
      if "fp:" ++ fp ∈ ("pk:" ++ u.pubkeyHash) :: seen then
        (false, ("pk:" ++ u.pubkeyHash) :: seen)
      else (true, ("fp:" ++ fp) :: ("pk:" ++ u.pubkeyHash) :: seen)

namespace MigrateEnv

variable (env : MigrateEnv)

/-- A text without the blanks around it, in lower case; an empty one is none. -/
def normalized (text : Option String) : Option String :=
  (text.map fun s => env.lowercase (trim s)).filter fun s => s ≠ ""

/-- `identity_present`. -/
def identityPresent (u : LegacyUser) : Handler Bool := do
  let byKey ← select fun db => db.getUserByPubkeyHash env.pepper u.pubkeyHash
  if byKey.isSome then return true
  match u.seedFingerprint with
  | some fp =>
    let bySeed ← select fun db => db.getUserBySeedFingerprint env.pepper fp
    return bySeed.isSome
  | none => return false

/-- The name is reserved, malformed or taken. -/
def usernameTaken : Option String → Handler Bool
  | none => return false
  | some name =>
    match Users.validateUsername name with
    | .error _ => return true
    | .ok () => do
      let holder ← select fun db => db.getUserByUsername name
      return holder.isSome

/-- The Nostr key is linked to a user. -/
def nostrLinked : Option String → Handler Bool
  | none => return false
  | some npub => do
    let holder ← select fun db => db.findUserByNostrPubkey npub
    return holder.isSome

/-- The user to create for a row. -/
def newUser (u : LegacyUser) (username nostrPubkey : Option String) : NewUser where
  username := username
  pubkeyHash := some u.pubkeyHash
  nostrPubkey := nostrPubkey
  walletBirthday := u.walletBirthday
  seedFingerprint := u.seedFingerprint
  xmrStartHeight := u.xmrStartHeight
  wowStartHeight := u.wowStartHeight

/-- `create_user`; a violated constraint is looked into, and the user is created without the name
and the Nostr key if these may be the reason. -/
def createLegacy (ids : RowIds) (u : LegacyUser) (username nostrPubkey : Option String)
    (usernameDropped nostrDropped : Bool) : Handler ImportOutcome := do
  match ← (createUser env.pepper ids.first (newUser u username nostrPubkey)).held with
  | .ok _ => return .created usernameDropped nostrDropped
  | .error e =>
    if ← env.identityPresent u then return .skipped
    if username.isSome || nostrPubkey.isSome then
      let _ ← createUser env.pepper ids.retry (newUser u none none)
      return .created (usernameDropped || username.isSome) (nostrDropped || nostrPubkey.isSome)
    else .fail e

/-- `import_one`, for a row whose keys are new in the batch. -/
def importNew (commit : Bool) (ids : RowIds) (u : LegacyUser) : Handler ImportOutcome := do
  if ← env.identityPresent u then return .skipped
  let username := env.normalized u.username
  let usernameDropped ← usernameTaken username
  let nostrPubkey := env.normalized u.nostrPubkey
  let nostrDropped ← nostrLinked nostrPubkey
  if !commit then return .created usernameDropped nostrDropped
  env.createLegacy ids u (if usernameDropped then none else username)
    (if nostrDropped then none else nostrPubkey) usernameDropped nostrDropped

/-- `import_one`, with the keys seen after it. -/
def importOne (commit : Bool) (ids : RowIds) (seen : List String) (u : LegacyUser) :
    Handler ImportOutcome × List String :=
  (if (claimKeys seen u).1 then env.importNew commit ids u else .ret .skipped, (claimKeys seen u).2)

end MigrateEnv

/-- The counts of the summary. -/
structure Summary where
  /-- Imported, or to be imported. -/
  created : ℕ
  /-- Already present. -/
  skipped : ℕ
  /-- Imported without their name. -/
  usernameDropped : ℕ
  /-- Imported without their Nostr key. -/
  nostrDropped : ℕ
  /-- Failed. -/
  errors : ℕ
  deriving DecidableEq

/-- Nothing is counted yet. -/
def Summary.zero : Summary := ⟨0, 0, 0, 0, 0⟩

/-- Count what became of a row. -/
def Summary.add (s : Summary) : Except AppError ImportOutcome → Summary
  | .ok .skipped => { s with skipped := s.skipped + 1 }
  | .ok (.created usernameDropped nostrDropped) =>
    { s with
      created := s.created + 1
      usernameDropped := s.usernameDropped + usernameDropped.toNat
      nostrDropped := s.nostrDropped + nostrDropped.toNat }
  | .error _ => { s with errors := s.errors + 1 }

namespace MigrateEnv

variable (env : MigrateEnv)

/-- The loop over the rows: an error on one row does not stop it. -/
def importRows (commit : Bool) (ids : ℕ → RowIds) :
    ℕ → List String → Summary → List LegacyUser → Handler Summary
  | _, _, s, [] => return s
  | n, seen, s, u :: rest => do
    let outcome ← (env.importOne commit (ids n) seen u).1.held
    importRows commit ids (n + 1) (env.importOne commit (ids n) seen u).2 (s.add outcome) rest

/-- `migrate_legacy`, over the rows that the source answers. -/
def migrateLegacy (commit : Bool) (ids : ℕ → RowIds) (rows : List LegacyUser) : Handler Summary :=
  env.importRows commit ids 0 [] .zero rows

end MigrateEnv

/-! ### The values that are taken -/

/-- The values taken in the unique columns of `users`. -/
abbrev Taken := UniqueColumn → String → Bool

/-- The values taken in a database. -/
def World.taken (w : World) : Taken := fun c v => takenIn c v w

/-- The value a new user has in a unique column. -/
def NewUser.value (new : NewUser) (pepper : Pepper) (c : UniqueColumn) : Option String :=
  c.of (new.row pepper 0)

/-- The values taken once a user is created. -/
def Taken.insert (taken : Taken) (pepper : Pepper) (new : NewUser) : Taken :=
  fun c v => taken c v || new.value pepper c = some v

theorem NewUser.of_row (new : NewUser) (pepper : Pepper) (id : Uuid) (c : UniqueColumn) :
    c.of (new.row pepper id) = new.value pepper c := by
  cases c <;> rfl

namespace MigrateEnv

variable (env : MigrateEnv) (taken : Taken) (u : LegacyUser)

/-- The identity of a row is there. -/
def present : Bool :=
  taken .pubkeyHash (env.pepper "pubkey_hash" u.pubkeyHash) ||
    u.seedFingerprint.any fun fp => taken .seedFingerprint (env.pepper "seed_fingerprint" fp)

/-- The name of a row cannot be used. -/
def dropsUsername : Bool :=
  (env.normalized u.username).any fun name =>
    !(Users.validateUsername name).isOk || taken .username name

/-- The Nostr key of a row cannot be used. -/
def dropsNostr : Bool := (env.normalized u.nostrPubkey).any fun npub => taken .nostrPubkey npub

/-- The user to create for a row. -/
def planned : NewUser :=
  newUser u (if env.dropsUsername taken u then none else env.normalized u.username)
    (if env.dropsNostr taken u then none else env.normalized u.nostrPubkey)

/-- What becomes of a row whose keys are new in the batch. -/
def outcomeOn : ImportOutcome :=
  if env.present taken u then .skipped
  else .created (env.dropsUsername taken u) (env.dropsNostr taken u)

/-- The values taken after such a row. -/
def takenAfter (commit : Bool) : Taken :=
  if commit && !env.present taken u then taken.insert env.pepper (env.planned taken u) else taken

/-- What becomes of each row of a batch, and the values taken after it. -/
def outcomes (commit : Bool) : Taken → List String → List LegacyUser → List ImportOutcome × Taken
  | taken, _, [] => ([], taken)
  | taken, seen, u :: rest =>
    if (claimKeys seen u).1 then
      let later := outcomes commit (env.takenAfter taken u commit) (claimKeys seen u).2 rest
      (env.outcomeOn taken u :: later.1, later.2)
    else
      let later := outcomes commit taken (claimKeys seen u).2 rest
      (.skipped :: later.1, later.2)

end MigrateEnv

/-! ### The command computes these outcomes -/

theorem run_select {α : Type} (f : Db → α) (w : World) : (select f).run w = (.ok (f w.db), w) := rfl

namespace MigrateEnv

variable {env : MigrateEnv} {w : World} {u : LegacyUser} {ids : RowIds}

theorem identityPresent_run : (env.identityPresent u).run w = (.ok (env.present w.taken u), w) := by
  have hkey : (w.db.getUserByPubkeyHash env.pepper u.pubkeyHash).isSome =
      w.taken .pubkeyHash (env.pepper "pubkey_hash" u.pubkeyHash) := List.isSome_find?
  have hseed (fp : String) : (w.db.getUserBySeedFingerprint env.pepper fp).isSome =
      w.taken .seedFingerprint (env.pepper "seed_fingerprint" fp) := List.isSome_find?
  simp only [identityPresent, Prog.run_bind, run_select, hkey, present]
  cases w.taken .pubkeyHash (env.pepper "pubkey_hash" u.pubkeyHash) with
  | true => rfl
  | false =>
    cases u.seedFingerprint with
    | none => rfl
    | some fp => simp [Prog.run_bind, run_select, hseed]

theorem usernameTaken_run :
    (usernameTaken (env.normalized u.username)).run w = (.ok (env.dropsUsername w.taken u), w) := by
  unfold dropsUsername
  cases env.normalized u.username with
  | none => rfl
  | some name =>
    have hname : (w.db.getUserByUsername name).isSome = w.taken .username name := List.isSome_find?
    cases hvalid : Users.validateUsername name with
    | error e => simp [usernameTaken, hvalid, Except.isOk, Except.toBool]
    | ok _ =>
      simp [usernameTaken, hvalid, Except.isOk, Except.toBool, Prog.run_bind, run_select, hname]

theorem nostrLinked_run :
    (nostrLinked (env.normalized u.nostrPubkey)).run w = (.ok (env.dropsNostr w.taken u), w) := by
  unfold dropsNostr
  cases env.normalized u.nostrPubkey with
  | none => rfl
  | some npub =>
    have hnpub : (w.db.findUserByNostrPubkey npub).isSome = w.taken .nostrPubkey npub :=
      List.isSome_find?
    simp [nostrLinked, Prog.run_bind, run_select, hnpub]

/-- The user to create has no value that is taken. -/
theorem planned_free {taken : Taken} (hnot : env.present taken u = false) {c : UniqueColumn}
    {v : String} (hv : (env.planned taken u).value env.pepper c = some v) :
    taken c v = false := by
  obtain ⟨hkey, hseed⟩ := Bool.or_eq_false_iff.mp hnot
  cases c with
  | username =>
    have hname : (if env.dropsUsername taken u then none else env.normalized u.username) = some v :=
      hv
    split_ifs at hname with hdrop
    have hboth : (Users.validateUsername v).isOk ∧ taken .username v = false := by
      simpa [dropsUsername, hname] using hdrop
    exact hboth.2
  | pubkeyHash =>
    obtain rfl : env.pepper "pubkey_hash" u.pubkeyHash = v := Option.some.inj hv
    exact hkey
  | nostrPubkey =>
    have hnpub : (if env.dropsNostr taken u then none else env.normalized u.nostrPubkey) = some v :=
      hv
    split_ifs at hnpub with hdrop
    simpa [dropsNostr, hnpub] using hdrop
  | seedFingerprint =>
    obtain ⟨fp, hfp, rfl⟩ : ∃ fp, u.seedFingerprint = some fp ∧
        env.pepper "seed_fingerprint" fp = v := Option.map_eq_some_iff.mp hv
    simpa [hfp] using hseed

/-- Under a new identifier, a user whose values are free is created. -/
theorem createLegacy_run {username nostrPubkey : Option String} (ud nd : Bool)
    (hnew : w.db.users.get? ids.first = none)
    (hfree : ∀ c v, (newUser u username nostrPubkey).value env.pepper c = some v →
      w.taken c v = false) :
    ∃ w', (env.createLegacy ids u username nostrPubkey ud nd).run w = (.ok (.created ud nd), w') ∧
      w'.taken = w.taken.insert env.pepper (newUser u username nostrPubkey) ∧
      ∀ id, id ≠ ids.first → w'.db.users.get? id = w.db.users.get? id := by
  let new := newUser u username nostrPubkey
  have hid : w.db.users.get? (new.row env.pepper ids.first).id = none := hnew
  obtain ⟨users, hins⟩ := Table.exists_insert? (r := new.row env.pepper ids.first) hid
  have hcol : collision w.db.users.rows (new.row env.pepper ids.first) = none := by
    rw [collision_eq_none_iff]
    intro c
    rw [heldByOther_of_fresh hid, NewUser.of_row]
    cases hv : new.value env.pepper c with
    | none => rfl
    | some v => exact hfree c v hv
  have hok := insertUser_eq_ok_iff.mpr ⟨hcol, users, hins, rfl⟩
  refine ⟨{ w with db := { w.db with users := users } }, ?_, ?_, ?_⟩
  · simp only [createLegacy, Prog.run_bind, Prog.run_held, createUser, execute, Prog.run_query]
    rw [hok]
    rfl
  · funext c v
    exact (takenIn_insert hins c v).trans (by rw [NewUser.of_row]; rfl)
  · intro id hne
    change users.get? id = w.db.users.get? id
    rw [Table.get?_insert? hins]
    exact if_neg hne

theorem importNew_run (env : MigrateEnv) (commit : Bool) (ids : RowIds) (u : LegacyUser)
    (hnew : commit → w.db.users.get? ids.first = none) :
    ∃ w', (env.importNew commit ids u).run w = (.ok (env.outcomeOn w.taken u), w') ∧
      w'.taken = env.takenAfter w.taken u commit ∧
      (commit = false → w' = w) ∧
      ∀ id, id ≠ ids.first → w'.db.users.get? id = w.db.users.get? id := by
  simp only [importNew, Prog.run_bind, identityPresent_run, outcomeOn, takenAfter]
  cases hpresent : env.present w.taken u with
  | true => exact ⟨w, rfl, by simp, fun _ => rfl, fun _ _ => rfl⟩
  | false =>
    simp only [Bool.false_eq_true, if_false, Prog.run_bind, usernameTaken_run, nostrLinked_run]
    cases commit with
    | false => exact ⟨w, rfl, by simp, fun _ => rfl, fun _ _ => rfl⟩
    | true =>
      obtain ⟨w', hrun, htaken, hrest⟩ := createLegacy_run (env.dropsUsername w.taken u)
        (env.dropsNostr w.taken u) (hnew rfl) fun c v hv => planned_free hpresent hv
      exact ⟨w', hrun, by simpa [planned] using htaken, by simp, hrest⟩

/-- The identifiers generated for the rows from the `n`-th to before the `m`-th are new. -/
structure NewIds (ids : ℕ → RowIds) (n m : ℕ) (w : World) : Prop where
  /-- No user has one of them. -/
  unused : ∀ i, n ≤ i → i < m → w.db.users.get? (ids i).first = none
  /-- They differ from each other. -/
  distinct : ∀ i j, n ≤ i → i < j → j < m → (ids i).first ≠ (ids j).first

theorem NewIds.next {ids : ℕ → RowIds} {n m : ℕ} {w w' : World} (h : NewIds ids n m w)
    (hrest : ∀ id, id ≠ (ids n).first → w'.db.users.get? id = w.db.users.get? id) :
    NewIds ids (n + 1) m w' where
  unused i hi hm := by
    have hne : (ids n).first ≠ (ids i).first := h.distinct n i (by omega) (by omega) hm
    rw [hrest _ hne.symm]
    exact h.unused i (by omega) hm
  distinct i j hi := h.distinct i j (by omega)

end MigrateEnv

/-- Count what became of some rows. -/
def Summary.addAll (s : Summary) (os : List ImportOutcome) : Summary :=
  os.foldl (fun s o => s.add (.ok o)) s

namespace MigrateEnv

variable {env : MigrateEnv} {commit : Bool} {ids : ℕ → RowIds}

/-- A batch, from any row on: its outcomes, and the values taken after it. -/
theorem importRows_run (rows : List LegacyUser) {n m : ℕ} (seen : List String) {s : Summary}
    {w : World} (hm : n + rows.length ≤ m) (hids : commit → NewIds ids n m w) :
    ∃ w', (env.importRows commit ids n seen s rows).run w =
        (.ok (s.addAll (env.outcomes commit w.taken seen rows).1), w') ∧
      w'.taken = (env.outcomes commit w.taken seen rows).2 ∧ (commit = false → w' = w) := by
  induction rows generalizing n seen s w with
  | nil => exact ⟨w, rfl, rfl, fun _ => rfl⟩
  | cons u rest ih =>
    rw [List.length_cons] at hm
    simp only [importRows, importOne, Prog.run_bind, Prog.run_held, outcomes]
    cases (claimKeys seen u).1 with
    | false =>
      simp only [Bool.false_eq_true, if_false, Prog.run_ret]
      exact ih _ (by omega) fun hcommit => (hids hcommit).next fun _ _ => rfl
    | true =>
      simp only [if_true]
      obtain ⟨w₁, hrun, htaken, hsame, hrest⟩ := importNew_run env commit (ids n) u
        fun hcommit => (hids hcommit).unused n (by omega) (by omega)
      obtain ⟨w', hruns, htaken', hsame'⟩ := ih (claimKeys seen u).2
        (n := n + 1) (s := s.add (.ok (env.outcomeOn w.taken u))) (w := w₁) (by omega)
        fun hcommit => (hids hcommit).next hrest
      rw [hrun]
      rw [htaken] at hruns htaken'
      exact ⟨w', hruns, htaken', fun hc => (hsame' hc).trans (hsame hc)⟩

/-- **A batch computes its outcomes**, and a dry run changes nothing. -/
theorem migrateLegacy_run (env : MigrateEnv) (commit : Bool) (ids : ℕ → RowIds)
    (rows : List LegacyUser) {w : World} (hids : commit → NewIds ids 0 rows.length w) :
    ∃ w', (env.migrateLegacy commit ids rows).run w =
        (.ok (Summary.zero.addAll (env.outcomes commit w.taken [] rows).1), w') ∧
      w'.taken = (env.outcomes commit w.taken [] rows).2 ∧ (commit = false → w' = w) :=
  importRows_run rows [] (by omega) hids

/-- The rows of a batch whose keys are new in it. -/
def batch : List String → List LegacyUser → List LegacyUser
  | _, [] => []
  | seen, u :: rest =>
    if (claimKeys seen u).1 then u :: batch (claimKeys seen u).2 rest
    else batch (claimKeys seen u).2 rest

/-- A batch whose rows are there creates nothing, whatever identifiers are generated. -/
theorem importRows_present {rows : List LegacyUser} {n : ℕ} {seen : List String} {s : Summary}
    {w : World} (h : ∀ u ∈ batch seen rows, env.present w.taken u) :
    (env.importRows commit ids n seen s rows).run w =
      (.ok { s with skipped := s.skipped + rows.length }, w) := by
  induction rows generalizing n seen s with
  | nil => rfl
  | cons u rest ih =>
    simp only [batch] at h
    simp only [importRows, importOne, Prog.run_bind, Prog.run_held]
    have hnext (s' : Summary) (hs' : s' = { s with skipped := s.skipped + 1 })
        (hrest : ∀ u' ∈ batch (claimKeys seen u).2 rest, env.present w.taken u') :
        (env.importRows commit ids (n + 1) (claimKeys seen u).2 s' rest).run w =
          (.ok { s with skipped := s.skipped + (u :: rest).length }, w) := by
      rw [ih hrest, hs', List.length_cons, Nat.add_assoc, Nat.add_comm 1]
    cases hkeys : (claimKeys seen u).1 with
    | false =>
      rw [hkeys, if_neg Bool.false_ne_true] at h
      exact hnext _ rfl h
    | true =>
      rw [hkeys, if_pos rfl] at h
      have hskip : (env.importNew commit (ids n) u).run w = (.ok .skipped, w) := by
        simp only [importNew, Prog.run_bind, identityPresent_run, h u List.mem_cons_self]
        rfl
      simp only [if_true, hskip]
      exact hnext _ rfl fun u' hu' => h u' (List.mem_cons_of_mem u hu')

end MigrateEnv

end SmirkBackend
