import SmirkBackend.Auth.KeyTypes
import SmirkBackend.Auth.LegacyImport

/-!
# A legacy identity is imported once

Calls that prove keys of one legacy identity run together, each with any faults.  The import looks
for the key, creates the user and stores the keys in separate statements, so calls that overlap
both create a user, and a call that fails halfway leaves a user without keys behind, which the next
call does not find.  Calls that do neither create one user in all, and it holds the proven key.

`imported_once` proves this over every interleaving (`SafeImports` is what the calls that create a
user must avoid), and `imported_twice` is a run of two that overlap.
-/

namespace SmirkBackend

open Lib (Table Prog)

variable {ι : Type} [DecidableEq ι] {identity : LegacyIdentity}

/-! ### Runs -/

/-- Besides the calls, only the clock moves. -/
def OnlyClock (w w' : World) : Prop := w'.db = w.db

/-- The calls before any of them has begun. -/
def importPool (env : WebsiteEnv) (calls : ι → LegacyCall identity) (w₀ : World) :
    World × (ι → Handler AuthResponse) := (w₀, fun i => (calls i).program env)

/-- In the run, the call creates a user. -/
def Imports (i : ι) (es : List (Prog.Event ι World)) : Prop :=
  ∃ e ∈ es, e.who = some i ∧ CreatesUser e.pre e.post

/-- The call has returned. -/
def Returned (c : World × (ι → Handler AuthResponse)) (i : ι) : Prop := ∃ r, c.2 i = .ofExcept r

/-- In the run, `i` returned before `j` began. -/
def ReturnedBefore (start : World × (ι → Handler AuthResponse)) (es : List (Prog.Event ι World))
    (c : World × (ι → Handler AuthResponse)) (i j : ι) : Prop :=
  ∃ es₁ es₂ c₁, es = es₁ ++ es₂ ∧ (Prog.pool OnlyClock).Run start es₁ c₁ ∧
    (Prog.pool OnlyClock).Run c₁ es₂ c ∧ Returned c₁ i ∧ Prog.eventsOf j es₁ = []

/-- What the calls that create a user must avoid. -/
structure SafeImports (env : WebsiteEnv) (calls : ι → LegacyCall identity) (w₀ : World)
    (es : List (Prog.Event ι World)) (c : World × (ι → Handler AuthResponse)) : Prop where
  /-- Nothing fails between the creation of the user and the answer. -/
  undisturbed : ∀ i, Imports i es → (calls i).Undisturbed w₀.db
  /-- The identifiers of sessions are generated. -/
  ownSession : ∀ i j, Imports i es → j ≠ i → (calls j).sessionId ≠ (calls i).sessionId
  /-- They do not overlap. -/
  apart : ∀ i j, i ≠ j → Imports i es → Imports j es →
    ReturnedBefore (importPool env calls w₀) es c i j ∨
      ReturnedBefore (importPool env calls w₀) es c j i
  /-- The proven key is the one that the import ends with: the last key of its asset that counts as
  primary and that nobody holds. -/
  kept : ∀ i, Imports i es →
    importedKey w₀.db (calls i).asset identity.keys = some (calls i).req.publicKey

/-- The identity is imported once. -/
structure ImportedOnce (calls : ι → LegacyCall identity) (w₀ : World)
    (es : List (Prog.Event ι World)) (c : World × (ι → Handler AuthResponse)) : Prop where
  /-- At most one user is created. -/
  once : ∃ rows, c.1.db.users.rows = w₀.db.users.rows ++ rows ∧ rows.length ≤ 1
  /-- It ends up holding the proven key. -/
  holds : ∀ i resp, Imports i es → c.2 i = .ret resp →
    c.1.db.primary (calls i).userId (calls i).asset = some (calls i).req.publicKey
  /-- A call that fails leaves none behind. -/
  clean : ∀ i e, c.2 i = .fail e → ¬ Imports i es

section Run

variable {env : WebsiteEnv} {calls : ι → LegacyCall identity} {w₀ : World}
  {es : List (Prog.Event ι World)} {c : World × (ι → Handler AuthResponse)}

theorem eventsOf_of_returned {c₁ : World × (ι → Handler AuthResponse)} {i : ι}
    (h : (Prog.pool OnlyClock).Run c₁ es c) (hi : Returned c₁ i) : Prog.eventsOf i es = [] := by
  obtain ⟨t, r, hrest⟩ := Prog.exists_path c.1 (c.2 i)
  have hpath := Prog.path_of_run h i hrest
  obtain ⟨r', hr'⟩ := hi
  rw [hr'] at hpath
  exact (List.append_eq_nil_iff.mp (Prog.path_ofExcept hpath).1).1

theorem leavesUsers_of_run (h : (Prog.pool OnlyClock).Run (importPool env calls w₀) es c) {i : ι}
    (hi : ¬ Imports i es) : ∀ e ∈ es, e.who = some i → LeavesUsers (calls i).sessionId e.pre e.post :=
  Prog.stepsUntil_of_run (LeavesUsers.refl _) h
    ((stepsUntil_websiteVerify env (calls i).answers (calls i).req).scripted (LeavesUsers.refl _) 0)
    fun e he hwho hcreates => hi ⟨e, he, hwho, hcreates⟩

theorem events_of_run (h : (Prog.pool OnlyClock).Run (importPool env calls w₀) es c) :
    ∀ e ∈ es, (e.who = none → OnlyClock e.pre e.post) ∧ AddsUsers e.pre e.post := by
  intro e he
  obtain ⟨hclock, hcall⟩ := Prog.event_of_run (R := fun _ => AddsUsers) (fun _ _ => .inl rfl) h
    (fun i => (addsUsers_websiteVerify env (calls i).answers (calls i).req).scripted
      (fun _ => .inl rfl) 0) e he
  refine ⟨hclock, ?_⟩
  cases hwho : e.who with
  | none => exact .inl (congrArg Db.users (hclock hwho))
  | some i => exact hcall i hwho

theorem users_of_run {c₀ : World × (ι → Handler AuthResponse)}
    (h : (Prog.pool OnlyClock).Run c₀ es c) (hadds : ∀ e ∈ es, AddsUsers e.pre e.post) :
    ∃ rows, c.1.db.users.rows = c₀.1.db.users.rows ++ rows ∧
      rows.length = es.countP fun e => isCreation (e.pre, e.post) := by
  induction h with
  | nil c => exact ⟨[], by simp, rfl⟩
  | @cons c₁ c₂ c e es hstep _ ih =>
    obtain ⟨hadd, hadds⟩ := List.forall_mem_cons.mp hadds
    obtain ⟨rows, hrows, hlength⟩ := ih hadds
    obtain ⟨hpre, hpost, -⟩ := hstep
    rw [hpost] at hrows
    rw [hpre]
    rcases hadd with hsame | ⟨row, hrow⟩
    · refine ⟨rows, by rw [hrows, hsame], ?_⟩
      rw [List.countP_cons_of_neg (by simp [isCreation, hsame]), hlength]
    · refine ⟨row :: rows, by rw [hrows, hrow]; simp, ?_⟩
      rw [List.countP_cons_of_pos (by simp [isCreation, hrow]), List.length_cons, hlength]

theorem view_of_run (h : (Prog.pool OnlyClock).Run (importPool env calls w₀) es c) {i : ι}
    (hothers : ∀ j, j ≠ i → ¬ Imports j es)
    (hsession : ∀ j, j ≠ i → (calls j).sessionId ≠ (calls i).sessionId) :
    ∀ e ∈ es, e.who ≠ some i →
      e.post.importView (calls i).sessionId = e.pre.importView (calls i).sessionId := by
  intro e he hwho
  cases hw : e.who with
  | none =>
    have hclock : e.post.db = e.pre.db := (events_of_run h e he).1 hw
    simp only [World.importView, hclock]
  | some j =>
    have hj : j ≠ i := fun heq => hwho (hw.trans (congrArg some heq))
    exact (leavesUsers_of_run h (hothers j hj) e he hw).importView (hsession j hj).symm

/-- A run with one import, which has returned. -/
theorem solo_import (h : (Prog.pool OnlyClock).Run (importPool env calls w₀) es c) {i : ι}
    {r : Except AppError AuthResponse}
    (hexist : ∀ u asset, (w₀.db.primary u asset).isSome → (w₀.db.users.get? u).isSome)
    (hcall : (calls i).Undisturbed w₀.db) (hi : Imports i es)
    (hothers : ∀ j, j ≠ i → ¬ Imports j es)
    (hsession : ∀ j, j ≠ i → (calls j).sessionId ≠ (calls i).sessionId)
    (hr : c.2 i = .ofExcept r) :
    (∃ resp, r = .ok resp) ∧ (c.1.db.users.get? (calls i).userId).isSome ∧
      ∀ asset, c.1.db.primary (calls i).userId asset = importedKey w₀.db asset identity.keys := by
  have hpath : ((calls i).program env).Path (Prog.eventsOf i es) r := by
    have hend : (c.2 i).Path [] r := by
      rw [hr]
      cases r with
      | ok resp => exact .ret resp
      | error e => exact .fail e
    have hrun := Prog.path_of_run h i hend
    rwa [List.append_nil] at hrun
  obtain ⟨w', hout, hview⟩ := Prog.outcome_of_path
    ((respects_websiteVerify env (calls i).answers (calls i).req).scripted 0) hpath
    (Prog.chainedOn_of_run h (view_of_run h hothers hsession))
  have husers : w'.db.users = c.1.db.users := congrArg ImportView.users hview
  have hkeys : w'.db.userKeys = c.1.db.userKeys := congrArg ImportView.userKeys hview
  -- some event of the run created a user
  have hcreates : w'.db.users ≠ w₀.db.users := by
    obtain ⟨rows, hrows, hlength⟩ := users_of_run h fun e he => (events_of_run h e he).2
    obtain ⟨e, he, -, hcreates⟩ := hi
    have hpos : 0 < es.countP fun e => isCreation (e.pre, e.post) :=
      List.countP_pos_iff.mpr ⟨e, he, isCreation_eq_true.mpr hcreates⟩
    intro hsame
    rw [← husers, hsame] at hrows
    have hnil := List.self_eq_append_right.mp hrows
    simp [hnil] at hlength
    omega
  obtain ⟨hok, hthere, hprimary⟩ := verify_outcome hexist hcall hout hcreates
  refine ⟨hok, husers ▸ hthere, fun asset => ?_⟩
  rw [← hprimary asset]
  simp only [Db.primary, Db.getUserKey, hkeys]

theorem not_createsUser_of_clock {w w' : World} (h : OnlyClock w w') : ¬ CreatesUser w w' := by
  rw [OnlyClock] at h
  simp [CreatesUser, h]

theorem imports_of_creates (h : (Prog.pool OnlyClock).Run (importPool env calls w₀) es c)
    {e : Prog.Event ι World} (he : e ∈ es) (hcreates : CreatesUser e.pre e.post) :
    ∃ i, e.who = some i := by
  cases hwho : e.who with
  | some i => exact ⟨i, rfl⟩
  | none => exact (not_createsUser_of_clock ((events_of_run h e he).1 hwho) hcreates).elim

theorem count_imports (h : (Prog.pool OnlyClock).Run (importPool env calls w₀) es c) {i : ι}
    (honly : ∀ j, Imports j es → j = i) :
    (es.countP fun e => isCreation (e.pre, e.post)) ≤ 1 := by
  have hcall : ((calls i).program env).AtMost isCreation 1 := fun t r ht =>
    atMost_websiteVerify env (calls i).answers (calls i).req t r (Prog.path_of_scripted ht)
  refine le_of_eq_of_le (List.countP_congr fun e he => ?_)
    (Prog.countP_of_run (b := isCreation) h (i := i) hcall)
  simp only [Bool.and_eq_true, decide_eq_true_eq]
  refine ⟨fun hcreates => ⟨?_, hcreates⟩, And.right⟩
  have hcreates := isCreation_eq_true.mp hcreates
  obtain ⟨j, hj⟩ := imports_of_creates h he hcreates
  exact honly j ⟨e, he, hj, hcreates⟩ ▸ hj

omit [DecidableEq ι] in
theorem Imports.mono {es' : List (Prog.Event ι World)} {i : ι} (h : Imports i es)
    (hsub : ∀ e ∈ es, e ∈ es') : Imports i es' := by
  obtain ⟨e, he, hcreates⟩ := h
  exact ⟨e, hsub e he, hcreates⟩

/-- Where two calls import, one does before the other, and no third in between. -/
theorem second_import (h : (Prog.pool OnlyClock).Run (importPool env calls w₀) es c) {i j : ι}
    (hi : Imports i es) (hj : Imports j es) (hij : i ≠ j) :
    ∃ first second es₁ e es₂, first ≠ second ∧ es = es₁ ++ e :: es₂ ∧ e.who = some second ∧
      CreatesUser e.pre e.post ∧ Imports first es₁ ∧ ∀ k, k ≠ first → ¬ Imports k es₁ := by
  obtain ⟨e, he, -, hcreates⟩ := id hi
  obtain ⟨a, e₁, b, hes₁, hcreates₁, hbefore₁⟩ :=
    Lib.split_earliest (p := fun e => CreatesUser e.pre e.post) ⟨e, he, hcreates⟩
  obtain ⟨first, hfirst⟩ := imports_of_creates h (hes₁ ▸ by simp) hcreates₁
  -- one of the two is not the first
  have hother : ∃ e ∈ es, CreatesUser e.pre e.post ∧ e.who ≠ some first := by
    have hlater {k : ι} (hk : Imports k es) (hne : k ≠ first) :
        ∃ e ∈ es, CreatesUser e.pre e.post ∧ e.who ≠ some first := by
      obtain ⟨e', he', hwho', hcreates'⟩ := hk
      exact ⟨e', he', hcreates', fun heq => hne (Option.some.inj (hwho'.symm.trans heq))⟩
    by_cases heq : i = first
    · exact hlater hj fun h => hij (heq.trans h.symm)
    · exact hlater hi heq
  obtain ⟨es₁, e₂, es₂, hes₂, ⟨hcreates₂, hnot⟩, hbefore₂⟩ := Lib.split_earliest hother
  obtain ⟨second, hsecond⟩ := imports_of_creates h (hes₂ ▸ by simp) hcreates₂
  refine ⟨first, second, es₁, e₂, es₂, fun heq => hnot (heq ▸ hsecond), hes₂, hsecond, hcreates₂,
    ?_, ?_⟩
  · rcases Lib.split_append (hes₁.symm.trans (hes₂.trans (by simp) : es = es₁ ++ ([e₂] ++ es₂))) with
      ⟨l, hl, -⟩ | ⟨l, hl, hrest⟩
    · exact ⟨e₁, by simp [hl], hfirst, hcreates₁⟩
    · cases l with
      | nil =>
        obtain ⟨rfl, -⟩ := List.cons.inj hrest
        exact (hnot hfirst).elim
      | cons y l =>
        obtain ⟨rfl, -⟩ := List.cons.inj hrest
        exact (hbefore₁ _ (by simp [hl]) hcreates₂).elim
  · rintro k hk ⟨e', he', hwho', hcreates'⟩
    exact hbefore₂ e' he' ⟨hcreates', fun heq => hk (Option.some.inj (hwho'.symm.trans heq))⟩

theorem looked_up (h : (Prog.pool OnlyClock).Run (importPool env calls w₀) es c) {i : ι}
    {es₁ es₂ : List (Prog.Event ι World)} {e : Prog.Event ι World} (hes : es = es₁ ++ e :: es₂)
    (hwho : e.who = some i) (hcreates : CreatesUser e.pre e.post) :
    ∃ y ∈ Prog.eventsOf i es₁,
      y.1.db.getUserByAssetPubkey (calls i).asset (calls i).req.publicKey = none := by
  obtain ⟨t, r, hrest⟩ := Prog.exists_path c.1 (c.2 i)
  have hpath : ((calls i).program env).Path _ r := Prog.path_of_run h i hrest
  rw [hes, Prog.eventsOf_append, Prog.eventsOf_cons_self hwho, List.append_assoc] at hpath
  obtain ⟨y, t', ht', hlookup⟩ := path_creation (calls i).parsed (Prog.path_of_scripted hpath)
    (isCreation_eq_true.mpr hcreates)
  exact ⟨y, by simp [ht'], hlookup⟩

/-- **One import in all.** -/
theorem only_import (h : (Prog.pool OnlyClock).Run (importPool env calls w₀) es c)
    (hexist : ∀ u asset, (w₀.db.primary u asset).isSome → (w₀.db.users.get? u).isSome)
    (hsafe : SafeImports env calls w₀ es c) {i j : ι} (hi : Imports i es) (hj : Imports j es) :
    i = j := by
  by_contra hij
  obtain ⟨first, second, es₁, e, es₂, hne, hes, hwho, hcreates, hfirst, honly⟩ :=
    second_import h hi hj hij
  have hmem : Imports first es := hfirst.mono fun e' he' => by simp [hes, he']
  have hsecond : Imports second es := ⟨e, by simp [hes], hwho, hcreates⟩
  rcases hsafe.apart first second hne hmem hsecond with
    ⟨f₁, f₂, c₁, hsplit, hrun₁, hrun₂, hreturned, hnone⟩ |
      ⟨f₁, f₂, c₁, hsplit, hrun₁, hrun₂, hreturned, hnone⟩
  · -- the first returned before the second began: the second finds its key
    rcases Lib.split_append (hes.symm.trans hsplit) with ⟨l, hl, -⟩ | ⟨g, rfl, rfl⟩
    · have hmem : (e.pre, e.post) ∈ Prog.eventsOf second f₁ :=
        Prog.mem_eventsOf.mpr ⟨e, by simp [hl], hwho, rfl⟩
      simp [hnone] at hmem
    have hsession : ∀ k, k ≠ first → (calls k).sessionId ≠ (calls first).sessionId :=
      fun k hk => hsafe.ownSession first k hmem hk
    obtain ⟨c₂, -, hrun, -, -, -⟩ := Prog.run_at hrun₂
    have hidle : ∀ e' ∈ g, e'.who ≠ some first := by
      intro e' he' hwho'
      have hmem : (e'.pre, e'.post) ∈ Prog.eventsOf first g :=
        Prog.mem_eventsOf.mpr ⟨e', he', hwho', rfl⟩
      simp [eventsOf_of_returned hrun hreturned] at hmem
    have himport : Imports first f₁ := by
      obtain ⟨e', he', hwho', hcreates'⟩ := hfirst
      rcases List.mem_append.mp he' with he' | he'
      · exact ⟨e', he', hwho', hcreates'⟩
      · exact (hidle e' he' hwho').elim
    obtain ⟨r, hr⟩ := hreturned
    obtain ⟨-, hthere, hprimary⟩ := solo_import hrun₁ hexist (hsafe.undisturbed first hmem)
      himport (fun k hk hk' => honly k hk (hk'.mono fun _ he' => List.mem_append_left _ he'))
      hsession hr
    -- until the second creates its user, users and keys stay as the first left them
    have hsame := view_of_run (hrun₁.trans hrun) honly hsession
    have hview : ∀ e' ∈ g, e'.pre.importView (calls first).sessionId =
        c₁.1.importView (calls first).sessionId :=
      (Prog.invariant_of_run (I := fun w => w.importView (calls first).sessionId =
        c₁.1.importView (calls first).sessionId) hrun
        (fun es' e' es'' heq _ hpre => (hsame e' (by simp [heq]) (hidle e' (by simp [heq]))).trans
          hpre) rfl).1
    obtain ⟨y, hy, hlookup⟩ := looked_up h hes hwho hcreates
    rw [Prog.eventsOf_append, hnone, List.nil_append] at hy
    obtain ⟨e', he', -, rfl⟩ := Prog.mem_eventsOf.mp hy
    have husers : e'.pre.db.users = c₁.1.db.users := congrArg ImportView.users (hview e' he')
    have hkeys : e'.pre.db.userKeys = c₁.1.db.userKeys :=
      congrArg ImportView.userKeys (hview e' he')
    refine getUserByAssetPubkey_eq_none hlookup (u := (calls first).userId) ?_ ?_
    · rw [husers]
      exact hthere
    · rw [← hsafe.kept second hsecond, ← hprimary]
      simp only [Db.primary, Db.getUserKey, hkeys]
  · -- the second returned before the first began, but its event comes later
    rcases Lib.split_append (hes.symm.trans hsplit) with ⟨l, hl, -⟩ | ⟨l, -, rfl⟩
    · obtain ⟨e', he', hwho', -⟩ := hfirst
      have hmem : (e'.pre, e'.post) ∈ Prog.eventsOf first f₁ :=
        Prog.mem_eventsOf.mpr ⟨e', by simp [hl, he'], hwho', rfl⟩
      simp [hnone] at hmem
    · have hmem : (e.pre, e.post) ∈ Prog.eventsOf second (l ++ e :: es₂) :=
        Prog.mem_eventsOf.mpr ⟨e, by simp, hwho, rfl⟩
      simp [eventsOf_of_returned hrun₂ hreturned] at hmem

/-- **A legacy identity is imported once**: in every run of calls that prove its keys, if the calls
that create a user are not disturbed after that, do not overlap, and prove the keys that the import
ends with, then one user is created in all, it holds the proven key, and a call that fails leaves
none behind. -/
theorem imported_once (h : (Prog.pool OnlyClock).Run (importPool env calls w₀) es c)
    (hschema : w₀.db.SchemaOk) (hsafe : SafeImports env calls w₀ es c) :
    ImportedOnce calls w₀ es c := by
  have hexist : ∀ u asset, (w₀.db.primary u asset).isSome → (w₀.db.users.get? u).isSome := by
    intro u asset hkey
    obtain ⟨k, hk⟩ := Option.isSome_iff_exists.mp hkey
    obtain ⟨row, hrow, -⟩ := Option.map_eq_some_iff.mp hk
    have howner := hschema.owned.2.1 row (Table.mem_of_get? hrow)
    have hid : row.userId = u := congrArg Prod.fst (Table.key_of_get? hrow)
    rw [← hid]
    exact howner
  have hsolo {i : ι} {r : Except AppError AuthResponse} (hi : Imports i es)
      (hr : c.2 i = .ofExcept r) := solo_import h hexist (hsafe.undisturbed i hi) hi
        (fun j hj hj' => hj (only_import h hexist hsafe hj' hi))
        (fun j hj => hsafe.ownSession i j hi hj) hr
  refine ⟨?_, fun i resp hi hr => ?_, fun i e hr hi => ?_⟩
  · obtain ⟨rows, hrows, hlength⟩ := users_of_run h fun e he => (events_of_run h e he).2
    refine ⟨rows, hrows, hlength ▸ ?_⟩
    by_cases hnone : ∃ i, Imports i es
    · obtain ⟨i, hi⟩ := hnone
      exact count_imports h fun j hj => only_import h hexist hsafe hj hi
    · rw [List.countP_eq_zero.mpr fun e he hcreates => ?_]
      · exact Nat.zero_le 1
      · obtain ⟨j, hj⟩ := imports_of_creates h he (isCreation_eq_true.mp hcreates)
        exact hnone ⟨j, e, he, hj, isCreation_eq_true.mp hcreates⟩
  · rw [← hsafe.kept i hi]
    exact (hsolo (r := .ok resp) hi hr).2.2 _
  · obtain ⟨resp, hresp⟩ := (hsolo (r := .error e) hi hr).1
    cases hresp

end Run

/-! ### Samples -/

/-- The `n`-th call of a wallet that proves its BTC key `K`. -/
def walletImport (keys : List LegacyKey) (fails : ℕ → Bool) (n : Uuid) :
    LegacyCall ⟨none, keys⟩ where
  answers :=
    { auth := sampleAnswers n
      clock := 10
      challenge := some ⟨"nonce", 0, "origin", 20⟩
      findByProvenKey := fun _ _ => .ok (some ⟨none, keys⟩) }
  req := ⟨"btc", "K", "K"⟩
  asset := .btc
  parsed := by decide +kernel
  owner := fun _ h => (Option.some.inj (Except.ok.inj h)).symm
  fails := fails

/-- An identity with one key signs in twice, and some statements of the first call fail. -/
def twoCalls (fails : ℕ → Bool) : Fin 2 → LegacyCall ⟨none, [⟨"btc", "K", none⟩]⟩
  | 0 => walletImport _ fails 2
  | 1 => walletImport _ (fun _ => false) 3

/-- The two calls, about to begin on an empty database. -/
def twoStart (fails : ℕ → Bool) : World × (Fin 2 → Handler AuthResponse) :=
  importPool sampleWebsiteEnv (twoCalls fails) ⟨Db.empty, 0⟩

/-- One call after the other. -/
def retryTurns : List (Fin 2 × ℕ) := Lib.numbered [(0, 8), (1, 5)]

/-- The second call runs after the lookups of the first. -/
def overlapTurns : List (Fin 2 × ℕ) := Lib.numbered [(0, 2), (1, 8), (0, 6)]

/-- The result of a call, once nothing else is left of it. -/
def resultOf : Handler AuthResponse → Option (Except AppError AuthResponse)
  | .ret resp => some (.ok resp)
  | .fail e => some (.error e)
  | _ => none

theorem eq_ofExcept_of_resultOf {p : Handler AuthResponse} {r : Except AppError AuthResponse}
    (h : resultOf p = some r) : p = .ofExcept r := by
  cases p with
  | ret resp => cases h; rfl
  | fail e => cases h; rfl
  | act _ _ _ => cases h
  | mem _ _ => cases h

theorem exists_fail_of_resultOf {p : Handler AuthResponse}
    (h : ((resultOf p).any fun r => !r.isOk) = true) : ∃ e, p = .fail e := by
  obtain ⟨r, hr, herror⟩ := (Option.any_eq_true _ _).mp h
  cases r with
  | ok resp => cases herror
  | error e => exact ⟨e, eq_ofExcept_of_resultOf hr⟩

theorem emptyDb_schemaOk : Db.empty.SchemaOk where
  users := by constructor <;> simp [UniqueOn, Db.empty]
  owned := by simp [Db.empty]
  linked := by simp [Db.empty]
  erasureActive := by simp [Db.empty]
  tipChecks := by simp [Db.empty]

/-- An identity that signs in twice, one call after the other. -/
theorem imported_once_sample :
    ImportedOnce (twoCalls fun _ => false) ⟨Db.empty, 0⟩
      (Prog.playTrace retryTurns (twoStart fun _ => false))
      (Prog.play retryTurns (twoStart fun _ => false)) ∧
    (Prog.play retryTurns (twoStart fun _ => false)).1.db.users.rows.map UserRow.id = [2] := by
  obtain ⟨r, hr⟩ := Option.isSome_iff_exists.mp
    (show (resultOf ((Prog.play [(0, 8)] (twoStart fun _ => false)).2 0)).isSome by decide +kernel)
  have hcases : ∀ i : Fin 2, i = 0 ∨ i = 1 := by decide
  have hturns : retryTurns = [(0, 8), (1, 5)] := rfl
  have hreturned : ReturnedBefore (twoStart fun _ => false)
      (Prog.playTrace retryTurns (twoStart fun _ => false))
      (Prog.play retryTurns (twoStart fun _ => false)) 0 1 := by
    refine ⟨Prog.playTrace [(0, 8)] (twoStart fun _ => false),
      Prog.playTrace [(1, 5)] (Prog.play [(0, 8)] (twoStart fun _ => false)),
      Prog.play [(0, 8)] (twoStart fun _ => false), ?_, Prog.run_play _ _ _, ?_, ⟨r, ?_⟩, ?_⟩
    · simp only [hturns, Prog.playTrace, Prog.play, List.append_nil]
    · simpa only [hturns, Prog.play] using Prog.run_play OnlyClock [(1, 5)]
        (Prog.play [(0, 8)] (twoStart fun _ => false))
    · exact eq_ofExcept_of_resultOf hr
    · exact Prog.eventsOf_playTrace_of_notMem (by decide) _
  have hsafe : SafeImports sampleWebsiteEnv (twoCalls fun _ => false) ⟨Db.empty, 0⟩
      (Prog.playTrace retryTurns (twoStart fun _ => false))
      (Prog.play retryTurns (twoStart fun _ => false)) := by
    refine ⟨fun i _ => ?_, fun i j _ hij => ?_, fun i j hij _ _ => ?_, fun i _ => ?_⟩
    · obtain rfl | rfl := hcases i
      · exact ⟨fun _ _ => rfl, rfl, rfl⟩
      · exact ⟨fun _ _ => rfl, rfl, rfl⟩
    · have hpair : ∀ i j : Fin 2, j ≠ i → (twoCalls (fun _ => false) j).sessionId ≠
          (twoCalls (fun _ => false) i).sessionId := by decide
      exact hpair i j hij
    · rcases (by decide : ∀ i j : Fin 2, i ≠ j → i = 0 ∧ j = 1 ∨ i = 1 ∧ j = 0) i j hij with
        ⟨rfl, rfl⟩ | ⟨rfl, rfl⟩
      · exact .inl hreturned
      · exact .inr hreturned
    · obtain rfl | rfl := hcases i
      · decide +kernel
      · decide +kernel
  exact ⟨imported_once (Prog.run_play OnlyClock _ _) emptyDb_schemaOk hsafe, by decide +kernel⟩

/-- An identity with two keys of one asset signs in. -/
def twoKeys : Fin 1 → LegacyCall ⟨none, [⟨"btc", "K", none⟩, ⟨"btc", "L", none⟩]⟩ :=
  fun _ => walletImport _ (fun _ => false) 2

/-- The call, about to begin on an empty database. -/
def keysStart : World × (Fin 1 → Handler AuthResponse) :=
  importPool sampleWebsiteEnv twoKeys ⟨Db.empty, 0⟩

/-- Two calls that overlap import the identity twice; a call that fails at the first key leaves a
user, which the retry does not find; a second key of the asset replaces the proven one. -/
theorem imported_twice :
    ¬ (∀ (es : List (Prog.Event (Fin 2) World)) (c : World × (Fin 2 → Handler AuthResponse)),
      (Prog.pool OnlyClock).Run (twoStart fun _ => false) es c →
        ImportedOnce (twoCalls fun _ => false) ⟨Db.empty, 0⟩ es c) ∧
    (Prog.play overlapTurns (twoStart fun _ => false)).1.db.users.rows.map UserRow.id = [3, 2] ∧
    (∃ e, (Prog.play [(0, 5)] (twoStart (decide <| · = 4))).2 0 = .fail e) ∧
    (Prog.play [(0, 5)] (twoStart (decide <| · = 4))).1.db.users.rows.map UserRow.id = [2] ∧
    (Prog.play [(0, 5), (1, 8)] (twoStart (decide <| · = 4))).1.db.users.rows.map UserRow.id =
      [2, 3] ∧
    (Prog.play [(0, 10)] keysStart).1.db.primary 2 .btc = some "L" := by
  have hrows : (Prog.play overlapTurns (twoStart fun _ => false)).1.db.users.rows.map UserRow.id =
      [3, 2] := by decide +kernel
  refine ⟨fun hclaim => ?_, hrows, exists_fail_of_resultOf (by decide +kernel),
    by decide +kernel, by decide +kernel, by decide +kernel⟩
  obtain ⟨rows, hall, hone⟩ := (hclaim _ _ (Prog.run_play OnlyClock overlapTurns _)).once
  have hlength := congrArg List.length hrows
  rw [hall, List.length_map] at hlength
  have htwo : rows.length = 2 := hlength
  omega

end SmirkBackend
