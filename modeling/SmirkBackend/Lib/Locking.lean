import Mathlib.Data.Fintype.Basic
import SmirkBackend.Lib.Program

/-!
# Transactions under locks

Jobs run concurrently.  A job first reads, then runs one transaction: a list of statements, each of
which locks what it depends on and writes, waits while another open transaction holds one of its
locks, and keeps its locks to the end.  What a transaction has written is seen by itself alone
until it commits; a refused statement or an abort leaves no trace.

A location is given by when two states agree on it.  A statement (`Stmt`) is `Stmt.Local` when its
success and its effect at its locks depend on its locks only, and it changes nothing else.  `jobs`
is the system of all interleavings, statement by statement, and `Jobs.play` performs one of them.
What holds of every interleaving:
* `Jobs.commit_atomic` : a transaction that commits has the effect of running it alone on the state
  it commits to;
* `Jobs.serializable` : the committed state is what the committed transactions give one by one;
* `Jobs.db_eq_of_failed` : a job that fails never changed the committed state;
* `Jobs.planOk_run`, `Jobs.knows_run` : what plans satisfy, and what they have learned, is true of
  the committed jobs.
-/

namespace Lib

variable {S L E G C ι : Type}

/-- A statement of a transaction. -/
structure Stmt (S L E : Type) where
  /-- What it locks. -/
  locks : List L
  /-- What it does. -/
  run : S → Except E S

/-- Statements in order. -/
def replay : List (Stmt S L E) → S → Except E S
  | [], s => .ok s
  | st :: rest, s => st.run s >>= replay rest

theorem replay_append (xs ys : List (Stmt S L E)) (s : S) :
    replay (xs ++ ys) s = replay xs s >>= replay ys := by
  induction xs generalizing s with
  | nil => rfl
  | cons st xs ih =>
    simp only [List.cons_append, replay]
    cases st.run s with
    | error e => rfl
    | ok t => exact ih t

theorem replay_cons_eq_ok_iff {st : Stmt S L E} {rest : List (Stmt S L E)} {s t : S} :
    replay (st :: rest) s = .ok t ↔ ∃ s₁, st.run s = .ok s₁ ∧ replay rest s₁ = .ok t := by
  simp only [replay]
  cases st.run s <;> simp [bind, Except.bind]

/-- All locks of some statements. -/
def locksOf (sts : List (Stmt S L E)) : List L := sts.flatMap Stmt.locks

variable (same : L → Setoid S)

/-- Success and effect depend on the locks only, and nothing else changes. -/
structure Stmt.Local (st : Stmt S L E) : Prop where
  /-- Nothing else changes. -/
  frame : ∀ s t, st.run s = .ok t → ∀ l, l ∉ st.locks → (same l).r s t
  /-- States that agree on the locks give the same success and the same values there. -/
  determined : ∀ s s' t, (∀ l ∈ st.locks, (same l).r s s') → st.run s = .ok t →
    ∃ t', st.run s' = .ok t' ∧ ∀ l ∈ st.locks, (same l).r t t'

variable {same}

theorem replay_frame {sts : List (Stmt S L E)} (hlocal : ∀ st ∈ sts, st.Local same) {s t : S}
    (h : replay sts s = .ok t) {l : L} (hl : l ∉ locksOf sts) : (same l).r s t := by
  induction sts generalizing s with
  | nil =>
    obtain rfl := Except.ok.inj h
    exact (same l).refl s
  | cons st rest ih =>
    obtain ⟨hst, hrest⟩ := List.forall_mem_cons.mp hlocal
    obtain ⟨s₁, hs₁, ht⟩ := replay_cons_eq_ok_iff.mp h
    simp only [locksOf, List.flatMap_cons, List.mem_append, not_or] at hl
    exact (same l).trans (hst.frame s s₁ hs₁ l hl.1) (ih hrest ht hl.2)

/-- Local statements replay alike on states that agree on their locks. -/
theorem replay_determined [DecidableEq L] {sts : List (Stmt S L E)}
    (hlocal : ∀ st ∈ sts, st.Local same) {s s' t : S}
    (hagree : ∀ l ∈ locksOf sts, (same l).r s s') (h : replay sts s = .ok t) :
    ∃ t', replay sts s' = .ok t' := by
  induction sts generalizing s s' with
  | nil => exact ⟨s', rfl⟩
  | cons st rest ih =>
    obtain ⟨hst, hrest⟩ := List.forall_mem_cons.mp hlocal
    obtain ⟨s₁, hs₁, ht⟩ := replay_cons_eq_ok_iff.mp h
    obtain ⟨s₁', hs₁', hval⟩ := hst.determined s s' s₁
      (fun l hl => hagree l (List.mem_append_left _ hl)) hs₁
    -- after the first statement the states agree on its locks and, unchanged, on the others
    have hagree₁ : ∀ l ∈ locksOf rest, (same l).r s₁ s₁' := by
      intro l hl
      by_cases hmine : l ∈ st.locks
      · exact hval l hmine
      · have hs := hst.frame s s₁ hs₁ l hmine
        have hs' := hst.frame s' s₁' hs₁' l hmine
        exact (same l).trans ((same l).symm hs)
          ((same l).trans (hagree l (List.mem_append_right _ hl)) hs')
    obtain ⟨t', ht'⟩ := ih hrest hagree₁ ht
    exact ⟨t', replay_cons_eq_ok_iff.mpr ⟨s₁', hs₁', ht'⟩⟩

/-! ### Plans -/

/-- Whatever states `R` leads to between its reads, the plan returns what `K` holds of by then. -/
def Prog.Learns (R : S → S → Prop) (K : G → S → Prop) : Prog S E G → S → Prop
  | .ret g, s => K g s
  | .fail _, _ => True
  | .act _ next fault, s => ∀ s', R s s' → (next s').Learns R K s' ∧ fault.Learns R K s'
  | .mem _ _, _ => True

namespace Prog

variable {R : S → S → Prop} {K : G → S → Prop}

theorem Learns.mono (htrans : ∀ a b c, R a b → R b c → R a c)
    (hstable : ∀ g s s', R s s' → K g s → K g s') {p : Prog S E G} {s s' : S} (hR : R s s')
    (h : p.Learns R K s) : p.Learns R K s' := by
  cases p with
  | ret g => exact hstable g s s' hR h
  | fail e => trivial
  | act upd next fault => exact fun s'' hR' => h s'' (htrans s s' s'' hR hR')
  | mem upd next => trivial

/-- One part of a plan learns what the next part needs. -/
theorem Learns.bind {α : Type} {p : Prog S E α} {f : α → Prog S E G} {s : S}
    (h : p.Learns R (fun a s => (f a).Learns R K s) s) : (p >>= f).Learns R K s := by
  induction p generalizing s with
  | ret a => exact h
  | fail e => trivial
  | act upd next fault ih ihf => exact fun s' hR => ⟨ih s' (h s' hR).1, ihf (h s' hR).2⟩
  | mem upd next ih => trivial

theorem learns_read {e : E} {q : S → G} {s : S} (h : ∀ s', R s s' → K (q s') s') :
    (read e q).Learns R K s :=
  fun s' hR => ⟨h s' hR, trivial⟩

theorem learns_ofExcept {x : Except E G} {s : S} (h : ∀ g, x = .ok g → K g s) :
    (ofExcept x).Learns R K s := by
  cases x with
  | ok g => exact h g rfl
  | error e => trivial

theorem learns_orFail {e : E} {x : Option G} {s : S} (h : ∀ g, x = some g → K g s) :
    (orFail e x).Learns R K s := by
  cases x with
  | some g => exact h g rfl
  | none => trivial

theorem learns_of_forall (h : ∀ g s, K g s) (p : Prog S E G) (s : S) : p.Learns R K s := by
  induction p generalizing s with
  | ret g => exact h g s
  | fail e => trivial
  | act upd next fault ih ihf => exact fun s' _ => ⟨ih s' s', ihf s'⟩
  | mem upd next => trivial

end Prog

/-! ### Concurrent jobs -/

/-- A job: a program that reads and plans, and the transaction for each plan.  `C` holds what is
fixed when the transaction begins. -/
structure Job (S L E G C : Type) where
  /-- The reads. -/
  plan : Prog S E G
  /-- The transaction. -/
  script : G → C → List (Stmt S L E)

/-- How far a job is. -/
inductive Phase (S L E G C : Type)
  /-- Reading. -/
  | planning (p : Prog S E G)
  /-- In the transaction: the statements that are done and those to come. -/
  | running (g : G) (c : C) (done rest : List (Stmt S L E))
  /-- Committed. -/
  | committed (g : G) (c : C)
  /-- Ended without a commit. -/
  | failed (e : E)

/-- The locks of an open transaction. -/
def Phase.held : Phase S L E G C → List L
  | running _ _ done _ => locksOf done
  | _ => []

/-- What the job is going to write, or has written. -/
def Phase.plan? : Phase S L E G C → Option G
  | running g _ _ _ => some g
  | committed g _ => some g
  | _ => none

/-- The committed state and the jobs. -/
structure Jobs (S L E G C ι : Type) where
  /-- What is committed. -/
  db : S
  /-- How far each job is. -/
  phase : ι → Phase S L E G C

/-- What a job does in one step. -/
inductive JobStep (job : Job S L E G C) (free : List L → Prop) (db : S) :
    Phase S L E G C → Phase S L E G C → S → Prop
  /-- A read. -/
  | read {upd : S → S} {next : S → Prog S E G} {fault : Prog S E G} :
      JobStep job free db (.planning (.act upd next fault)) (.planning (next db)) db
  /-- A read that could not be carried out. -/
  | fault {upd : S → S} {next : S → Prog S E G} {fault : Prog S E G} :
      JobStep job free db (.planning (.act upd next fault)) (.planning fault) db
  /-- The plan is refused. -/
  | refuse {e : E} : JobStep job free db (.planning (.fail e)) (.failed e) db
  /-- The transaction begins. -/
  | start {g : G} (c : C) :
      JobStep job free db (.planning (.ret g)) (.running g c [] (job.script g c)) db
  /-- A statement, on what the transaction sees, once its locks are free. -/
  | exec {g : G} {c : C} {done rest : List (Stmt S L E)} {st : Stmt S L E} {v v' : S} :
      free st.locks → replay done db = .ok v → st.run v = .ok v' →
      JobStep job free db (.running g c done (st :: rest)) (.running g c (done ++ [st]) rest) db
  /-- A statement is refused: the transaction is rolled back. -/
  | rollback {g : G} {c : C} {done rest : List (Stmt S L E)} {st : Stmt S L E} {v : S} {e : E} :
      replay done db = .ok v → st.run v = .error e →
      JobStep job free db (.running g c done (st :: rest)) (.failed e) db
  /-- The transaction is aborted, as by a deadlock or a lost connection. -/
  | abort {g : G} {c : C} {done rest : List (Stmt S L E)} (e : E) :
      JobStep job free db (.running g c done rest) (.failed e) db
  /-- Everything is done: the writes are published. -/
  | commit {g : G} {c : C} {done : List (Stmt S L E)} {v : S} :
      replay done db = .ok v → JobStep job free db (.running g c done []) (.committed g c) v

variable [DecidableEq ι]

/-- The locks are held by no job but `i`. -/
def Jobs.free (σ : Jobs S L E G C ι) (i : ι) (locks : List L) : Prop :=
  ∀ j, j ≠ i → ∀ l ∈ locks, l ∉ (σ.phase j).held

/-- The interleavings of jobs; a label is the job that moves. -/
def jobs (job : ι → Job S L E G C) : System (Jobs S L E G C ι) ι where
  step σ i σ' := ∃ p, JobStep (job i) (σ.free i) σ.db (σ.phase i) p σ'.db ∧
    σ'.phase = Function.update σ.phase i p

/-- Every job is about to read. -/
def Jobs.start (db : S) (job : ι → Job S L E G C) : Jobs S L E G C ι where
  db := db
  phase i := .planning (job i).plan

namespace Jobs

/-- What an open transaction has done can be replayed on the committed state. -/
def PhaseOk (job : Job S L E G C) (db : S) : Phase S L E G C → Prop
  | .running g c done rest => job.script g c = done ++ rest ∧ ∃ v, replay done db = .ok v
  | _ => True

/-- Open transactions can be replayed, and hold disjoint locks. -/
structure Ok (job : ι → Job S L E G C) (σ : Jobs S L E G C ι) : Prop where
  /-- Every transaction can be replayed. -/
  phases : ∀ i, PhaseOk (job i) σ.db (σ.phase i)
  /-- No lock is held twice. -/
  disjoint : ∀ i j, i ≠ j → ∀ l ∈ (σ.phase i).held, l ∉ (σ.phase j).held

omit [DecidableEq ι] in
theorem ok_start (db : S) (job : ι → Job S L E G C) : Ok job (start db job) :=
  ⟨fun _ => trivial, fun _ _ _ _ hl => nomatch hl⟩

theorem held_of_step {job : Job S L E G C} {free : List L → Prop} {db db' : S}
    {p p' : Phase S L E G C} (h : JobStep job free db p p' db') :
    p'.held = [] ∨ ∃ locks, free locks ∧ p'.held = p.held ++ locks := by
  cases h with
  | exec hfree _ _ =>
    refine .inr ⟨_, hfree, ?_⟩
    simp [Phase.held, locksOf]
  | _ => exact .inl rfl

theorem db_of_step {job : Job S L E G C} (hlocal : ∀ g c, ∀ st ∈ job.script g c, st.Local same)
    {free : List L → Prop} {db db' : S} {p p' : Phase S L E G C} (hok : PhaseOk job db p)
    (h : JobStep job free db p p' db') : ∀ l, l ∉ p.held → (same l).r db db' := by
  intro l hl
  cases h with
  | @commit g c done v hv =>
    have hscript : job.script g c = done := by simpa using hok.1
    exact replay_frame (fun st hst => hlocal g c st (hscript ▸ hst)) hv hl
  | _ => exact (same l).refl db

theorem phaseOk_of_step {job : Job S L E G C} {free : List L → Prop} {db db' : S}
    {p p' : Phase S L E G C} (hok : PhaseOk job db p) (h : JobStep job free db p p' db') :
    PhaseOk job db' p' := by
  cases h with
  | start c => exact ⟨rfl, db, rfl⟩
  | @exec g c done rest st v v' _ hv hv' =>
    refine ⟨by rw [hok.1, List.append_assoc]; rfl, v', ?_⟩
    rw [replay_append, hv]
    exact replay_cons_eq_ok_iff.mpr ⟨v', hv', rfl⟩
  | _ => trivial

theorem ok_step [DecidableEq L] {job : ι → Job S L E G C}
    (hlocal : ∀ i g c, ∀ st ∈ (job i).script g c, st.Local same) {σ σ' : Jobs S L E G C ι} {i : ι}
    (h : (jobs job).step σ i σ') (hok : Ok job σ) : Ok job σ' := by
  obtain ⟨p, hstep, hphase⟩ := h
  have hself : σ'.phase i = p := by rw [hphase, Function.update_self]
  have hother : ∀ j, j ≠ i → σ'.phase j = σ.phase j := by
    intro j hj
    rw [hphase, Function.update_of_ne hj]
  constructor
  · intro j
    by_cases hj : j = i
    · subst hj
      rw [hself]
      exact phaseOk_of_step (hok.phases j) hstep
    · -- another transaction: its locks are untouched, so it can still be replayed
      rw [hother j hj]
      have hj' := hok.phases j
      cases hrun : σ.phase j with
      | running g c done rest =>
        rw [hrun] at hj'
        obtain ⟨hscript, v, hv⟩ := hj'
        refine ⟨hscript, ?_⟩
        have hdone : ∀ st ∈ done, st.Local same := fun st hst =>
          hlocal j g c st (hscript ▸ List.mem_append_left _ hst)
        refine replay_determined hdone (fun l hl => ?_) hv
        refine db_of_step (hlocal i) (hok.phases i) hstep l ?_
        exact hok.disjoint j i hj l (by rw [hrun]; exact hl)
      | _ => trivial
  · -- a lock is only taken while no other job holds it
    have hnew : ∀ j, j ≠ i → ∀ l ∈ p.held, l ∉ (σ.phase j).held := by
      intro j hj l hl
      rcases held_of_step hstep with hnil | ⟨locks, hfree, happend⟩
      · simp [hnil] at hl
      · rw [happend, List.mem_append] at hl
        rcases hl with hold | hlock
        · exact hok.disjoint i j (Ne.symm hj) l hold
        · exact hfree j hj l hlock
    intro j k hjk l hl
    by_cases hj : j = i
    · subst hj
      rw [hself] at hl
      rw [hother k (Ne.symm hjk)]
      exact hnew k (Ne.symm hjk) l hl
    · rw [hother j hj] at hl
      by_cases hk : k = i
      · subst hk
        rw [hself]
        exact fun hl' => hnew j hj l hl' hl
      · rw [hother k hk]
        exact hok.disjoint j k hjk l hl

theorem ok_run [DecidableEq L] {job : ι → Job S L E G C}
    (hlocal : ∀ i g c, ∀ st ∈ (job i).script g c, st.Local same) {db : S}
    {σ : Jobs S L E G C ι} {is : List ι} (h : (jobs job).Run (start db job) is σ) : Ok job σ :=
  h.invariant (fun _ _ _ hstep hok => ok_step hlocal hstep hok) (ok_start db job)

/-- **A step either leaves the committed state alone or commits**, and a commit has the effect of
running the whole transaction on the state it finds. -/
theorem commit_atomic {job : Job S L E G C} {free : List L → Prop} {db db' : S}
    {p p' : Phase S L E G C} (hok : PhaseOk job db p) (h : JobStep job free db p p' db') :
    (db' = db ∧ ∀ g c, p' ≠ .committed g c) ∨
      ∃ g c, p' = .committed g c ∧ replay (job.script g c) db = .ok db' := by
  cases h with
  | @commit g c done v hv =>
    have hscript : job.script g c = done := by simpa using hok.1
    exact .inr ⟨g, c, rfl, hscript ▸ hv⟩
  | _ => exact .inl ⟨rfl, fun g c h => nomatch h⟩

theorem commit_of_step [DecidableEq L] {job : ι → Job S L E G C}
    (hlocal : ∀ i g c, ∀ st ∈ (job i).script g c, st.Local same) {db : S}
    {σ σ' : Jobs S L E G C ι} {is : List ι} {i : ι} (hrun : (jobs job).Run (start db job) is σ)
    (hstep : (jobs job).step σ i σ') :
    σ'.db = σ.db ∨
      ∃ g c, σ'.phase i = .committed g c ∧ replay ((job i).script g c) σ.db = .ok σ'.db := by
  obtain ⟨p, hp, hphase⟩ := hstep
  rcases commit_atomic ((ok_run hlocal hrun).phases i) hp with ⟨hdb, -⟩ | ⟨g, c, rfl, hreplay⟩
  · exact .inl hdb
  · exact .inr ⟨g, c, by rw [hphase, Function.update_self], hreplay⟩

/-- Every plan satisfies `Q`: those that are made, and those that may still be. -/
def PlanOk (Q : G → Prop) : Phase S L E G C → Prop
  | .planning p => p.Keeps (fun _ => True) Q
  | .running g _ _ _ => Q g
  | .committed g _ => Q g
  | .failed _ => True

theorem planOk_step {job : Job S L E G C} {Q : G → Prop} {free : List L → Prop} {db db' : S}
    {p p' : Phase S L E G C} (hp : PlanOk Q p) (h : JobStep job free db p p' db') :
    PlanOk Q p' := by
  cases h with
  | read => exact (hp.1 db trivial).2
  | fault => exact hp.2
  | refuse => trivial
  | start c => exact hp
  | exec _ _ _ => exact hp
  | rollback _ _ => trivial
  | abort e => trivial
  | commit _ => exact hp

/-- What every plan of a job satisfies, the plans of its phases satisfy. -/
theorem planOk_run {job : ι → Job S L E G C} {Q : ι → G → Prop}
    (hplan : ∀ i, (job i).plan.Keeps (fun _ => True) (Q i)) {db : S} {σ : Jobs S L E G C ι}
    {is : List ι} (h : (jobs job).Run (start db job) is σ) : ∀ i, PlanOk (Q i) (σ.phase i) := by
  have hstart : ∀ i, PlanOk (Q i) ((start db job).phase i) := hplan
  refine h.invariant (I := fun σ => ∀ i, PlanOk (Q i) (σ.phase i)) ?_ hstart
  rintro σ i σ' ⟨p, hstep, hphase⟩ hok j
  rw [hphase]
  by_cases hj : j = i
  · subst hj
    rw [Function.update_self]
    exact planOk_step (hok j) hstep
  · rw [Function.update_of_ne hj]
    exact hok j

/-- What a job has learned from its reads holds of the state. -/
def Knows (R : S → S → Prop) (K : G → S → Prop) (s : S) : Phase S L E G C → Prop
  | .planning p => p.Learns R K s
  | .running g _ _ _ => K g s
  | .committed g _ => K g s
  | .failed _ => True

theorem knows_mono {R : S → S → Prop} {K : G → S → Prop} (htrans : ∀ a b c, R a b → R b c → R a c)
    (hstable : ∀ g s s', R s s' → K g s → K g s') {s s' : S} (hR : R s s')
    {p : Phase S L E G C} (hp : Knows R K s p) : Knows R K s' p := by
  cases p with
  | planning p => exact hp.mono htrans hstable hR
  | running g c done rest => exact hstable g s s' hR hp
  | committed g c => exact hstable g s s' hR hp
  | failed e => trivial

theorem knows_step {job : Job S L E G C} {R : S → S → Prop} {K : G → S → Prop}
    (hrefl : ∀ s, R s s) {free : List L → Prop} {db db' : S} {p p' : Phase S L E G C}
    (hp : Knows R K db p) (hK : ∀ g, K g db → K g db') (h : JobStep job free db p p' db') :
    Knows R K db' p' := by
  cases h with
  | read => exact (hp db (hrefl db)).1
  | fault => exact (hp db (hrefl db)).2
  | refuse => trivial
  | start c => exact hp
  | exec _ _ _ => exact hp
  | rollback _ _ => trivial
  | abort e => trivial
  | commit _ => exact hK _ hp

/-- **What a plan has learned stays true**, if it is true of every state that a transaction can
lead to. -/
theorem knows_run [DecidableEq L] {job : ι → Job S L E G C}
    (hlocal : ∀ i g c, ∀ st ∈ (job i).script g c, st.Local same) {R : S → S → Prop}
    {K : ι → G → S → Prop} (hrefl : ∀ s, R s s) (htrans : ∀ a b c, R a b → R b c → R a c)
    (hstable : ∀ i g s s', R s s' → K i g s → K i g s')
    (hscript : ∀ i g c s s', replay ((job i).script g c) s = .ok s' → R s s') {db : S}
    (hplan : ∀ i, (job i).plan.Learns R (K i) db) {σ : Jobs S L E G C ι} {is : List ι}
    (h : (jobs job).Run (start db job) is σ) : ∀ i, Knows R (K i) σ.db (σ.phase i) := by
  have hinv := h.invariant (I := fun σ => Ok job σ ∧ ∀ i, Knows R (K i) σ.db (σ.phase i)) ?_
    ⟨ok_start db job, hplan⟩
  · exact hinv.2
  rintro σ i σ' hstep ⟨hok, hknows⟩
  refine ⟨ok_step hlocal hstep hok, fun j => ?_⟩
  obtain ⟨p, hp, hphase⟩ := hstep
  have hR : R σ.db σ'.db := by
    rcases commit_atomic (hok.phases i) hp with ⟨hdb, -⟩ | ⟨g, c, -, hreplay⟩
    · exact hdb ▸ hrefl σ.db
    · exact hscript i g c _ _ hreplay
  rw [hphase]
  by_cases hj : j = i
  · subst hj
    rw [Function.update_self]
    exact knows_step hrefl (hknows j) (fun g => hstable j g _ _ hR) hp
  · rw [Function.update_of_ne hj]
    exact knows_mono htrans (hstable j) hR (hknows j)

omit [DecidableEq ι] in
theorem Knows.of_plan? {R : S → S → Prop} {K : G → S → Prop} {s : S} {p : Phase S L E G C} {g : G}
    (h : Knows R K s p) (hg : p.plan? = some g) : K g s := by
  cases p with
  | running g' c done rest =>
    obtain rfl := Option.some.inj hg
    exact h
  | committed g' c =>
    obtain rfl := Option.some.inj hg
    exact h
  | _ => cases hg

theorem committed_run {job : ι → Job S L E G C} {σ σ' : Jobs S L E G C ι} {is : List ι}
    (h : (jobs job).Run σ is σ') {i : ι} {g : G} {c : C} (hi : σ.phase i = .committed g c) :
    σ'.phase i = .committed g c := by
  refine h.invariant (I := fun σ => σ.phase i = .committed g c) ?_ hi
  rintro σ j σ' ⟨p, hstep, hphase⟩ hi
  by_cases hj : i = j
  · subst hj
    rw [hi] at hstep
    cases hstep
  · rw [hphase, Function.update_of_ne hj]
    exact hi

/-- A job that fails never changed the committed state. -/
theorem db_eq_of_failed [DecidableEq L] {job : ι → Job S L E G C}
    (hlocal : ∀ i g c, ∀ st ∈ (job i).script g c, st.Local same) {db : S}
    {σ₁ σ₂ σ : Jobs S L E G C ι} {is is' : List ι} {i : ι} {e : E}
    (hbefore : (jobs job).Run (start db job) is σ₁) (hstep : (jobs job).step σ₁ i σ₂)
    (hafter : (jobs job).Run σ₂ is' σ) (hfailed : σ.phase i = .failed e) : σ₂.db = σ₁.db := by
  obtain ⟨p, hp, hphase⟩ := hstep
  rcases commit_atomic ((ok_run hlocal hbefore).phases i) hp with ⟨hdb, -⟩ | ⟨g, c, rfl, -⟩
  · exact hdb
  · -- a commit would have lasted
    have hcommitted : σ₂.phase i = .committed g c := by rw [hphase, Function.update_self]
    rw [committed_run hafter hcommitted] at hfailed
    cases hfailed

/-- The statements of some transactions, one transaction after the other. -/
def serial (job : ι → Job S L E G C) (order : List (ι × G × C)) : List (Stmt S L E) :=
  order.flatMap fun x => (job x.1).script x.2.1 x.2.2

/-- The committed jobs, in the order of their commits. -/
structure Serial (job : ι → Job S L E G C) (db : S) (σ : Jobs S L E G C ι)
    (order : List (ι × G × C)) : Prop where
  /-- Each commits once. -/
  nodup : (order.map Prod.fst).Nodup
  /-- Those, and no others. -/
  mem_iff : ∀ i g c, (i, g, c) ∈ order ↔ σ.phase i = .committed g c
  /-- Their transactions give the committed state. -/
  replay_eq : replay (serial job order) db = .ok σ.db

/-- Transactions one by one, each with its effect. -/
inductive InOrder {X : Type} (effect : X → S → S → Prop) : List X → S → S → Prop
  | nil (s : S) : InOrder effect [] s s
  | cons {x : X} {rest : List X} {s s₁ s' : S} :
      effect x s s₁ → InOrder effect rest s₁ s' → InOrder effect (x :: rest) s s'

/-- What each effect preserves, all of them preserve. -/
theorem InOrder.invariant {X : Type} {effect : X → S → S → Prop} {I : S → Prop} {xs : List X}
    {s s' : S} (hstep : ∀ x ∈ xs, ∀ s s', effect x s s' → I s → I s')
    (h : InOrder effect xs s s') (hs : I s) : I s' := by
  induction h with
  | nil s => exact hs
  | cons hx _ ih =>
    obtain ⟨hhead, hrest⟩ := List.forall_mem_cons.mp hstep
    exact ih hrest (hhead _ _ hx hs)

omit [DecidableEq ι] in
/-- The committed jobs give the committed state by their effects. -/
theorem Serial.inOrder {job : ι → Job S L E G C} {db : S} {σ : Jobs S L E G C ι}
    {order : List (ι × G × C)} {effect : ι × G × C → S → S → Prop} (h : Serial job db σ order)
    (heffect : ∀ x s s', replay ((job x.1).script x.2.1 x.2.2) s = .ok s' → effect x s s') :
    InOrder effect order db σ.db := by
  have hreplay := h.replay_eq
  clear h
  induction order generalizing db with
  | nil =>
    obtain rfl := Except.ok.inj hreplay
    exact .nil _
  | cons x rest ih =>
    simp only [serial, List.flatMap_cons, replay_append] at hreplay
    cases hx : replay ((job x.1).script x.2.1 x.2.2) db with
    | error e => simp [hx, bind, Except.bind] at hreplay
    | ok s₁ =>
      rw [hx] at hreplay
      exact .cons (heffect x db s₁ hx) (ih hreplay)

theorem serial_step {job : ι → Job S L E G C} {db : S} {σ σ' : Jobs S L E G C ι} {i : ι}
    (hok : Ok job σ) (h : (jobs job).step σ i σ') {order : List (ι × G × C)}
    (hs : Serial job db σ order) : ∃ order', Serial job db σ' order' := by
  obtain ⟨p, hstep, hphase⟩ := h
  have hother : ∀ j, j ≠ i → σ'.phase j = σ.phase j := by
    intro j hj
    rw [hphase, Function.update_of_ne hj]
  have hself : σ'.phase i = p := by rw [hphase, Function.update_self]
  -- a job that moves has not committed yet
  have hnew : ∀ g c, (i, g, c) ∉ order := by
    intro g c hmem
    rw [(hs.mem_iff i g c).mp hmem] at hstep
    cases hstep
  rcases commit_atomic (hok.phases i) hstep with ⟨hdb, hnot⟩ | ⟨g, c, hp, hreplay⟩
  · refine ⟨order, hs.nodup, fun j g c => ?_, hdb ▸ hs.replay_eq⟩
    by_cases hj : j = i
    · subst hj
      rw [hself]
      exact iff_of_false (hnew g c) (hnot g c)
    · rw [hother j hj]
      exact hs.mem_iff j g c
  · refine ⟨order ++ [(i, g, c)], ?_, fun j g' c' => ?_, ?_⟩
    · have hfresh : i ∉ order.map Prod.fst := by
        rw [List.mem_map]
        rintro ⟨⟨j, g', c'⟩, hmem, rfl⟩
        exact hnew g' c' hmem
      rw [List.map_append, List.nodup_append]
      refine ⟨hs.nodup, List.pairwise_singleton _ _, fun a ha b hb hab => ?_⟩
      obtain rfl : b = i := List.mem_singleton.mp hb
      exact hfresh (hab ▸ ha)
    · rw [List.mem_append, List.mem_singleton]
      by_cases hj : j = i
      · subst hj
        rw [hself, hp]
        simp [hnew g' c', eq_comm]
      · rw [hother j hj, hs.mem_iff j g' c']
        simp [hj]
    · simp only [serial, List.flatMap_append, List.flatMap_singleton, replay_append]
      rw [show replay (order.flatMap _) db = .ok σ.db from hs.replay_eq]
      exact hreplay

/-- **Runs are serializable**: in the order of their commits, the committed transactions give the
committed state one by one. -/
theorem serializable [DecidableEq L] {job : ι → Job S L E G C}
    (hlocal : ∀ i g c, ∀ st ∈ (job i).script g c, st.Local same) {db : S}
    {σ : Jobs S L E G C ι} {is : List ι} (h : (jobs job).Run (start db job) is σ) :
    ∃ order, Serial job db σ order := by
  have hstart : Serial job db (start db job) [] :=
    ⟨List.nodup_nil, fun i g c => by simp [start], rfl⟩
  have hinv := h.invariant (I := fun σ => Ok job σ ∧ ∃ order, Serial job db σ order)
    (fun _ _ _ hstep hI =>
      ⟨ok_step hlocal hstep hI.1, hI.2.elim fun _ hs => serial_step hI.1 hstep hs⟩)
    ⟨ok_start db job, [], hstart⟩
  exact hinv.2

/-! ### Schedules -/

variable [DecidableEq L]

instance [Fintype ι] (σ : Jobs S L E G C ι) (i : ι) : DecidablePred (σ.free i) := fun locks =>
  inferInstanceAs (Decidable (∀ j, j ≠ i → ∀ l ∈ locks, l ∉ (σ.phase j).held))

/-- What a job does next, and the committed state then, if it neither waits nor has ended; `c` is
fixed if it begins its transaction. -/
def next (job : Job S L E G C) (free : List L → Prop) [DecidablePred free] (db : S) (c : C) :
    Phase S L E G C → Option (Phase S L E G C × S)
  | .planning (.act _ next _) => some (.planning (next db), db)
  | .planning (.fail e) => some (.failed e, db)
  | .planning (.ret g) => some (.running g c [] (job.script g c), db)
  | .running g c done (st :: rest) =>
    match replay done db with
    | .error _ => none
    | .ok v =>
      match st.run v with
      | .ok _ => if free st.locks then some (.running g c (done ++ [st]) rest, db) else none
      | .error e => some (.failed e, db)
  | .running g c done [] =>
    match replay done db with
    | .error _ => none
    | .ok v => some (.committed g c, v)
  | _ => none

omit [DecidableEq L] in
theorem jobStep_of_next {job : Job S L E G C} {free : List L → Prop} [DecidablePred free]
    {db db' : S} {c : C} {p p' : Phase S L E G C} (h : next job free db c p = some (p', db')) :
    JobStep job free db p p' db' := by
  cases p with
  | planning prog =>
    cases prog with
    | act upd rest fault =>
      cases h
      exact .read
    | fail e =>
      cases h
      exact .refuse
    | ret g =>
      cases h
      exact .start c
    | mem upd rest => cases h
  | running g c₀ done rest =>
    cases rest with
    | nil =>
      cases hreplay : replay done db with
      | error e => simp [next, hreplay] at h
      | ok v =>
        simp only [next, hreplay, Option.some.injEq, Prod.mk.injEq] at h
        obtain ⟨rfl, rfl⟩ := h
        exact .commit hreplay
    | cons st rest =>
      cases hreplay : replay done db with
      | error e => simp [next, hreplay] at h
      | ok v =>
        cases hst : st.run v with
        | error e =>
          simp only [next, hreplay, hst, Option.some.injEq, Prod.mk.injEq] at h
          obtain ⟨rfl, rfl⟩ := h
          exact .rollback hreplay hst
        | ok v' =>
          simp only [next, hreplay, hst, Option.ite_none_right_eq_some, Option.some.injEq,
            Prod.mk.injEq] at h
          obtain ⟨hfree, rfl, rfl⟩ := h
          exact .exec hfree hreplay hst
  | committed g c => cases h
  | failed e => cases h

variable [Fintype ι]

/-- Jobs move in turn: who moves, and what is fixed if it begins its transaction.  The schedule
ends without a result where a job has to wait. -/
def play (job : ι → Job S L E G C) : List (ι × C) → Jobs S L E G C ι → Option (Jobs S L E G C ι)
  | [], σ => some σ
  | (i, c) :: rest, σ => do
    let (p, db) ← next (job i) (σ.free i) σ.db c (σ.phase i)
    play job rest ⟨db, Function.update σ.phase i p⟩

/-- A schedule is a run. -/
theorem run_play {job : ι → Job S L E G C} {turns : List (ι × C)} {σ σ' : Jobs S L E G C ι}
    (h : play job turns σ = some σ') : (jobs job).Run σ (turns.map Prod.fst) σ' := by
  induction turns generalizing σ with
  | nil =>
    obtain rfl := Option.some.inj h
    exact .nil _
  | cons turn rest ih =>
    obtain ⟨i, c⟩ := turn
    obtain ⟨⟨p, db⟩, hnext, hrest⟩ := Option.bind_eq_some_iff.mp h
    exact .cons ⟨p, jobStep_of_next hnext, rfl⟩ (ih hrest)

end Jobs

end Lib
