import SmirkBackend.Erasure.Requests
import SmirkBackend.Lib.Rely

/-!
# The erasure sweep

A sweep reads a batch of confirmed requests past their grace period and executes them one by one.
The read holds no lock past its own statement, so requests may be cancelled, or executed by another
worker, before their turn.

An execution does nothing, or all of it (`executeErasure_cases`).  Under what concurrent erasure
work is relied on to do (`erasureRely`), a sweep executes only what is confirmed and due
(`guarantees_runErasureSweep`).
-/

namespace SmirkBackend

open Lib (Table Prog ForeignKey)

/-! ### The sweep -/

/-- `due_erasure_requests`; `locked` are the rows another statement holds. -/
def dueErasureRequests (limit : ℕ) (locked : Uuid → Bool) : Handler (List ErasureRequestRow) :=
  .read dbFault fun w =>
    (w.db.erasureRequests.select
      (fun r => r.status = .confirmed && r.scheduledFor ≤ w.now && !locked r.id)
      fun a b => a.scheduledFor ≤ b.scheduledFor).take limit

/-- One execution of a sweep, whose failure is logged; `1` if it executed. -/
def sweepOne (hash : ChainHash) (purge : Bool) (id : Uuid) : Handler ℕ :=
  .act (fun w => { w with db := (executeErasure hash w.now id purge w.db).2 })
    (fun w => .ret (match (executeErasure hash w.now id purge w.db).1 with
      | .ok true => 1
      | _ => 0))
    (.ret 0)

/-- The executions of a sweep. -/
def sweepEach (hash : ChainHash) (purge : Bool) : List ErasureRequestRow → Handler ℕ
  | [] => .ret 0
  | r :: rest => do
    let done ← sweepOne hash purge r.id
    let others ← sweepEach hash purge rest
    return done + others

/-- `run_erasure_sweep`. -/
def runErasureSweep (hash : ChainHash) (purge : Bool) (batch : ℕ) (locked : Uuid → Bool) :
    Handler ℕ := do
  let due ← dueErasureRequests batch locked
  sweepEach hash purge due

/-- A request of a client, or a sweep of a worker. -/
inductive ErasureCall
  | request (env : ErasureEnv) (a : ErasureAnswers) (body : ProofRequest)
  | confirm (env : ErasureEnv) (a : ErasureAnswers) (id : Uuid) (body : ProofRequest)
  | cancel (env : ErasureEnv) (a : ErasureAnswers) (id : Uuid) (body : ProofRequest)
  | sweep (hash : ChainHash) (purge : Bool) (batch : ℕ) (locked : Uuid → Bool)

/-- What is run for a call. -/
def ErasureCall.handler : ErasureCall → Handler Unit
  | request env a body => do
    let _ ← requestErasure env a body
    return ()
  | confirm env a id body => do
    let _ ← confirmErasure env a id body
    return ()
  | cancel env a id body => do
    let _ ← cancelErasure env a id body
    return ()
  | sweep hash purge batch locked => do
    let _ ← runErasureSweep hash purge batch locked
    return ()

/-! ### How requests change -/

/-- How a request row may change: only its user is ever cleared, a completed or cancelled request
stays so, and once it is confirmed its grace period is fixed. -/
structure Later (r r' : ErasureRequestRow) : Prop where
  /-- The user is kept or cleared. -/
  owner : ∀ u, r'.userId = some u → r.userId = some u
  /-- A request that is over stays as it is. -/
  final : r.status = .completed ∨ r.status = .cancelled → r'.status = r.status
  /-- Only a pending request is scheduled. -/
  scheduled : r.status ≠ .pending → r'.status ≠ .pending ∧ r'.scheduledFor = r.scheduledFor

theorem Later.refl (r : ErasureRequestRow) : Later r r :=
  ⟨fun _ h => h, fun _ => rfl, fun h => ⟨h, rfl⟩⟩

theorem Later.trans {r₁ r₂ r₃ : ErasureRequestRow} (h : Later r₁ r₂) (h' : Later r₂ r₃) :
    Later r₁ r₃ where
  owner u hu := h.owner u (h'.owner u hu)
  final hover := by
    have h₂ := h.final hover
    rw [← h₂]
    exact h'.final (h₂ ▸ hover)
  scheduled hpending := by
    obtain ⟨h₂, hs₂⟩ := h.scheduled hpending
    obtain ⟨h₃, hs₃⟩ := h'.scheduled h₂
    exact ⟨h₃, hs₃.trans hs₂⟩

theorem Later.active {r r' : ErasureRequestRow} (h : Later r r') (hactive : r'.active) :
    r.active := by
  cases hs : r.status with
  | completed => simp [ErasureRequestRow.active, h.final (.inl hs), hs] at hactive
  | cancelled => simp [ErasureRequestRow.active, h.final (.inr hs), hs] at hactive
  | _ => simp [ErasureRequestRow.active, hs]

/-- Time passes and requests get later; none disappears. -/
def erasureRely : Lib.Rely World where
  rel w w' := w.now ≤ w'.now ∧ ∀ id r, w.db.erasureRequests.get? id = some r →
    ∃ r', w'.db.erasureRequests.get? id = some r' ∧ Later r r'
  refl w := ⟨le_rfl, fun _ r h => ⟨r, h, .refl r⟩⟩
  trans h h' := by
    refine ⟨h.1.trans h'.1, fun id r hr => ?_⟩
    obtain ⟨r₂, hr₂, hlater⟩ := h.2 id r hr
    obtain ⟨r₃, hr₃, hlater'⟩ := h'.2 id r₂ hr₂
    exact ⟨r₃, hr₃, hlater.trans hlater'⟩

/-- The grace period of the request has elapsed: it is not pending, and was scheduled by now. -/
def Due (id : Uuid) (w : World) : Prop :=
  ∃ r, w.db.erasureRequests.get? id = some r ∧ r.status ≠ .pending ∧ r.scheduledFor ≤ w.now

theorem due_stable (id : Uuid) : erasureRely.Stable (Due id) := by
  rintro w w' ⟨hnow, hrows⟩ ⟨r, hr, hpending, hdue⟩
  obtain ⟨r', hr', hlater⟩ := hrows id r hr
  obtain ⟨hpending', hsame⟩ := hlater.scheduled hpending
  exact ⟨r', hr', hpending', hsame ▸ hdue.trans hnow⟩

/-! ### The effect of an execution -/

/-- The completion entries of a request in the audit log. -/
def completions (w : World) (id : Uuid) : ℕ :=
  w.db.adminAuditLogs.rows.countP fun r =>
    r.entry.action = (erasureAudit id).action && r.entry.target = (erasureAudit id).target

/-- The row of a request when another, or itself, is executed for its user. -/
def executedRow (id u : Uuid) (now : Timestamp) (r : ErasureRequestRow) : ErasureRequestRow :=
  let done : ErasureRequestRow :=
    if r.id = id then { r with status := .completed, completedAt := some now } else r
  if done.userId = some u then { done with userId := none } else done

/-- A confirmed and due request was executed: its user is gone, it is completed, and there is one
completion entry more. -/
structure ErasureExecuted (id u : Uuid) (w w' : World) : Prop where
  /-- The request was confirmed and due. -/
  due : ∃ r, w.db.erasureRequests.get? id = some r ∧ r.userId = some u ∧ r.status = .confirmed ∧
    r.scheduledFor ≤ w.now
  /-- The rows after it. -/
  rows : ∃ now, ∀ id', w'.db.erasureRequests.get? id' =
    (w.db.erasureRequests.get? id').map (executedRow id u now)
  /-- The user is gone, and no other. -/
  users : ∀ v, w'.db.HasUser v ↔ w.db.HasUser v ∧ v ≠ u
  /-- One completion entry more. -/
  audits : ∀ id', completions w' id' = completions w id' + if id' = id then 1 else 0
  /-- The clock. -/
  now : w'.now = w.now

theorem completions_append {w w' : World} {row : AdminAuditRow}
    (h : w'.db.adminAuditLogs.rows = w.db.adminAuditLogs.rows ++ [row]) (id : Uuid) :
    completions w' id = completions w id +
      if row.entry.action = (erasureAudit id).action ∧ row.entry.target = (erasureAudit id).target
      then 1 else 0 := by
  simp only [completions, h, List.countP_append, List.countP_singleton, Bool.and_eq_true,
    decide_eq_true_eq]

theorem erasureRequests_of_deleteUser {now : Timestamp} {u : Uuid} {db db' : Db}
    (h : db.deleteUser now u = some db') (id : Uuid) :
    db'.erasureRequests.get? id = (db.erasureRequests.get? id).map fun r =>
      if r.userId = some u then { r with userId := none } else r := by
  simp only [Db.deleteUser, Option.bind_eq_bind, Option.bind_eq_some_iff, Option.pure_def,
    Option.some.injEq] at h
  obtain ⟨_, -, _, -, _, -, _, -, _, -, t, ht, _, -, _, -, _, -, rfl⟩ := h
  obtain ⟨t₁, hfire, hnil⟩ := Lib.fireAll_cons_eq_some_iff.mp ht
  obtain rfl := Option.some.inj hnil
  have heq := ForeignKey.eq_of_fire hfire
  simp only [ErasureRequestRow.userFk] at heq
  subst heq
  simp only [Table.get?_updateWhere, ForeignKey.refers, decide_eq_true_eq]

theorem erasureRequests_of_claim (now : Timestamp) (id u : Uuid) (purge : Bool) (db : Db)
    (id' : Uuid) :
    (((db.claimErasure now id).2.scrubLoginEvents purge u).scrubAuditLogs u).erasureRequests.get?
        id' =
      (db.erasureRequests.get? id').map fun r =>
        if id' = id ∧ r.status = .confirmed then
          { r with status := .completed, completedAt := some now }
        else r := by
  refine (Table.get?_updateOne db.erasureRequests id id' _ _).trans ?_
  simp only [decide_eq_true_eq]

/-- The statements of an execution, when none of them is refused. -/
theorem erasureExecuted_of_statements {hash : ChainHash} {id u : Uuid} {purge : Bool} {w : World}
    {r : ErasureRequestRow} {db : Db} {log : Table AdminAuditRow}
    (hr : w.db.erasureRequests.get? id = some r) (huser : r.userId = some u)
    (hconf : r.status = .confirmed) (hscheduled : r.scheduledFor ≤ w.now)
    (hdel : (((w.db.claimErasure w.now id).2.scrubLoginEvents purge u).scrubAuditLogs u).deleteUser
      w.now u = some db)
    (happend : appendAdminAudit hash w.now (erasureAudit id) db.adminAuditLogs = .ok log) :
    ErasureExecuted id u w { w with db := { db with adminAuditLogs := log } } where
  due := ⟨r, hr, huser, hconf, hscheduled⟩
  rows := by
    refine ⟨w.now, fun id' => ?_⟩
    refine (erasureRequests_of_deleteUser hdel id').trans ?_
    rw [erasureRequests_of_claim, Option.map_map]
    cases hr' : w.db.erasureRequests.get? id' with
    | none => rfl
    | some r' =>
      have hkey : r'.id = id' := Table.key_of_get? hr'
      have hsame : id' = id → r' = r := by
        rintro rfl
        exact Option.some.inj (hr'.symm.trans hr)
      by_cases hid : id' = id
      · obtain rfl := hsame hid
        simp [executedRow, hkey, hid, hconf]
      · simp [executedRow, hkey, hid]
  users := by
    intro v
    have hgone := (userGone_of_deleteUser hdel).user
    change (db.users.get? v).isSome ↔ (w.db.users.get? v).isSome ∧ v ≠ u
    rw [hgone, Table.get?_deleteWhere]
    change ((w.db.users.get? v).filter _).isSome ↔ _
    cases hv : w.db.users.get? v with
    | none => simp
    | some x =>
      have hkey : x.id = v := Table.key_of_get? hv
      by_cases hvu : v = u
      · simp [Option.filter, hkey, hvu]
      · simp [Option.filter, hkey, hvu]
  audits := by
    intro id'
    have hlogs : db.adminAuditLogs = w.db.adminAuditLogs :=
      (adminAuditLogs_of_deleteUser hdel).trans rfl
    obtain ⟨row, hrows, -, hentry⟩ := appendAdminAudit_rows happend
    rw [completions_append (hrows.trans (by rw [hlogs])) id', hentry]
    by_cases hid : id' = id
    · simp [hid]
    · have hne : uuidText id ≠ uuidText id' := fun h => hid (uuidText_injective h).symm
      simp [erasureAudit, hne, hid]
  now := rfl

/-- **An execution does nothing, or all of it.** -/
theorem executeErasure_cases (hash : ChainHash) {id : Uuid} (purge : Bool) {w : World}
    (hdue : Due id w) :
    (executeErasure hash w.now id purge w.db).2 = w.db ∨
      ∃ u, ErasureExecuted id u w { w with db := (executeErasure hash w.now id purge w.db).2 } := by
  obtain ⟨r, hr, -, hscheduled⟩ := hdue
  by_cases hconf : r.status = .confirmed
  · have hclaim := claimErasure_of_confirmed w.now hr hconf
    cases huser : r.userId with
    | none => exact .inl (by simp only [executeErasure, hclaim, huser])
    | some u =>
      cases hdel : (((w.db.claimErasure w.now id).2.scrubLoginEvents purge u).scrubAuditLogs
          u).deleteUser w.now u with
      | none => exact .inl (by simp only [executeErasure, hclaim, huser, hdel])
      | some db₂ =>
        cases happend : appendAdminAudit hash w.now (erasureAudit id) db₂.adminAuditLogs with
        | error e => exact .inl (by simp only [executeErasure, hclaim, huser, hdel, happend])
        | ok log =>
          have hexec : (executeErasure hash w.now id purge w.db).2 =
              { db₂ with adminAuditLogs := log } := by
            simp only [executeErasure, hclaim, huser, hdel, happend]
          rw [hexec]
          exact .inr ⟨u, erasureExecuted_of_statements hr huser hconf hscheduled hdel happend⟩
  · -- the claim finds no confirmed request
    refine .inl ?_
    have hclaim : (w.db.claimErasure w.now id).1 = none := by
      simp [Db.claimErasure, Table.updateOne, hr, Option.filter, hconf]
    simp only [executeErasure, hclaim, Option.bind_none]

theorem later_executedRow {id u : Uuid} {now : Timestamp} {r : ErasureRequestRow}
    (h : r.id = id → r.status = .confirmed) : Later r (executedRow id u now r) := by
  -- clearing the user changes neither status nor schedule
  have hclear (r' : ErasureRequestRow) : Later r'
      (if r'.userId = some u then { r' with userId := none } else r') := by
    split_ifs
    · exact ⟨fun v hv => by simp at hv, fun _ => rfl, fun hpending => ⟨hpending, rfl⟩⟩
    · exact .refl r'
  refine Later.trans ?_ (hclear _)
  by_cases hid : r.id = id
  · rw [if_pos hid]
    refine ⟨fun _ hv => hv, fun hover => ?_, fun _ => ⟨by simp, rfl⟩⟩
    simp [h hid] at hover
  · rw [if_neg hid]
    exact .refl r

theorem ErasureExecuted.rely {id u : Uuid} {w w' : World} (h : ErasureExecuted id u w w') :
    erasureRely.rel w w' := by
  refine ⟨h.now.ge, fun id' r hr => ?_⟩
  obtain ⟨now, hrows⟩ := h.rows
  obtain ⟨r₀, hr₀, -, hconf, -⟩ := h.due
  refine ⟨executedRow id u now r, by rw [hrows, hr, Option.map_some], later_executedRow fun hid => ?_⟩
  have hkey : r.id = id' := Table.key_of_get? hr
  obtain rfl := Option.some.inj ((hkey.symm.trans hid ▸ hr).symm.trans hr₀)
  exact hconf

/-! ### What a sweep does -/

/-- A worker does nothing, or executes a confirmed and due request. -/
def Sweeps (w w' : World) : Prop := w' = w ∨ ∃ id u, ErasureExecuted id u w w'

theorem Sweeps.rely {w w' : World} (h : Sweeps w w') : erasureRely.rel w w' := by
  rcases h with rfl | ⟨id, u, h⟩
  · exact erasureRely.refl w'
  · exact h.rely

theorem guarantees_sweepOne (hash : ChainHash) (purge : Bool) {id : Uuid} {P : World → Prop}
    (hP : erasureRely.Stable P) {w : World} (hdue : Due id w) (hw : P w) :
    (sweepOne hash purge id).Guarantees erasureRely Sweeps (fun _ => P) w := by
  intro w' hR
  have hstep : Sweeps w' { w' with db := (executeErasure hash w'.now id purge w'.db).2 } := by
    rcases executeErasure_cases hash purge (due_stable id w w' hR hdue) with hsame | ⟨u, hexec⟩
    · exact .inl (by rw [hsame])
    · exact .inr ⟨id, u, hexec⟩
  have hw' : P w' := hP w w' hR hw
  exact ⟨hstep, hP _ _ hstep.rely hw', hw'⟩

theorem guarantees_sweepEach (hash : ChainHash) (purge : Bool) (due : List ErasureRequestRow)
    {w : World} (hdue : ∀ r ∈ due, Due r.id w) :
    (sweepEach hash purge due).Guarantees erasureRely Sweeps (fun _ _ => True) w := by
  induction due generalizing w with
  | nil => trivial
  | cons r rest ih =>
    obtain ⟨hr, hrest⟩ := List.forall_mem_cons.mp hdue
    -- those still to come stay due while the first is executed
    have hstable : erasureRely.Stable fun w => ∀ r ∈ rest, Due r.id w :=
      fun w w' hR h r' hr' => due_stable r'.id w w' hR (h r' hr')
    refine Prog.Guarantees.bind ?_
    have hone := guarantees_sweepOne hash purge hstable hr hrest
    exact hone.imp (fun _ _ h => h) fun done w hrest =>
      Prog.Guarantees.bind ((ih hrest).imp (fun _ _ h => h) fun _ _ _ => trivial)

/-- **A sweep executes only what is confirmed and due**, whatever happens since it was read. -/
theorem guarantees_runErasureSweep (hash : ChainHash) (purge : Bool) (batch : ℕ)
    (locked : Uuid → Bool) (w : World) :
    (runErasureSweep hash purge batch locked).Guarantees erasureRely Sweeps (fun _ _ => True) w := by
  refine Prog.Guarantees.bind (Prog.guarantees_read (fun _ => .inl rfl) fun w' _ => ?_)
  refine guarantees_sweepEach hash purge _ fun r hr => ?_
  obtain ⟨hmem, hcond⟩ := Table.mem_select.mp (List.mem_of_mem_take hr)
  simp only [Bool.and_eq_true, decide_eq_true_eq] at hcond
  exact ⟨r, Table.get?_of_mem hmem, by simp [hcond.1.1], hcond.1.2⟩

end SmirkBackend
