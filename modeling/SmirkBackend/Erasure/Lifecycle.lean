import SmirkBackend.Auth.Takeover
import SmirkBackend.Erasure.Sweep

/-!
# The lifecycle of an erasure

Clients request, confirm and cancel erasures while workers sweep.  A request that is confirmed
keeps its grace period, and one that is over stays over, so what a sweep has read as due may be
cancelled or completed by the time of its execution but not rescheduled; the execution itself
asks for a confirmed request again.

Every call does what its kind allows (`guarantees_handler`), and `erasure_safe` draws the conclusion
over every interleaving of calls: at most one live request for a user, one completion entry for a
request, and no execution of what was cancelled.
-/

namespace SmirkBackend

open Lib (Table Prog)

/-! ### What the calls do -/

/-- No user disappears, no completion entry is written, and the clock does not go back. -/
structure ErasureFrame (w w' : World) : Prop where
  /-- Users stay. -/
  users : ∀ u, w.db.HasUser u → w'.db.HasUser u
  /-- Completion entries stay as they are. -/
  audits : ∀ id, completions w' id = completions w id
  /-- Time passes. -/
  now : w.now ≤ w'.now

theorem ErasureFrame.of_eq {w w' : World} (husers : w'.db.users = w.db.users)
    (hlogs : w'.db.adminAuditLogs = w.db.adminAuditLogs) (hnow : w'.now = w.now) :
    ErasureFrame w w' where
  users u hu := by
    unfold Db.HasUser
    rw [husers]
    exact hu
  audits id := by simp only [completions, hlogs]
  now := hnow.ge

/-- The requests stay as they are. -/
structure ErasureIdle (w w' : World) : Prop extends ErasureFrame w w' where
  /-- The requests. -/
  requests : w'.db.erasureRequests = w.db.erasureRequests

theorem ErasureIdle.refl (w : World) : ErasureIdle w w := ⟨.of_eq rfl rfl rfl, rfl⟩

/-- A pending request of a user without a live one was added. -/
structure ErasureRequested (w w' : World) : Prop extends ErasureFrame w w' where
  /-- The new row. -/
  inserted : ∃ row u, row.status = .pending ∧ row.userId = some u ∧
    w.db.activeErasureRequest u = none ∧
    w.db.erasureRequests.insert? row = some w'.db.erasureRequests

/-- The rows were changed by `f`. -/
structure ErasureUpdated (f : ErasureRequestRow → ErasureRequestRow) (w w' : World) : Prop
    extends ErasureFrame w w' where
  /-- The rows after it. -/
  rows : ∀ id, w'.db.erasureRequests.get? id = (w.db.erasureRequests.get? id).map f

/-- A row when a pending request of a user is confirmed. -/
def confirmedRow (id u : Uuid) (now due : Timestamp) (r : ErasureRequestRow) :
    ErasureRequestRow :=
  if r.id = id ∧ r.userId = some u ∧ r.status = .pending then
    { r with status := .confirmed, confirmedAt := some now, scheduledFor := due }
  else r

/-- A row when a live request of a user is cancelled. -/
def cancelledRow (id u : Uuid) (now : Timestamp) (r : ErasureRequestRow) : ErasureRequestRow :=
  if r.id = id ∧ r.userId = some u ∧ r.active then
    { r with status := .cancelled, cancelledAt := some now }
  else r

/-- The end of the grace period of a confirmation. -/
def graceEnd (env : ErasureEnv) (a : ErasureAnswers) : Timestamp :=
  a.clock + seconds (env.gracePeriodHours * 3600)

/-- What a call does to the requests, if anything. -/
def ErasureCall.Does : ErasureCall → World → World → Prop
  | request _ _ _, w, w' => ErasureRequested w w'
  | confirm env a id _, w, w' =>
    ∃ u now, ErasureUpdated (confirmedRow id u now (graceEnd env a)) w w'
  | cancel _ _ id _, w, w' => ∃ u now, ErasureUpdated (cancelledRow id u now) w w'
  | sweep _ _ _ _, w, w' => ∃ id u, ErasureExecuted id u w w'

/-- A step of a call. -/
def ErasureCall.Step (q : ErasureCall) (w w' : World) : Prop := ErasureIdle w w' ∨ q.Does w w'

theorem ErasureCall.Step.refl (q : ErasureCall) (w : World) : q.Step w w := .inl (.refl w)

section Steps

variable {q : ErasureCall}

theorem steps_select_erasure {α : Type} (f : Db → α) : (select f).Steps q.Step :=
  Prog.steps_read (ErasureCall.Step.refl q)

theorem steps_recordErasureAudit_idle (hash : ChainHash) {action : String}
    (haction : action ≠ "account_erasure_completed") (id : Uuid) :
    (recordErasureAudit hash action id).Steps q.Step := by
  refine Prog.steps_attempt fun w => .inl ?_
  simp only
  split
  · next logs happend =>
    obtain ⟨row, hrows, -, hentry⟩ := appendAdminAudit_rows happend
    refine ⟨⟨fun _ hu => hu, fun id' => ?_, le_rfl⟩, rfl⟩
    rw [completions_append hrows id', hentry]
    simp [erasureAudit, haction]
  · exact .refl w

theorem steps_prove_idle (env : ErasureEnv) (a : ErasureAnswers) (body : ProofRequest)
    (purpose actionPath : String) (target : Option (String × String)) :
    (prove env a body purpose actionPath target).Steps q.Step := by
  refine (Prog.steps_ofExcept _).bind fun url => (Prog.steps_ofExcept _).bind fun pubkey => ?_
  refine Prog.Steps.bind (Prog.steps_query fun w => .inl ⟨.of_eq rfl rfl rfl, rfl⟩) fun found => ?_
  cases found with
  | none => trivial
  | some _ => exact (steps_select_erasure _).bind fun _ => trivial

theorem steps_revokeAllUserSessions_idle (u : Uuid) : (revokeAllUserSessions u).Steps q.Step :=
  Prog.steps_attempt fun _ => .inl ⟨.of_eq rfl rfl rfl, rfl⟩

end Steps

theorem steps_insertErasureRequest (env : ErasureEnv) (a : ErasureAnswers) (body : ProofRequest)
    (id u : Uuid) (subjectHash : String) (scheduledFor : Timestamp) :
    (insertErasureRequest id u subjectHash scheduledFor).Steps
      (ErasureCall.request env a body).Step := by
  refine Prog.steps_query fun w => ?_
  simp only
  split_ifs with huser hactive
  · exact .inl (.refl w)
  · exact .inl (.refl w)
  · split
    · next t hins =>
      refine .inr ⟨.of_eq rfl rfl rfl, _, u, rfl, rfl, ?_, hins⟩
      exact Option.not_isSome_iff_eq_none.mp hactive
    · exact .inl (.refl w)

theorem steps_requestErasure (env : ErasureEnv) (a : ErasureAnswers) (body : ProofRequest) :
    (ErasureCall.request env a body).handler.Steps (ErasureCall.request env a body).Step := by
  refine Prog.Steps.bind ?_ fun _ => trivial
  refine (Prog.steps_ofExcept _).bind fun _ => (steps_prove_idle _ _ _ _ _ _).bind fun found => ?_
  obtain ⟨pubkey, user⟩ := found
  cases user with
  | none => trivial
  | some u =>
    refine Prog.Steps.bind ?_ fun req => (steps_recordErasureAudit_idle _ (by decide) _).bind
      fun _ => trivial
    refine (steps_select_erasure _).bind fun found => ?_
    cases found with
    | some existing => trivial
    | none =>
      refine (steps_insertErasureRequest _ _ _ _ _ _ _).bind fun inserted => ?_
      cases inserted with
      | some row => trivial
      | none =>
        refine (steps_select_erasure _).bind fun winner => ?_
        cases winner <;> trivial

theorem steps_confirmErasure (env : ErasureEnv) (a : ErasureAnswers) (id : Uuid)
    (body : ProofRequest) :
    (ErasureCall.confirm env a id body).handler.Steps (ErasureCall.confirm env a id body).Step := by
  refine Prog.Steps.bind ?_ fun _ => trivial
  refine (Prog.steps_ofExcept _).bind fun _ => (steps_prove_idle _ _ _ _ _ _).bind fun found => ?_
  obtain ⟨pubkey, user⟩ := found
  cases user with
  | none => trivial
  | some u =>
    refine Prog.Steps.bind (Prog.steps_query fun w => .inr ⟨u.id, w.now, .of_eq rfl rfl rfl, ?_⟩)
      fun updated => ?_
    · intro id'
      refine (Table.get?_updateOne w.db.erasureRequests id id' _ _).trans ?_
      cases hr : w.db.erasureRequests.get? id' with
      | none => rfl
      | some r =>
        have hkey : r.id = id' := Table.key_of_get? hr
        simp [confirmedRow, graceEnd, hkey]
    · cases updated with
      | none => trivial
      | some req =>
        refine (steps_revokeAllUserSessions_idle _).bind fun _ => ?_
        exact (steps_recordErasureAudit_idle _ (by decide) _).bind fun _ => trivial

theorem steps_cancelErasure (env : ErasureEnv) (a : ErasureAnswers) (id : Uuid)
    (body : ProofRequest) :
    (ErasureCall.cancel env a id body).handler.Steps (ErasureCall.cancel env a id body).Step := by
  refine Prog.Steps.bind ?_ fun _ => trivial
  refine (Prog.steps_ofExcept _).bind fun _ => (steps_prove_idle _ _ _ _ _ _).bind fun found => ?_
  obtain ⟨pubkey, user⟩ := found
  cases user with
  | none => trivial
  | some u =>
    refine Prog.Steps.bind (Prog.steps_query fun w => .inr ⟨u.id, w.now, .of_eq rfl rfl rfl, ?_⟩)
      fun updated => ?_
    · intro id'
      refine (Table.get?_updateOne w.db.erasureRequests id id' _ _).trans ?_
      cases hr : w.db.erasureRequests.get? id' with
      | none => rfl
      | some r =>
        have hkey : r.id = id' := Table.key_of_get? hr
        simp [cancelledRow, hkey]
    · cases updated with
      | none => trivial
      | some req => exact (steps_recordErasureAudit_idle _ (by decide) _).bind fun _ => trivial

/-- **Every call does what its kind allows.** -/
theorem guarantees_handler (q : ErasureCall) (w : World) :
    q.handler.Guarantees erasureRely q.Step (fun _ _ => True) w := by
  cases q with
  | request env a body =>
    exact (steps_requestErasure env a body).guarantees (fun _ _ => trivial) w
  | confirm env a id body =>
    exact (steps_confirmErasure env a id body).guarantees (fun _ _ => trivial) w
  | cancel env a id body =>
    exact (steps_cancelErasure env a id body).guarantees (fun _ _ => trivial) w
  | sweep hash purge batch locked =>
    refine Prog.Guarantees.bind ?_
    refine (guarantees_runErasureSweep hash purge batch locked w).imp ?_ fun _ _ _ => trivial
    rintro w w' (rfl | hexec)
    · exact .inl (.refl _)
    · exact .inr hexec

/-! ### What lasts -/

theorem later_confirmedRow (id u : Uuid) (now due : Timestamp) (r : ErasureRequestRow) :
    Later r (confirmedRow id u now due r) := by
  unfold confirmedRow
  split_ifs with h
  · exact ⟨fun _ hv => hv, fun hover => by simp [h.2.2] at hover, fun hne => (hne h.2.2).elim⟩
  · exact .refl r

theorem later_cancelledRow (id u : Uuid) (now : Timestamp) (r : ErasureRequestRow) :
    Later r (cancelledRow id u now r) := by
  unfold cancelledRow
  split_ifs with h
  · refine ⟨fun _ hv => hv, fun hover => ?_, fun _ => ⟨by simp, rfl⟩⟩
    obtain ⟨-, -, hactive⟩ := h
    rcases hover with hs | hs <;> simp [ErasureRequestRow.active, hs] at hactive
  · exact .refl r

theorem ErasureUpdated.rely {f : ErasureRequestRow → ErasureRequestRow} {w w' : World}
    (h : ErasureUpdated f w w') (hf : ∀ r, Later r (f r)) : erasureRely.rel w w' :=
  ⟨h.now, fun id r hr => ⟨f r, by rw [h.rows, hr, Option.map_some], hf r⟩⟩

theorem ErasureIdle.rely {w w' : World} (h : ErasureIdle w w') : erasureRely.rel w w' :=
  ⟨h.now, fun _ r hr => ⟨r, by rw [h.requests, hr], .refl r⟩⟩

theorem ErasureRequested.rely {w w' : World} (h : ErasureRequested w w') :
    erasureRely.rel w w' := by
  obtain ⟨row, u, -, -, -, hins⟩ := h.inserted
  refine ⟨h.now, fun id r hr => ⟨r, ?_, .refl r⟩⟩
  rw [Table.get?_insert? hins]
  split_ifs with hid
  · -- the new row has an identifier of its own
    have hnone := (Table.insert?_eq_some_iff.mp hins).1
    rw [← hid, hr] at hnone
    cases hnone
  · exact hr

theorem ErasureCall.Step.rely {q : ErasureCall} {w w' : World} (h : q.Step w w') :
    erasureRely.rel w w' := by
  rcases h with hidle | hdoes
  · exact hidle.rely
  · cases q with
    | request env a body => exact ErasureRequested.rely hdoes
    | confirm env a id body =>
      obtain ⟨u, now, hupd⟩ := hdoes
      exact hupd.rely (later_confirmedRow id u now _)
    | cancel env a id body =>
      obtain ⟨u, now, hupd⟩ := hdoes
      exact hupd.rely (later_cancelledRow id u now)
    | sweep hash purge batch locked =>
      obtain ⟨id, u, hexec⟩ := hdoes
      exact hexec.rely

/-! ### One live request -/

/-- A user has at most one live request. -/
def OneLive (w : World) : Prop :=
  ∀ id id' r r' u, w.db.erasureRequests.get? id = some r → w.db.erasureRequests.get? id' = some r' →
    r.userId = some u → r'.userId = some u → r.active → r'.active → id = id'

/-- Every row is a later version of one there was. -/
def FromBefore (w w' : World) : Prop :=
  ∀ id r', w'.db.erasureRequests.get? id = some r' →
    ∃ r, w.db.erasureRequests.get? id = some r ∧ Later r r'

theorem FromBefore.oneLive {w w' : World} (h : FromBefore w w') (hone : OneLive w) :
    OneLive w' := by
  intro id id' r r' u hr hr' hu hu' hactive hactive'
  obtain ⟨r₀, hr₀, hlater⟩ := h id r hr
  obtain ⟨r₀', hr₀', hlater'⟩ := h id' r' hr'
  exact hone id id' r₀ r₀' u hr₀ hr₀' (hlater.owner u hu) (hlater'.owner u hu')
    (hlater.active hactive) (hlater'.active hactive')

theorem ErasureUpdated.fromBefore {f : ErasureRequestRow → ErasureRequestRow} {w w' : World}
    (h : ErasureUpdated f w w') (hf : ∀ r, Later r (f r)) : FromBefore w w' := by
  intro id r' hr'
  rw [h.rows, Option.map_eq_some_iff] at hr'
  obtain ⟨r, hr, rfl⟩ := hr'
  exact ⟨r, hr, hf r⟩

theorem ErasureIdle.fromBefore {w w' : World} (h : ErasureIdle w w') : FromBefore w w' :=
  fun _ r' hr' => ⟨r', h.requests ▸ hr', .refl r'⟩

theorem ErasureExecuted.fromBefore {id u : Uuid} {w w' : World} (h : ErasureExecuted id u w w') :
    FromBefore w w' := by
  intro id' r' hr'
  obtain ⟨now, hrows⟩ := h.rows
  rw [hrows, Option.map_eq_some_iff] at hr'
  obtain ⟨r, hr, rfl⟩ := hr'
  obtain ⟨r₀, hr₀, -, hconf, -⟩ := h.due
  refine ⟨r, hr, later_executedRow fun hid => ?_⟩
  have hkey : r.id = id' := Table.key_of_get? hr
  obtain rfl := Option.some.inj ((hkey.symm.trans hid ▸ hr).symm.trans hr₀)
  exact hconf

theorem ErasureRequested.oneLive {w w' : World} (h : ErasureRequested w w') (hone : OneLive w) :
    OneLive w' := by
  obtain ⟨row, u, -, huser, hnone, hins⟩ := h.inserted
  have hfree : ∀ id r, w.db.erasureRequests.get? id = some r → r.userId = some u → ¬ r.active := by
    intro id r hr hu hactive
    have := List.find?_eq_none.mp hnone r (Table.mem_of_get? hr)
    simp [hu, hactive] at this
  intro id id' r r' v hr hr' hv hv' hactive hactive'
  rw [Table.get?_insert? hins] at hr hr'
  split_ifs at hr hr' with hid hid' hid'
  · rw [hid, hid']
  · obtain rfl := Option.some.inj hr
    obtain rfl : u = v := Option.some.inj (huser.symm.trans hv)
    exact (hfree id' r' hr' hv' hactive').elim
  · obtain rfl := Option.some.inj hr'
    obtain rfl : u = v := Option.some.inj (huser.symm.trans hv')
    exact (hfree id r hr hv hactive).elim
  · exact hone id id' r r' v hr hr' hv hv' hactive hactive'

theorem ErasureCall.Step.oneLive {q : ErasureCall} {w w' : World} (h : q.Step w w')
    (hone : OneLive w) : OneLive w' := by
  rcases h with hidle | hdoes
  · exact hidle.fromBefore.oneLive hone
  · cases q with
    | request env a body => exact ErasureRequested.oneLive hdoes hone
    | confirm env a id body =>
      obtain ⟨u, now, hupd⟩ := hdoes
      exact (hupd.fromBefore (later_confirmedRow id u now _)).oneLive hone
    | cancel env a id body =>
      obtain ⟨u, now, hupd⟩ := hdoes
      exact (hupd.fromBefore (later_cancelledRow id u now)).oneLive hone
    | sweep hash purge batch locked =>
      obtain ⟨id, u, hexec⟩ := hdoes
      exact hexec.fromBefore.oneLive hone

/-! ### One completion entry -/

/-- A request has at most one completion entry, and none before it is completed. -/
def AuditedOnce (w : World) : Prop :=
  ∀ id, completions w id ≤ 1 ∧ (completions w id = 1 →
    ∃ r, w.db.erasureRequests.get? id = some r ∧ r.status = .completed)

theorem auditedOnce_of_frame {w w' : World} (hframe : ErasureFrame w w')
    (hrely : erasureRely.rel w w') (h : AuditedOnce w) : AuditedOnce w' := by
  intro id
  rw [hframe.audits]
  refine ⟨(h id).1, fun hone => ?_⟩
  obtain ⟨r, hr, hs⟩ := (h id).2 hone
  obtain ⟨r', hr', hlater⟩ := hrely.2 id r hr
  exact ⟨r', hr', (hlater.final (.inl hs)).trans hs⟩

theorem ErasureExecuted.auditedOnce {id u : Uuid} {w w' : World} (hexec : ErasureExecuted id u w w')
    (h : AuditedOnce w) : AuditedOnce w' := by
  intro id'
  rw [hexec.audits]
  obtain ⟨r, hr, huser, hconf, -⟩ := hexec.due
  by_cases hid : id' = id
  · -- a request that is confirmed has no entry yet
    subst hid
    have hnone : completions w id' = 0 := by
      have hle := (h id').1
      have hne : completions w id' ≠ 1 := by
        intro hone
        obtain ⟨r', hr', hs⟩ := (h id').2 hone
        obtain rfl := Option.some.inj (hr.symm.trans hr')
        simp [hconf] at hs
      omega
    obtain ⟨now, hrows⟩ := hexec.rows
    have hkey : r.id = id' := Table.key_of_get? hr
    refine ⟨by simp [hnone], fun _ => ⟨executedRow id' u now r, by rw [hrows, hr, Option.map_some], ?_⟩⟩
    simp [executedRow, hkey, huser]
  · rw [if_neg hid, Nat.add_zero]
    refine ⟨(h id').1, fun hone => ?_⟩
    obtain ⟨r', hr', hs⟩ := (h id').2 hone
    obtain ⟨r₂, hr₂, hlater⟩ := hexec.rely.2 id' r' hr'
    exact ⟨r₂, hr₂, (hlater.final (.inl hs)).trans hs⟩

theorem ErasureCall.Step.auditedOnce {q : ErasureCall} {w w' : World} (hstep : q.Step w w')
    (h : AuditedOnce w) : AuditedOnce w' := by
  have hrely := hstep.rely
  rcases hstep with hidle | hdoes
  · exact auditedOnce_of_frame hidle.toErasureFrame hrely h
  · cases q with
    | request env a body =>
      exact auditedOnce_of_frame (ErasureRequested.toErasureFrame hdoes) hrely h
    | confirm env a id body =>
      obtain ⟨u, now, hupd⟩ := hdoes
      exact auditedOnce_of_frame hupd.toErasureFrame hrely h
    | cancel env a id body =>
      obtain ⟨u, now, hupd⟩ := hdoes
      exact auditedOnce_of_frame hupd.toErasureFrame hrely h
    | sweep hash purge batch locked =>
      obtain ⟨id, u, hexec⟩ := hdoes
      exact hexec.auditedOnce h

/-! ### Events -/

/-- A pending request of `u` was confirmed; its grace period ends at `due`. -/
def Confirms (id u : Uuid) (due : Timestamp) (w w' : World) : Prop :=
  (∃ r, w.db.erasureRequests.get? id = some r ∧ r.userId = some u ∧ r.status = .pending) ∧
    ∃ r, w'.db.erasureRequests.get? id = some r ∧ r.userId = some u ∧ r.status = .confirmed ∧
      r.scheduledFor = due

/-- A live request was cancelled. -/
def Cancels (id : Uuid) (w w' : World) : Prop :=
  (∃ r, w.db.erasureRequests.get? id = some r ∧ r.active) ∧
    ∃ r, w'.db.erasureRequests.get? id = some r ∧ r.status = .cancelled

/-- A request was completed. -/
def Executes (id : Uuid) (w w' : World) : Prop :=
  (∃ r, w.db.erasureRequests.get? id = some r ∧ r.status ≠ .completed) ∧
    ∃ r, w'.db.erasureRequests.get? id = some r ∧ r.status = .completed

/-- A request is confirmed, with a grace period that ends at `due`. -/
def ConfirmedUntil (id : Uuid) (due : Timestamp) (w : World) : Prop :=
  ∃ r, w.db.erasureRequests.get? id = some r ∧ r.status = .confirmed ∧ r.scheduledFor = due

/-- Only a confirmation confirms. -/
theorem confirms_of_step {q : ErasureCall} {w w' : World} (hstep : q.Step w w') {id : Uuid}
    {due : Timestamp} (hbefore : ¬ ConfirmedUntil id due w) (hafter : ConfirmedUntil id due w') :
    ∃ env a body u, q = .confirm env a id body ∧ graceEnd env a = due ∧ Confirms id u due w w' := by
  obtain ⟨r', hr', hconf, hdue⟩ := hafter
  rcases hstep with hidle | hdoes
  · exact (hbefore ⟨r', hidle.requests ▸ hr', hconf, hdue⟩).elim
  · cases q with
    | request env a body =>
      obtain ⟨row, u, hpending, -, -, hins⟩ := ErasureRequested.inserted hdoes
      rw [Table.get?_insert? hins] at hr'
      split_ifs at hr' with hid
      · obtain rfl := Option.some.inj hr'
        simp [hpending] at hconf
      · exact (hbefore ⟨r', hr', hconf, hdue⟩).elim
    | confirm env a id' body =>
      obtain ⟨u, now, hupd⟩ := hdoes
      have hrow := hr'
      rw [hupd.rows, Option.map_eq_some_iff] at hrow
      obtain ⟨r, hr, rfl⟩ := hrow
      have hkey : r.id = id := Table.key_of_get? hr
      by_cases hhit : r.id = id' ∧ r.userId = some u ∧ r.status = .pending
      · obtain ⟨hid, huser, hpending⟩ := hhit
        obtain rfl : id' = id := hid.symm.trans hkey
        have hrow : confirmedRow id' u now (graceEnd env a) r = { r with
            status := .confirmed, confirmedAt := some now, scheduledFor := graceEnd env a } :=
          if_pos ⟨hid, huser, hpending⟩
        rw [hrow] at hdue hr'
        exact ⟨env, a, body, u, rfl, hdue, ⟨r, hr, huser, hpending⟩, _, hr', huser, rfl, hdue⟩
      · rw [confirmedRow, if_neg hhit] at hconf hdue
        exact (hbefore ⟨r, hr, hconf, hdue⟩).elim
    | cancel env a id' body =>
      obtain ⟨u, now, hupd⟩ := hdoes
      rw [hupd.rows, Option.map_eq_some_iff] at hr'
      obtain ⟨r, hr, rfl⟩ := hr'
      by_cases hhit : r.id = id' ∧ r.userId = some u ∧ r.active
      · simp [cancelledRow, hhit] at hconf
      · rw [cancelledRow, if_neg hhit] at hconf hdue
        exact (hbefore ⟨r, hr, hconf, hdue⟩).elim
    | sweep hash purge batch locked =>
      obtain ⟨id', u, hexec⟩ := hdoes
      obtain ⟨r, hr, hlater⟩ := hexec.fromBefore id r' hr'
      -- a row that is confirmed after an execution was so before
      have hnotpending : r.status ≠ .pending := by
        intro hpending
        obtain ⟨now, hrows⟩ := hexec.rows
        rw [hrows, hr, Option.map_some, Option.some.injEq] at hr'
        subst hr'
        simp only [executedRow] at hconf
        split_ifs at hconf <;> simp_all
      have hsame := hlater.scheduled hnotpending
      have hactive : r.active := hlater.active (by simp [ErasureRequestRow.active, hconf])
      have hstatus : r.status = .confirmed := by
        simpa [ErasureRequestRow.active, hnotpending] using hactive
      exact (hbefore ⟨r, hr, hstatus, hsame.2.symm.trans hdue⟩).elim

theorem path_cancelErasureRequest {id u : Uuid} {t : List (World × World)} {row : ErasureRequestRow}
    (h : (cancelErasureRequest id u).Path t (.ok (some row))) :
    ∃ w w', (w, w') ∈ t ∧ Cancels id w w' := by
  obtain ⟨w, ⟨rfl, hrow⟩ | ⟨-, hfault⟩⟩ := Prog.path_query h
  · obtain ⟨r, hr, -⟩ := Option.map_eq_some_iff.mp (Except.ok.inj hrow).symm
    obtain ⟨hget, hguard⟩ := Option.filter_eq_some_iff.mp hr
    have hactive : r.active := (Bool.and_eq_true _ _ ▸ hguard).2
    refine ⟨w, _, List.mem_singleton_self _, ⟨r, hget, hactive⟩,
      { r with status := .cancelled, cancelledAt := some w.now }, ?_, rfl⟩
    refine (Table.get?_updateOne_self w.db.erasureRequests id _ _).trans ?_
    rw [hget, Option.map_some, if_pos hguard]
  · cases hfault

theorem path_cancelErasure {env : ErasureEnv} {a : ErasureAnswers} {id : Uuid} {body : ProofRequest}
    {t : List (World × World)} {req : ErasureRequestRow}
    (h : (cancelErasure env a id body).Path t (.ok req)) :
    ∃ w w', (w, w') ∈ t ∧ Cancels id w w' := by
  obtain ⟨t₁, t₂, -, rfl, -, h⟩ := Prog.path_bind_ok h
  obtain ⟨t₃, t₄, ⟨pubkey, user⟩, rfl, -, h⟩ := Prog.path_bind_ok h
  cases user with
  | none => cases h
  | some u =>
    obtain ⟨t₅, t₆, updated, rfl, hupdate, h⟩ := Prog.path_bind_ok h
    cases updated with
    | none => cases h
    | some row =>
      obtain ⟨w, w', hmem, hcancels⟩ := path_cancelErasureRequest hupdate
      exact ⟨w, w', by simp [hmem], hcancels⟩

/-! ### Every interleaving -/

variable {ι : Type}

/-- What holds of every interleaving of erasure calls. -/
structure ErasureSafe (call : ι → ErasureCall) (es : List (Prog.Event ι World))
    (c : World × (ι → Handler Unit)) : Prop where
  /-- A user is deleted by a sweep, for a request of that user that is confirmed and due, that was
  confirmed with this grace period before, and not cancelled. -/
  deleted : ∀ es₁ e es₂ u, es = es₁ ++ e :: es₂ → e.pre.db.HasUser u → ¬ e.post.db.HasUser u →
    ∃ i hash purge batch locked id r, e.who = some i ∧ call i = .sweep hash purge batch locked ∧
      Executes id e.pre e.post ∧
      e.pre.db.erasureRequests.get? id = some r ∧ r.userId = some u ∧ r.status = .confirmed ∧
      r.scheduledFor ≤ e.pre.now ∧
      (∃ e' ∈ es₁, ∃ j env a body, e'.who = some j ∧ call j = .confirm env a id body ∧
        graceEnd env a = r.scheduledFor ∧ Confirms id u r.scheduledFor e'.pre e'.post) ∧
      ∀ e' ∈ es₁, ¬ Cancels id e'.pre e'.post
  /-- A request is executed at most once. -/
  executedOnce : ∀ es₁ e es₂ id, es = es₁ ++ e :: es₂ → Executes id e.pre e.post →
    ∀ e' ∈ es₂, ¬ Executes id e'.pre e'.post
  /-- It writes at most one completion entry. -/
  auditedOnce : ∀ id, completions c.1 id ≤ 1
  /-- A user has at most one live request. -/
  oneLive : OneLive c.1
  /-- A cancellation that was answered with success has cancelled the request. -/
  cancelled : ∀ i env a id body, call i = .cancel env a id body → c.2 i = .ret () →
    ∃ e ∈ es, e.who = some i ∧ Cancels id e.pre e.post

/-- Nobody has asked for an erasure yet. -/
structure NoErasures (w : World) : Prop where
  /-- There is no request. -/
  requests : w.db.erasureRequests = .empty
  /-- Nor a completion entry. -/
  audits : ∀ id, completions w id = 0

variable [DecidableEq ι] {call : ι → ErasureCall} {w₀ : World} {es : List (Prog.Event ι World)}
  {c : World × (ι → Handler Unit)}

theorem event_of_calls
    (hrun : (Prog.pool ErasureIdle).Run (w₀, fun i => (call i).handler) es c) :
    ∀ e ∈ es, (e.who = none → ErasureIdle e.pre e.post) ∧
      ∀ i, e.who = some i → (call i).Step e.pre e.post :=
  Prog.guarantees_of_run (R := erasureRely) (Q := fun _ _ _ => True) (fun _ _ _ _ _ _ => trivial)
    (fun i => ErasureCall.Step.refl (call i)) (fun _ _ _ h => h.rely) (fun _ _ h => h.rely) hrun
    fun i => guarantees_handler (call i) w₀

theorem rely_of_calls
    (hrun : (Prog.pool ErasureIdle).Run (w₀, fun i => (call i).handler) es c) :
    ∀ e ∈ es, erasureRely.rel e.pre e.post := by
  intro e he
  obtain ⟨henv, hcall⟩ := event_of_calls hrun e he
  cases hwho : e.who with
  | none => exact (henv hwho).rely
  | some i => exact (hcall i hwho).rely

theorem rely_between {es₁ es₂ es₃ : List (Prog.Event ι World)} {e e' : Prog.Event ι World}
    (hrun : (Prog.pool ErasureIdle).Run (w₀, fun i => (call i).handler)
      (es₁ ++ e :: (es₂ ++ e' :: es₃)) c) : erasureRely.rel e.post e'.pre := by
  rw [← List.cons_append, ← List.append_assoc] at hrun
  obtain ⟨c₁, -, hbefore, hpre, -⟩ := Prog.run_at hrun
  rw [← hpre]
  exact Prog.rel_of_mem hbefore (rely_of_calls hbefore) (by simp)

theorem confirmed_before (hstart : NoErasures w₀)
    (hrun : (Prog.pool ErasureIdle).Run (w₀, fun i => (call i).handler) es c) {id : Uuid}
    {due : Timestamp} (hconf : ConfirmedUntil id due c.1) :
    ∃ e ∈ es, ∃ j env a body u, e.who = some j ∧ call j = .confirm env a id body ∧
      graceEnd env a = due ∧ Confirms id u due e.pre e.post := by
  rcases Prog.appeared_of_run hrun hconf with ⟨⟨r, hr, -⟩, -⟩ | ⟨es₁, e, es₂, rfl, hbefore, hafter, -⟩
  · rw [hstart.requests] at hr
    cases hr
  · obtain ⟨henv, hcall⟩ := event_of_calls hrun e (by simp)
    refine ⟨e, by simp, ?_⟩
    cases hwho : e.who with
    | none =>
      obtain ⟨r, hr, hrest⟩ := hafter
      exact (hbefore ⟨r, (henv hwho).requests ▸ hr, hrest⟩).elim
    | some j =>
      obtain ⟨env, a, body, u, hq, hgrace, hconfirms⟩ := confirms_of_step (hcall j hwho) hbefore hafter
      exact ⟨j, env, a, body, u, rfl, hq, hgrace, hconfirms⟩

/-- Only an execution deletes a user. -/
theorem executed_of_deleted {q : ErasureCall} {w w' : World} (hstep : q.Step w w') {u : Uuid}
    (hbefore : w.db.HasUser u) (hafter : ¬ w'.db.HasUser u) :
    ∃ hash purge batch locked id, q = .sweep hash purge batch locked ∧
      ErasureExecuted id u w w' := by
  rcases hstep with hidle | hdoes
  · exact (hafter (hidle.users u hbefore)).elim
  · cases q with
    | request env a body => exact (hafter ((ErasureRequested.toErasureFrame hdoes).users u hbefore)).elim
    | confirm env a id body =>
      obtain ⟨v, now, hupd⟩ := hdoes
      exact (hafter (hupd.users u hbefore)).elim
    | cancel env a id body =>
      obtain ⟨v, now, hupd⟩ := hdoes
      exact (hafter (hupd.users u hbefore)).elim
    | sweep hash purge batch locked =>
      obtain ⟨id, v, hexec⟩ := hdoes
      obtain rfl : u = v := by
        by_contra hne
        exact hafter ((hexec.users u).mpr ⟨hbefore, hne⟩)
      exact ⟨hash, purge, batch, locked, id, rfl, hexec⟩

theorem ErasureExecuted.executes {id u : Uuid} {w w' : World} (h : ErasureExecuted id u w w') :
    Executes id w w' := by
  obtain ⟨r, hr, huser, hconf, -⟩ := h.due
  obtain ⟨now, hrows⟩ := h.rows
  have hkey : r.id = id := Table.key_of_get? hr
  refine ⟨⟨r, hr, by simp [hconf]⟩, executedRow id u now r, by rw [hrows, hr, Option.map_some], ?_⟩
  simp [executedRow, hkey, huser]

/-- **Erasures are safe.** However requests, confirmations, cancellations and sweeps interleave: a
user is deleted only for a request of its own that was confirmed, whose grace period has elapsed
and that was not cancelled; a request is executed at most once, with at most one completion entry;
and a user never has two live requests. -/
theorem erasure_safe (call : ι → ErasureCall) (w₀ : World) (hstart : NoErasures w₀)
    {es : List (Prog.Event ι World)} {c : World × (ι → Handler Unit)}
    (hrun : (Prog.pool ErasureIdle).Run (w₀, fun i => (call i).handler) es c) :
    ErasureSafe call es c := by
  have hinv : OneLive c.1 ∧ AuditedOnce c.1 := by
    refine (Prog.invariant_of_run (I := fun w => OneLive w ∧ AuditedOnce w) hrun ?_ ?_).2
    · rintro es₁ e es₂ rfl - ⟨hone, haudit⟩
      obtain ⟨henv, hcall⟩ := event_of_calls hrun e (by simp)
      cases hwho : e.who with
      | none =>
        have hidle := henv hwho
        exact ⟨hidle.fromBefore.oneLive hone,
          auditedOnce_of_frame hidle.toErasureFrame hidle.rely haudit⟩
      | some i => exact ⟨(hcall i hwho).oneLive hone, (hcall i hwho).auditedOnce haudit⟩
    · refine ⟨fun id id' r r' u hr => ?_, fun id => by simp [hstart.audits]⟩
      rw [hstart.requests] at hr
      cases hr
  refine ⟨?_, ?_, fun id => (hinv.2 id).1, hinv.1, ?_⟩
  · rintro es₁ e es₂ u rfl hbefore hafter
    obtain ⟨henv, hcall⟩ := event_of_calls hrun e (by simp)
    cases hwho : e.who with
    | none => exact (hafter ((henv hwho).users u hbefore)).elim
    | some i =>
      obtain ⟨hash, purge, batch, locked, id, hq, hexec⟩ :=
        executed_of_deleted (hcall i hwho) hbefore hafter
      obtain ⟨r, hr, huser, hconf, hdue⟩ := hexec.due
      obtain ⟨c₁, -, hprefix, hpre, -⟩ := Prog.run_at hrun
      have hrely : ∀ e' ∈ es₁, erasureRely.rel e'.post e.pre := fun e' he' =>
        hpre ▸ Prog.rel_of_mem hprefix (rely_of_calls hprefix) he'
      refine ⟨i, hash, purge, batch, locked, id, r, rfl, hq, hexec.executes, hr, huser, hconf, hdue,
        ?_, ?_⟩
      · have hnow : ConfirmedUntil id r.scheduledFor c₁.1 := by
          rw [hpre]
          exact ⟨r, hr, hconf, rfl⟩
        obtain ⟨e', he', j, env, a, body, v, hj, hcallj, hgrace, hconfirms⟩ :=
          confirmed_before hstart hprefix hnow
        -- the user of a request never changes
        obtain ⟨r', hr', huser', -⟩ := hconfirms.2
        obtain ⟨r₂, hr₂, hlater⟩ := (hrely e' he').2 id r' hr'
        obtain rfl := Option.some.inj (hr₂.symm.trans hr)
        obtain rfl : v = u := Option.some.inj (huser'.symm.trans (hlater.owner u huser))
        exact ⟨e', he', j, env, a, body, hj, hcallj, hgrace, hconfirms⟩
      · rintro e' he' ⟨-, r', hr', hcancelled⟩
        obtain ⟨r₂, hr₂, hlater⟩ := (hrely e' he').2 id r' hr'
        obtain rfl := Option.some.inj (hr₂.symm.trans hr)
        have hstatus := hlater.final (.inr hcancelled)
        simp [hconf, hcancelled] at hstatus
  · rintro es₁ e es₂ id rfl ⟨-, r, hr, hdone⟩ e' he' ⟨⟨r', hr', hnot⟩, -⟩
    obtain ⟨es₃, es₄, rfl⟩ := List.append_of_mem he'
    obtain ⟨r₂, hr₂, hlater⟩ := (rely_between hrun).2 id r hr
    obtain rfl := Option.some.inj (hr₂.symm.trans hr')
    exact hnot ((hlater.final (.inl hdone)).trans hdone)
  · intro i env a id body hcall hend
    have hpath := Prog.path_of_run hrun i (by rw [hend]; exact .ret ())
    simp only [hcall, ErasureCall.handler, List.append_nil] at hpath
    obtain ⟨t₁, t₂, req, ht, hcancel, -⟩ := Prog.path_bind_ok hpath
    obtain ⟨w, w', hmem, hcancels⟩ := path_cancelErasure hcancel
    have hevent : (w, w') ∈ Prog.eventsOf i es := by simp [ht, hmem]
    obtain ⟨e, he, hwho, heq⟩ := Prog.mem_eventsOf.mp hevent
    obtain ⟨rfl, rfl⟩ := Prod.mk.inj heq
    exact ⟨e, he, hwho, hcancels⟩

/-- A proof of the user for an erasure step. -/
def erasureProofEvent (path purpose nonce : String) (more : List (List String)) : Nip98Event :=
  { sampleEvent with
    tags := [["u", "https://api" ++ path], ["method", "POST"], ["purpose", purpose],
      ["challenge", nonce], ["payload", "POST\n/api/v1" ++ path ++ "\n\n"]] ++ more }

/-- The proofs of two requests, of their confirmations and of a cancellation. -/
def erasureSampleDecode (token : String) : Option Nip98Event :=
  if token = "request" then some (erasureProofEvent "/account/erasure" "erasure_request" "n1" [])
  else if token = "confirm" then
    some (erasureProofEvent (confirmPath 9) "erasure_confirm" "n2" [["erasure_id", uuidText 9]])
  else if token = "cancel" then
    some (erasureProofEvent (cancelPath 9) "erasure_cancel" "n3" [["erasure_id", uuidText 9]])
  else if token = "again" then
    some (erasureProofEvent "/account/erasure" "erasure_request" "n4" [])
  else some (erasureProofEvent (confirmPath 10) "erasure_confirm" "n5" [["erasure_id", uuidText 10]])

/-- An instance with a grace period of one hour. -/
def erasureSampleEnv : ErasureEnv where
  auth := { sampleEnv with crypto := { sampleEnv.crypto with decode := erasureSampleDecode } }
  erasureEnabled := true
  gracePeriodHours := 1
  subjectHash pubkey := pubkey
  syntheticErasureId pubkey := pubkey
  chainHash _ _ _ _ := "hash"

/-- The user asks, confirms and cancels, asks and confirms again an hour later, and two workers
sweep. -/
def erasureSampleCalls : Fin 7 → ErasureCall
  | 0 => .request erasureSampleEnv ⟨1000, 0, 9⟩ ⟨"Nostr request", "n1"⟩
  | 1 => .confirm erasureSampleEnv ⟨1000, 0, 9⟩ 9 ⟨"Nostr confirm", "n2"⟩
  | 2 => .cancel erasureSampleEnv ⟨1000, seconds 3600, 9⟩ 9 ⟨"Nostr cancel", "n3"⟩
  | 3 => .request erasureSampleEnv ⟨1000, seconds 3600, 10⟩ ⟨"Nostr again", "n4"⟩
  | 4 => .confirm erasureSampleEnv ⟨1000, seconds 3600, 10⟩ 10 ⟨"Nostr confirm again", "n5"⟩
  | 5 => .sweep (fun _ _ _ _ => "hash") true 50 fun _ => false
  | 6 => .sweep (fun _ _ _ _ => "hash") true 50 fun _ => false

/-- A user with its nonces. -/
def erasureSampleWorld : World where
  db := { Db.empty with
    users := ⟨[⟨1, none, none, some "npub", none, none, none, none, none⟩], by simp⟩
    challenges := ⟨[⟨"n1", "erasure_request", none, days 1⟩, ⟨"n2", "erasure_confirm", none, days 1⟩,
      ⟨"n3", "erasure_cancel", none, days 1⟩, ⟨"n4", "erasure_request", none, days 1⟩,
      ⟨"n5", "erasure_confirm", none, days 1⟩], by decide⟩ }
  now := 0

/-- The calls, about to begin. -/
def erasureSampleStart : World × (Fin 7 → Handler Unit) :=
  (erasureSampleWorld, fun i => (erasureSampleCalls i).handler)

/-- Hours pass. -/
def afterHours (n : ℤ) (c : World × (Fin 7 → Handler Unit)) : World × (Fin 7 → Handler Unit) :=
  ({ c.1 with now := c.1.now + seconds (n * 3600) }, c.2)

/-- The request and its confirmation. -/
def confirmTurns : List (Fin 7 × ℕ) := [(0, 5), (1, 5)]

/-- A worker reads the request as due, and the user cancels it before the worker executes it.  The
user asks and confirms again. -/
def cancelTurns : List (Fin 7 × ℕ) := [(5, 1), (2, 4), (5, 1), (3, 5), (4, 5)]

/-- The state when the first grace period ends. -/
def firstDue : World × (Fin 7 → Handler Unit) :=
  afterHours 1 (Prog.play confirmTurns erasureSampleStart)

/-- The state when the second one ends. -/
def secondDue : World × (Fin 7 → Handler Unit) := afterHours 1 (Prog.play cancelTurns firstDue)

/-- The state after the last sweep. -/
def erasureSampleEnd : World × (Fin 7 → Handler Unit) := Prog.play [(6, 2)] secondDue

/-- What happens. -/
def erasureSampleEvents : List (Prog.Event (Fin 7) World) :=
  Prog.playTrace confirmTurns erasureSampleStart ++
    ⟨none, (Prog.play confirmTurns erasureSampleStart).1, firstDue.1⟩ ::
      (Prog.playTrace cancelTurns firstDue ++
        ⟨none, (Prog.play cancelTurns firstDue).1, secondDue.1⟩ :: Prog.playTrace [(6, 2)] secondDue)

theorem step_afterHours {n : ℤ} (hn : 0 ≤ n) (c : World × (Fin 7 → Handler Unit)) :
    (Prog.pool ErasureIdle).step c ⟨none, c.1, (afterHours n c).1⟩ (afterHours n c) := by
  have hpassed : 0 ≤ seconds (n * 3600) := by
    simp only [seconds]
    omega
  have hlater : c.1.now ≤ (afterHours n c).1.now := le_add_of_nonneg_right hpassed
  exact ⟨rfl, rfl, ⟨⟨fun _ hu => hu, fun _ => rfl, hlater⟩, rfl⟩, rfl⟩

/-- The request that was cancelled after a worker had read it is not executed, the second one is. -/
theorem erasure_sample :
    ErasureSafe erasureSampleCalls erasureSampleEvents erasureSampleEnd ∧
    secondDue.1.db.users.rows.map UserRow.id = [1] ∧
    erasureSampleEnd.1.db.users.rows = [] ∧
    erasureSampleEnd.1.db.erasureRequests.rows.map (fun r => (r.id, r.status)) =
      [(9, .cancelled), (10, .completed)] := by
  have hstart : NoErasures erasureSampleWorld := ⟨rfl, fun _ => rfl⟩
  have hrun : (Prog.pool ErasureIdle).Run erasureSampleStart erasureSampleEvents erasureSampleEnd :=
    (Prog.run_play ErasureIdle confirmTurns erasureSampleStart).trans
      (.cons (step_afterHours (by decide) _)
        ((Prog.run_play ErasureIdle cancelTurns firstDue).trans
          (.cons (step_afterHours (by decide) _) (Prog.run_play ErasureIdle [(6, 2)] secondDue))))
  exact ⟨erasure_safe erasureSampleCalls erasureSampleWorld hstart hrun, by decide +kernel,
    by decide +kernel, by decide +kernel⟩

end SmirkBackend
