import SmirkBackend.Lib.Hex
import SmirkBackend.Wallet.RelayLifecycle

/-!
# One relay for a slate

A slate is named by a UUID, and a UUID has several texts: in lower or upper case, with or without
hyphens, in braces, as a URN.  The relay accepts them all, stores the text as it was sent, and keeps
the texts unique.  So a slate has one relay, which its parties reach, exactly if it is always named
by one text.

Creations are made one after the other, each with the identifier generated for its row and with
what it finds in the rest of the database.  In between, anything may happen that leaves the relays
with their slates and parties; every other call does (`steps_relaysStay`).

`createRelay_cases` lists all that a creation can do, and `one_relay_iff` is about every run.
-/

namespace SmirkBackend

open Lib (Table Patch Prog System)

/-! ### Creations -/

/-- A creation, with what it meets. -/
structure RelayCreation where
  /-- The rest of the database, and the clock. -/
  world : World
  /-- The answer to the token. -/
  bearer : Except AppError TokenInfo
  /-- The identifier generated for the row. -/
  id : Uuid
  /-- The clock of the process. -/
  clock : Timestamp
  /-- The request. -/
  req : CreateRelayRequest

/-- Who makes the creation. -/
def RelayCreation.sender (c : RelayCreation) : Except AppError Uuid :=
  ((extractUserIdFromToken c.bearer).run c.world).1

/-- The row of a creation. -/
def RelayCreation.row (c : RelayCreation) (u : Uuid) : GrinSlatepack :=
  NewGrinSlatepack.row
    { slateId := c.req.slateId
      senderUserId := u
      recipientUserId := some c.req.recipientUserId
      recipientAddress := none
      slatepackContent := c.req.slatepack
      amountNanogrin := c.req.amountNanogrin
      expiresAt := c.clock + days relayTtlDays }
    c.id c.world.now

/-- A creation by `u` passes every check but the one of its slate's text. -/
structure Admitted (env : RelayEnv) (c : RelayCreation) (u : Uuid) : Prop where
  /-- The token is `u`'s. -/
  sender : c.sender = .ok u
  /-- The relay is on. -/
  enabled : ensureRelayEnabled env = .ok ()
  /-- The slate is named by a UUID. -/
  slate : validateSlateId env c.req.slateId = .ok ()
  /-- The slatepack has a length. -/
  slatepack : validateSlatepack c.req.slatepack "slatepack" = .ok ()
  /-- The amount. -/
  amount : ¬ c.req.amountNanogrin < 0
  /-- The recipient is a user. -/
  recipient : (c.world.db.users.get? c.req.recipientUserId).isSome
  /-- So is the sender. -/
  known : (c.world.db.users.get? u).isSome

/-- The relays after a creation. -/
def RelayCreation.after (env : RelayEnv) (c : RelayCreation) (w : RelayWorld) : RelayWorld :=
  ((createRelay env c.bearer c.id c.clock c.req).run { w with world := c.world }).2

theorem relayUser_run (bearer : Except AppError TokenInfo) (w : RelayWorld) :
    (relayUser bearer).run w = (((extractUserIdFromToken bearer).run w.world).1, w) := by
  cases bearer with
  | error e => rfl
  | ok info =>
    cases hsession : info.sessionId with
    | none => simp [relayUser, extractUserIdFromToken, hsession, Prog.zoom]
    | some session =>
      cases hlive : w.world.db.isSessionLive w.world.now session <;>
        simp [relayUser, extractUserIdFromToken, hsession, Prog.zoom, Prog.read, Prog.run,
          relayRest, hlive]

/-- The parties of a new slatepack are users. -/
def NewGrinSlatepack.Known (input : NewGrinSlatepack) (w : RelayWorld) : Prop :=
  (w.world.db.users.get? input.senderUserId).isSome ∧
    ∀ u, input.recipientUserId = some u → (w.world.db.users.get? u).isSome

/-- The statement adds its row, or leaves the state as it is. -/
theorem createGrinSlatepack_cases {id : Uuid} (input : NewGrinSlatepack) {w : RelayWorld}
    (hnew : w.slatepacks.get? id = none) :
    (input.Known w ∧ (∀ r ∈ w.slatepacks.rows, r.slateId ≠ input.slateId) ∧
      ∃ t, w.slatepacks.insert? (input.row id w.world.now) = some t ∧
        (createGrinSlatepack id input).run w =
          (.ok (input.row id w.world.now), { w with slatepacks := t })) ∨
    ((input.Known w → ∃ r ∈ w.slatepacks.rows, r.slateId = input.slateId) ∧
      ∃ e, (createGrinSlatepack id input).run w = (.error e, w)) := by
  have hunknown : ((w.world.db.users.get? input.senderUserId).isNone ||
      input.recipientUserId.any fun u => (w.world.db.users.get? u).isNone) = false ↔
        input.Known w := by
    cases hr : input.recipientUserId <;>
      simp [NewGrinSlatepack.Known, hr, ← Option.not_isSome, Option.isSome_iff_ne_none]
  have hsame : (w.slatepacks.rows.any fun r => r.slateId = input.slateId) = true ↔
      ∃ r ∈ w.slatepacks.rows, r.slateId = input.slateId := by
    simp [List.any_eq_true]
  obtain ⟨t, hins⟩ := Table.exists_insert? (r := input.row id w.world.now) hnew
  -- the columns of the row are those of the input
  have hrun : (createGrinSlatepack id input).run w =
      if w.slatepacks.rows.any fun r => r.slateId = input.slateId then
        (.error (.conflict "a relay for this slate_id already exists"), w)
      else if (w.world.db.users.get? input.senderUserId).isNone ||
          input.recipientUserId.any fun u => (w.world.db.users.get? u).isNone then
        (.error (.databaseError "insert or update violates foreign key constraint"), w)
      else (.ok (input.row id w.world.now), { w with slatepacks := t }) := by
    rw [createGrinSlatepack, Prog.run_query]
    simp only [hins]
    rfl
  by_cases hthere : ∃ r ∈ w.slatepacks.rows, r.slateId = input.slateId
  · rw [if_pos (hsame.mpr hthere)] at hrun
    exact .inr ⟨fun _ => hthere, _, hrun⟩
  rw [if_neg (mt hsame.mp hthere)] at hrun
  by_cases hknown : input.Known w
  · rw [if_neg (by rw [Bool.not_eq_true]; exact hunknown.mpr hknown)] at hrun
    exact .inl ⟨hknown, fun r hr heq => hthere ⟨r, hr, heq⟩, t, hins, hrun⟩
  · rw [if_pos (by rw [← Bool.not_eq_false]; exact mt hunknown.mp hknown)] at hrun
    exact .inr ⟨fun h => (hknown h).elim, _, hrun⟩

/-- **All that a creation can do**: it adds its row, or leaves the relays as they are because it is
not admitted or its text is there. -/
theorem createRelay_cases (env : RelayEnv) (c : RelayCreation) {w : RelayWorld}
    (hnew : w.slatepacks.get? c.id = none) :
    (∃ u, Admitted env c u ∧ (∀ r ∈ w.slatepacks.rows, r.slateId ≠ c.req.slateId) ∧
      w.slatepacks.insert? (c.row u) = some (c.after env w).slatepacks) ∨
    ((∀ u, Admitted env c u → ∃ r ∈ w.slatepacks.rows, r.slateId = c.req.slateId) ∧
      (c.after env w).slatepacks = w.slatepacks) := by
  simp only [RelayCreation.after, createRelay, Prog.run_bind, relayUser_run]
  cases hsender : ((extractUserIdFromToken c.bearer).run c.world).1 with
  | error e => exact .inr ⟨fun u h => (by cases hsender.symm.trans h.sender), rfl⟩
  | ok u =>
    have hu (u' : Uuid) (h : Admitted env c u') : u' = u :=
      Except.ok.inj (h.sender.symm.trans hsender)
    cases henabled : ensureRelayEnabled env with
    | error e => exact .inr ⟨fun u h => (by cases henabled.symm.trans h.enabled), rfl⟩
    | ok _ =>
    cases hslate : validateSlateId env c.req.slateId with
    | error e => exact .inr ⟨fun u h => (by cases hslate.symm.trans h.slate), rfl⟩
    | ok _ =>
    cases hpack : validateSlatepack c.req.slatepack "slatepack" with
    | error e => exact .inr ⟨fun u h => (by cases hpack.symm.trans h.slatepack), rfl⟩
    | ok _ =>
    simp only [Prog.ofExcept_ok, Prog.run_ret]
    by_cases hamount : c.req.amountNanogrin < 0
    · rw [if_pos hamount]
      exact .inr ⟨fun u h => (h.amount hamount).elim, rfl⟩
    rw [if_neg hamount]
    cases hrecipient : c.world.db.users.get? c.req.recipientUserId with
    | none =>
      refine .inr ⟨fun u h => ?_, ?_⟩
      · have hsome := h.recipient
        rw [hrecipient] at hsome
        cases hsome
      · simp [Prog.run_bind, hrecipient, Prog.orFail, Prog.run]
    | some recipient =>
      have hid : recipient.id = c.req.recipientUserId := Table.key_of_get? hrecipient
      simp only [Prog.run_bind, Prog.run_read, hrecipient, Prog.orFail, Prog.run_ret, hid]
      rcases createGrinSlatepack_cases
          { slateId := c.req.slateId
            senderUserId := u
            recipientUserId := some c.req.recipientUserId
            recipientAddress := none
            slatepackContent := c.req.slatepack
            amountNanogrin := c.req.amountNanogrin
            expiresAt := c.clock + days relayTtlDays }
          (w := { w with world := c.world }) hnew with
        ⟨hknown, hfree, t, hins, hrun⟩ | ⟨hthere, e, hrun⟩
      · rw [hrun]
        refine .inl ⟨u, ⟨hsender, henabled, hslate, hpack, hamount, ?_, hknown.1⟩, hfree, hins⟩
        exact hknown.2 _ rfl
      · rw [hrun]
        refine .inr ⟨fun u' h => ?_, rfl⟩
        obtain rfl := hu u' h
        refine hthere ⟨h.known, fun v hv => ?_⟩
        obtain rfl := Option.some.inj hv
        exact h.recipient

/-! ### What happens in between -/

/-- Relays stay, with their slates and parties; no relay is added. -/
structure RelaysStay (w w' : RelayWorld) : Prop where
  /-- Rows stay. -/
  rows : ∀ id r, w.slatepacks.get? id = some r → ∃ r', w'.slatepacks.get? id = some r' ∧
    SameRelay r r'
  /-- There are no others. -/
  none : ∀ id, w.slatepacks.get? id = none → w'.slatepacks.get? id = none

theorem RelaysStay.refl (w : RelayWorld) : RelaysStay w w :=
  ⟨fun _ r hr => ⟨r, hr, .refl r⟩, fun _ h => h⟩

theorem steps_updateRelay {id : Uuid} {guard : Timestamp → GrinSlatepack → Bool}
    {f : Timestamp → Patch GrinSlatepack} (hf : ∀ now r, SameRelay r ((f now).set r)) :
    (relayExecute fun now t => t.updateOne id (guard now) (f now)).Steps RelaysStay := by
  refine Prog.steps_query fun w => ⟨fun k r hr => ?_, fun k hnone => ?_⟩
  · simp only [Table.get?_updateOne, hr, Option.map_some, Option.some.injEq, exists_eq_left']
    split_ifs
    · exact hf _ r
    · exact .refl r
  · simp [Table.get?_updateOne, hnone]

theorem steps_relayUser (bearer : Except AppError TokenInfo) :
    (relayUser bearer).Steps RelaysStay := by
  cases bearer with
  | error e => trivial
  | ok info =>
    cases hsession : info.sessionId with
    | none =>
      simp only [relayUser, extractUserIdFromToken, Prog.ofExcept_ok, Prog.ret_bind, hsession]
      trivial
    | some session =>
      simp only [relayUser, extractUserIdFromToken, Prog.ofExcept_ok, Prog.ret_bind, hsession]
      refine ⟨RelaysStay.refl, fun w => ?_, trivial⟩
      cases hlive : w.world.db.isSessionLive w.world.now session <;>
        simp only [relayRest, hlive] <;> trivial

theorem steps_fetchAuthorized (slateId : String) (u : Uuid) (party : RelayParty) :
    (fetchAuthorized slateId u party).Steps RelaysStay := by
  refine (Prog.steps_read RelaysStay.refl).bind fun _ => (Prog.steps_orFail _ _).bind fun row => ?_
  split_ifs <;> trivial

theorem steps_updateAuthorized {slateId : String} {u : Uuid} {party : RelayParty} {e : AppError}
    {guard : Timestamp → GrinSlatepack → Bool} {f : Timestamp → Patch GrinSlatepack}
    (hf : ∀ now r, SameRelay r ((f now).set r)) :
    (do
      let row ← fetchAuthorized slateId u party
      let updated ← relayExecute fun now t => t.updateOne row.id (guard now) (f now)
      let updated ← .orFail e updated
      return relayEntry updated : RelayHandler RelayEntry).Steps RelaysStay :=
  (steps_fetchAuthorized _ _ _).bind fun _ => (steps_updateRelay hf).bind fun _ =>
    (Prog.steps_orFail _ _).bind fun _ => trivial

/-- **Every call that is no creation leaves the relays with their slates and parties.** -/
theorem steps_relaysStay (env : RelayEnv) {q : RelayCall}
    (hq : ∀ bearer id clock req, q ≠ .create bearer id clock req) :
    (q.handler env).Steps RelaysStay := by
  cases q with
  | create bearer id clock req => exact (hq _ _ _ _ rfl).elim
  | respond bearer req =>
    refine Prog.Steps.bind ?_ fun _ => trivial
    exact (steps_relayUser _).bind fun _ => (Prog.steps_ofExcept _).bind fun _ =>
      (Prog.steps_ofExcept _).bind fun _ =>
        steps_updateAuthorized fun _ _ => ⟨rfl, rfl, rfl, rfl⟩
  | finalize bearer req =>
    refine Prog.Steps.bind ?_ fun _ => trivial
    exact (steps_relayUser _).bind fun _ => (Prog.steps_ofExcept _).bind fun _ =>
      (Prog.steps_ofExcept _).bind fun _ =>
        steps_updateAuthorized fun _ _ => ⟨rfl, rfl, rfl, rfl⟩
  | cancel bearer slateId =>
    refine Prog.Steps.bind ?_ fun _ => trivial
    exact (steps_relayUser _).bind fun _ => (Prog.steps_ofExcept _).bind fun _ =>
      steps_updateAuthorized fun _ _ => ⟨rfl, rfl, rfl, rfl⟩
  | get bearer slateId =>
    refine Prog.Steps.bind ?_ fun _ => trivial
    exact (steps_relayUser _).bind fun _ => (Prog.steps_ofExcept _).bind fun _ =>
      (steps_fetchAuthorized _ _ _).bind fun _ => trivial
  | pending bearer =>
    exact (steps_relayUser _).bind fun _ => (Prog.steps_ofExcept _).bind fun _ =>
      (Prog.steps_read RelaysStay.refl).bind fun _ => trivial
  | expire =>
    refine Prog.Steps.bind (Prog.steps_query fun w => ⟨fun k r hr => ?_, fun k hnone => ?_⟩)
      fun _ => trivial
    · simp only [Table.get?_updateWhere, hr, Option.map_some, Option.some.injEq, exists_eq_left']
      split_ifs
      · exact ⟨rfl, rfl, rfl, rfl⟩
      · exact .refl r
    · simp [Table.get?_updateWhere, hnone]

/-! ### Runs -/

/-- One event of the relay. -/
inductive RelayTurn
  /-- A creation. -/
  | create (c : RelayCreation)
  /-- Anything else. -/
  | elsewhere

/-- The creations, one after the other, and what happens in between. -/
def relaySystem (env : RelayEnv) : System RelayWorld RelayTurn where
  step w l w' :=
    match l with
    | .create c => w' = c.after env w
    | .elsewhere => RelaysStay w w'

/-- The creations of a run. -/
def creations (past : List RelayTurn) : List RelayCreation :=
  past.filterMap fun
    | .create c => some c
    | .elsewhere => none

/-- A creation by `u` is the first one admitted under its text. -/
def OpensSlate (env : RelayEnv) (past : List RelayTurn) (c : RelayCreation) (u : Uuid) : Prop :=
  ∃ before after, past = before ++ .create c :: after ∧ Admitted env c u ∧
    ∀ c' ∈ creations before, ∀ u', Admitted env c' u' → c'.req.slateId ≠ c.req.slateId

/-- The row has the slate and the parties of a creation. -/
structure RowOf (c : RelayCreation) (u : Uuid) (r : GrinSlatepack) : Prop where
  /-- The text of the slate. -/
  slateId : r.slateId = c.req.slateId
  /-- The sender. -/
  sender : r.senderUserId = u
  /-- The recipient. -/
  recipient : r.recipientUserId = some c.req.recipientUserId

/-- The relays are those that the creations opened. -/
structure RelaysOf (env : RelayEnv) (past : List RelayTurn) (w : RelayWorld) : Prop where
  /-- Every row was opened. -/
  opened : ∀ r ∈ w.slatepacks.rows, ∃ c u, OpensSlate env past c u ∧ RowOf c u r
  /-- Every creation that opened a relay has a row. -/
  there : ∀ c u, OpensSlate env past c u → ∃ r ∈ w.slatepacks.rows, RowOf c u r
  /-- No text is in two rows. -/
  texts : ∀ r ∈ w.slatepacks.rows, ∀ r' ∈ w.slatepacks.rows, r.slateId = r'.slateId → r = r'
  /-- Every text that was admitted is in a row. -/
  named : ∀ c ∈ creations past, ∀ u, Admitted env c u →
    ∃ r ∈ w.slatepacks.rows, r.slateId = c.req.slateId
  /-- The identifiers are those of creations. -/
  ids : ∀ r ∈ w.slatepacks.rows, r.id ∈ (creations past).map RelayCreation.id

theorem creations_append (past past' : List RelayTurn) :
    creations (past ++ past') = creations past ++ creations past' := List.filterMap_append

theorem mem_creations {past : List RelayTurn} {c : RelayCreation} :
    c ∈ creations past ↔ RelayTurn.create c ∈ past := by
  simp only [creations, List.mem_filterMap]
  constructor
  · rintro ⟨l, hl, heq⟩
    cases l with
    | create c' =>
      obtain rfl := Option.some.inj heq
      exact hl
    | elsewhere => cases heq
  · exact fun h => ⟨_, h, rfl⟩

section Runs

variable {env : RelayEnv} {past : List RelayTurn} {w w' : RelayWorld} {c : RelayCreation} {u : Uuid}

theorem OpensSlate.mem (h : OpensSlate env past c u) : c ∈ creations past := by
  obtain ⟨before, after, rfl, -, -⟩ := h
  exact mem_creations.mpr (by simp)

theorem OpensSlate.admitted (h : OpensSlate env past c u) : Admitted env c u := by
  obtain ⟨-, -, -, hadm, -⟩ := h
  exact hadm

theorem opens_concat {l : RelayTurn} :
    OpensSlate env (past ++ [l]) c u ↔ OpensSlate env past c u ∨ l = .create c ∧ Admitted env c u ∧
      ∀ c' ∈ creations past, ∀ u', Admitted env c' u' → c'.req.slateId ≠ c.req.slateId := by
  constructor
  · rintro ⟨before, after, heq, hadm, hfirst⟩
    rcases Lib.split_append heq.symm with ⟨l', rfl, -⟩ | ⟨l', rfl, hl⟩
    · exact .inl ⟨before, l', rfl, hadm, hfirst⟩
    · cases l' with
      | nil =>
        obtain ⟨rfl, -⟩ := List.cons.inj hl
        rw [List.append_nil] at hfirst
        exact .inr ⟨rfl, hadm, hfirst⟩
      | cons x l' =>
        have hlength := congrArg List.length hl
        simp at hlength
  · rintro (⟨before, after, rfl, hadm, hfirst⟩ | ⟨rfl, hadm, hfirst⟩)
    · exact ⟨before, after ++ [l], by simp, hadm, hfirst⟩
    · exact ⟨past, [], rfl, hadm, hfirst⟩

/-- What happens elsewhere opens no relay. -/
theorem RelaysOf.elsewhere (h : RelaysOf env past w) (hstay : RelaysStay w w') :
    RelaysOf env (past ++ [.elsewhere]) w' := by
  have hopens (c : RelayCreation) (u : Uuid) :
      OpensSlate env (past ++ [.elsewhere]) c u ↔ OpensSlate env past c u := by
    simp [opens_concat]
  have hcreations : creations (past ++ [.elsewhere]) = creations past := by
    rw [creations_append]
    exact List.append_nil _
  -- every row was there, and every row that was there stays
  have hback {r' : GrinSlatepack} (hr' : r' ∈ w'.slatepacks.rows) :
      ∃ r ∈ w.slatepacks.rows, r.id = r'.id ∧ SameRelay r r' := by
    have hget : w'.slatepacks.get? r'.id = some r' := Table.get?_of_mem hr'
    cases hr : w.slatepacks.get? r'.id with
    | none => cases (hstay.none _ hr).symm.trans hget
    | some r =>
      obtain ⟨r₁, hr₁, hsame⟩ := hstay.rows _ r hr
      obtain rfl := Option.some.inj (hr₁.symm.trans hget)
      exact ⟨r, Table.mem_of_get? hr, Table.key_of_get? hr, hsame⟩
  have hforth {r : GrinSlatepack} (hr : r ∈ w.slatepacks.rows) :
      ∃ r' ∈ w'.slatepacks.rows, SameRelay r r' := by
    obtain ⟨r', hr', hsame⟩ := hstay.rows _ r (Table.get?_of_mem hr)
    exact ⟨r', Table.mem_of_get? hr', hsame⟩
  have hrowOf {c : RelayCreation} {u : Uuid} {r r' : GrinSlatepack} (hsame : SameRelay r r')
      (hof : RowOf c u r) : RowOf c u r' :=
    ⟨hsame.slateId.trans hof.slateId, hsame.sender.trans hof.sender,
      hsame.recipient.trans hof.recipient⟩
  refine ⟨fun r' hr' => ?_, fun c u hc => ?_, fun r₁' hr₁' r₂' hr₂' heq => ?_, ?_, fun r' hr' => ?_⟩
  · obtain ⟨r, hr, -, hsame⟩ := hback hr'
    obtain ⟨c, u, hc, hof⟩ := h.opened r hr
    exact ⟨c, u, (hopens c u).mpr hc, hrowOf hsame hof⟩
  · obtain ⟨r, hr, hof⟩ := h.there c u ((hopens c u).mp hc)
    obtain ⟨r', hr', hsame⟩ := hforth hr
    exact ⟨r', hr', hrowOf hsame hof⟩
  · obtain ⟨r₁, hr₁, hid₁, hsame₁⟩ := hback hr₁'
    obtain ⟨r₂, hr₂, hid₂, hsame₂⟩ := hback hr₂'
    have hrows : r₁ = r₂ :=
      h.texts r₁ hr₁ r₂ hr₂ (hsame₁.slateId.symm.trans (heq.trans hsame₂.slateId))
    refine Table.eq_of_mem_of_key hr₁' hr₂' ?_
    exact hid₁.symm.trans (hrows ▸ hid₂)
  · intro c hc u hadm
    rw [hcreations] at hc
    obtain ⟨r, hr, htext⟩ := h.named c hc u hadm
    obtain ⟨r', hr', hsame⟩ := hforth hr
    exact ⟨r', hr', hsame.slateId.trans htext⟩
  · obtain ⟨r, hr, hid, -⟩ := hback hr'
    rw [hcreations, ← hid]
    exact h.ids r hr

/-- A creation opens the relay that it adds. -/
theorem RelaysOf.create (h : RelaysOf env past w)
    (hnew : c.id ∉ (creations past).map RelayCreation.id) :
    RelaysOf env (past ++ [.create c]) (c.after env w) := by
  have hcreations : creations (past ++ [.create c]) = creations past ++ [c] := by
    rw [creations_append]
    rfl
  have hid : w.slatepacks.get? c.id = none := by
    rw [Table.get?_eq_none_iff]
    intro r hr heq
    exact hnew (heq ▸ h.ids r hr)
  rcases createRelay_cases env c hid with ⟨u, hadm, hfree, hins⟩ | ⟨hthere, hsame⟩
  · have hrows := (Table.insert?_eq_some_iff.mp hins).2
    have hof : RowOf c u (c.row u) := ⟨rfl, rfl, rfl⟩
    -- no creation was admitted under the text
    have hfirst : ∀ c' ∈ creations past, ∀ u', Admitted env c' u' →
        c'.req.slateId ≠ c.req.slateId := by
      intro c' hc' u' hadm' heq
      obtain ⟨r, hr, htext⟩ := h.named c' hc' u' hadm'
      exact hfree r hr (htext.trans heq)
    have hopens : OpensSlate env (past ++ [.create c]) c u :=
      opens_concat.mpr (.inr ⟨rfl, hadm, hfirst⟩)
    refine ⟨fun r hr => ?_, fun c' u' hc' => ?_, fun r hr r' hr' heq => ?_,
      fun c' hc' u' hadm' => ?_, fun r hr => ?_⟩
    · rw [hrows, List.mem_append, List.mem_singleton] at hr
      rcases hr with hr | rfl
      · obtain ⟨c', u', hc', hof'⟩ := h.opened r hr
        exact ⟨c', u', opens_concat.mpr (.inl hc'), hof'⟩
      · exact ⟨c, u, hopens, hof⟩
    · rw [hrows]
      rcases opens_concat.mp hc' with hc' | ⟨heq, hadm', -⟩
      · obtain ⟨r, hr, hof'⟩ := h.there c' u' hc'
        exact ⟨r, List.mem_append_left _ hr, hof'⟩
      · obtain rfl := RelayTurn.create.inj heq
        obtain rfl : u' = u := Except.ok.inj (hadm'.sender.symm.trans hadm.sender)
        exact ⟨c.row u', by simp, hof⟩
    · rw [hrows, List.mem_append, List.mem_singleton] at hr hr'
      rcases hr with hr | rfl <;> rcases hr' with hr' | rfl
      · exact h.texts r hr r' hr' heq
      · exact (hfree r hr heq).elim
      · exact (hfree r' hr' heq.symm).elim
      · rfl
    · rw [hrows]
      rw [hcreations, List.mem_append, List.mem_singleton] at hc'
      rcases hc' with hc' | rfl
      · obtain ⟨r, hr, htext⟩ := h.named c' hc' u' hadm'
        exact ⟨r, List.mem_append_left _ hr, htext⟩
      · exact ⟨c'.row u, by simp, rfl⟩
    · rw [hcreations, List.map_append]
      rw [hrows, List.mem_append, List.mem_singleton] at hr
      rcases hr with hr | rfl
      · exact List.mem_append_left _ (h.ids r hr)
      · exact List.mem_append_right _ (by simp [RelayCreation.row, NewGrinSlatepack.row])
  · have hopens (c' : RelayCreation) (u' : Uuid) :
        OpensSlate env (past ++ [.create c]) c' u' ↔ OpensSlate env past c' u' := by
      rw [opens_concat]
      refine or_iff_left ?_
      rintro ⟨heq, hadm, hfirst⟩
      obtain rfl := RelayTurn.create.inj heq
      -- a creation admitted before has named the slate by this text
      obtain ⟨r, hr, htext⟩ := hthere u' hadm
      obtain ⟨c₀, u₀, hc₀, hof₀⟩ := h.opened r hr
      exact hfirst c₀ hc₀.mem u₀ hc₀.admitted (hof₀.slateId.symm.trans htext)
    constructor
    · rw [hsame]
      intro r hr
      obtain ⟨c', u', hc', hof⟩ := h.opened r hr
      exact ⟨c', u', (hopens c' u').mpr hc', hof⟩
    · rw [hsame]
      exact fun c' u' hc' => h.there c' u' ((hopens c' u').mp hc')
    · rw [hsame]
      exact h.texts
    · rw [hsame, hcreations]
      intro c' hc' u' hadm
      rw [List.mem_append, List.mem_singleton] at hc'
      rcases hc' with hc' | rfl
      · exact h.named c' hc' u' hadm
      · exact hthere u' hadm
    · rw [hsame, hcreations, List.map_append]
      exact fun r hr => List.mem_append_left _ (h.ids r hr)

theorem relaysOf_of_run {w₀ : RelayWorld} (hempty : w₀.slatepacks.rows = [])
    (hrun : (relaySystem env).Run w₀ past w)
    (hids : ((creations past).map RelayCreation.id).Nodup) : RelaysOf env past w := by
  refine System.Run.history (I := fun past w => ((creations past).map RelayCreation.id).Nodup →
    RelaysOf env past w) (fun _ => ?_) (fun past w₁ l w₂ hstep h hnodup => ?_) hrun hids
  · have hnone (c : RelayCreation) (u : Uuid) : ¬ OpensSlate env [] c u := fun hc => by cases hc.mem
    exact ⟨by simp [hempty], fun c u hc => (hnone c u hc).elim, by simp [hempty],
      fun c hc => (by cases hc), by simp [hempty]⟩
  · rw [creations_append, List.map_append, List.nodup_append] at hnodup
    obtain ⟨hpast, -, hdisjoint⟩ := hnodup
    cases l with
    | create c =>
      obtain rfl : w₂ = c.after env w₁ := hstep
      exact (h hpast).create fun hmem => hdisjoint _ hmem _ (List.mem_singleton_self c.id) rfl
    | elsewhere => exact (h hpast).elsewhere hstep

end Runs

/-! ### The law -/

/-- A slate has one relay, and a party `u` who asks with `text` reaches it. -/
structure OneRelay (env : RelayEnv) (w : RelayWorld) (text : String) (u : Uuid) : Prop where
  /-- Two rows are not of one slate. -/
  unique : ∀ r ∈ w.slatepacks.rows, ∀ r' ∈ w.slatepacks.rows, ∀ slate,
    env.parseUuid r.slateId = some slate → env.parseUuid r'.slateId = some slate → r = r'
  /-- The row of the slate that `text` names is the one that a party reaches. -/
  reached : ∀ r ∈ w.slatepacks.rows, ∀ slate, env.parseUuid r.slateId = some slate →
    env.parseUuid text = some slate → (r.senderUserId = u ∨ r.recipientUserId = some u) →
      (fetchAuthorized text u .either).run w = (.ok r, w)

/-- The creations name a slate by one text, and so does a party `u` who asks with `text`. -/
structure SameForm (env : RelayEnv) (past : List RelayTurn) (text : String) (u : Uuid) : Prop where
  /-- Two admitted creations of one slate have one text. -/
  created : ∀ c ∈ creations past, ∀ c' ∈ creations past, ∀ v v' slate, Admitted env c v →
    Admitted env c' v' → env.parseUuid c.req.slateId = some slate →
      env.parseUuid c'.req.slateId = some slate → c.req.slateId = c'.req.slateId
  /-- The text that is asked for is the one under which the relay was opened. -/
  asked : ∀ c v slate, OpensSlate env past c v → env.parseUuid c.req.slateId = some slate →
    env.parseUuid text = some slate → (v = u ∨ c.req.recipientUserId = u) → text = c.req.slateId

/-- A party reaches the row that has the text. -/
theorem fetchAuthorized_run_iff {w : RelayWorld} {text : String} {u : Uuid} {r : GrinSlatepack} :
    (fetchAuthorized text u .either).run w = (.ok r, w) ↔
      w.slatepacks.rows.find? (fun r => r.slateId = text) = some r ∧
        (r.senderUserId = u ∨ r.recipientUserId = some u) := by
  simp only [fetchAuthorized, getSlatepackBySlateId, Prog.run_bind, Prog.run_read]
  cases hfind : w.slatepacks.rows.find? fun r => r.slateId = text with
  | none => simp [Prog.orFail, Prog.run]
  | some r₀ =>
    simp only [Prog.orFail, Prog.run_ret, Option.some.injEq]
    by_cases hparty : RelayParty.either.authorizes r₀ u = true
    · have hor : r₀.senderUserId = u ∨ r₀.recipientUserId = some u := by
        simpa [RelayParty.authorizes] using hparty
      rw [if_pos hparty]
      simp only [Prog.pure_eq, Prog.run_ret, Prod.mk.injEq, Except.ok.injEq, and_true]
      exact ⟨fun heq => ⟨heq, heq ▸ hor⟩, And.left⟩
    · rw [if_neg hparty]
      simp only [Prog.run, Prod.mk.injEq, reduceCtorEq, false_and, false_iff]
      rintro ⟨rfl, hor⟩
      exact hparty (by simpa [RelayParty.authorizes] using hor)

/-- **When a slate has one relay.**  In every run of creations from an empty table, under new
identifiers, and for every party who asks: no two rows are of one slate and the party reaches the
row of the slate exactly if the slate is always named by one text. -/
theorem one_relay_iff {env : RelayEnv} {w₀ w : RelayWorld} {past : List RelayTurn}
    (hempty : w₀.slatepacks.rows = []) (hrun : (relaySystem env).Run w₀ past w)
    (hids : ((creations past).map RelayCreation.id).Nodup) (text : String) (u : Uuid) :
    OneRelay env w text u ↔ SameForm env past text u := by
  have h := relaysOf_of_run hempty hrun hids
  constructor
  · intro hone
    constructor
    · intro c hc c' hc' v v' slate hadm hadm' hslate hslate'
      obtain ⟨r, hr, htext⟩ := h.named c hc v hadm
      obtain ⟨r', hr', htext'⟩ := h.named c' hc' v' hadm'
      have hrows : r = r' := hone.unique r hr r' hr' slate (htext ▸ hslate) (htext' ▸ hslate')
      rw [← htext, ← htext', hrows]
    · intro c v slate hopens hslate htext hparty
      obtain ⟨r, hr, hof⟩ := h.there c v hopens
      have hfetch := hone.reached r hr slate (hof.slateId ▸ hslate) htext
        (by rw [hof.sender, hof.recipient]; simpa using hparty)
      have hfound := List.find?_some (fetchAuthorized_run_iff.mp hfetch).1
      rw [← hof.slateId]
      simpa using (of_decide_eq_true hfound).symm
  · intro hsame
    constructor
    · intro r hr r' hr' slate hslate hslate'
      obtain ⟨c, v, hc, hof⟩ := h.opened r hr
      obtain ⟨c', v', hc', hof'⟩ := h.opened r' hr'
      have htexts : c.req.slateId = c'.req.slateId := hsame.created c hc.mem c' hc'.mem v v' slate
        hc.admitted hc'.admitted (hof.slateId ▸ hslate) (hof'.slateId ▸ hslate')
      exact h.texts r hr r' hr' (hof.slateId.trans (htexts.trans hof'.slateId.symm))
    · intro r hr slate hslate htext hparty
      obtain ⟨c, v, hc, hof⟩ := h.opened r hr
      have hasked : text = r.slateId := by
        rw [hof.slateId]
        refine hsame.asked c v slate hc (hof.slateId ▸ hslate) htext ?_
        rw [hof.sender, hof.recipient] at hparty
        simpa using hparty
      refine fetchAuthorized_run_iff.mpr ⟨?_, hparty⟩
      cases hfind : w.slatepacks.rows.find? fun r => r.slateId = text with
      | none =>
        have hnot := List.find?_eq_none.mp hfind r hr
        simp [hasked] at hnot
      | some r' =>
        have htext' : r'.slateId = text := by simpa using List.find?_some hfind
        rw [h.texts r' (List.mem_of_find?_eq_some hfind) r hr (htext'.trans hasked)]

/-! ### Texts of a UUID -/

/-- The UUID that 32 hexadecimal digits write. -/
def uuidOfHex (digits : List Char) : Option Uuid :=
  if digits.length = 32 then
    (digits.foldlM (fun n c => (Lib.hexValue c).map fun d => 16 * n + d) 0).map (BitVec.ofNat 128)
  else none

/-- The UUID of a text with its four hyphens. -/
def uuidOfHyphenated (cs : List Char) : Option Uuid :=
  if cs.length = 36 && [8, 13, 18, 23].all fun i => cs[i]? = some '-' then
    uuidOfHex (cs.filter fun c => c ≠ '-')
  else none

/-- `Uuid::parse_str`: digits, with hyphens, in braces, or as a URN. -/
def parseUuidText (s : String) : Option Uuid :=
  let cs := s.toList
  if cs.length = 32 then uuidOfHex cs
  else if cs.length = 36 then uuidOfHyphenated cs
  else if cs.length = 38 && cs.head? = some '\x7b' && cs.getLast? = some '\x7d' then
    uuidOfHyphenated ((cs.drop 1).take 36)
  else if cs.length = 45 && cs.take 9 = "urn:uuid:".toList then uuidOfHyphenated (cs.drop 9)
  else none

example : ["6BA7B8109DAD11D180B400C04FD430C8", "\x7b6ba7b810-9dad-11d1-80b4-00c04fd430c8\x7d",
    "urn:uuid:6ba7b810-9dad-11d1-80b4-00c04fd430c8"].map parseUuidText =
      List.replicate 3 (some 0x6ba7b8109dad11d180b400c04fd430c8) := by decide +kernel

/-- A relay that is on. -/
def relayFormsEnv : RelayEnv := ⟨true, parseUuidText⟩

/-- A slate. -/
def slateText : String := "6ba7b810-9dad-11d1-80b4-00c04fd430c8"

/-- User 1 sends to user 2, twice, under two texts. -/
def sentTwice (text text' : String) : List RelayTurn :=
  [.create ⟨exchangeWorld.world, .ok ⟨1, none⟩, 7, 10, ⟨2, text, "slatepack", 5⟩⟩,
    .create ⟨exchangeWorld.world, .ok ⟨1, none⟩, 8, 10, ⟨2, text', "slatepack", 5⟩⟩]

/-- The relays after both. -/
def afterBoth (text text' : String) : RelayWorld :=
  (creations (sentTwice text text')).foldl (fun w c => c.after relayFormsEnv w) exchangeWorld

theorem run_sentTwice (text text' : String) : (relaySystem relayFormsEnv).Run exchangeWorld
    (sentTwice text text') (afterBoth text text') :=
  .cons rfl (.cons rfl (.nil _))

theorem one_relay_same_text :
    OneRelay relayFormsEnv (afterBoth slateText slateText) slateText 1 := by
  refine (one_relay_iff rfl (run_sentTwice _ _) (by decide) slateText 1).mpr ?_
  have htext : ∀ c ∈ creations (sentTwice slateText slateText), c.req.slateId = slateText := by
    simp [creations, sentTwice]
  exact ⟨fun c hc c' hc' _ _ _ _ _ _ _ => (htext c hc).trans (htext c' hc').symm,
    fun c _ _ hc _ _ _ => (htext c hc.mem).symm⟩

/-- The text in capitals opens a second relay of the slate. -/
theorem capitals_open_second_relay : ¬ ∀ (past : List RelayTurn) (w : RelayWorld),
    (relaySystem relayFormsEnv).Run exchangeWorld past w →
      ((creations past).map RelayCreation.id).Nodup →
        ∀ text u, OneRelay relayFormsEnv w text u := by
  intro hall
  have hone := hall _ _ (run_sentTwice slateText "6BA7B810-9DAD-11D1-80B4-00C04FD430C8") (by decide)
    slateText 1
  have htwo : ¬ ∀ r ∈ (afterBoth slateText
      "6BA7B810-9DAD-11D1-80B4-00C04FD430C8").slatepacks.rows, ∀ r' ∈ (afterBoth slateText
        "6BA7B810-9DAD-11D1-80B4-00C04FD430C8").slatepacks.rows,
      relayFormsEnv.parseUuid r.slateId = some 0x6ba7b8109dad11d180b400c04fd430c8 →
        relayFormsEnv.parseUuid r'.slateId = some 0x6ba7b8109dad11d180b400c04fd430c8 → r = r' := by
    decide +kernel
  exact htwo fun r hr r' hr' hslate hslate' => hone.unique r hr r' hr' _ hslate hslate'

end SmirkBackend
