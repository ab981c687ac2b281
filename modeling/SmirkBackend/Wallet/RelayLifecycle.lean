import SmirkBackend.Lib.Rely
import SmirkBackend.Wallet.GrinRelay

/-!
# The lifecycle of a relayed slatepack

Any number of users create, answer, finalize and cancel relays while a sweep expires them.  A row
keeps its slate, its parties and its end of validity, so the row that a handler was authorized for
is the row that it updates; the `WHERE` clause of the update decides on the state it then finds.

Every statement of a call keeps the rows, or makes moves of the call (`guarantees_relayHandler`), so
every run from an empty relay is disciplined (`relay_state_machine`).
-/

namespace SmirkBackend

open Lib (Table Patch Prog Rely)

/-! ### The state machine -/

/-- The transitions of the relay. -/
inductive SlatepackStatus.Next : SlatepackStatus → SlatepackStatus → Prop
  | respond : Next .pendingRecipient .pendingSender
  | finalize : Next .pendingSender .finalized
  | cancelUnanswered : Next .pendingRecipient .cancelled
  | cancelAnswered : Next .pendingSender .cancelled
  | expireUnanswered : Next .pendingRecipient .expired
  | expireAnswered : Next .pendingSender .expired

/-- A status that is never left. -/
def SlatepackStatus.terminal : SlatepackStatus → Bool
  | finalized | expired | cancelled => true
  | pendingRecipient | pendingSender => false

theorem SlatepackStatus.Next.not_terminal {s s' : SlatepackStatus} (h : s.Next s') :
    s.terminal = false := by
  cases h <;> rfl

theorem SlatepackStatus.Next.ne_pendingRecipient {s s' : SlatepackStatus} (h : s.Next s') :
    s' ≠ .pendingRecipient := by
  cases h <;> simp

/-- A call of the relay; `expire` is a pass of the sweep. -/
inductive RelayCall
  | create (bearer : Except AppError TokenInfo) (id : Uuid) (clock : Timestamp)
      (req : CreateRelayRequest)
  | respond (bearer : Except AppError TokenInfo) (req : RespondRelayRequest)
  | finalize (bearer : Except AppError TokenInfo) (req : FinalizeRelayRequest)
  | cancel (bearer : Except AppError TokenInfo) (slateId : String)
  | get (bearer : Except AppError TokenInfo) (slateId : String)
  | pending (bearer : Except AppError TokenInfo)
  | expire

/-- The program of a call, with the entries it answers. -/
def RelayCall.handler (env : RelayEnv) : RelayCall → RelayHandler (List RelayEntry)
  | create bearer id clock req => do return [← createRelay env bearer id clock req]
  | respond bearer req => do return [← respondRelay env bearer req]
  | finalize bearer req => do return [← finalizeRelay env bearer req]
  | cancel bearer slateId => do return [← cancelRelay env bearer slateId]
  | get bearer slateId => do return [← getRelay env bearer slateId]
  | pending bearer => pendingRelays env bearer
  | expire => do
    expireOldSlatepacks
    return []

/-- A move that a call makes with a row: the party it takes, and the state it needs. -/
inductive RelayMove : RelayCall → Timestamp → GrinSlatepack → GrinSlatepack → Prop
  | respond {info : TokenInfo} {req : RespondRelayRequest} {now : Timestamp} {r : GrinSlatepack} :
      r.slateId = req.slateId → r.recipientUserId = some info.userId →
      r.status = .pendingRecipient → now < r.expiresAt →
      RelayMove (.respond (.ok info) req) now r ((responded req.responseSlatepack now).set r)
  | finalize {info : TokenInfo} {req : FinalizeRelayRequest} {now : Timestamp}
      {r : GrinSlatepack} :
      r.slateId = req.slateId → r.senderUserId = info.userId →
      r.status = .pendingSender → now < r.expiresAt →
      RelayMove (.finalize (.ok info) req) now r ((relayFinalized req.txHash now).set r)
  | cancel {info : TokenInfo} {slateId : String} {now : Timestamp} {r : GrinSlatepack} :
      r.slateId = slateId → (r.senderUserId = info.userId ∨ r.recipientUserId = some info.userId) →
      r.active = true → RelayMove (.cancel (.ok info) slateId) now r ((relayCancelled now).set r)
  | expire {now : Timestamp} {r : GrinSlatepack} : r.active = true → r.expiresAt < now →
      RelayMove .expire now r ((relayExpired now).set r)

theorem GrinSlatepack.active_iff {r : GrinSlatepack} :
    r.active = true ↔ r.status = .pendingRecipient ∨ r.status = .pendingSender := by
  simp [GrinSlatepack.active]

/-- A move is a transition. -/
theorem RelayMove.next {q : RelayCall} {now : Timestamp} {r r' : GrinSlatepack}
    (h : RelayMove q now r r') : r.status.Next r'.status := by
  cases h with
  | respond _ _ hstatus _ =>
    rw [hstatus]
    exact .respond
  | finalize _ _ hstatus _ =>
    rw [hstatus]
    exact .finalize
  | cancel _ _ hactive =>
    rcases GrinSlatepack.active_iff.mp hactive with hstatus | hstatus <;> rw [hstatus]
    · exact .cancelUnanswered
    · exact .cancelAnswered
  | expire hactive _ =>
    rcases GrinSlatepack.active_iff.mp hactive with hstatus | hstatus <;> rw [hstatus]
    · exact .expireUnanswered
    · exact .expireAnswered

/-- What a row keeps. -/
structure SameRelay (r r' : GrinSlatepack) : Prop where
  /-- The slate. -/
  slateId : r'.slateId = r.slateId
  /-- The sender. -/
  sender : r'.senderUserId = r.senderUserId
  /-- The recipient. -/
  recipient : r'.recipientUserId = r.recipientUserId
  /-- The end of validity. -/
  expiresAt : r'.expiresAt = r.expiresAt

theorem SameRelay.refl (r : GrinSlatepack) : SameRelay r r := ⟨rfl, rfl, rfl, rfl⟩

theorem SameRelay.trans {a b c : GrinSlatepack} (h : SameRelay a b) (h' : SameRelay b c) :
    SameRelay a c :=
  ⟨h'.slateId.trans h.slateId, h'.sender.trans h.sender, h'.recipient.trans h.recipient,
    h'.expiresAt.trans h.expiresAt⟩

theorem RelayMove.same {q : RelayCall} {now : Timestamp} {r r' : GrinSlatepack}
    (h : RelayMove q now r r') : SameRelay r r' := by
  cases h <;> exact ⟨rfl, rfl, rfl, rfl⟩

theorem RelayMove.response {q : RelayCall} {now : Timestamp} {r r' : GrinSlatepack}
    (h : RelayMove q now r r') :
    (r.status = .pendingRecipient ∧ r'.status = .pendingSender ∧
      r'.responseSlatepack.isSome) ∨
    (r'.status ≠ .pendingSender ∧ r'.responseSlatepack = r.responseSlatepack) := by
  cases h with
  | respond _ _ hstatus _ => exact .inl ⟨hstatus, rfl, rfl⟩
  | finalize => exact .inr ⟨by simp [relayFinalized], rfl⟩
  | cancel => exact .inr ⟨by simp [relayCancelled], rfl⟩
  | expire => exact .inr ⟨by simp [relayExpired], rfl⟩

theorem RelayMove.unexpired {q : RelayCall} {now : Timestamp} {r r' : GrinSlatepack}
    (h : RelayMove q now r r') :
    (r'.status = .cancelled ∨ r'.status = .expired) ∨ r.status ≠ .expired ∧ now < r.expiresAt := by
  cases h with
  | respond _ _ hpending hvalid => exact .inr ⟨by simp [hpending], hvalid⟩
  | finalize _ _ hpending hvalid => exact .inr ⟨by simp [hpending], hvalid⟩
  | cancel => exact .inl (.inl rfl)
  | expire => exact .inl (.inr rfl)

/-! ### Steps of the calls -/

/-- A row as a creation leaves it. -/
structure FreshRelay (r : GrinSlatepack) : Prop where
  /-- It waits for the recipient. -/
  status : r.status = .pendingRecipient
  /-- It has no response. -/
  response : r.responseSlatepack = none

/-- One statement of a call. -/
structure RelayStep (q : RelayCall) (w w' : RelayWorld) : Prop where
  /-- The rest of the database and the clock. -/
  world : w'.world = w.world
  /-- Rows stay, or move. -/
  rows : ∀ id r, w.slatepacks.get? id = some r → ∃ r', w'.slatepacks.get? id = some r' ∧
    (r' = r ∨ RelayMove q w.world.now r r')
  /-- New rows. -/
  fresh : ∀ id r', w.slatepacks.get? id = none → w'.slatepacks.get? id = some r' → FreshRelay r'

theorem RelayStep.refl (q : RelayCall) (w : RelayWorld) : RelayStep q w w :=
  ⟨rfl, fun _ r hr => ⟨r, hr, .inl rfl⟩, fun _ _ hnone hsome => by rw [hnone] at hsome; cases hsome⟩

theorem relayStep_updateOne {q : RelayCall} {w : RelayWorld} {k : Uuid}
    {guard : GrinSlatepack → Bool} {f : Patch GrinSlatepack}
    (h : ∀ r, w.slatepacks.get? k = some r → guard r = true →
      RelayMove q w.world.now r (f.set r)) :
    RelayStep q w { w with slatepacks := (w.slatepacks.updateOne k guard f).2 } := by
  refine ⟨rfl, fun id r hr => ?_, fun id r' hnone hsome => ?_⟩
  · simp only [Table.get?_updateOne, hr, Option.map_some, Option.some.injEq, exists_eq_left']
    split_ifs with hmove
    · obtain ⟨rfl, hguard⟩ := hmove
      exact .inr (h r hr hguard)
    · exact .inl rfl
  · simp [Table.get?_updateOne, hnone] at hsome

/-- What becomes of a row. -/
structure RowLater (r r' : GrinSlatepack) : Prop extends SameRelay r r' where
  /-- What has ended stays. -/
  terminal : r.status.terminal = true → r' = r
  /-- What was answered, or has ended, keeps its response. -/
  response : r.status ≠ .pendingRecipient →
    r'.status ≠ .pendingRecipient ∧ r'.responseSlatepack = r.responseSlatepack

theorem RowLater.refl (r : GrinSlatepack) : RowLater r r := ⟨.refl r, fun _ => rfl, fun h => ⟨h, rfl⟩⟩

theorem RowLater.trans {a b c : GrinSlatepack} (h : RowLater a b) (h' : RowLater b c) :
    RowLater a c := by
  refine ⟨h.toSameRelay.trans h'.toSameRelay, fun hend => ?_, fun hanswered => ?_⟩
  · have hb := h.terminal hend
    rw [h'.terminal (hb ▸ hend), hb]
  · obtain ⟨hb, hresponse⟩ := h.response hanswered
    obtain ⟨hc, hresponse'⟩ := h'.response hb
    exact ⟨hc, hresponse'.trans hresponse⟩

theorem RelayMove.later {q : RelayCall} {now : Timestamp} {r r' : GrinSlatepack}
    (h : RelayMove q now r r') : RowLater r r' := by
  refine ⟨h.same, fun hend => ?_, fun hanswered => ?_⟩
  · rw [h.next.not_terminal] at hend
    cases hend
  · rcases h.response with ⟨hpending, -, -⟩ | ⟨-, hkept⟩
    · exact absurd hpending hanswered
    · exact ⟨h.next.ne_pendingRecipient, hkept⟩

/-- What the calls rely on: rows stay, and time goes on. -/
def relayRely : Rely RelayWorld where
  rel w w' := w.world.now ≤ w'.world.now ∧ ∀ id r, w.slatepacks.get? id = some r →
    ∃ r', w'.slatepacks.get? id = some r' ∧ RowLater r r'
  refl _ := ⟨le_refl _, fun _ r hr => ⟨r, hr, .refl r⟩⟩
  trans h h' := by
    refine ⟨h.1.trans h'.1, fun id r hr => ?_⟩
    obtain ⟨r₁, hr₁, hlater₁⟩ := h.2 id r hr
    obtain ⟨r₂, hr₂, hlater₂⟩ := h'.2 id r₁ hr₁
    exact ⟨r₂, hr₂, hlater₁.trans hlater₂⟩

theorem RelayStep.rely {q : RelayCall} {w w' : RelayWorld} (h : RelayStep q w w') :
    relayRely.rel w w' := by
  refine ⟨by rw [h.world], fun id r hr => ?_⟩
  obtain ⟨r', hr', rfl | hmove⟩ := h.rows id r hr
  · exact ⟨_, hr', .refl _⟩
  · exact ⟨r', hr', hmove.later⟩

section Guarantees

variable {q : RelayCall} {α : Type} {Q : α → RelayWorld → Prop} {w : RelayWorld}

theorem guarantees_relayUser {bearer : Except AppError TokenInfo} {Q : Uuid → RelayWorld → Prop}
    (h : ∀ info w', bearer = .ok info → Q info.userId w') :
    (relayUser bearer).Guarantees relayRely (RelayStep q) Q w := by
  cases bearer with
  | error e => trivial
  | ok info =>
    cases hsession : info.sessionId with
    | none =>
      simp only [relayUser, extractUserIdFromToken, Prog.ofExcept_ok, Prog.ret_bind, hsession]
      exact h info w rfl
    | some session =>
      simp only [relayUser, extractUserIdFromToken, Prog.ofExcept_ok, Prog.ret_bind, hsession]
      refine fun w' _ => ⟨.refl q w', ?_, trivial⟩
      cases hlive : w'.world.db.isSessionLive w'.world.now session <;>
        simp only [relayRest, hlive] <;>
        first | exact h info _ rfl | trivial

/-- The row that a party was authorized for is there, with its slate and parties. -/
def Authorized (slateId : String) (u : Uuid) (party : RelayParty) (row : GrinSlatepack)
    (w : RelayWorld) : Prop :=
  row.slateId = slateId ∧ party.authorizes row u = true ∧
    ∃ r, w.slatepacks.get? row.id = some r ∧ SameRelay row r

theorem authorized_stable (slateId : String) (u : Uuid) (party : RelayParty) (row : GrinSlatepack) :
    relayRely.Stable (Authorized slateId u party row) := by
  rintro w w' hR ⟨hslate, hparty, r, hr, hsame⟩
  obtain ⟨r', hr', hlater⟩ := hR.2 _ r hr
  exact ⟨hslate, hparty, r', hr', hsame.trans hlater.toSameRelay⟩

theorem guarantees_fetchAuthorized {slateId : String} {u : Uuid} {party : RelayParty} :
    (fetchAuthorized slateId u party).Guarantees relayRely (RelayStep q)
      (Authorized slateId u party) w := by
  refine Prog.Guarantees.bind (Prog.guarantees_read (RelayStep.refl q) fun w' _ => ?_)
  refine Prog.Guarantees.bind (Prog.guarantees_orFail fun row hrow => ?_)
  have hmem := List.mem_of_find?_eq_some hrow
  have hslate : row.slateId = slateId := by simpa using List.find?_some hrow
  split_ifs with hparty
  · exact ⟨hslate, hparty, row, Table.get?_of_mem hmem, .refl row⟩
  · trivial

theorem Authorized.found {slateId : String} {u : Uuid} {party : RelayParty} {row r : GrinSlatepack}
    (h : Authorized slateId u party row w) (hr : w.slatepacks.get? row.id = some r) :
    r.slateId = slateId ∧ party.authorizes r u = true := by
  obtain ⟨hslate, hparty, r', hr', hsame⟩ := h
  obtain rfl : r' = r := Option.some.inj (hr'.symm.trans hr)
  refine ⟨hsame.slateId.trans hslate, ?_⟩
  rw [← hparty]
  cases party <;> simp only [RelayParty.authorizes, hsame.sender, hsame.recipient]

theorem guarantees_update {slateId : String} {u : Uuid} {party : RelayParty} {row : GrinSlatepack}
    {guard : Timestamp → GrinSlatepack → Bool} {f : Timestamp → Patch GrinSlatepack} {e : AppError}
    (hrow : Authorized slateId u party row w)
    (hmove : ∀ now r, r.slateId = slateId → party.authorizes r u = true → guard now r = true →
      RelayMove q now r ((f now).set r)) :
    (do
      let updated ← relayExecute fun now t => t.updateOne row.id (guard now) (f now)
      let updated ← .orFail e updated
      return relayEntry updated : RelayHandler RelayEntry).Guarantees relayRely (RelayStep q)
        (fun _ _ => True) w := by
  refine Prog.Guarantees.bind (Prog.guarantees_query fun w' hR => ⟨?_, fun updated _ => ?_⟩)
  · refine relayStep_updateOne fun r hr hguard => ?_
    obtain ⟨hslate, hparty⟩ := (authorized_stable slateId u party row w w' hR hrow).found hr
    exact hmove _ r hslate hparty hguard
  · exact Prog.Guarantees.bind (Prog.guarantees_orFail fun _ _ => trivial)

theorem guarantees_respondRelay (env : RelayEnv) (bearer : Except AppError TokenInfo)
    (req : RespondRelayRequest) :
    (respondRelay env bearer req).Guarantees relayRely (RelayStep (.respond bearer req))
      (fun _ _ => True) w := by
  refine Prog.Guarantees.bind (guarantees_relayUser ?_)
  rintro info w₁ rfl
  refine Prog.Guarantees.bind (Prog.guarantees_ofExcept fun _ _ => ?_)
  refine Prog.Guarantees.bind (Prog.guarantees_ofExcept fun _ _ => ?_)
  refine Prog.Guarantees.bind (guarantees_fetchAuthorized.imp (fun _ _ h => h) fun row w₂ hrow => ?_)
  refine guarantees_update hrow fun now r hslate hparty hguard => ?_
  simp only [Bool.and_eq_true, decide_eq_true_eq] at hguard
  exact .respond hslate (by simpa [RelayParty.authorizes] using hparty) hguard.1 hguard.2

theorem guarantees_finalizeRelay (env : RelayEnv) (bearer : Except AppError TokenInfo)
    (req : FinalizeRelayRequest) :
    (finalizeRelay env bearer req).Guarantees relayRely (RelayStep (.finalize bearer req))
      (fun _ _ => True) w := by
  refine Prog.Guarantees.bind (guarantees_relayUser ?_)
  rintro info w₁ rfl
  refine Prog.Guarantees.bind (Prog.guarantees_ofExcept fun _ _ => ?_)
  refine Prog.Guarantees.bind (Prog.guarantees_ofExcept fun _ _ => ?_)
  refine Prog.Guarantees.bind (guarantees_fetchAuthorized.imp (fun _ _ h => h) fun row w₂ hrow => ?_)
  refine guarantees_update hrow fun now r hslate hparty hguard => ?_
  simp only [Bool.and_eq_true, decide_eq_true_eq] at hguard
  exact .finalize hslate (by simpa [RelayParty.authorizes] using hparty) hguard.1 hguard.2

theorem guarantees_cancelRelay (env : RelayEnv) (bearer : Except AppError TokenInfo)
    (slateId : String) :
    (cancelRelay env bearer slateId).Guarantees relayRely (RelayStep (.cancel bearer slateId))
      (fun _ _ => True) w := by
  refine Prog.Guarantees.bind (guarantees_relayUser ?_)
  rintro info w₁ rfl
  refine Prog.Guarantees.bind (Prog.guarantees_ofExcept fun _ _ => ?_)
  refine Prog.Guarantees.bind (guarantees_fetchAuthorized.imp (fun _ _ h => h) fun row w₂ hrow => ?_)
  have hmove (now : Timestamp) (r : GrinSlatepack) (hslate : r.slateId = slateId)
      (hparty : RelayParty.either.authorizes r info.userId = true) (hactive : r.active = true) :
      RelayMove (.cancel (.ok info) slateId) now r ((relayCancelled now).set r) :=
    .cancel hslate (by simpa [RelayParty.authorizes] using hparty) hactive
  exact guarantees_update hrow hmove

theorem guarantees_getRelay (env : RelayEnv) (bearer : Except AppError TokenInfo)
    (slateId : String) :
    (getRelay env bearer slateId).Guarantees relayRely (RelayStep q) (fun _ _ => True) w := by
  refine Prog.Guarantees.bind (guarantees_relayUser fun info w₁ _ => ?_)
  refine Prog.Guarantees.bind (Prog.guarantees_ofExcept fun _ _ => ?_)
  exact Prog.Guarantees.bind (guarantees_fetchAuthorized.imp (fun _ _ h => h) fun _ _ _ => trivial)

theorem guarantees_pendingRelays (env : RelayEnv) (bearer : Except AppError TokenInfo) :
    (pendingRelays env bearer).Guarantees relayRely (RelayStep q) (fun _ _ => True) w := by
  refine Prog.Guarantees.bind (guarantees_relayUser fun info w₁ _ => ?_)
  refine Prog.Guarantees.bind (Prog.guarantees_ofExcept fun _ _ => ?_)
  exact Prog.Guarantees.bind (Prog.guarantees_read (RelayStep.refl q) fun _ _ => trivial)

/-- An insertion adds a fresh row. -/
theorem relayStep_createGrinSlatepack {id : Uuid} {input : NewGrinSlatepack} :
    (createGrinSlatepack id input).Steps (RelayStep q) := by
  refine Prog.steps_query fun w => ?_
  cases hins : w.slatepacks.insert? (input.row id w.world.now) with
  | none =>
    simp only [hins]
    split_ifs <;> exact .refl q w
  | some t =>
    simp only [hins]
    split_ifs
    · exact .refl q w
    · exact .refl q w
    · have hget := Table.get?_insert? hins
      have hnew := (Table.insert?_eq_some_iff.mp hins).1
      refine ⟨rfl, fun id' r hr => ⟨r, ?_, .inl rfl⟩, fun id' r' hnone hsome => ?_⟩
      · rw [hget, if_neg, hr]
        rintro rfl
        exact Option.some_ne_none r (hr.symm.trans hnew)
      · rw [hget, hnone] at hsome
        split_ifs at hsome
        obtain rfl := Option.some.inj hsome
        exact ⟨rfl, rfl⟩

theorem guarantees_createRelay (env : RelayEnv) (bearer : Except AppError TokenInfo) (id : Uuid)
    (clock : Timestamp) (req : CreateRelayRequest) :
    (createRelay env bearer id clock req).Guarantees relayRely (RelayStep q)
      (fun _ _ => True) w := by
  refine Prog.Guarantees.bind (guarantees_relayUser fun info w₁ _ => ?_)
  refine Prog.Guarantees.bind (Prog.guarantees_ofExcept fun _ _ => ?_)
  refine Prog.Guarantees.bind (Prog.guarantees_ofExcept fun _ _ => ?_)
  refine Prog.Guarantees.bind (Prog.guarantees_ofExcept fun _ _ => ?_)
  split_ifs
  · trivial
  · refine Prog.Guarantees.bind (Prog.guarantees_read (RelayStep.refl q) fun w₂ _ => ?_)
    refine Prog.Guarantees.bind (Prog.guarantees_orFail fun recipient _ => ?_)
    refine Prog.Guarantees.bind (relayStep_createGrinSlatepack.guarantees (fun _ _ => ?_) _)
    trivial

theorem guarantees_expireOldSlatepacks :
    expireOldSlatepacks.Guarantees relayRely (RelayStep .expire) (fun _ _ => True) w := by
  refine Prog.guarantees_query fun w' _ => ⟨⟨rfl, fun id r hr => ?_, fun id r' hnone hsome => ?_⟩,
    fun _ _ => trivial⟩
  · simp only [Table.get?_updateWhere, hr, Option.map_some, Option.some.injEq, exists_eq_left']
    split_ifs with hdue
    · simp only [GrinSlatepack.overdue, Bool.and_eq_true, decide_eq_true_eq] at hdue
      exact .inr (.expire hdue.1 hdue.2)
    · exact .inl rfl
  · simp [Table.get?_updateWhere, hnone] at hsome

/-- **Every statement of a call keeps the rows, or makes moves of the call.** -/
theorem guarantees_relayHandler (env : RelayEnv) (q : RelayCall) (w : RelayWorld) :
    (q.handler env).Guarantees relayRely (RelayStep q) (fun _ _ => True) w := by
  cases q with
  | create bearer id clock req =>
    exact .bind ((guarantees_createRelay env bearer id clock req).imp (fun _ _ h => h)
      fun _ _ _ => trivial)
  | respond bearer req =>
    exact .bind ((guarantees_respondRelay env bearer req).imp (fun _ _ h => h)
      fun _ _ _ => trivial)
  | finalize bearer req =>
    exact .bind ((guarantees_finalizeRelay env bearer req).imp (fun _ _ h => h)
      fun _ _ _ => trivial)
  | cancel bearer slateId =>
    exact .bind ((guarantees_cancelRelay env bearer slateId).imp (fun _ _ h => h)
      fun _ _ _ => trivial)
  | get bearer slateId =>
    exact .bind ((guarantees_getRelay env bearer slateId).imp (fun _ _ h => h)
      fun _ _ _ => trivial)
  | pending bearer => exact guarantees_pendingRelays env bearer
  | expire =>
    exact .bind (guarantees_expireOldSlatepacks.imp (fun _ _ h => h) fun _ _ _ => trivial)

end Guarantees

/-! ### Successful calls -/

section Paths

variable {t : List (RelayWorld × RelayWorld)}

/-- An update that was answered has found a row that its guard admits. -/
theorem path_update {k : Uuid} {guard : Timestamp → GrinSlatepack → Bool}
    {f : Timestamp → Patch GrinSlatepack} {e : AppError} {entry : RelayEntry}
    (h : (do
      let updated ← relayExecute fun now t => t.updateOne k (guard now) (f now)
      let updated ← .orFail e updated
      return relayEntry updated : RelayHandler RelayEntry).Path t (.ok entry)) :
    ∃ w w' r, (w, w') ∈ t ∧ w.slatepacks.get? k = some r ∧ guard w.world.now r = true ∧
      w'.slatepacks.get? k = some ((f w.world.now).set r) ∧
      entry = relayEntry ((f w.world.now).set r) := by
  obtain ⟨t₁, t₂, updated, rfl, hquery, hrest⟩ := Prog.path_bind_ok h
  obtain ⟨w, ⟨rfl, hupdated⟩ | ⟨-, hfault⟩⟩ := Prog.path_query hquery
  · obtain rfl := Except.ok.inj hupdated
    cases hr : w.slatepacks.get? k with
    | none =>
      simp only [Table.updateOne, hr, Option.filter_none, Option.map_none] at hrest
      cases hrest
    | some r =>
      by_cases hguard : guard w.world.now r = true
      · simp only [Table.updateOne, hr, Option.filter_some, hguard, if_true, Option.map_some]
          at hrest
        cases hrest
        refine ⟨w, _, r, List.mem_append_left _ (List.mem_singleton_self _), hr, hguard, ?_, rfl⟩
        rw [Table.get?_updateOne_self, hr, Option.map_some, if_pos hguard]
      · simp only [Table.updateOne, hr, Option.filter_some, hguard] at hrest
        cases hrest
  · cases hfault

theorem path_respondRelay {env : RelayEnv} {bearer : Except AppError TokenInfo}
    {req : RespondRelayRequest} {entry : RelayEntry}
    (h : (respondRelay env bearer req).Path t (.ok entry)) :
    ∃ w w' k r, (w, w') ∈ t ∧ w.slatepacks.get? k = some r ∧ r.status = .pendingRecipient ∧
      w'.slatepacks.get? k = some ((responded req.responseSlatepack w.world.now).set r) ∧
      entry = relayEntry ((responded req.responseSlatepack w.world.now).set r) := by
  obtain ⟨t₁, t₂, user, rfl, -, h⟩ := Prog.path_bind_ok h
  obtain ⟨t₃, t₄, -, rfl, -, h⟩ := Prog.path_bind_ok h
  obtain ⟨t₅, t₆, -, rfl, -, h⟩ := Prog.path_bind_ok h
  obtain ⟨t₇, t₈, row, rfl, -, h⟩ := Prog.path_bind_ok h
  obtain ⟨w, w', r, hmem, hr, hguard, hr', hentry⟩ := path_update h
  simp only [Bool.and_eq_true, decide_eq_true_eq] at hguard
  exact ⟨w, w', row.id, r, by simp [hmem], hr, hguard.1, hr', hentry⟩

theorem path_finalizeRelay {env : RelayEnv} {bearer : Except AppError TokenInfo}
    {req : FinalizeRelayRequest} {entry : RelayEntry}
    (h : (finalizeRelay env bearer req).Path t (.ok entry)) :
    ∃ w w' k r, (w, w') ∈ t ∧ w.slatepacks.get? k = some r ∧ r.status = .pendingSender ∧
      w'.slatepacks.get? k = some ((relayFinalized req.txHash w.world.now).set r) ∧
      entry = relayEntry ((relayFinalized req.txHash w.world.now).set r) := by
  obtain ⟨t₁, t₂, user, rfl, -, h⟩ := Prog.path_bind_ok h
  obtain ⟨t₃, t₄, -, rfl, -, h⟩ := Prog.path_bind_ok h
  obtain ⟨t₅, t₆, -, rfl, -, h⟩ := Prog.path_bind_ok h
  obtain ⟨t₇, t₈, row, rfl, -, h⟩ := Prog.path_bind_ok h
  obtain ⟨w, w', r, hmem, hr, hguard, hr', hentry⟩ := path_update h
  simp only [Bool.and_eq_true, decide_eq_true_eq] at hguard
  exact ⟨w, w', row.id, r, by simp [hmem], hr, hguard.1, hr', hentry⟩

end Paths

/-! ### Runs -/

/-- What others do: the rest of the database changes, and time goes on. -/
structure RelayIdle (w w' : RelayWorld) : Prop where
  /-- No slatepack. -/
  slatepacks : w'.slatepacks = w.slatepacks
  /-- The clock. -/
  now : w.world.now ≤ w'.world.now

theorem RelayIdle.rely {w w' : RelayWorld} (h : RelayIdle w w') : relayRely.rel w w' :=
  ⟨h.now, fun _ r hr => ⟨r, h.slatepacks ▸ hr, .refl r⟩⟩

/-- A row of a run that began with an empty table. -/
structure RelayRowOk (r : GrinSlatepack) : Prop where
  /-- Nothing is answered yet. -/
  pending : r.status = .pendingRecipient → r.responseSlatepack = none
  /-- It was answered. -/
  answered : r.status = .pendingSender → r.responseSlatepack.isSome

theorem FreshRelay.ok {r : GrinSlatepack} (h : FreshRelay r) : RelayRowOk r :=
  ⟨fun _ => h.response, fun hstatus => by rw [h.status] at hstatus; cases hstatus⟩

theorem RelayMove.ok {q : RelayCall} {now : Timestamp} {r r' : GrinSlatepack}
    (h : RelayMove q now r r') : RelayRowOk r' := by
  refine ⟨fun hstatus => absurd hstatus h.next.ne_pendingRecipient, fun hstatus => ?_⟩
  rcases h.response with ⟨-, -, hsome⟩ | ⟨hother, -⟩
  · exact hsome
  · exact absurd hstatus hother

section Runs

variable {ι : Type} [DecidableEq ι]

/-- The state machine of the relay, over a run: `call` says what was called, `es` what happened. -/
structure RelayDiscipline (call : ι → RelayCall) (es : List (Prog.Event ι RelayWorld))
    (c : RelayWorld × (ι → RelayHandler (List RelayEntry))) : Prop where
  /-- A row begins as waiting for its recipient, with no response. -/
  created : ∀ e ∈ es, ∀ id r', e.pre.slatepacks.get? id = none →
    e.post.slatepacks.get? id = some r' → FreshRelay r'
  /-- From then on it stays, or takes a transition: a move of the call that acts. -/
  moves : ∀ e ∈ es, ∀ id r, e.pre.slatepacks.get? id = some r →
    ∃ r', e.post.slatepacks.get? id = some r' ∧ SameRelay r r' ∧
      (r' = r ∨ r.status.Next r'.status ∧
        ∃ i, e.who = some i ∧ RelayMove (call i) e.pre.world.now r r')
  /-- What is finalized, cancelled or expired stays as it is. -/
  absorbing : ∀ e ∈ es, ∀ id r, e.post.slatepacks.get? id = some r → r.status.terminal = true →
    c.1.slatepacks.get? id = some r
  /-- A response is there if and only if the row waited for its sender. -/
  response_iff : ∀ id r, c.1.slatepacks.get? id = some r → (r.responseSlatepack.isSome ↔
    ∃ e ∈ es, ∃ r₁, e.post.slatepacks.get? id = some r₁ ∧ r₁.status = .pendingSender)
  /-- A response never changes. -/
  response_kept : ∀ e ∈ es, ∀ id r₁ response, e.post.slatepacks.get? id = some r₁ →
    r₁.responseSlatepack = some response →
      ∃ r, c.1.slatepacks.get? id = some r ∧ r.responseSlatepack = some response
  /-- A response that was accepted is the recipient's. -/
  responder : ∀ i bearer req entries, call i = .respond bearer req → c.2 i = .ret entries →
    ∃ e ∈ es, e.who = some i ∧ ∃ info id r, bearer = .ok info ∧
      e.pre.slatepacks.get? id = some r ∧ r.slateId = req.slateId ∧
      r.recipientUserId = some info.userId ∧ r.status = .pendingRecipient ∧
      e.pre.world.now < r.expiresAt ∧
      e.post.slatepacks.get? id = some ((responded req.responseSlatepack e.pre.world.now).set r)
  /-- A finalization that was accepted is the sender's. -/
  finalizer : ∀ i bearer req entries, call i = .finalize bearer req → c.2 i = .ret entries →
    ∃ e ∈ es, e.who = some i ∧ ∃ info id r, bearer = .ok info ∧
      e.pre.slatepacks.get? id = some r ∧ r.slateId = req.slateId ∧
      r.senderUserId = info.userId ∧ r.status = .pendingSender ∧
      e.pre.world.now < r.expiresAt ∧
      e.post.slatepacks.get? id = some ((relayFinalized req.txHash e.pre.world.now).set r)
  /-- What has expired is neither answered nor finalized. -/
  expired : ∀ es₁ e es₂, es = es₁ ++ e :: es₂ → ∀ id r, e.post.slatepacks.get? id = some r →
    (r.status = .expired ∨ r.expiresAt ≤ e.post.world.now) →
    ∀ e' ∈ es₂, ∀ r₁ r₂, e'.pre.slatepacks.get? id = some r₁ →
      e'.post.slatepacks.get? id = some r₂ → r₂ ≠ r₁ →
        r₂.status = .cancelled ∨ r₂.status = .expired

variable {env : RelayEnv} {call : ι → RelayCall} {w₀ : RelayWorld}
  {es : List (Prog.Event ι RelayWorld)} {c : RelayWorld × (ι → RelayHandler (List RelayEntry))}

theorem event_of_relay
    (hrun : (Prog.pool RelayIdle).Run (w₀, fun i => (call i).handler env) es c) :
    ∀ e ∈ es, (e.who = none → RelayIdle e.pre e.post) ∧
      ∀ i, e.who = some i → RelayStep (call i) e.pre e.post :=
  Prog.guarantees_of_run (R := relayRely) (Q := fun _ _ _ => True) (fun _ _ _ _ _ _ => trivial)
    (fun i => RelayStep.refl (call i)) (fun _ _ _ h => h.rely) (fun _ _ h => h.rely) hrun
    fun i => guarantees_relayHandler env (call i) w₀

theorem rely_of_relay
    (hrun : (Prog.pool RelayIdle).Run (w₀, fun i => (call i).handler env) es c) :
    ∀ e ∈ es, relayRely.rel e.pre e.post := by
  intro e he
  obtain ⟨henv, hcall⟩ := event_of_relay hrun e he
  cases hwho : e.who with
  | none => exact (henv hwho).rely
  | some i => exact (hcall i hwho).rely

theorem moves_of_relay
    (hrun : (Prog.pool RelayIdle).Run (w₀, fun i => (call i).handler env) es c)
    {e : Prog.Event ι RelayWorld} (he : e ∈ es) {id : Uuid} {r : GrinSlatepack}
    (hr : e.pre.slatepacks.get? id = some r) :
    ∃ r', e.post.slatepacks.get? id = some r' ∧
      (r' = r ∨ ∃ i, e.who = some i ∧ RelayMove (call i) e.pre.world.now r r') := by
  obtain ⟨henv, hcall⟩ := event_of_relay hrun e he
  cases hwho : e.who with
  | none => exact ⟨r, (henv hwho).slatepacks ▸ hr, .inl rfl⟩
  | some i =>
    obtain ⟨r', hr', hrest⟩ := (hcall i hwho).rows id r hr
    exact ⟨r', hr', hrest.imp_right fun hmove => ⟨i, rfl, hmove⟩⟩

theorem fresh_of_relay
    (hrun : (Prog.pool RelayIdle).Run (w₀, fun i => (call i).handler env) es c)
    {e : Prog.Event ι RelayWorld} (he : e ∈ es) {id : Uuid} {r' : GrinSlatepack}
    (hnone : e.pre.slatepacks.get? id = none) (hr' : e.post.slatepacks.get? id = some r') :
    FreshRelay r' := by
  obtain ⟨henv, hcall⟩ := event_of_relay hrun e he
  cases hwho : e.who with
  | none =>
    rw [(henv hwho).slatepacks, hnone] at hr'
    cases hr'
  | some i => exact (hcall i hwho).fresh id r' hnone hr'

theorem rowOk_of_event
    (hrun : (Prog.pool RelayIdle).Run (w₀, fun i => (call i).handler env) es c)
    {e : Prog.Event ι RelayWorld} (he : e ∈ es)
    (hpre : ∀ id r, e.pre.slatepacks.get? id = some r → RelayRowOk r) {id : Uuid}
    {r' : GrinSlatepack} (hr' : e.post.slatepacks.get? id = some r') : RelayRowOk r' := by
  cases hr : e.pre.slatepacks.get? id with
  | none => exact (fresh_of_relay hrun he hr hr').ok
  | some r =>
    obtain ⟨r₁, hr₁, hmove⟩ := moves_of_relay hrun he hr
    obtain rfl := Option.some.inj (hr'.symm.trans hr₁)
    rcases hmove with rfl | ⟨i, -, hmove⟩
    · exact hpre id _ hr
    · exact hmove.ok

theorem rowOk_after (hempty : w₀.slatepacks.rows = [])
    (hrun : (Prog.pool RelayIdle).Run (w₀, fun i => (call i).handler env) es c)
    {e : Prog.Event ι RelayWorld} (he : e ∈ es) {id : Uuid} {r : GrinSlatepack}
    (hr : e.post.slatepacks.get? id = some r) : RelayRowOk r := by
  have hinv := Prog.invariant_of_run
    (I := fun w => ∀ id r, w.slatepacks.get? id = some r → RelayRowOk r) hrun
    (fun es₁ e es₂ hes _ hpre id r hr =>
      rowOk_of_event hrun (by simp [hes]) hpre hr)
    fun id r hr => by
      have hmem := Table.mem_of_get? hr
      rw [hempty] at hmem
      cases hmem
  exact rowOk_of_event hrun he (hinv.1 e he) hr

theorem later_of_relay
    (hrun : (Prog.pool RelayIdle).Run (w₀, fun i => (call i).handler env) es c)
    {e : Prog.Event ι RelayWorld} (he : e ∈ es) {id : Uuid} {r : GrinSlatepack}
    (hr : e.post.slatepacks.get? id = some r) :
    ∃ r', c.1.slatepacks.get? id = some r' ∧ RowLater r r' :=
  (Prog.rel_of_mem hrun (rely_of_relay hrun) he).2 id r hr

/-- The response of a row tells whether it waited for its sender. -/
theorem response_iff_of_relay (hempty : w₀.slatepacks.rows = [])
    (hrun : (Prog.pool RelayIdle).Run (w₀, fun i => (call i).handler env) es c) {id : Uuid}
    {r : GrinSlatepack} (hr : c.1.slatepacks.get? id = some r) :
    r.responseSlatepack.isSome ↔
      ∃ e ∈ es, ∃ r₁, e.post.slatepacks.get? id = some r₁ ∧ r₁.status = .pendingSender := by
  constructor
  · intro hsome
    -- some event brought the response about
    rcases Prog.appeared_of_run hrun (b := fun w => ∃ r, w.slatepacks.get? id = some r ∧
        r.responseSlatepack.isSome) ⟨r, hr, hsome⟩ with
      ⟨⟨r₀, hr₀, -⟩, -⟩ | ⟨es₁, e, es₂, rfl, hbefore, ⟨r₁, hr₁, hsome₁⟩, -⟩
    · have hmem := Table.mem_of_get? hr₀
      rw [hempty] at hmem
      cases hmem
    · refine ⟨e, by simp, r₁, hr₁, ?_⟩
      cases hpre : e.pre.slatepacks.get? id with
      | none =>
        rw [(fresh_of_relay hrun (by simp) hpre hr₁).response] at hsome₁
        cases hsome₁
      | some r₀ =>
        obtain ⟨r', hr', hmove⟩ := moves_of_relay hrun (e := e) (by simp) hpre
        obtain rfl := Option.some.inj (hr₁.symm.trans hr')
        rcases hmove with rfl | ⟨i, -, hmove⟩
        · exact (hbefore ⟨_, hpre, hsome₁⟩).elim
        · rcases hmove.response with ⟨-, hstatus, -⟩ | ⟨-, hkept⟩
          · exact hstatus
          · exact (hbefore ⟨r₀, hpre, hkept ▸ hsome₁⟩).elim
  · rintro ⟨e, he, r₁, hr₁, hstatus⟩
    obtain ⟨r', hr', hlater⟩ := later_of_relay hrun he hr₁
    obtain rfl := Option.some.inj (hr.symm.trans hr')
    obtain ⟨-, hkept⟩ := hlater.response (by simp [hstatus])
    rw [hkept]
    exact (rowOk_after hempty hrun he hr₁).answered hstatus

theorem move_of_relay
    (hrun : (Prog.pool RelayIdle).Run (w₀, fun i => (call i).handler env) es c) {i : ι}
    {w w' : RelayWorld} (hmem : (w, w') ∈ Prog.eventsOf i es) {id : Uuid} {r r' : GrinSlatepack}
    (hr : w.slatepacks.get? id = some r) (hr' : w'.slatepacks.get? id = some r')
    (hne : r'.status ≠ r.status) :
    ∃ e ∈ es, e.who = some i ∧ e.pre = w ∧ e.post = w' ∧ RelayMove (call i) w.world.now r r' := by
  obtain ⟨e, he, hwho, hx⟩ := Prog.mem_eventsOf.mp hmem
  obtain ⟨rfl, rfl⟩ := Prod.mk.inj hx
  obtain ⟨r₁, hr₁, hmove⟩ := ((event_of_relay hrun e he).2 i hwho).rows id r hr
  obtain rfl := Option.some.inj (hr'.symm.trans hr₁)
  rcases hmove with rfl | hmove
  · exact absurd rfl hne
  · exact ⟨e, he, hwho, rfl, rfl, hmove⟩

/-- **The relay is a state machine.** However creations, responses, finalizations, cancellations
and sweeps of any users interleave, from an empty table and with any faults: a row takes the
transitions of the relay only, each by the party it belongs to; what has ended stays; a response
is there if and only if the row waited for its sender, and never changes; only the recipient's
response and the sender's finalization are accepted; and what has expired is neither answered nor
finalized. -/
theorem relay_state_machine (env : RelayEnv) (call : ι → RelayCall) (w₀ : RelayWorld)
    (hempty : w₀.slatepacks.rows = []) {es : List (Prog.Event ι RelayWorld)}
    {c : RelayWorld × (ι → RelayHandler (List RelayEntry))}
    (hrun : (Prog.pool RelayIdle).Run (w₀, fun i => (call i).handler env) es c) :
    RelayDiscipline call es c where
  created e he id r' hnone hr' := fresh_of_relay hrun he hnone hr'
  moves e he id r hr := by
    obtain ⟨r', hr', rfl | ⟨i, hwho, hmove⟩⟩ := moves_of_relay hrun he hr
    · exact ⟨_, hr', .refl _, .inl rfl⟩
    · exact ⟨r', hr', hmove.same, .inr ⟨hmove.next, i, hwho, hmove⟩⟩
  absorbing e he id r hr hend := by
    obtain ⟨r', hr', hlater⟩ := later_of_relay hrun he hr
    rw [hr', hlater.terminal hend]
  response_iff id r hr := response_iff_of_relay hempty hrun hr
  response_kept e he id r₁ response hr₁ hresponse := by
    obtain ⟨r', hr', hlater⟩ := later_of_relay hrun he hr₁
    refine ⟨r', hr', ?_⟩
    have hanswered : r₁.status ≠ .pendingRecipient := by
      intro hpending
      rw [(rowOk_after hempty hrun he hr₁).pending hpending] at hresponse
      cases hresponse
    rw [(hlater.response hanswered).2, hresponse]
  responder i bearer req entries hcall hend := by
    have hpath := Prog.path_of_run hrun i (by rw [hend]; exact .ret entries)
    simp only [hcall, RelayCall.handler, List.append_nil] at hpath
    obtain ⟨t₁, t₂, entry, ht, hrespond, -⟩ := Prog.path_bind_ok hpath
    obtain ⟨w, w', id, r, hmem, hr, hstatus, hr', -⟩ := path_respondRelay hrespond
    obtain ⟨e, he, hwho, rfl, rfl, hmove⟩ := move_of_relay hrun (i := i) (by simp [ht, hmem]) hr hr'
      (by simp [hstatus, responded])
    rw [hcall] at hmove
    cases hmove with
    | respond hslate hparty _ hvalid =>
      exact ⟨e, he, hwho, _, id, r, rfl, hr, hslate, hparty, hstatus, hvalid, hr'⟩
  finalizer i bearer req entries hcall hend := by
    have hpath := Prog.path_of_run hrun i (by rw [hend]; exact .ret entries)
    simp only [hcall, RelayCall.handler, List.append_nil] at hpath
    obtain ⟨t₁, t₂, entry, ht, hfinalize, -⟩ := Prog.path_bind_ok hpath
    obtain ⟨w, w', id, r, hmem, hr, hstatus, hr', -⟩ := path_finalizeRelay hfinalize
    obtain ⟨e, he, hwho, rfl, rfl, hmove⟩ := move_of_relay hrun (i := i) (by simp [ht, hmem]) hr hr'
      (by simp [hstatus, relayFinalized])
    rw [hcall] at hmove
    cases hmove with
    | finalize hslate hparty _ hvalid =>
      exact ⟨e, he, hwho, _, id, r, rfl, hr, hslate, hparty, hstatus, hvalid, hr'⟩
  expired := by
    rintro es₁ e es₂ rfl id r hr hexpired e' he' r₁ r₂ hr₁ hr₂ hne
    obtain ⟨r₃, hr₃, hmove⟩ := moves_of_relay hrun (e := e') (by simp [he']) hr₁
    obtain rfl := Option.some.inj (hr₂.symm.trans hr₃)
    rcases hmove with rfl | ⟨i, -, hmove⟩
    · exact absurd rfl hne
    · -- the row as the later event finds it
      obtain ⟨es₃, es₄, rfl⟩ := List.append_of_mem he'
      rw [← List.cons_append, ← List.append_assoc] at hrun
      obtain ⟨c₁, -, hbefore, hpre, -⟩ := Prog.run_at hrun
      obtain ⟨hnow, hlater⟩ := Prog.rel_of_mem hbefore (rely_of_relay hbefore) (e := e) (by simp)
      rw [hpre] at hnow hlater
      obtain ⟨r', hr', hlater⟩ := hlater id r hr
      obtain rfl := Option.some.inj (hr₁.symm.trans hr')
      refine hmove.unexpired.resolve_right ?_
      rintro ⟨hlive, hvalid⟩
      rcases hexpired with hstatus | hdue
      · rw [hlater.terminal (by rw [hstatus]; rfl)] at hlive
        exact hlive hstatus
      · rw [hlater.expiresAt] at hvalid
        exact absurd (hdue.trans hnow) (not_le_of_gt hvalid)

end Runs

/-! ### An exchange -/

/-- Two users without a slatepack. -/
def exchangeWorld : RelayWorld where
  world := { db := { Db.empty with users :=
    ⟨[⟨1, none, none, none, none, none, none, none, none⟩,
      ⟨2, none, none, none, none, none, none, none, none⟩], by decide⟩ }, now := 10 }
  slatepacks := .empty

/-- User 1 sends two slates to user 2, who answers both; user 1 finalizes the first, and a sweep
runs. -/
def exchangeCall : Fin 6 → RelayCall
  | 0 => .create (.ok ⟨1, none⟩) 7 10 ⟨2, "slate", "slatepack", 5⟩
  | 1 => .respond (.ok ⟨2, none⟩) ⟨"slate", "response"⟩
  | 2 => .finalize (.ok ⟨1, none⟩) ⟨"slate", "hash"⟩
  | 3 => .create (.ok ⟨1, none⟩) 8 10 ⟨2, "late", "slatepack", 5⟩
  | 4 => .respond (.ok ⟨2, none⟩) ⟨"late", "response"⟩
  | 5 => .expire

/-- A relay that reads every slate as a UUID. -/
def exchangeEnv : RelayEnv := ⟨true, fun _ => some 9⟩

/-- The calls, about to begin. -/
def exchangeStart : RelayWorld × (Fin 6 → RelayHandler (List RelayEntry)) :=
  (exchangeWorld, fun i => (exchangeCall i).handler exchangeEnv)

/-- The first slate is exchanged, and the second answer has read its row. -/
def exchangeTurns : List (Fin 6 × ℕ) := [(0, 2), (3, 2), (1, 2), (2, 2), (4, 1)]

/-- Eight days pass before that answer is written. -/
def exchangeLate : RelayWorld × (Fin 6 → RelayHandler (List RelayEntry)) :=
  let c := Prog.play exchangeTurns exchangeStart
  ({ c.1 with world := { c.1.world with now := 10 + days 8 } }, c.2)

/-- The sweep comes first. -/
def lateTurns : List (Fin 6 × ℕ) := [(5, 1), (4, 1)]

/-- What happens. -/
def exchangeEvents : List (Prog.Event (Fin 6) RelayWorld) :=
  Prog.playTrace exchangeTurns exchangeStart ++
    ⟨none, (Prog.play exchangeTurns exchangeStart).1, exchangeLate.1⟩ ::
      Prog.playTrace lateTurns exchangeLate

/-- The slate that expires between the read and the write of its answer stays without one. -/
theorem relay_state_machine_exchange :
    RelayDiscipline exchangeCall exchangeEvents (Prog.play lateTurns exchangeLate) ∧
      (Prog.play lateTurns exchangeLate).1.slatepacks.rows.map
          (fun r => (r.slateId, r.status, r.responseSlatepack)) =
        [("slate", .finalized, some "response"), ("late", .expired, none)] := by
  have hwait : (Prog.pool RelayIdle).step (Prog.play exchangeTurns exchangeStart)
      ⟨none, (Prog.play exchangeTurns exchangeStart).1, exchangeLate.1⟩ exchangeLate :=
    ⟨rfl, rfl, ⟨rfl, by decide +kernel⟩, rfl⟩
  exact ⟨relay_state_machine exchangeEnv exchangeCall exchangeWorld rfl
    ((Prog.run_play RelayIdle exchangeTurns exchangeStart).trans
      (.cons hwait (Prog.run_play RelayIdle lateTurns exchangeLate))), by decide +kernel⟩

end SmirkBackend
