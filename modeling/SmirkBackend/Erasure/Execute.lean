import SmirkBackend.Admin.Audit
import SmirkBackend.Lib.Referential

/-!
# The execution of an erasure

A confirmed request past its grace period is executed in one transaction: the request becomes a
tombstone, the login events are purged or anonymised, the audit log is scrubbed, the user is
deleted with everything the foreign keys cascade to, and a row is appended to the audit chain.
A failure of any statement rolls all of them back.

The deletion meets the `CHECK` constraints of the referring tables.  A targeted tip must name its
recipient, while the recipient column is cleared when the recipient is deleted: the deletion of
the recipient of another user's targeted tip is refused.

`deleteUser_isSome_iff` says when the schema lets a user go, and `executeErasure_iff` exactly when a
due request executes.
-/

namespace SmirkBackend

open Lib (Table Patch ForeignKey)

/-! ### The foreign keys to `users` -/

/-- No `CHECK` on the row. -/
def unchecked {R : Type} (_ : R) : Bool := true

/-- `sessions.user_id … ON DELETE CASCADE`. -/
def SessionRow.userFk : ForeignKey SessionRow Uuid := ⟨fun r => some r.userId, .cascade⟩

/-- `user_keys.user_id … ON DELETE CASCADE`. -/
def UserKeyRow.userFk : ForeignKey UserKeyRow Uuid := ⟨fun r => some r.userId, .cascade⟩

/-- `grin_slatepacks.sender_user_id … ON DELETE CASCADE`. -/
def GrinSlatepackRow.senderFk : ForeignKey GrinSlatepackRow Uuid :=
  ⟨fun r => some r.senderUserId, .cascade⟩

/-- `grin_slatepacks.recipient_user_id … ON DELETE SET NULL`. -/
def GrinSlatepackRow.recipientFk : ForeignKey GrinSlatepackRow Uuid :=
  ⟨GrinSlatepackRow.recipientUserId, .setNull { set := fun r => { r with recipientUserId := none } }⟩

/-- `audit_logs.user_id … ON DELETE SET NULL`. -/
def AuditLogRow.userFk : ForeignKey AuditLogRow Uuid :=
  ⟨AuditLogRow.userId, .setNull { set := fun r => { r with userId := none } }⟩

/-- `login_events.user_id … ON DELETE SET NULL`. -/
def LoginEventRow.userFk : ForeignKey LoginEventRow Uuid :=
  ⟨LoginEventRow.userId, .setNull { set := fun r => { r with userId := none } }⟩

/-- `erasure_requests.user_id … ON DELETE SET NULL`. -/
def ErasureRequestRow.userFk : ForeignKey ErasureRequestRow Uuid :=
  ⟨ErasureRequestRow.userId, .setNull { set := fun r => { r with userId := none } }⟩

/-- `invite_codes.used_by … ON DELETE SET NULL`. -/
def InviteCodeRow.usedByFk : ForeignKey InviteCodeRow Uuid :=
  ⟨InviteCodeRow.usedBy, .setNull { set := fun r => { r with usedBy := none } }⟩

/-- `premium_invoices.user_id … ON DELETE CASCADE`. -/
def PremiumInvoiceRow.userFk : ForeignKey PremiumInvoiceRow Uuid :=
  ⟨fun r => some r.userId, .cascade⟩

/-- `social_tips.sender_user_id … ON DELETE CASCADE`. -/
def SocialTipRow.senderFk : ForeignKey SocialTipRow Uuid :=
  ⟨fun r => some r.senderUserId, .cascade⟩

/-- `social_tips.claimed_by_user_id … ON DELETE SET NULL`; the trigger stamps the row. -/
def SocialTipRow.claimedByFk (now : Timestamp) : ForeignKey SocialTipRow Uuid :=
  ⟨SocialTipRow.claimedByUserId,
    .setNull { set := fun r => { r with claimedByUserId := none, updatedAt := now } }⟩

/-- `social_tips.recipient_user_id … ON DELETE SET NULL`; the trigger stamps the row. -/
def SocialTipRow.recipientFk (now : Timestamp) : ForeignKey SocialTipRow Uuid :=
  ⟨SocialTipRow.recipientUserId,
    .setNull { set := fun r => { r with recipientUserId := none, updatedAt := now } }⟩

/-- `DELETE FROM users WHERE id = u`, with the actions of the foreign keys of each table in the
order the migrations declare them; `none` when a `CHECK` refuses one. -/
def Db.deleteUser (now : Timestamp) (u : Uuid) (db : Db) : Option Db := do
  let sessions ← Lib.fireAll unchecked u [SessionRow.userFk] db.sessions
  let userKeys ← Lib.fireAll unchecked u [UserKeyRow.userFk] db.userKeys
  let grinSlatepacks ← Lib.fireAll unchecked u
    [GrinSlatepackRow.senderFk, GrinSlatepackRow.recipientFk] db.grinSlatepacks
  let auditLogs ← Lib.fireAll unchecked u [AuditLogRow.userFk] db.auditLogs
  let loginEvents ← Lib.fireAll unchecked u [LoginEventRow.userFk] db.loginEvents
  let erasureRequests ← Lib.fireAll unchecked u [ErasureRequestRow.userFk] db.erasureRequests
  let inviteCodes ← Lib.fireAll unchecked u [InviteCodeRow.usedByFk] db.inviteCodes
  let premiumInvoices ← Lib.fireAll unchecked u [PremiumInvoiceRow.userFk] db.premiumInvoices
  let socialTips ← Lib.fireAll SocialTipRow.checks u
    [SocialTipRow.senderFk, SocialTipRow.claimedByFk now, SocialTipRow.recipientFk now]
    db.socialTips
  pure { db with
    users := db.users.deleteWhere fun r => r.id = u
    sessions := sessions
    userKeys := userKeys
    grinSlatepacks := grinSlatepacks
    auditLogs := auditLogs
    loginEvents := loginEvents
    erasureRequests := erasureRequests
    inviteCodes := inviteCodes
    premiumInvoices := premiumInvoices
    socialTips := socialTips }

/-! ### The transaction -/

/-- The claim: a confirmed request becomes completed. -/
def Db.claimErasure (now : Timestamp) (id : Uuid) (db : Db) : Option ErasureRequestRow × Db :=
  let (claimed, t) := db.erasureRequests.updateOne id (fun r => r.status = .confirmed)
    { set := fun r => { r with status := .completed, completedAt := some now } }
  (claimed, { db with erasureRequests := t })

/-- The login events of a user are deleted, or all that identifies them is. -/
def Db.scrubLoginEvents (purge : Bool) (u : Uuid) (db : Db) : Db :=
  { db with
    loginEvents :=
      if purge then db.loginEvents.deleteWhere fun r => r.userId = some u
      else db.loginEvents.updateWhere (fun r => r.userId = some u)
        { set := fun r => { r with userId := none, origin := none, asset := "redacted" } } }

/-- The audit log of a user loses the client software. -/
def Db.scrubAuditLogs (u : Uuid) (db : Db) : Db :=
  { db with
    auditLogs := db.auditLogs.updateWhere (fun r => r.userId = some u)
      { set := fun r => { r with userAgent := none } } }

/-- The audit entry of a completed erasure. -/
def erasureAudit (id : Uuid) : NewAdminAudit where
  action := "account_erasure_completed"
  actorKind := "user"
  actorPubkeyPrefix := none
  target := some (uuidText id)
  details := none
  ipAddress := none

/-- `execute_erasure`: one transaction; whenever it does not reach its commit the database is
left as it was. -/
def executeErasure (hash : ChainHash) (now : Timestamp) (id : Uuid) (purgeLogin : Bool) (db : Db) :
    Except AppError Bool × Db :=
  let (claimed, db₁) := db.claimErasure now id
  match claimed.bind fun r => r.userId with
  | none => (.ok false, db)
  | some u =>
    match ((db₁.scrubLoginEvents purgeLogin u).scrubAuditLogs u).deleteUser now u with
    | none => (.error (.databaseError "new row violates check constraint"), db)
    | some db₂ =>
      match appendAdminAudit hash now (erasureAudit id) db₂.adminAuditLogs with
      | .error e => (.error e, db)
      | .ok log => (.ok true, { db₂ with adminAuditLogs := log })

/-! ### When the schema lets a user go -/

/-- The foreign keys of `social_tips`. -/
def SocialTipRow.fks (now : Timestamp) : List (ForeignKey SocialTipRow Uuid) :=
  [SocialTipRow.senderFk, SocialTipRow.claimedByFk now, SocialTipRow.recipientFk now]

/-- Another user's targeted tip names `u` as its recipient. -/
def TargetedBy (tips : SocialTips) (u : Uuid) : Prop :=
  ∃ r ∈ tips.rows, r.senderUserId ≠ u ∧ r.recipientUserId = some u ∧ r.isPublic = false

theorem checks_clear_recipient {r : SocialTipRow} (now : Timestamp) (h : r.checks) :
    ({ r with recipientUserId := none, updatedAt := now } : SocialTipRow).checks ↔ r.isPublic := by
  simp only [SocialTipRow.checks, Bool.and_eq_true, Bool.or_eq_true, Bool.not_eq_true'] at h ⊢
  cases hp : r.isPublic <;> simp_all

theorem fireAll_socialTips_isSome_iff {tips : SocialTips} (hchecks : ∀ r ∈ tips.rows, r.checks)
    (now : Timestamp) (u : Uuid) :
    (Lib.fireAll SocialTipRow.checks u (SocialTipRow.fks now) tips).isSome ↔
      ¬ TargetedBy tips u := by
  -- the sender's own tips go first
  have h₁ : SocialTipRow.senderFk.fire SocialTipRow.checks u tips =
      some (tips.deleteWhere (SocialTipRow.senderFk.refers u)) := rfl
  have hchecks₁ : ∀ r ∈ (tips.deleteWhere (SocialTipRow.senderFk.refers u)).rows, r.checks :=
    fun r hr => hchecks r (List.mem_of_mem_filter hr)
  -- the claimer's name is in no constraint
  have hclear₂ : (SocialTipRow.claimedByFk now).Clearable SocialTipRow.checks u
      (tips.deleteWhere (SocialTipRow.senderFk.refers u)) := fun r hr _ => hchecks₁ r hr
  obtain ⟨t₂, h₂⟩ := Option.isSome_iff_exists.mp (ForeignKey.fire_isSome_iff.mpr hclear₂)
  have hiff : (Lib.fireAll SocialTipRow.checks u (SocialTipRow.fks now) tips).isSome ↔
      ((SocialTipRow.recipientFk now).fire SocialTipRow.checks u t₂).isSome := by
    simp only [SocialTipRow.fks, Lib.fireAll, h₁, h₂, Option.bind_some, Option.bind_fun_some]
  rw [hiff, ForeignKey.fire_isSome_iff]
  constructor
  · rintro hclear ⟨r, hr, hsender, hrecipient, hpublic⟩
    have hr₁ : r ∈ (tips.deleteWhere (SocialTipRow.senderFk.refers u)).rows :=
      List.mem_filter.mpr ⟨hr, by simpa [ForeignKey.refers, SocialTipRow.senderFk] using hsender⟩
    obtain ⟨r₂, hr₂, hsame⟩ : ∃ r₂ ∈ t₂.rows, r₂.recipientUserId = r.recipientUserId ∧
        r₂.isPublic = r.isPublic ∧ r₂.checks := by
      rw [ForeignKey.eq_of_fire h₂]
      refine ⟨_, List.mem_map_of_mem hr₁, ?_⟩
      split_ifs
      · exact ⟨rfl, rfl, hchecks₁ r hr₁⟩
      · exact ⟨rfl, rfl, hchecks₁ r hr₁⟩
    have := (checks_clear_recipient now hsame.2.2).mp (hclear r₂ hr₂ (hsame.1.trans hrecipient))
    rw [hsame.2.1, hpublic] at this
    exact absurd this (by simp)
  · intro hnot r₂ hr₂ hrecipient
    obtain ⟨r, hr, hcase⟩ := ForeignKey.mem_fire h₂ hr₂
    have hr' := List.mem_filter.mp hr
    have hsender : r.senderUserId ≠ u := by
      simpa [ForeignKey.refers, SocialTipRow.senderFk] using hr'.2
    have hsame : r₂.recipientUserId = r.recipientUserId ∧ r₂.isPublic = r.isPublic ∧ r₂.checks := by
      rcases hcase with ⟨rfl, -⟩ | ⟨clear, hc, -, rfl⟩
      · exact ⟨rfl, rfl, hchecks₁ _ hr⟩
      · obtain rfl := Lib.OnDelete.setNull.inj hc
        exact ⟨rfl, rfl, hchecks₁ r hr⟩
    refine (checks_clear_recipient now hsame.2.2).mpr ?_
    by_contra hprivate
    exact hnot ⟨r, hr'.1, hsender, hsame.1.symm.trans hrecipient, by simpa [hsame.2.1] using hprivate⟩

/-- **A well-formed database lets a user go** unless another user's targeted tip names it. -/
theorem deleteUser_isSome_iff {db : Db} (hchecks : ∀ r ∈ db.socialTips.rows, r.checks)
    (now : Timestamp) (u : Uuid) :
    (db.deleteUser now u).isSome ↔ ¬ TargetedBy db.socialTips u := by
  rw [← fireAll_socialTips_isSome_iff hchecks now u]
  have hall : ∀ {R : Type} (r : R), unchecked r := fun _ => rfl
  obtain ⟨_, h₁⟩ := Lib.exists_fireAll_of_unchecked hall u [SessionRow.userFk] db.sessions
  obtain ⟨_, h₂⟩ := Lib.exists_fireAll_of_unchecked hall u [UserKeyRow.userFk] db.userKeys
  obtain ⟨_, h₃⟩ := Lib.exists_fireAll_of_unchecked hall u
    [GrinSlatepackRow.senderFk, GrinSlatepackRow.recipientFk] db.grinSlatepacks
  obtain ⟨_, h₄⟩ := Lib.exists_fireAll_of_unchecked hall u [AuditLogRow.userFk] db.auditLogs
  obtain ⟨_, h₅⟩ := Lib.exists_fireAll_of_unchecked hall u [LoginEventRow.userFk] db.loginEvents
  obtain ⟨_, h₆⟩ := Lib.exists_fireAll_of_unchecked hall u [ErasureRequestRow.userFk]
    db.erasureRequests
  obtain ⟨_, h₇⟩ := Lib.exists_fireAll_of_unchecked hall u [InviteCodeRow.usedByFk] db.inviteCodes
  obtain ⟨_, h₈⟩ := Lib.exists_fireAll_of_unchecked hall u [PremiumInvoiceRow.userFk]
    db.premiumInvoices
  simp only [Db.deleteUser, h₁, h₂, h₃, h₄, h₅, h₆, h₇, h₈, Option.bind_eq_bind, Option.bind_some,
    SocialTipRow.fks]
  cases Lib.fireAll SocialTipRow.checks u
    [SocialTipRow.senderFk, SocialTipRow.claimedByFk now, SocialTipRow.recipientFk now]
    db.socialTips <;> simp

/-- The user is gone: its own rows are deleted, other rows no longer name it, and rows it does
not own survive. -/
structure UserGone (u : Uuid) (db db' : Db) : Prop where
  /-- The user row. -/
  user : db'.users = db.users.deleteWhere fun r => r.id = u
  /-- Sessions, keys and premium invoices go with the user. -/
  owned : (∀ r ∈ db'.sessions.rows, r.userId ≠ u) ∧ (∀ r ∈ db'.userKeys.rows, r.userId ≠ u) ∧
    ∀ r ∈ db'.premiumInvoices.rows, r.userId ≠ u
  /-- Slates the user sent go, slates it was to receive lose its name. -/
  slatepacks : ∀ r ∈ db'.grinSlatepacks.rows, r.senderUserId ≠ u ∧ r.recipientUserId ≠ some u
  /-- Tips the user sent go, tips it claimed or was to receive lose its name. -/
  tips : ∀ r ∈ db'.socialTips.rows,
    r.senderUserId ≠ u ∧ r.claimedByUserId ≠ some u ∧ r.recipientUserId ≠ some u
  /-- Logs, requests and invites lose its name. -/
  unlinked : (∀ r ∈ db'.auditLogs.rows, r.userId ≠ some u) ∧
    (∀ r ∈ db'.loginEvents.rows, r.userId ≠ some u) ∧
    (∀ r ∈ db'.erasureRequests.rows, r.userId ≠ some u) ∧
    ∀ r ∈ db'.inviteCodes.rows, r.usedBy ≠ some u
  /-- Slates and tips of other senders survive. -/
  kept : (∀ r ∈ db.grinSlatepacks.rows, r.senderUserId ≠ u →
      ∃ r' ∈ db'.grinSlatepacks.rows, r'.id = r.id) ∧
    ∀ r ∈ db.socialTips.rows, r.senderUserId ≠ u → ∃ r' ∈ db'.socialTips.rows, r'.id = r.id

theorem slatepackFks_clears : ∀ fk ∈ [GrinSlatepackRow.senderFk, GrinSlatepackRow.recipientFk],
    fk.Clears := by
  simp [ForeignKey.Clears, GrinSlatepackRow.senderFk, GrinSlatepackRow.recipientFk]

theorem slatepackFks_spares : ∀ fk ∈ [GrinSlatepackRow.senderFk, GrinSlatepackRow.recipientFk],
    ∀ fk' ∈ [GrinSlatepackRow.senderFk, GrinSlatepackRow.recipientFk], fk.Spares fk' := by
  simp [ForeignKey.Spares, GrinSlatepackRow.senderFk, GrinSlatepackRow.recipientFk]

theorem tipFks_clears (now : Timestamp) : ∀ fk ∈ SocialTipRow.fks now, fk.Clears := by
  simp [SocialTipRow.fks, ForeignKey.Clears, SocialTipRow.senderFk, SocialTipRow.claimedByFk,
    SocialTipRow.recipientFk]

theorem tipFks_spares (now : Timestamp) :
    ∀ fk ∈ SocialTipRow.fks now, ∀ fk' ∈ SocialTipRow.fks now, fk.Spares fk' := by
  simp [SocialTipRow.fks, ForeignKey.Spares, SocialTipRow.senderFk, SocialTipRow.claimedByFk,
    SocialTipRow.recipientFk]

theorem unreferenced_single {R κ : Type} [Lib.HasKey R κ] {fk : ForeignKey R Uuid}
    {check : R → Bool} {u : Uuid} {t t' : Table R} (h : Lib.fireAll check u [fk] t = some t')
    (hc : fk.Clears) : ∀ r ∈ t'.rows, fk.ref r ≠ some u := by
  obtain ⟨t₁, hfire, hnil⟩ := Lib.fireAll_cons_eq_some_iff.mp h
  obtain rfl := Option.some.inj hnil
  exact fun r hr => ForeignKey.unreferenced_fire hc hfire hr

theorem adminAuditLogs_of_deleteUser {now : Timestamp} {u : Uuid} {db db' : Db}
    (h : db.deleteUser now u = some db') : db'.adminAuditLogs = db.adminAuditLogs := by
  simp only [Db.deleteUser, Option.bind_eq_bind, Option.bind_eq_some_iff, Option.pure_def,
    Option.some.injEq] at h
  obtain ⟨_, -, _, -, _, -, _, -, _, -, _, -, _, -, _, -, _, -, rfl⟩ := h
  rfl

/-- A deletion that goes through removes the user everywhere and nothing else. -/
theorem userGone_of_deleteUser {now : Timestamp} {u : Uuid} {db db' : Db}
    (h : db.deleteUser now u = some db') : UserGone u db db' := by
  simp only [Db.deleteUser, Option.bind_eq_bind, Option.bind_eq_some_iff, Option.pure_def,
    Option.some.injEq] at h
  obtain ⟨_, h₁, _, h₂, _, h₃, _, h₄, _, h₅, _, h₆, _, h₇, _, h₈, _, h₉, rfl⟩ := h
  have hslate := Lib.fireAll_unreferenced slatepackFks_clears slatepackFks_spares h₃
  have htip := Lib.fireAll_unreferenced (tipFks_clears now) (tipFks_spares now) h₉
  refine ⟨rfl, ⟨?_, ?_, ?_⟩, ?_, ?_, ⟨?_, ?_, ?_, ?_⟩, ?_, ?_⟩
  · exact fun r hr => by simpa [SessionRow.userFk] using unreferenced_single h₁ trivial r hr
  · exact fun r hr => by simpa [UserKeyRow.userFk] using unreferenced_single h₂ trivial r hr
  · exact fun r hr => by simpa [PremiumInvoiceRow.userFk] using unreferenced_single h₈ trivial r hr
  · intro r hr
    exact ⟨by simpa [GrinSlatepackRow.senderFk] using hslate _ (.head _) r hr,
      hslate _ (.tail _ (.head _)) r hr⟩
  · intro r hr
    exact ⟨by simpa [SocialTipRow.senderFk] using htip _ (.head _) r hr,
      htip _ (.tail _ (.head _)) r hr, htip _ (.tail _ (.tail _ (.head _))) r hr⟩
  · exact unreferenced_single h₄ fun _ => rfl
  · exact unreferenced_single h₅ fun _ => rfl
  · exact unreferenced_single h₆ fun _ => rfl
  · exact unreferenced_single h₇ fun _ => rfl
  · intro r hr hsender
    refine Lib.fireAll_survives slatepackFks_spares h₃ hr ?_
    simp [GrinSlatepackRow.senderFk, GrinSlatepackRow.recipientFk, hsender]
  · intro r hr hsender
    refine Lib.fireAll_survives (tipFks_spares now) h₉ hr ?_
    simp [SocialTipRow.fks, SocialTipRow.senderFk, SocialTipRow.claimedByFk,
      SocialTipRow.recipientFk, hsender]

/-! ### When a due request executes -/

/-- The request executed: it committed, the user is gone, and the audit chain gained exactly the
completion row. -/
def Executed (id : Uuid) (req : ErasureRequestRow) (db : Db)
    (result : Except AppError Bool × Db) : Prop :=
  result.1 = .ok true ∧ ∃ u, req.userId = some u ∧ UserGone u db result.2 ∧
    ∃ row, result.2.adminAuditLogs.rows = db.adminAuditLogs.rows ++ [row] ∧
      row.entry = erasureAudit id

/-- The request still names its user, whom no other user's targeted tip names as recipient, and
the audit chain has a number left. -/
def Executable (req : ErasureRequestRow) (db : Db) : Prop :=
  ∃ u, req.userId = some u ∧ ¬ TargetedBy db.socialTips u ∧ ¬ AuditExhausted db.adminAuditLogs

theorem claimErasure_of_confirmed (now : Timestamp) {id : Uuid} {db : Db}
    {req : ErasureRequestRow} (hreq : db.erasureRequests.get? id = some req)
    (hconf : req.status = .confirmed) :
    ((db.claimErasure now id).1.bind fun r => r.userId) = req.userId := by
  simp [Db.claimErasure, Table.updateOne, hreq, Option.filter, hconf]

theorem userGone_of_scrubbed {now : Timestamp} {id u : Uuid} {purge : Bool} {db db' : Db}
    (h : UserGone u (((db.claimErasure now id).2.scrubLoginEvents purge u).scrubAuditLogs u) db') :
    UserGone u db db' :=
  ⟨h.user, h.owned, h.slatepacks, h.tips, h.unlinked, h.kept⟩

/-- **Erasure executes** exactly when the request still names its user, no other user's targeted
tip names that user as its recipient, and the audit chain is not exhausted.  The request may be
any confirmed one; the sweeper offers those past their grace period. -/
theorem executeErasure_iff {db : Db} (hschema : db.SchemaOk) {id : Uuid} {req : ErasureRequestRow}
    (hreq : db.erasureRequests.get? id = some req) (hconf : req.status = .confirmed)
    (hash : ChainHash) (now : Timestamp) (purgeLogin : Bool) :
    Executed id req db (executeErasure hash now id purgeLogin db) ↔ Executable req db := by
  have hclaim := claimErasure_of_confirmed now hreq hconf
  have hunfold : executeErasure hash now id purgeLogin db =
      match req.userId with
      | none => (.ok false, db)
      | some u =>
        match (((db.claimErasure now id).2.scrubLoginEvents purgeLogin u).scrubAuditLogs u).deleteUser
            now u with
        | none => (.error (.databaseError "new row violates check constraint"), db)
        | some db₂ =>
          match appendAdminAudit hash now (erasureAudit id) db₂.adminAuditLogs with
          | .error e => (.error e, db)
          | .ok log => (.ok true, { db₂ with adminAuditLogs := log }) := by
    simp only [executeErasure, hclaim]
  rw [hunfold]
  unfold Executed Executable
  cases huser : req.userId with
  | none => simp
  | some u =>
    -- the statements before the deletion touch neither the tips nor the audit chain
    have hgo : ((((db.claimErasure now id).2.scrubLoginEvents purgeLogin u).scrubAuditLogs
        u).deleteUser now u).isSome ↔ ¬ TargetedBy db.socialTips u := by
      refine deleteUser_isSome_iff ?_ now u
      exact hschema.tipChecks
    cases hdel : (((db.claimErasure now id).2.scrubLoginEvents purgeLogin u).scrubAuditLogs
        u).deleteUser now u with
    | none =>
      have htarget : TargetedBy db.socialTips u := by simpa [hdel] using hgo
      simp only [hdel]
      simp [htarget]
    | some db₂ =>
      have hfree : ¬ TargetedBy db.socialTips u := by simpa [hdel] using hgo
      have hlogs : db₂.adminAuditLogs = db.adminAuditLogs :=
        (adminAuditLogs_of_deleteUser hdel).trans rfl
      have hgone : UserGone u db db₂ := userGone_of_scrubbed (userGone_of_deleteUser hdel)
      obtain ⟨hfull, hroom⟩ := appendAdminAudit_spec hash now (erasureAudit id) db.adminAuditLogs
      simp only [hdel, hlogs]
      by_cases hex : AuditExhausted db.adminAuditLogs
      · obtain ⟨e, he⟩ := hfull hex
        simp [he, hex]
      · obtain ⟨log, row, hlog, hrows, hentry, -⟩ := hroom hex
        simp only [hlog, true_and]
        refine iff_of_true ⟨u, rfl, ?_, row, hrows, hentry⟩ ⟨u, rfl, hfree, hex⟩
        exact ⟨hgone.user, hgone.owned, hgone.slatepacks, hgone.tips, hgone.unlinked, hgone.kept⟩

/-- Two users; the first asked for erasure and confirmed, its grace period ends at `100`. -/
def erasureSample (tips : SocialTips) : Db :=
  { Db.empty with
    users := ⟨[1, 2].map fun u => ⟨u, none, none, none, none, none, none, none, none⟩, by decide⟩
    erasureRequests :=
      ⟨[⟨9, some 1, "subject", .confirmed, 0, 100, some 50, none, none⟩], by decide⟩
    socialTips := tips }

/-- A draft of the second user, for the first. -/
def targetedTip : SocialTipRow :=
  .ofNew 5 0 { NewSocialTip.grinSample with
    senderUserId := 2, encryptedKey := some [0], fundingTxid := none, recipientUserId := some 1 }
    .draft

theorem erasureSample_schemaOk {tips : SocialTips} (hchecks : ∀ r ∈ tips.rows, r.checks)
    (hsender : ∀ r ∈ tips.rows, r.senderUserId = 2)
    (hclaimer : ∀ r ∈ tips.rows, r.claimedByUserId = none)
    (hrecipient : ∀ r ∈ tips.rows, ∀ u ∈ r.recipientUserId, u = 1) :
    (erasureSample tips).SchemaOk where
  users := by constructor <;> simp [UniqueOn, erasureSample]
  owned := by
    refine ⟨by simp [erasureSample, Db.empty], by simp [erasureSample, Db.empty],
      by simp [erasureSample, Db.empty], by simp [erasureSample, Db.empty], ?_⟩
    intro r hr
    rw [hsender r hr]
    rfl
  linked := by
    refine ⟨by simp [erasureSample, Db.empty], by simp [erasureSample, Db.empty],
      by simp [erasureSample, Db.empty], ?_, by simp [erasureSample, Db.empty], ?_, ?_⟩
    · intro r hr u hu
      obtain rfl : r = ⟨9, some 1, "subject", .confirmed, 0, 100, some 50, none, none⟩ :=
        List.mem_singleton.mp hr
      obtain rfl := Option.some.inj hu
      rfl
    · intro r hr u hu
      simp [hclaimer r hr] at hu
    · intro r hr u hu
      rw [hrecipient r hr u hu]
      rfl
  erasureActive := by simp [erasureSample]
  tipChecks := hchecks

/-- The execution of a due request is refused when the user is the recipient of a draft. -/
theorem erasureSample_not_executed :
    ∃ (db : Db) (req : ErasureRequestRow) (now : Timestamp), db.SchemaOk ∧
      db.erasureRequests.get? 9 = some req ∧ req.status = .confirmed ∧ req.cancelledAt = none ∧
      req.scheduledFor ≤ now ∧ ∀ hash, ¬ Executed 9 req db (executeErasure hash now 9 true db) := by
  refine ⟨erasureSample ⟨[targetedTip], by decide⟩,
    ⟨9, some 1, "subject", .confirmed, 0, 100, some 50, none, none⟩, 200,
    erasureSample_schemaOk (by decide) (by decide) (by decide)
      (by simp [targetedTip, SocialTipRow.ofNew]), rfl, rfl, rfl, by decide, ?_⟩
  rintro hash ⟨hok, -⟩
  have hrefused : (executeErasure hash 200 9 true (erasureSample ⟨[targetedTip], by decide⟩)).1 =
      .error (.databaseError "new row violates check constraint") := rfl
  rw [hrefused] at hok
  cases hok

/-- A public tip. -/
def publicTip (id sender : Uuid) (claimer : Option Uuid) : SocialTipRow :=
  { SocialTipRow.ofNew id 0 { NewSocialTip.grinSample with senderUserId := sender } .pending with
    claimedByUserId := claimer }

/-- The first user has sent a tip and claimed one of the second user's, is on both ends of relayed
slates, and has a session, a key and an invoice. -/
def busyErasureSample : Db :=
  { erasureSample ⟨[publicTip 5 1 none, publicTip 6 2 (some 1)], by decide⟩ with
    sessions := ⟨[⟨3, 1, "token", "web", none, 1000, none⟩, ⟨4, 2, "token", "web", none, 1000, none⟩],
      by decide⟩
    userKeys := ⟨[⟨1, .btc, "02aa", none, "primary"⟩, ⟨2, .btc, "02bb", none, "primary"⟩],
      by decide⟩
    grinSlatepacks := ⟨[⟨7, "sent", 1, some 2⟩, ⟨8, "received", 2, some 1⟩], by decide⟩
    premiumInvoices := ⟨[⟨"inv", 1, "btcpay", 30, none⟩], by simp⟩ }

theorem busyErasureSample_schemaOk : busyErasureSample.SchemaOk where
  users := by constructor <;> simp [UniqueOn, busyErasureSample, erasureSample]
  owned := by decide
  linked := ⟨Db.linked_of_all (by decide), Db.linked_of_all (by decide),
    Db.linked_of_all (by decide), Db.linked_of_all (by decide), Db.linked_of_all (by decide),
    Db.linked_of_all (by decide), Db.linked_of_all (by decide)⟩
  erasureActive := by simp [busyErasureSample, erasureSample]
  tipChecks := by decide

/-- The same request executes when there is no such tip: what was the user's is gone, and what it
shared with the second user has lost its name. -/
theorem busyErasureSample_executed :
    Executed 9 ⟨9, some 1, "subject", .confirmed, 0, 100, some 50, none, none⟩ busyErasureSample
        (executeErasure (fun h _ _ _ => h) 200 9 true busyErasureSample) ∧
      (executeErasure (fun h _ _ _ => h) 200 9 true busyErasureSample).2.socialTips.rows.map
        (fun r => (r.id, r.claimedByUserId)) = [(6, none)] ∧
      (executeErasure (fun h _ _ _ => h) 200 9 true busyErasureSample).2.grinSlatepacks.rows =
        [⟨8, "received", 2, none⟩] := by
  refine ⟨(executeErasure_iff busyErasureSample_schemaOk rfl rfl (fun h _ _ _ => h) 200 true).mpr
    ⟨1, rfl, ?_, ?_⟩, by decide +kernel, by decide +kernel⟩
  · simp [TargetedBy, busyErasureSample, erasureSample, publicTip, SocialTipRow.ofNew,
      NewSocialTip.grinSample]
  · simp [AuditExhausted, chainHead, lastAudit, busyErasureSample, erasureSample, Db.empty]

end SmirkBackend
