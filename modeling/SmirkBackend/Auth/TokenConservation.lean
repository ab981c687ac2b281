import Mathlib.Data.List.Pairwise
import SmirkBackend.Auth.Gates

/-!
# Conservation of registration tokens

New wallets register concurrently, statement by statement, with invites and invoices they may
share.  Every statement of the transaction locks what it depends on, so a registration that
commits has the effect of running alone: it spends the tokens it planned to spend, which were
unspent, and creates one user.  A registration that fails has no effect.

The statements are local (`consumeGatesScript_local`), so the transaction can be replayed alone
(`spent_of_replay`), and `registrations_conserve_tokens` proves this over every interleaving.
-/

namespace SmirkBackend

open Lib (Table Patch Prog Stmt)

/-! ### Locality -/

theorem claimInvite_eq_ok_iff {now : Timestamp} {h : String} {w w' : World} :
    (claimInvite now h).run w = .ok w' ↔
      (∃ r, w.db.inviteCodes.get? h = some r ∧ r.usable now) ∧
        w' = { w with db := { w.db with
          inviteCodes := (w.db.inviteCodes.updateOne h (InviteCodeRow.usable now)
            (useInvite now)).2 } } := by
  simp only [claimInvite, Table.updateOne]
  cases hrow : w.db.inviteCodes.get? h with
  | none => simp
  | some r =>
    cases hu : r.usable now with
    | false => simp [Option.filter, hu]
    | true =>
      simp only [Option.filter, hu, if_true, Option.map_some, Except.ok.injEq]
      exact ⟨fun heq => ⟨⟨r, rfl, hu⟩, heq.symm⟩, fun heq => heq.2.symm⟩

theorem consumeInvoice_eq_ok_iff {now : Timestamp} {id pk : String} {w w' : World} :
    (consumeInvoice now id pk).run w = .ok w' ↔
      (∃ r, w.db.paymentInvoices.get? id = some r ∧ r.usable pk) ∧
        w' = { w with db := { w.db with
          paymentInvoices := (w.db.paymentInvoices.updateOne id (PaymentInvoiceRow.usable pk)
            (useInvoice now)).2 } } := by
  simp only [consumeInvoice, Table.updateOne]
  cases hrow : w.db.paymentInvoices.get? id with
  | none => simp
  | some r =>
    cases hu : r.usable pk with
    | false => simp [Option.filter, hu]
    | true =>
      simp only [Option.filter, hu, if_true, Option.map_some, Except.ok.injEq]
      exact ⟨fun heq => ⟨⟨r, rfl, hu⟩, heq.symm⟩, fun heq => heq.2.symm⟩

theorem claimInvite_local (now : Timestamp) (h : String) : (claimInvite now h).Local sameAt where
  frame := by
    intro w w' hrun l hl
    obtain ⟨-, rfl⟩ := claimInvite_eq_ok_iff.mp hrun
    cases l with
    | invite h' =>
      have hne : h' ≠ h := fun heq => hl (by simp [claimInvite, heq])
      exact (Table.get?_updateOne_of_ne _ hne _ _).symm
    | _ => rfl
  determined := by
    intro w₁ w₂ w' hsame hrun
    have hrow : w₁.db.inviteCodes.get? h = w₂.db.inviteCodes.get? h := hsame _ (.head _)
    obtain ⟨hu, rfl⟩ := claimInvite_eq_ok_iff.mp hrun
    refine ⟨_, claimInvite_eq_ok_iff.mpr ⟨hrow ▸ hu, rfl⟩, ?_⟩
    intro l hl
    obtain rfl := List.mem_singleton.mp hl
    change (w₁.db.inviteCodes.updateOne h _ _).2.get? h = (w₂.db.inviteCodes.updateOne h _ _).2.get? h
    rw [Table.get?_updateOne_self, Table.get?_updateOne_self, hrow]

theorem consumeInvoice_local (now : Timestamp) (id pk : String) :
    (consumeInvoice now id pk).Local sameAt where
  frame := by
    intro w w' hrun l hl
    obtain ⟨-, rfl⟩ := consumeInvoice_eq_ok_iff.mp hrun
    cases l with
    | invoice id' =>
      have hne : id' ≠ id := fun heq => hl (by simp [consumeInvoice, heq])
      exact (Table.get?_updateOne_of_ne _ hne _ _).symm
    | _ => rfl
  determined := by
    intro w₁ w₂ w' hsame hrun
    have hrow : w₁.db.paymentInvoices.get? id = w₂.db.paymentInvoices.get? id :=
      hsame _ (.head _)
    obtain ⟨hu, rfl⟩ := consumeInvoice_eq_ok_iff.mp hrun
    refine ⟨_, consumeInvoice_eq_ok_iff.mpr ⟨hrow ▸ hu, rfl⟩, ?_⟩
    intro l hl
    obtain rfl := List.mem_singleton.mp hl
    change (w₁.db.paymentInvoices.updateOne id _ _).2.get? id =
      (w₂.db.paymentInvoices.updateOne id _ _).2.get? id
    rw [Table.get?_updateOne_self, Table.get?_updateOne_self, hrow]

theorem heldByOther_of_fresh {w : World} {r : UserRow} (hfresh : w.db.users.get? r.id = none)
    (c : UniqueColumn) :
    heldByOther w.db.users.rows r c = (c.of r).any fun v => takenIn c v w := by
  rw [Table.get?_eq_none_iff] at hfresh
  cases hcol : c.of r with
  | none => simp [heldByOther, hcol]
  | some v =>
    simp only [heldByOther, hcol, Option.isSome_some, Bool.and_true, Option.any_some, takenIn]
    rw [Bool.eq_iff_iff, List.any_eq_true, List.any_eq_true]
    refine exists_congr fun r' => and_congr_right fun hr' => ?_
    have hne : r'.id ≠ r.id := hfresh r' hr'
    simp [hne]

theorem UniqueColumn.mem_all (c : UniqueColumn) : c ∈ UniqueColumn.all := by
  cases c <;> simp [UniqueColumn.all]

theorem collision_eq_none_iff {rows : List UserRow} {r : UserRow} :
    collision rows r = none ↔ ∀ c, heldByOther rows r c = false := by
  simp only [collision, List.find?_eq_none, Bool.not_eq_true]
  exact ⟨fun h c => h c c.mem_all, fun h c _ => h c⟩

theorem insertUser_eq_ok_iff {r : UserRow} {db db' : Db} :
    db.insertUser r = .ok db' ↔ collision db.users.rows r = none ∧
      ∃ users, db.users.insert? r = some users ∧ db' = { db with users := users } := by
  unfold Db.insertUser
  cases db.users.insert? r with
  | none => simp
  | some users => cases collision db.users.rows r <;> simp [eq_comm]

theorem insertUserStmt_eq_ok_iff {r : UserRow} {w w' : World} :
    (insertUserStmt r).run w = .ok w' ↔ collision w.db.users.rows r = none ∧
      ∃ users, w.db.users.insert? r = some users ∧
        w' = { w with db := { w.db with users := users } } := by
  simp only [insertUserStmt]
  cases h : w.db.insertUser r with
  | error c =>
    simp only [reduceCtorEq, false_iff]
    rintro ⟨hcol, users, hins, -⟩
    cases h.symm.trans (insertUser_eq_ok_iff.mpr ⟨hcol, users, hins, rfl⟩)
  | ok db =>
    obtain ⟨hcol, users, hins, rfl⟩ := insertUser_eq_ok_iff.mp h
    simp [hcol, hins, eq_comm]

theorem takenIn_insert {w : World} {r : UserRow} {users : Table UserRow}
    (hins : w.db.users.insert? r = some users) (c : UniqueColumn) (v : String) :
    takenIn c v { w with db := { w.db with users := users } } =
      (takenIn c v w || decide (c.of r = some v)) := by
  simp [takenIn, (Table.insert?_eq_some_iff.mp hins).2]

theorem unique_mem_locks {r : UserRow} {c : UniqueColumn} {v : String} :
    Lock.unique c v ∈ r.locks ↔ c.of r = some v := by
  simp only [UserRow.locks, List.mem_cons, reduceCtorEq, List.mem_filterMap, Option.map_eq_some_iff,
    Lock.unique.injEq, false_or]
  constructor
  · rintro ⟨c', -, v', hv, rfl, rfl⟩
    exact hv
  · exact fun h => ⟨c, c.mem_all, v, h, rfl, rfl⟩

theorem insertUserStmt_local (r : UserRow) : (insertUserStmt r).Local sameAt where
  frame := by
    intro w w' hrun l hl
    obtain ⟨-, users, hins, rfl⟩ := insertUserStmt_eq_ok_iff.mp hrun
    cases l with
    | user u =>
      have hne : u ≠ r.id := fun heq => hl (by simp [insertUserStmt, UserRow.locks, heq])
      change w.db.users.get? u = users.get? u
      rw [Table.get?_insert? hins]
      exact (if_neg hne).symm
    | unique c v =>
      have hne : c.of r ≠ some v := fun heq => hl (unique_mem_locks.mpr heq)
      change takenIn c v w = takenIn c v _
      rw [takenIn_insert hins]
      simp [hne]
    | _ => rfl
  determined := by
    intro w₁ w₂ w' hsame hrun
    obtain ⟨hcol, users, hins, rfl⟩ := insertUserStmt_eq_ok_iff.mp hrun
    have hid : w₁.db.users.get? r.id = w₂.db.users.get? r.id := hsame (.user r.id) (.head _)
    have hfresh₁ : w₁.db.users.get? r.id = none := (Table.insert?_eq_some_iff.mp hins).1
    have hfresh₂ : w₂.db.users.get? r.id = none := hid ▸ hfresh₁
    -- the values of the unique columns are taken in both states or in neither
    have hcol₂ : collision w₂.db.users.rows r = none := by
      rw [collision_eq_none_iff] at hcol ⊢
      intro c
      have hc := hcol c
      rw [heldByOther_of_fresh hfresh₁] at hc
      rw [heldByOther_of_fresh hfresh₂]
      cases hv : c.of r with
      | none => rfl
      | some v =>
        have hsame' : takenIn c v w₁ = takenIn c v w₂ := hsame _ (unique_mem_locks.mpr hv)
        simpa [hv, hsame'] using hc
    obtain ⟨users₂, hins₂⟩ := Table.exists_insert? (r := r) hfresh₂
    refine ⟨_, insertUserStmt_eq_ok_iff.mpr ⟨hcol₂, users₂, hins₂, rfl⟩, ?_⟩
    intro l hl
    have hold := hsame l hl
    cases l with
    | user u =>
      change users.get? u = users₂.get? u
      rw [Table.get?_insert? hins, Table.get?_insert? hins₂]
      split_ifs
      · rfl
      · exact hold
    | unique c v =>
      have hold' : takenIn c v w₁ = takenIn c v w₂ := hold
      change takenIn c v _ = takenIn c v _
      rw [takenIn_insert hins, takenIn_insert hins₂, hold']
    | _ => exact hold

theorem upsertKeyStmt_eq_ok_iff {k : UserKeyRow} {w w' : World} :
    (upsertKeyStmt k).run w = .ok w' ↔ (w.db.users.get? k.userId).isSome ∧
      w' = { w with db := { w.db with
        userKeys := w.db.userKeys.upsert k { set := fun r =>
          { r with publicKey := k.publicKey, publicSpendKey := k.publicSpendKey } } } } := by
  simp only [upsertKeyStmt, Db.upsertUserKey]
  cases w.db.users.get? k.userId with
  | none => simp [Except.map]
  | some r =>
    simp only [Option.isNone_some, Bool.false_eq_true, if_false, Except.map, Except.ok.injEq,
      Option.isSome_some, true_and]
    exact ⟨Eq.symm, Eq.symm⟩

theorem upsertKeyStmt_local (k : UserKeyRow) : (upsertKeyStmt k).Local sameAt where
  frame := by
    intro w w' hrun l hl
    obtain ⟨-, rfl⟩ := upsertKeyStmt_eq_ok_iff.mp hrun
    cases l with
    | userKey k' =>
      have hne : k' ≠ Lib.key k := fun heq => hl (by simp [upsertKeyStmt, heq])
      change w.db.userKeys.get? k' = (w.db.userKeys.upsert k _).get? k'
      rw [Table.get?_upsert]
      exact (if_neg hne).symm
    | _ => rfl
  determined := by
    intro w₁ w₂ w' hsame hrun
    have huser : w₁.db.users.get? k.userId = w₂.db.users.get? k.userId :=
      hsame (.user k.userId) (.tail _ (.head _))
    obtain ⟨hu, rfl⟩ := upsertKeyStmt_eq_ok_iff.mp hrun
    refine ⟨_, upsertKeyStmt_eq_ok_iff.mpr ⟨huser ▸ hu, rfl⟩, ?_⟩
    intro l hl
    have hold := hsame l hl
    cases l with
    | userKey k' =>
      change (w₁.db.userKeys.upsert k _).get? k' = (w₂.db.userKeys.upsert k _).get? k'
      rw [Table.get?_upsert, Table.get?_upsert, show w₁.db.userKeys.get? k' = _ from hold]
    | _ => exact hold

theorem consumeGatesScript_local (pepper : Pepper) (new : NewUser) (gates : GatedRegistration)
    (keys : List (AssetType × AssetPublicKey)) (c : TxStart) :
    ∀ st ∈ consumeGatesScript pepper new gates keys c, st.Local sameAt := by
  intro st hst
  simp only [consumeGatesScript, List.mem_append, Option.mem_toList,
    Option.map_eq_some_iff, List.mem_cons, List.mem_map] at hst
  rcases hst with (⟨h, -, rfl⟩ | ⟨p, -, rfl⟩) | rfl | ⟨k, -, rfl⟩
  · exact claimInvite_local _ _
  · exact consumeInvoice_local _ _ _
  · exact insertUserStmt_local _
  · exact upsertKeyStmt_local _

/-! ### The effect of the transaction -/

/-- The registration spent its tokens, which could be spent, and no other; it created its user and
touched no key of another user. -/
structure Spent (gates : GatedRegistration) (row : UserRow) (now : Timestamp) (w w' : World) :
    Prop where
  /-- The invite could be claimed. -/
  inviteFree : ∀ h, gates.inviteCodeHash = some h →
    ∃ r, w.db.inviteCodes.get? h = some r ∧ r.usable now
  /-- The invite is used now; every other is as before. -/
  invites : ∀ h, w'.db.inviteCodes.get? h = (w.db.inviteCodes.get? h).map fun r =>
    if gates.inviteCodeHash = some h then { r with usedAt := some now } else r
  /-- The invoice could be consumed. -/
  invoiceFree : ∀ p, gates.payment = some p →
    ∃ r, w.db.paymentInvoices.get? p.1 = some r ∧ r.usable p.2
  /-- The invoice is consumed now; every other is as before. -/
  invoices : ∀ id, w'.db.paymentInvoices.get? id = (w.db.paymentInvoices.get? id).map fun r =>
    if gates.payment.map Prod.fst = some id then { r with consumedAt := some now } else r
  /-- One user more. -/
  users : w'.db.users.rows = w.db.users.rows ++ [row]
  /-- The keys of other users are as before. -/
  keys : ∀ k, k.1 ≠ row.id → w'.db.userKeys.get? k = w.db.userKeys.get? k
  /-- So are the sessions, the nonces and the clock. -/
  rest : w'.db.sessions = w.db.sessions ∧ w'.db.challenges = w.db.challenges ∧ w'.now = w.now

/-- What claiming the invite, if one is planned, does to the invites. -/
theorem replay_claim {now : Timestamp} {invite : Option String} {w w' : World}
    (h : Lib.replay (invite.map (claimInvite now)).toList w = .ok w') :
    (∀ x, invite = some x → ∃ r, w.db.inviteCodes.get? x = some r ∧ r.usable now) ∧
      (∀ x, w'.db.inviteCodes.get? x = (w.db.inviteCodes.get? x).map fun r =>
        if invite = some x then { r with usedAt := some now } else r) ∧
      w' = { w with db := { w.db with inviteCodes := w'.db.inviteCodes } } := by
  cases invite with
  | none =>
    obtain rfl := Except.ok.inj h
    simp
  | some x =>
    obtain ⟨w₁, hrun, hnil⟩ := Lib.replay_cons_eq_ok_iff.mp h
    obtain rfl := Except.ok.inj hnil
    obtain ⟨⟨r, hr, hu⟩, rfl⟩ := claimInvite_eq_ok_iff.mp hrun
    refine ⟨?_, ?_, rfl⟩
    · rintro y hy
      obtain rfl := Option.some.inj hy
      exact ⟨r, hr, hu⟩
    · intro y
      change (w.db.inviteCodes.updateOne x _ _).2.get? y = _
      rw [Table.get?_updateOne]
      by_cases hy : y = x
      · subst hy
        simp [hr, hu, useInvite]
      · simp [hy, Ne.symm hy]

/-- What consuming the invoice, if one is planned, does to the invoices. -/
theorem replay_consume {now : Timestamp} {payment : Option (String × String)} {w w' : World}
    (h : Lib.replay (payment.map fun p => consumeInvoice now p.1 p.2).toList w = .ok w') :
    (∀ p, payment = some p → ∃ r, w.db.paymentInvoices.get? p.1 = some r ∧ r.usable p.2) ∧
      (∀ x, w'.db.paymentInvoices.get? x = (w.db.paymentInvoices.get? x).map fun r =>
        if payment.map Prod.fst = some x then { r with consumedAt := some now } else r) ∧
      w' = { w with db := { w.db with paymentInvoices := w'.db.paymentInvoices } } := by
  cases payment with
  | none =>
    obtain rfl := Except.ok.inj h
    simp
  | some p =>
    obtain ⟨w₁, hrun, hnil⟩ := Lib.replay_cons_eq_ok_iff.mp h
    obtain rfl := Except.ok.inj hnil
    obtain ⟨⟨r, hr, hu⟩, rfl⟩ := consumeInvoice_eq_ok_iff.mp hrun
    refine ⟨?_, ?_, rfl⟩
    · rintro q hq
      obtain rfl := Option.some.inj hq
      exact ⟨r, hr, hu⟩
    · intro y
      change (w.db.paymentInvoices.updateOne p.1 _ _).2.get? y = _
      rw [Table.get?_updateOne]
      by_cases hy : y = p.1
      · subst hy
        simp [hr, hu, useInvoice]
      · simp [hy, Ne.symm hy]

/-- Storing the keys of a user touches nothing else. -/
theorem replay_keys {u : Uuid} {keys : List (AssetType × AssetPublicKey)} {w w' : World}
    (h : Lib.replay (keys.map fun k => upsertKeyStmt (k.2.row u k.1)) w = .ok w') :
    w' = { w with db := { w.db with userKeys := w'.db.userKeys } } ∧
      ∀ k, k.1 ≠ u → w'.db.userKeys.get? k = w.db.userKeys.get? k := by
  induction keys generalizing w with
  | nil =>
    obtain rfl := Except.ok.inj h
    simp
  | cons k keys ih =>
    obtain ⟨w₁, hrun, hrest⟩ := Lib.replay_cons_eq_ok_iff.mp h
    obtain ⟨-, rfl⟩ := upsertKeyStmt_eq_ok_iff.mp hrun
    obtain ⟨hsame, hkeys⟩ := ih hrest
    refine ⟨hsame, fun k' hk' => (hkeys k' hk').trans ?_⟩
    change (w.db.userKeys.upsert (k.2.row u k.1) _).get? k' = _
    rw [Table.get?_upsert, if_neg]
    rintro rfl
    exact hk' rfl

/-- The transaction spends exactly the planned tokens and creates exactly the planned user. -/
theorem spent_of_replay {pepper : Pepper} {new : NewUser} {gates : GatedRegistration}
    {keys : List (AssetType × AssetPublicKey)} {c : TxStart} {w w' : World}
    (h : Lib.replay (consumeGatesScript pepper new gates keys c) w = .ok w') :
    Spent gates (new.row pepper c.userId) c.now w w' := by
  unfold consumeGatesScript at h
  rw [Lib.replay_append, Lib.replay_append] at h
  cases hw₁ : Lib.replay (gates.inviteCodeHash.map (claimInvite c.now)).toList w with
  | error e => simp [hw₁, bind, Except.bind] at h
  | ok w₁ =>
    cases hw₂ : Lib.replay (gates.payment.map fun p => consumeInvoice c.now p.1 p.2).toList w₁ with
    | error e => simp [hw₁, hw₂, bind, Except.bind] at h
    | ok w₂ =>
      simp only [hw₁, hw₂, bind, Except.bind] at h
      obtain ⟨w₃, hins, hkeys⟩ := Lib.replay_cons_eq_ok_iff.mp h
      obtain ⟨hfree, hinvites, h₁⟩ := replay_claim hw₁
      obtain ⟨hfree', hinvoices, h₂⟩ := replay_consume hw₂
      obtain ⟨-, users, hinsert, h₃⟩ := insertUserStmt_eq_ok_iff.mp hins
      obtain ⟨h₄, hother⟩ := replay_keys hkeys
      have hrows : users.rows = w₂.db.users.rows ++ [new.row pepper c.userId] :=
        (Table.insert?_eq_some_iff.mp hinsert).2
      -- each part of the transaction leaves the tables of the other parts alone
      have hinvoices₁ : w₁.db.paymentInvoices = w.db.paymentInvoices := by rw [h₁]
      constructor
      · exact hfree
      · intro x
        rw [h₄, h₃, h₂]
        exact hinvites x
      · intro p hp
        rw [← hinvoices₁]
        exact hfree' p hp
      · intro x
        rw [h₄, h₃, ← hinvoices₁]
        exact hinvoices x
      · rw [h₄, h₃]
        rw [h₂, h₁] at hrows
        exact hrows
      · intro k hk
        rw [hother k hk, h₃, h₂, h₁]
      · rw [h₄, h₃, h₂, h₁]
        exact ⟨rfl, rfl, rfl⟩

/-- The keys are stored last, for a user that is there by then. -/
theorem replay_before_keys {pepper : Pepper} {new : NewUser} {gates : GatedRegistration}
    {keys : List (AssetType × AssetPublicKey)} {c : TxStart} {w w' : World}
    (h : Lib.replay (consumeGatesScript pepper new gates keys c) w = .ok w') :
    ∃ w₁, w₁.db.users.rows = w.db.users.rows ++ [new.row pepper c.userId] ∧
      w₁.db.userKeys = w.db.userKeys ∧
      Lib.replay (keys.map fun k => upsertKeyStmt (k.2.row c.userId k.1)) w₁ = .ok w' := by
  unfold consumeGatesScript at h
  rw [Lib.replay_append, Lib.replay_append] at h
  cases hw₁ : Lib.replay (gates.inviteCodeHash.map (claimInvite c.now)).toList w with
  | error e => simp [hw₁, bind, Except.bind] at h
  | ok w₁ =>
    cases hw₂ : Lib.replay (gates.payment.map fun p => consumeInvoice c.now p.1 p.2).toList w₁ with
    | error e => simp [hw₁, hw₂, bind, Except.bind] at h
    | ok w₂ =>
      simp only [hw₁, hw₂, bind, Except.bind] at h
      obtain ⟨w₃, hins, hkeys⟩ := Lib.replay_cons_eq_ok_iff.mp h
      obtain ⟨-, -, h₁⟩ := replay_claim hw₁
      obtain ⟨-, -, h₂⟩ := replay_consume hw₂
      obtain ⟨-, users, hinsert, h₃⟩ := insertUserStmt_eq_ok_iff.mp hins
      refine ⟨w₃, ?_, ?_, hkeys⟩
      · have hrows := (Table.insert?_eq_some_iff.mp hinsert).2
        rw [h₂, h₁] at hrows
        rw [h₃]
        exact hrows
      · rw [h₃, h₂, h₁]

/-! ### The plan -/

/-- The tokens a gate configuration asks for. -/
structure GateTokens (cfg : GateConfig) (g : GatedRegistration) : Prop where
  /-- None when no gate is on. -/
  whenOpen : cfg.requireInvite = false → cfg.requirePayment = false →
    g.inviteCodeHash = none ∧ g.payment = none
  /-- Those of all gates that are on. -/
  whenAll : cfg.gateMode = .all →
    g.inviteCodeHash.isSome = cfg.requireInvite ∧ g.payment.isSome = cfg.requirePayment
  /-- One of those of the gates that are on. -/
  whenAny : cfg.gateMode = .any → (cfg.requireInvite || cfg.requirePayment) →
    g.inviteCodeHash.isSome ≠ g.payment.isSome ∧
      (g.inviteCodeHash.isSome → cfg.requireInvite) ∧ (g.payment.isSome → cfg.requirePayment)

theorem checkSettled_isSome {pubkeyHash id : String} {answer : Except AppError Invoice}
    {paid : Option String} (h : checkSettled pubkeyHash id answer = .ok paid) : paid.isSome := by
  cases answer with
  | error e => cases h
  | ok invoice =>
    simp only [checkSettled, bind, Except.bind] at h
    split_ifs at h
    obtain rfl := Except.ok.inj h
    rfl

/-- The payment check returns an invoice exactly when the gate is on. -/
theorem keeps_verifyPaymentSettled {I : World → Prop} (cfg : GateConfig) (provider : String → Except AppError Invoice)
    (pubkeyHash : String) (paymentInvoiceId : Option String) :
    (verifyPaymentSettled cfg provider pubkeyHash paymentInvoiceId).Keeps I
      fun paid => paid.isSome = cfg.requirePayment := by
  unfold verifyPaymentSettled
  split_ifs with hon hcfg
  · simpa using hon
  · trivial
  · have hreq : cfg.requirePayment = true := by simpa using hon
    rw [hreq]
    cases presented paymentInvoiceId with
    | none => trivial
    | some id =>
      refine (Prog.keeps_read (Q := fun _ => True) fun _ _ => trivial).bind fun found _ => ?_
      cases found.filter fun r => r.pubkeyHash = pubkeyHash with
      | none => trivial
      | some row =>
        simp only
        split_ifs
        · trivial
        · exact Prog.keeps_ofExcept fun paid hpaid => checkSettled_isSome hpaid

theorem keeps_plannedInvite {I : World → Prop} (cfg : GateConfig) (hashInviteCode : String → String)
    (inviteCode : Option String) :
    (plannedInvite cfg hashInviteCode inviteCode).Keeps I
      fun invite => invite.isSome = cfg.requireInvite := by
  unfold plannedInvite
  split_ifs with hon
  · refine (Prog.keeps_ofExcept (Q := fun _ => True) fun _ _ => trivial).bind fun invite _ => ?_
    simp [hon]
  · simpa using hon

theorem planGates_cases (mode : GateMode) (i p hi hp : Bool) :
    match planGates mode i p hi hp with
    | .open => i = false ∧ p = false
    | .all => mode = .all ∧ (i || p)
    | .invite => mode = .any ∧ i = true
    | .payment => mode = .any ∧ p = true
    | _ => True := by
  cases mode <;> cases i <;> cases p <;> cases hi <;> cases hp <;> simp [planGates]

/-- **What the plan asks for** in each mode. -/
theorem keeps_planGateConsume {I : World → Prop} (cfg : GateConfig) (hashInviteCode : String → String)
    (provider : String → Except AppError Invoice) (pubkeyHash : String)
    (inviteCode paymentInvoiceId : Option String) :
    (planGateConsume cfg hashInviteCode provider pubkeyHash inviteCode paymentInvoiceId).Keeps
      I (GateTokens cfg) := by
  have hpay := keeps_verifyPaymentSettled (I := I) cfg provider pubkeyHash paymentInvoiceId
  have hcase := planGates_cases cfg.gateMode cfg.requireInvite cfg.requirePayment
    (presented inviteCode).isSome (presented paymentInvoiceId).isSome
  unfold planGateConsume
  generalize planGates cfg.gateMode cfg.requireInvite cfg.requirePayment
    (presented inviteCode).isSome (presented paymentInvoiceId).isSome = plan at hcase ⊢
  cases plan with
  | «open» =>
    obtain ⟨hi, hp⟩ : cfg.requireInvite = false ∧ cfg.requirePayment = false := hcase
    exact ⟨fun _ _ => ⟨rfl, rfl⟩, fun _ => by simp [hi, hp], fun _ h => by simp [hi, hp] at h⟩
  | all =>
    obtain ⟨hmode, hsome⟩ : cfg.gateMode = .all ∧ (cfg.requireInvite || cfg.requirePayment) := hcase
    refine (keeps_plannedInvite cfg hashInviteCode inviteCode).bind fun invite hinvite => ?_
    refine hpay.bind fun paid hpaid => ?_
    refine ⟨fun hi hp => by simp [hi, hp] at hsome, fun _ => ⟨hinvite, ?_⟩, fun h => ?_⟩
    · simpa using hpaid
    · simp [hmode] at h
  | invite =>
    obtain ⟨hmode, hi⟩ : cfg.gateMode = .any ∧ cfg.requireInvite = true := hcase
    refine (Prog.keeps_ofExcept (Q := fun _ => True) fun _ _ => trivial).bind fun invite _ => ?_
    exact ⟨fun h => by simp [hi] at h, fun h => by simp [hmode] at h, fun _ _ => by simp [hi]⟩
  | payment =>
    obtain ⟨hmode, hp⟩ : cfg.gateMode = .any ∧ cfg.requirePayment = true := hcase
    refine hpay.bind fun paid hpaid => ?_
    rw [hp] at hpaid
    exact ⟨fun _ h => by simp [hp] at h, fun h => by simp [hmode] at h,
      fun _ _ => by simp [hpaid, hp]⟩
  | rejectBothPresented => trivial
  | requireOne => trivial

/-! ### Concurrent registrations -/

/-- A registration as a job: the checks, then the transaction. -/
def registrationJob (q : Registration) :
    Lib.Job World Lock AppError (GatedRegistration × List (AssetType × AssetPublicKey)) TxStart where
  plan := registrationPlan q
  script g c := consumeGatesScript q.pepper q.new g.1 g.2 c

theorem keeps_ensureUsernameAvailable {I : World → Prop} (username : Option String) :
    (ensureUsernameAvailable username).Keeps I fun _ => True := by
  unfold ensureUsernameAvailable
  cases presented username with
  | none => trivial
  | some name =>
    refine (Prog.keeps_read (Q := fun _ => True) fun _ _ => trivial).bind fun found _ => ?_
    cases found <;> trivial

theorem keeps_registrationPlan {I : World → Prop} (q : Registration) :
    (registrationPlan q).Keeps I fun g => GateTokens q.gates g.1 := by
  refine (keeps_ensureUsernameAvailable _).bind fun _ _ => ?_
  refine (keeps_planGateConsume _ _ _ _ _ _).bind fun gates hgates => ?_
  refine (Prog.keeps_ofExcept (Q := fun _ => True) fun _ _ => trivial).bind fun keys _ => ?_
  exact hgates

variable {ι : Type}

/-- The registrations under way. -/
abbrev Registrations (ι : Type) :=
  Lib.Jobs World Lock AppError (GatedRegistration × List (AssetType × AssetPublicKey)) TxStart ι

/-- The registrations as jobs. -/
def registrationJobs (q : ι → Registration) (i : ι) :
    Lib.Job World Lock AppError (GatedRegistration × List (AssetType × AssetPublicKey)) TxStart :=
  registrationJob (q i)

theorem registrationJobs_local (q : ι → Registration) :
    ∀ i g c, ∀ st ∈ (registrationJobs q i).script g c, st.Local sameAt :=
  fun _ _ _ => consumeGatesScript_local _ _ _ _ _

/-- A registration that committed, with its plan and its transaction. -/
abbrev Commit (ι : Type) := ι × (GatedRegistration × List (AssetType × AssetPublicKey)) × TxStart

/-- The invite a commit spends. -/
def Commit.invite (x : Commit ι) : Option String := x.2.1.1.inviteCodeHash

/-- The invoice a commit spends. -/
def Commit.invoice (x : Commit ι) : Option String := x.2.1.1.payment.map Prod.fst

/-- Registrations one by one, each spending its tokens. -/
inductive SpentInOrder (q : ι → Registration) : List (Commit ι) → World → World → Prop
  | nil (w : World) : SpentInOrder q [] w w
  | cons {x : Commit ι} {rest : List (Commit ι)} {w w₁ w' : World} :
      Spent x.2.1.1 ((q x.1).new.row (q x.1).pepper x.2.2.userId) x.2.2.now w w₁ →
      SpentInOrder q rest w₁ w' → SpentInOrder q (x :: rest) w w'

theorem spentInOrder_of_replay {q : ι → Registration} {order : List (Commit ι)} {w w' : World}
    (h : Lib.replay (Lib.Jobs.serial (registrationJobs q) order) w = .ok w') :
    SpentInOrder q order w w' := by
  induction order generalizing w with
  | nil =>
    obtain rfl := Except.ok.inj h
    exact .nil _
  | cons x rest ih =>
    simp only [Lib.Jobs.serial, List.flatMap_cons, Lib.replay_append] at h
    cases hx : Lib.replay ((registrationJobs q x.1).script x.2.1 x.2.2) w with
    | error e => simp [hx, bind, Except.bind] at h
    | ok w₁ =>
      rw [hx] at h
      exact .cons (spent_of_replay hx) (ih h)

theorem SpentInOrder.invite_ne {q : ι → Registration} {order : List (Commit ι)} {w w' : World}
    (h : SpentInOrder q order w w') {code : String}
    (hused : ∀ r, w.db.inviteCodes.get? code = some r → r.usedAt.isSome) :
    ∀ x ∈ order, x.invite ≠ some code := by
  induction h with
  | nil w => simp
  | @cons x rest w w₁ w' hx _ ih =>
    have hused₁ : ∀ r, w₁.db.inviteCodes.get? code = some r → r.usedAt.isSome := by
      intro r hr
      rw [hx.invites, Option.map_eq_some_iff] at hr
      obtain ⟨r₀, hr₀, rfl⟩ := hr
      split_ifs
      · rfl
      · exact hused r₀ hr₀
    refine List.forall_mem_cons.mpr ⟨fun hspent => ?_, ih hused₁⟩
    obtain ⟨r, hr, hfree⟩ := hx.inviteFree code hspent
    have := hused r hr
    simp_all [InviteCodeRow.usable]

/-- A consumed invoice is not spent by any later registration. -/
theorem SpentInOrder.invoice_ne {q : ι → Registration} {order : List (Commit ι)} {w w' : World}
    (h : SpentInOrder q order w w') {id : String}
    (hused : ∀ r, w.db.paymentInvoices.get? id = some r → r.consumedAt.isSome) :
    ∀ x ∈ order, x.invoice ≠ some id := by
  induction h with
  | nil w => simp
  | @cons x rest w w₁ w' hx _ ih =>
    have hused₁ : ∀ r, w₁.db.paymentInvoices.get? id = some r → r.consumedAt.isSome := by
      intro r hr
      rw [hx.invoices, Option.map_eq_some_iff] at hr
      obtain ⟨r₀, hr₀, rfl⟩ := hr
      split_ifs
      · rfl
      · exact hused r₀ hr₀
    refine List.forall_mem_cons.mpr ⟨fun hspent => ?_, ih hused₁⟩
    obtain ⟨p, hp, rfl⟩ := Option.map_eq_some_iff.mp hspent
    obtain ⟨r, hr, hfree⟩ := hx.invoiceFree p hp
    have := hused r hr
    simp_all [PaymentInvoiceRow.usable]

/-- Two registrations that share no token. -/
def Commit.Apart (x y : Commit ι) : Prop :=
  (∀ code, x.invite = some code → y.invite ≠ some code) ∧
    ∀ id, x.invoice = some id → y.invoice ≠ some id

instance : Std.Symm (Commit.Apart : Commit ι → Commit ι → Prop) where
  symm _ _ h := ⟨fun code hy hx => h.1 code hx hy, fun id hy hx => h.2 id hx hy⟩

theorem SpentInOrder.apart {q : ι → Registration} {order : List (Commit ι)} {w w' : World}
    (h : SpentInOrder q order w w') : order.Pairwise Commit.Apart := by
  induction h with
  | nil w => exact .nil
  | @cons x rest w w₁ w' hx hrest ih =>
    refine .cons (fun y hy => ⟨fun code hcode => ?_, fun id hid => ?_⟩) ih
    · refine hrest.invite_ne (fun r hr => ?_) y hy
      rw [hx.invites, Option.map_eq_some_iff] at hr
      obtain ⟨r₀, -, rfl⟩ := hr
      rw [if_pos (show x.2.1.1.inviteCodeHash = some code from hcode)]
      rfl
    · refine hrest.invoice_ne (fun r hr => ?_) y hy
      rw [hx.invoices, Option.map_eq_some_iff] at hr
      obtain ⟨r₀, -, rfl⟩ := hr
      rw [if_pos (show x.2.1.1.payment.map Prod.fst = some id from hid)]
      rfl

/-- What holds after any interleaving of registrations. -/
structure TokensConserved (q : ι → Registration) (w₀ : World) (σ : Registrations ι) : Prop where
  /-- One by one, the committed registrations spend their tokens and give the database. -/
  inOrder : ∃ order : List (Commit ι), (order.map Prod.fst).Nodup ∧
    (∀ i g c, (i, g, c) ∈ order ↔ σ.phase i = .committed g c) ∧ SpentInOrder q order w₀ σ.db
  /-- No two of them share a token. -/
  once : ∀ i j g g' c c', σ.phase i = .committed g c → σ.phase j = .committed g' c' → i ≠ j →
    Commit.Apart (i, g, c) (j, g', c')
  /-- Each spends the tokens its gates ask for. -/
  asked : ∀ i g c, σ.phase i = .committed g c → GateTokens (q i).gates g.1

/-- **Registration tokens are conserved.** However registrations interleave, the database is what
the committed ones make of it one by one, no two of them share a token, each spends what its gates
ask for, and no step of a registration that ends in an error changed the database. -/
theorem registrations_conserve_tokens [DecidableEq ι] (q : ι → Registration) (w₀ : World)
    {is : List ι} {σ : Registrations ι}
    (hrun : (Lib.jobs (registrationJobs q)).Run (.start w₀ (registrationJobs q)) is σ) :
    TokensConserved q w₀ σ ∧
      ∀ is₁ i is₂ σ₁ σ₂,
        (Lib.jobs (registrationJobs q)).Run (.start w₀ (registrationJobs q)) is₁ σ₁ →
        (Lib.jobs (registrationJobs q)).step σ₁ i σ₂ →
        (Lib.jobs (registrationJobs q)).Run σ₂ is₂ σ →
        ∀ e, σ.phase i = .failed e → σ₂.db = σ₁.db := by
  have hlocal := registrationJobs_local q
  obtain ⟨order, hserial⟩ := Lib.Jobs.serializable hlocal hrun
  have hspent : SpentInOrder q order w₀ σ.db := spentInOrder_of_replay hserial.replay_eq
  have hplan := Lib.Jobs.planOk_run (Q := fun i g => GateTokens (q i).gates g.1)
    (fun i => keeps_registrationPlan (q i)) hrun
  refine ⟨⟨⟨order, hserial.nodup, hserial.mem_iff, hspent⟩, ?_, ?_⟩, ?_⟩
  · intro i j g g' c c' hi hj hij
    have hi' : (i, g, c) ∈ order := (hserial.mem_iff i g c).mpr hi
    have hj' : (j, g', c') ∈ order := (hserial.mem_iff j g' c').mpr hj
    exact hspent.apart.forall hi' hj' fun heq => hij (congrArg Prod.fst heq)
  · intro i g c hi
    have hi' := hplan i
    rw [hi] at hi'
    exact hi'
  · intro is₁ i is₂ σ₁ σ₂ hbefore hstep hafter e hfailed
    exact Lib.Jobs.db_eq_of_failed hlocal hbefore hstep hafter hfailed

/-- A registration of a wallet with an invite. -/
def inviteSample (key : String) : Registration where
  gates := ⟨.all, true, false, false⟩
  hashInviteCode code := code
  provider _ := .error (.internal "payment provider not configured")
  pepper _ v := v
  boundTo := key
  new := ⟨none, some key, none, none, none, none, none⟩
  keys := []
  inviteCode := some "code"
  paymentInvoiceId := none

/-- A database with one invite. -/
def inviteWorld : World :=
  ⟨{ Db.empty with inviteCodes := ⟨[⟨"code", none, none, none⟩], by simp⟩ }, 0⟩

/-- Two wallets with the same invite. -/
def contestedInvite (i : Bool) : Registration := inviteSample (if i then "btc" else "ltc")

/-- Both transactions begin before either claims the invite, and the one that began last claims it;
the other one tries once that has committed. -/
def contestedStarts : List (Bool × TxStart) :=
  [(false, ⟨5, 7⟩), (true, ⟨6, 8⟩), (true, ⟨6, 8⟩), (true, ⟨6, 8⟩), (true, ⟨6, 8⟩), (false, ⟨5, 7⟩)]

/-- The state after these steps. -/
def contestedRegistrations : Registrations Bool :=
  (Lib.Jobs.play (registrationJobs contestedInvite) contestedStarts
    (.start inviteWorld (registrationJobs contestedInvite))).get (by decide +kernel)

/-- One of the two wallets has spent the invite; the other one has no row. -/
theorem contested_invite_conserved :
    TokensConserved contestedInvite inviteWorld contestedRegistrations ∧
      (∃ e, contestedRegistrations.phase false = .failed e) ∧
      contestedRegistrations.phase true = .committed (⟨some "code", none⟩, []) ⟨6, 8⟩ ∧
      contestedRegistrations.db.db.users.rows.map UserRow.id = [8] ∧
      contestedRegistrations.db.db.inviteCodes.rows.map InviteCodeRow.usedAt = [some 6] := by
  have hrun : (Lib.jobs (registrationJobs contestedInvite)).Run
      (.start inviteWorld (registrationJobs contestedInvite)) (contestedStarts.map Prod.fst)
      contestedRegistrations :=
    Lib.Jobs.run_play (Option.some_get _).symm
  exact ⟨(registrations_conserve_tokens contestedInvite inviteWorld hrun).1, ⟨_, rfl⟩, rfl,
    by decide +kernel, by decide +kernel⟩

end SmirkBackend
