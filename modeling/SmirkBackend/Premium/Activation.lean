import Mathlib.Algebra.BigOperators.Group.List.Basic
import Mathlib.Data.List.Pairwise
import SmirkBackend.Premium.Invoices

/-!
# Conservation of premium extensions

Premium requests run concurrently, statement by statement.  An activation that commits has found
its invoice unconsumed and has consumed it, so no other activation of it commits; with it the
window of the invoice's user is extended.  At one `NOW()` the extensions of a window add up, in
whatever order they come.

The statements are local (`premiumScript_local`), so a transaction can be replayed alone
(`effect_of_replay`), and extensions at one time add up (`foldl_extendWindow`).  `premium_conserved`
puts them together, over every interleaving of premium requests.
-/

namespace SmirkBackend

open Lib (Table Patch Prog Stmt)

/-! ### Locality -/

theorem insertPremiumInvoice_eq_ok_iff {r : PremiumInvoiceRow} {w w' : World} :
    (insertPremiumInvoice r).run w = .ok w' ↔ (w.db.users.get? r.userId).isSome ∧
      ∃ t, w.db.premiumInvoices.insert? r = some t ∧
        w' = { w with db := { w.db with premiumInvoices := t } } := by
  simp only [insertPremiumInvoice]
  cases w.db.users.get? r.userId with
  | none => simp
  | some u => cases w.db.premiumInvoices.insert? r <;> simp [eq_comm]

theorem consumePremiumStmt_eq_ok_iff {now : Timestamp} {id : String} {u : Uuid} {w w' : World} :
    (consumePremiumStmt now id u).run w = .ok w' ↔
      (∃ r, w.db.premiumInvoices.get? id = some r ∧ r.usable u) ∧
        w' = { w with db := { w.db with
          premiumInvoices := (w.db.premiumInvoices.updateOne id (PremiumInvoiceRow.usable u)
            (consumePremium now)).2 } } := by
  simp only [consumePremiumStmt, Table.updateOne]
  cases hrow : w.db.premiumInvoices.get? id with
  | none => simp
  | some r =>
    cases hu : r.usable u with
    | false => simp [Option.filter, hu]
    | true =>
      simp only [Option.filter, hu, if_true, Option.map_some, Except.ok.injEq]
      exact ⟨fun heq => ⟨⟨r, rfl, hu⟩, heq.symm⟩, fun heq => heq.2.symm⟩

theorem extendPremiumStmt_eq_ok_iff {now : Timestamp} {u : Uuid} {period : Int32} {w w' : World} :
    (extendPremiumStmt now u period).run w = .ok w' ↔ (w.db.users.get? u).isSome ∧
      w' = { w with db := { w.db with
        users := (w.db.users.updateOne u (fun _ => true) (extendPremium now period.toInt)).2 } } := by
  simp only [extendPremiumStmt, Table.updateOne]
  cases w.db.users.get? u with
  | none => simp
  | some r =>
    simp only [Option.filter_some, if_true, Option.map_some, Except.ok.injEq, Option.isSome_some,
      true_and]
    exact eq_comm

theorem insertPremiumInvoice_local (r : PremiumInvoiceRow) :
    (insertPremiumInvoice r).Local premiumSame where
  frame := by
    intro w w' hrun l hl
    obtain ⟨-, t, hins, rfl⟩ := insertPremiumInvoice_eq_ok_iff.mp hrun
    cases l with
    | invoice id =>
      have hne : id ≠ r.invoiceId := fun heq => hl (by simp [insertPremiumInvoice, heq])
      change w.db.premiumInvoices.get? id = t.get? id
      rw [Table.get?_insert? hins]
      exact (if_neg hne).symm
    | _ => rfl
  determined := by
    intro w₁ w₂ w' hsame hrun
    obtain ⟨huser, t, hins, rfl⟩ := insertPremiumInvoice_eq_ok_iff.mp hrun
    have hrow : w₁.db.premiumInvoices.get? r.invoiceId = w₂.db.premiumInvoices.get? r.invoiceId :=
      hsame _ (.head _)
    have huser₂ : (w₁.db.users.get? r.userId).isSome = (w₂.db.users.get? r.userId).isSome :=
      hsame (.keyShare r.userId r.invoiceId) (.tail _ (.head _))
    have hfresh : w₂.db.premiumInvoices.get? (Lib.key r) = none :=
      hrow.symm.trans (Table.insert?_eq_some_iff.mp hins).1
    obtain ⟨t₂, hins₂⟩ := Table.exists_insert? hfresh
    refine ⟨_, insertPremiumInvoice_eq_ok_iff.mpr ⟨huser₂ ▸ huser, t₂, hins₂, rfl⟩, ?_⟩
    intro l hl
    have hold := hsame l hl
    cases l with
    | invoice id =>
      change t.get? id = t₂.get? id
      rw [Table.get?_insert? hins, Table.get?_insert? hins₂]
      split_ifs
      · rfl
      · exact hold
    | _ => exact hold

theorem consumePremiumStmt_local (now : Timestamp) (id : String) (u : Uuid) :
    (consumePremiumStmt now id u).Local premiumSame where
  frame := by
    intro w w' hrun l hl
    obtain ⟨-, rfl⟩ := consumePremiumStmt_eq_ok_iff.mp hrun
    cases l with
    | invoice id' =>
      have hne : id' ≠ id := fun heq => hl (by simp [consumePremiumStmt, heq])
      exact (Table.get?_updateOne_of_ne _ hne _ _).symm
    | _ => rfl
  determined := by
    intro w₁ w₂ w' hsame hrun
    have hrow : w₁.db.premiumInvoices.get? id = w₂.db.premiumInvoices.get? id := hsame _ (.head _)
    obtain ⟨hu, rfl⟩ := consumePremiumStmt_eq_ok_iff.mp hrun
    refine ⟨_, consumePremiumStmt_eq_ok_iff.mpr ⟨hrow ▸ hu, rfl⟩, ?_⟩
    intro l hl
    obtain rfl := List.mem_singleton.mp hl
    change (w₁.db.premiumInvoices.updateOne id _ _).2.get? id =
      (w₂.db.premiumInvoices.updateOne id _ _).2.get? id
    rw [Table.get?_updateOne_self, Table.get?_updateOne_self, hrow]

theorem extendPremiumStmt_local (now : Timestamp) (u : Uuid) (period : Int32) :
    (extendPremiumStmt now u period).Local premiumSame where
  frame := by
    intro w w' hrun l hl
    obtain ⟨-, rfl⟩ := extendPremiumStmt_eq_ok_iff.mp hrun
    cases l with
    | user v =>
      have hne : v ≠ u := fun heq => hl (by simp [extendPremiumStmt, heq])
      exact (Table.get?_updateOne_of_ne _ hne _ _).symm
    | keyShare v id =>
      -- an extension keeps the user
      change (w.db.users.get? v).isSome = ((w.db.users.updateOne u _ _).2.get? v).isSome
      rw [Table.get?_updateOne, Option.isSome_map]
    | _ => rfl
  determined := by
    intro w₁ w₂ w' hsame hrun
    have hrow : w₁.db.users.get? u = w₂.db.users.get? u := hsame (.user u) (.head _)
    obtain ⟨hu, rfl⟩ := extendPremiumStmt_eq_ok_iff.mp hrun
    refine ⟨_, extendPremiumStmt_eq_ok_iff.mpr ⟨hrow ▸ hu, rfl⟩, ?_⟩
    intro l hl
    obtain rfl := List.mem_singleton.mp hl
    change (w₁.db.users.updateOne u _ _).2.get? u = (w₂.db.users.updateOne u _ _).2.get? u
    rw [Table.get?_updateOne_self, Table.get?_updateOne_self, hrow]

theorem premiumScript_local (g : PremiumPlanned) (now : Timestamp) :
    ∀ st ∈ premiumScript g now, st.Local premiumSame := by
  intro st hst
  cases g with
  | mint rail row =>
    obtain rfl := List.mem_singleton.mp hst
    exact insertPremiumInvoice_local row
  | activate rail id user period =>
    simp only [premiumScript, List.mem_cons, List.not_mem_nil, or_false] at hst
    rcases hst with rfl | rfl
    · exact consumePremiumStmt_local now id user
    · exact extendPremiumStmt_local now user period

/-! ### The effect of a transaction -/

/-- The end of a user's window. -/
def World.premiumUntil (w : World) (u : Uuid) : Option Timestamp :=
  (w.db.users.get? u).bind UserRow.premiumUntil

/-- What an invoice grants: its user, its rail and its days. -/
def PremiumInvoiceRow.terms (r : PremiumInvoiceRow) : Uuid × String × Int32 :=
  (r.userId, r.provider, r.periodDays)

/-- What a transaction did: store an invoice, or consume one and extend the window of its user. -/
inductive PremiumEffect : PremiumPlanned → Timestamp → World → World → Prop
  | mint {rail : PaymentRail} {row : PremiumInvoiceRow} {now : Timestamp} {w : World}
      {t : Table PremiumInvoiceRow} :
      w.db.premiumInvoices.insert? row = some t →
      PremiumEffect (.mint rail row) now w { w with db := { w.db with premiumInvoices := t } }
  | activate {rail : PaymentRail} {id : String} {user : Uuid} {period : Int32} {now : Timestamp}
      {w : World} {r : PremiumInvoiceRow} :
      w.db.premiumInvoices.get? id = some r → r.usable user → (w.db.users.get? user).isSome →
      PremiumEffect (.activate rail id user period) now w { w with db := { w.db with
        premiumInvoices := (w.db.premiumInvoices.updateOne id (PremiumInvoiceRow.usable user)
          (consumePremium now)).2
        users := (w.db.users.updateOne user (fun _ => true) (extendPremium now period.toInt)).2 } }

theorem effect_of_replay {g : PremiumPlanned} {now : Timestamp} {w w' : World}
    (h : Lib.replay (premiumScript g now) w = .ok w') : PremiumEffect g now w w' := by
  cases g with
  | mint rail row =>
    obtain ⟨w₁, hrun, hnil⟩ := Lib.replay_cons_eq_ok_iff.mp h
    obtain rfl := Except.ok.inj hnil
    obtain ⟨-, t, hins, rfl⟩ := insertPremiumInvoice_eq_ok_iff.mp hrun
    exact .mint hins
  | activate rail id user period =>
    obtain ⟨w₁, hconsume, hrest⟩ := Lib.replay_cons_eq_ok_iff.mp h
    obtain ⟨w₂, hextend, hnil⟩ := Lib.replay_cons_eq_ok_iff.mp hrest
    obtain rfl := Except.ok.inj hnil
    obtain ⟨⟨r, hr, hu⟩, rfl⟩ := consumePremiumStmt_eq_ok_iff.mp hconsume
    obtain ⟨huser, rfl⟩ := extendPremiumStmt_eq_ok_iff.mp hextend
    exact .activate hr hu huser

/-- What a transaction adds to the days of a user: those of its plan, if it is an activation. -/
def PremiumPlanned.daysFor (u : Uuid) : PremiumPlanned → Option Int32
  | mint _ _ => none
  | activate _ _ user period => if user = u then some period else none

theorem PremiumEffect.premiumUntil_eq {g : PremiumPlanned} {now : Timestamp} {w w' : World}
    (h : PremiumEffect g now w w') (u : Uuid) :
    w'.premiumUntil u =
      (g.daysFor u).elim (w.premiumUntil u) fun d =>
        some (extendWindow now d.toInt (w.premiumUntil u)) := by
  cases h with
  | mint hins => rfl
  | @activate rail id user period now w r hr hu huser =>
    obtain ⟨v, hv⟩ := Option.isSome_iff_exists.mp huser
    simp only [World.premiumUntil, PremiumPlanned.daysFor, Table.get?_updateOne]
    by_cases huv : u = user
    · subst huv
      simp [hv, extendPremium]
    · simp [huv, Ne.symm huv]

/-- An invoice keeps its terms. -/
def KeepsTerms (w w' : World) : Prop :=
  ∀ id T, (w.db.premiumInvoices.get? id).map PremiumInvoiceRow.terms = some T →
    (w'.db.premiumInvoices.get? id).map PremiumInvoiceRow.terms = some T

/-- What a transaction does to the terms: an invoice is as before, or it is the minted one. -/
theorem PremiumEffect.terms_eq {g : PremiumPlanned} {now : Timestamp} {w w' : World}
    (h : PremiumEffect g now w w') (id : String) :
    (w'.db.premiumInvoices.get? id).map PremiumInvoiceRow.terms =
        (w.db.premiumInvoices.get? id).map PremiumInvoiceRow.terms ∨
      ∃ rail row, g = .mint rail row ∧ row.invoiceId = id ∧
        w.db.premiumInvoices.get? id = none ∧ w'.db.premiumInvoices.get? id = some row := by
  cases h with
  | @mint rail row now w t hins =>
    by_cases hid : id = row.invoiceId
    · subst hid
      exact .inr ⟨rail, row, rfl, rfl, (Table.insert?_eq_some_iff.mp hins).1,
        (Table.get?_insert? hins _).trans (if_pos rfl)⟩
    · exact .inl (congrArg (Option.map _) ((Table.get?_insert? hins id).trans (if_neg hid)))
  | @activate rail id' user period now w r hr hu huser =>
    refine .inl ?_
    simp only [Table.get?_updateOne, Option.map_map]
    cases w.db.premiumInvoices.get? id with
    | none => rfl
    | some r' =>
      simp only [Option.map_some, Function.comp_apply]
      split_ifs <;> rfl

theorem PremiumEffect.keepsTerms {g : PremiumPlanned} {now : Timestamp} {w w' : World}
    (h : PremiumEffect g now w w') : KeepsTerms w w' := by
  intro id T hT
  rcases h.terms_eq id with heq | ⟨rail, row, -, -, hnone, -⟩
  · rw [heq, hT]
  · rw [hnone] at hT
    cases hT

/-- The invoice of an activation. -/
def PremiumPlanned.activates : PremiumPlanned → Option String
  | mint _ _ => none
  | activate _ id _ _ => some id

/-- When an invoice was consumed. -/
def World.consumedAt (w : World) (id : String) : Option Timestamp :=
  (w.db.premiumInvoices.get? id).bind PremiumInvoiceRow.consumedAt

/-- A transaction consumes the invoice it activates, and no other; a minted one is not consumed. -/
theorem PremiumEffect.consumedAt_eq {g : PremiumPlanned} {now : Timestamp} {w w' : World}
    (h : PremiumEffect g now w w') (hfresh : ∀ rail row, g = .mint rail row → row.consumedAt = none)
    (id : String) :
    w'.consumedAt id = if g.activates = some id then some now else w.consumedAt id := by
  cases h with
  | @mint rail row now w t hins =>
    obtain ⟨hnone, -⟩ := Table.insert?_eq_some_iff.mp hins
    simp only [World.consumedAt, PremiumPlanned.activates, reduceCtorEq, if_false,
      Table.get?_insert? hins]
    by_cases hid : id = row.invoiceId
    · subst hid
      rw [if_pos (show row.invoiceId = Lib.key row from rfl),
        show w.db.premiumInvoices.get? row.invoiceId = none from hnone]
      exact hfresh rail row rfl
    · rw [if_neg (show ¬id = Lib.key row from hid)]
  | @activate rail id' user period now w r hr hu huser =>
    simp only [World.consumedAt, PremiumPlanned.activates, Option.some.injEq, Table.get?_updateOne]
    by_cases hid : id = id'
    · subst hid
      simp [hr, hu, consumePremium]
    · simp [hid, Ne.symm hid]

theorem PremiumEffect.unconsumed {g : PremiumPlanned} {now : Timestamp} {w w' : World}
    (h : PremiumEffect g now w w') {id : String} (hg : g.activates = some id) :
    w.consumedAt id = none := by
  cases h with
  | mint hins => cases hg
  | @activate rail id' user period now w r hr hu huser =>
    obtain rfl := Option.some.inj hg
    simp only [PremiumInvoiceRow.usable, Bool.and_eq_true, Option.isNone_iff_eq_none] at hu
    simp [World.consumedAt, hr, hu.2]

/-! ### Windows -/

theorem days_nonneg {d : ℤ} (hd : 0 ≤ d) : 0 ≤ days d := by
  simp only [days, seconds]
  omega

theorem days_add (d d' : ℤ) : days (d + d') = days d + days d' := by
  simp only [days, seconds]
  omega

/-- Extensions at one time add up. -/
theorem foldl_extendWindow {now : Timestamp} {ds : List ℤ} (hpos : ∀ d ∈ ds, 0 ≤ d)
    (premiumUntil : Option Timestamp) :
    ds.foldl (fun p d => some (extendWindow now d p)) premiumUntil =
      if ds = [] then premiumUntil
      else some (max (premiumUntil.getD now) now + days ds.sum) := by
  induction ds generalizing premiumUntil with
  | nil => rfl
  | cons d ds ih =>
    obtain ⟨hd, hds⟩ := List.forall_mem_cons.mp hpos
    rw [List.foldl_cons, ih hds, if_neg (List.cons_ne_nil d ds)]
    by_cases hnil : ds = []
    · subst hnil
      simp [extendWindow]
    · -- after the first extension the window ends later than now
      have hlater : now ≤ extendWindow now d premiumUntil :=
        (le_max_right _ _).trans (le_add_of_nonneg_right (days_nonneg hd))
      rw [if_neg hnil, Option.getD_some, max_eq_left hlater, List.sum_cons, days_add, ← add_assoc,
        extendWindow]

theorem le_extendWindow {now : Timestamp} {d : ℤ} (hd : 0 ≤ d) (t : Timestamp) :
    t ≤ extendWindow now d (some t) :=
  (le_max_left t now).trans (le_add_of_nonneg_right (days_nonneg hd))

/-! ### What a request knows when it writes -/

/-- A minted invoice is of a rail of the instance, which its row names, and grants days; an
activated one was found settled by the rail that its row names. -/
def PremiumKnown (inst : PremiumInstance) (q : PremiumCall) : PremiumPlanned → World → Prop
  | .mint rail row, _ =>
    rail ∈ inst.rails ∧ row.provider = rail.kind ∧ 0 < row.periodDays ∧ row.consumedAt = none
  | .activate rail id user period, w =>
    rail ∈ inst.rails ∧
      (∃ inv, q.processors.getInvoice rail id = .ok inv ∧ inv.status = .settled) ∧
      (w.db.premiumInvoices.get? id).map PremiumInvoiceRow.terms = some (user, rail.kind, period)

theorem KeepsTerms.refl (w : World) : KeepsTerms w w := fun _ _ h => h

theorem KeepsTerms.trans (w₁ w₂ w₃ : World) (h : KeepsTerms w₁ w₂) (h' : KeepsTerms w₂ w₃) :
    KeepsTerms w₁ w₃ := fun id T hT => h' id T (h id T hT)

theorem PremiumKnown.stable {inst : PremiumInstance} {q : PremiumCall} (g : PremiumPlanned)
    (w w' : World) (hkeep : KeepsTerms w w') (h : PremiumKnown inst q g w) :
    PremiumKnown inst q g w' := by
  cases g with
  | mint rail row => exact h
  | activate rail id user period => exact ⟨h.1, h.2.1, hkeep _ _ h.2.2⟩

theorem mem_of_select {inst : PremiumInstance} {kind : Option String} {r : PaymentRail}
    (h : inst.select kind = some r) : r ∈ inst.rails := by
  cases kind with
  | none => exact List.mem_of_head? h
  | some k => exact List.mem_of_find?_eq_some h

theorem forInvoice_spec {inst : PremiumInstance} {kind : String} {r : PaymentRail}
    (h : inst.forInvoice kind = some r) : r ∈ inst.rails ∧ r.kind = kind :=
  ⟨List.mem_of_find?_eq_some h, by simpa using List.find?_some h⟩

theorem learns_mintPlan (inst : PremiumInstance) (q : PremiumCall) (plan : String)
    (rail : Option String) (w : World) :
    (mintPlan inst q.enabled q.processors q.bearer plan rail).Learns KeepsTerms
      (PremiumKnown inst q) w := by
  refine Prog.Learns.bind (Prog.learns_of_forall (fun user w => ?_) _ _)
  refine Prog.Learns.bind (Prog.learns_of_forall (fun _ w => ?_) _ _)
  refine Prog.Learns.bind (Prog.learns_orFail fun p hplan => ?_)
  refine Prog.Learns.bind (Prog.learns_read fun w' _ => ?_)
  split_ifs
  · trivial
  · refine Prog.Learns.bind (Prog.learns_orFail fun r hrail => ?_)
    refine Prog.Learns.bind (Prog.learns_ofExcept fun id _ => ?_)
    exact ⟨mem_of_select hrail, rfl, inst.days_pos p (List.mem_of_find?_eq_some hplan), rfl⟩

theorem status_of_checkPremiumSettled {user : Uuid} {answer : Except AppError Invoice} {x : Unit}
    (h : checkPremiumSettled user answer = .ok x) :
    ∃ inv, answer = .ok inv ∧ inv.status = .settled := by
  cases answer with
  | error e => cases h
  | ok inv =>
    refine ⟨inv, rfl, ?_⟩
    by_contra hne
    simp [checkPremiumSettled, bind, Except.bind, hne] at h

theorem learns_activationPlan (inst : PremiumInstance) (q : PremiumCall) (invoiceId : String)
    (w : World) :
    (activationPlan inst q.enabled q.processors q.bearer invoiceId).Learns KeepsTerms
      (PremiumKnown inst q) w := by
  refine Prog.Learns.bind (Prog.learns_of_forall (fun user w => ?_) _ _)
  refine Prog.Learns.bind (Prog.learns_of_forall (fun _ w => ?_) _ _)
  refine Prog.Learns.bind (Prog.learns_read fun w' _ => ?_)
  cases hrow : (w'.db.premiumInvoices.get? (trim invoiceId)).filter fun r => r.userId = user with
  | none => trivial
  | some row =>
    obtain ⟨hget, huser⟩ := Option.filter_eq_some_iff.mp hrow
    simp only
    split_ifs
    · trivial
    · cases hrail : inst.forInvoice row.provider with
      | none => trivial
      | some rail =>
        obtain ⟨hmem, hkind⟩ := forInvoice_spec hrail
        refine Prog.Learns.bind (Prog.learns_ofExcept fun _ hsettled => ?_)
        refine ⟨hmem, status_of_checkPremiumSettled hsettled, ?_⟩
        rw [hget, Option.map_some, PremiumInvoiceRow.terms, hkind, of_decide_eq_true huser]

theorem learns_premiumPlan (inst : PremiumInstance) (q : PremiumCall) (w : World) :
    (premiumPlan inst q).Learns KeepsTerms (PremiumKnown inst q) w := by
  unfold premiumPlan
  cases q.request with
  | invoice plan rail => exact learns_mintPlan inst q plan rail w
  | activate id => exact learns_activationPlan inst q id w

/-! ### Concurrent requests -/

variable {ι : Type}

/-- The premium requests under way. -/
abbrev PremiumJobs (ι : Type) := Lib.Jobs World PremiumLock AppError PremiumPlanned Timestamp ι

/-- The premium requests as jobs. -/
def premiumJobs (inst : PremiumInstance) (q : ι → PremiumCall) (i : ι) :
    Lib.Job World PremiumLock AppError PremiumPlanned Timestamp := premiumJob inst (q i)

/-- A request that committed, what it wrote and its `NOW()`. -/
abbrev PremiumCommit (ι : Type) := ι × PremiumPlanned × Timestamp

/-- Premium transactions one by one. -/
abbrev PremiumInOrder (order : List (PremiumCommit ι)) (w w' : World) : Prop :=
  Lib.Jobs.InOrder (fun x => PremiumEffect x.2.1 x.2.2) order w w'

theorem premiumJobs_local (inst : PremiumInstance) (q : ι → PremiumCall) :
    ∀ i g c, ∀ st ∈ (premiumJobs inst q i).script g c, st.Local premiumSame :=
  fun _ g c => premiumScript_local g c

/-- Every minted invoice is not consumed. -/
def MintsFresh (order : List (PremiumCommit ι)) : Prop :=
  ∀ x ∈ order, ∀ rail row, x.2.1 = .mint rail row → row.consumedAt = none

theorem activates_ne_of_consumed {order : List (PremiumCommit ι)} {w w' : World}
    (h : PremiumInOrder order w w') (hfresh : MintsFresh order) {id : String}
    (hused : (w.consumedAt id).isSome) : ∀ x ∈ order, x.2.1.activates ≠ some id := by
  induction h with
  | nil w => simp
  | @cons x rest w w₁ w' hx _ ih =>
    obtain ⟨hfreshx, hfreshrest⟩ := List.forall_mem_cons.mp hfresh
    have hne : x.2.1.activates ≠ some id := by
      intro hact
      rw [hx.unconsumed hact] at hused
      cases hused
    have hused₁ : (w₁.consumedAt id).isSome := by
      rw [hx.consumedAt_eq hfreshx id, if_neg hne]
      exact hused
    exact List.forall_mem_cons.mpr ⟨hne, ih hfreshrest hused₁⟩

/-- Two transactions that activate no invoice together. -/
def ActivateApart (x y : PremiumCommit ι) : Prop :=
  ∀ id, x.2.1.activates = some id → y.2.1.activates ≠ some id

instance : Std.Symm (ActivateApart : PremiumCommit ι → PremiumCommit ι → Prop) where
  symm _ _ h := fun id hy hx => h id hx hy

theorem pairwise_activateApart {order : List (PremiumCommit ι)} {w w' : World}
    (h : PremiumInOrder order w w') (hfresh : MintsFresh order) :
    order.Pairwise ActivateApart := by
  induction h with
  | nil w => exact .nil
  | @cons x rest w w₁ w' hx hrest ih =>
    obtain ⟨hfreshx, hfreshrest⟩ := List.forall_mem_cons.mp hfresh
    refine .cons (fun y hy id hact => ?_) (ih hfreshrest)
    refine activates_ne_of_consumed hrest hfreshrest ?_ y hy
    rw [hx.consumedAt_eq hfreshx id, if_pos hact]
    rfl

theorem consumedAt_iff {order : List (PremiumCommit ι)} {w w' : World}
    (h : PremiumInOrder order w w') (hfresh : MintsFresh order) (id : String) (t : Timestamp) :
    w'.consumedAt id = some t ↔
      w.consumedAt id = some t ∨ ∃ x ∈ order, x.2.1.activates = some id ∧ x.2.2 = t := by
  induction h with
  | nil w => simp
  | @cons x rest w w₁ w' hx _ ih =>
    obtain ⟨hfreshx, hfreshrest⟩ := List.forall_mem_cons.mp hfresh
    rw [ih hfreshrest, hx.consumedAt_eq hfreshx id, List.exists_mem_cons_iff, ← or_assoc]
    refine or_congr_left ?_
    by_cases hact : x.2.1.activates = some id
    · simp [hact, hx.unconsumed hact]
    · simp [hact]

theorem premiumUntil_eq_foldl {order : List (PremiumCommit ι)} {w w' : World}
    (h : PremiumInOrder order w w') (u : Uuid) :
    w'.premiumUntil u = order.foldl (fun p x =>
      (x.2.1.daysFor u).elim p fun d => some (extendWindow x.2.2 d.toInt p)) (w.premiumUntil u) := by
  induction h with
  | nil w => rfl
  | @cons x rest w w₁ w' hx _ ih => rw [ih, List.foldl_cons, hx.premiumUntil_eq u]

/-- The activations of a user, with their days. -/
def extensionsOf (u : Uuid) (order : List (PremiumCommit ι)) : List (ι × Int32) :=
  order.filterMap fun x => (x.2.1.daysFor u).map fun d => (x.1, d)

theorem mem_extensionsOf {u : Uuid} {order : List (PremiumCommit ι)} {i : ι} {d : Int32} :
    (i, d) ∈ extensionsOf u order ↔ ∃ x ∈ order, x.1 = i ∧ x.2.1.daysFor u = some d := by
  simp only [extensionsOf, List.mem_filterMap, Option.map_eq_some_iff, Prod.mk.injEq]
  constructor
  · rintro ⟨x, hx, d', hd', hi, rfl⟩
    exact ⟨x, hx, hi, hd'⟩
  · rintro ⟨x, hx, hi, hd⟩
    exact ⟨x, hx, d, hd, hi, rfl⟩

theorem nodup_extensionsOf (u : Uuid) {order : List (PremiumCommit ι)}
    (h : (order.map Prod.fst).Nodup) : (extensionsOf u order).Nodup := by
  refine List.Nodup.of_map Prod.fst ?_
  refine List.Sublist.nodup ?_ h
  unfold extensionsOf
  induction order with
  | nil => exact .slnil
  | cons x rest ih =>
    obtain ⟨-, hrest⟩ := List.nodup_cons.mp h
    cases hd : x.2.1.daysFor u with
    | none =>
      rw [List.filterMap_cons_none (by rw [hd]; rfl)]
      exact .cons _ (ih hrest)
    | some d =>
      rw [List.filterMap_cons_some (by rw [hd]; rfl), List.map_cons, List.map_cons]
      exact (ih hrest).cons_cons _

/-- At one time, a window is extended by the days of all activations of its user together. -/
theorem premiumUntil_eq_sum {order : List (PremiumCommit ι)} {w w' : World}
    (h : PremiumInOrder order w w') {u : Uuid} {t : Timestamp}
    (htime : ∀ x ∈ order, (x.2.1.daysFor u).isSome → x.2.2 = t)
    (hpos : ∀ x ∈ extensionsOf u order, 0 ≤ x.2.toInt) :
    w'.premiumUntil u =
      if extensionsOf u order = [] then w.premiumUntil u
      else some (max ((w.premiumUntil u).getD t) t +
        days ((extensionsOf u order).map fun x => x.2.toInt).sum) := by
  have hfold : ∀ p, order.foldl (fun p x =>
      (x.2.1.daysFor u).elim p fun d => some (extendWindow x.2.2 d.toInt p)) p =
      ((extensionsOf u order).map fun x => x.2.toInt).foldl
        (fun p d => some (extendWindow t d p)) p := by
    clear h hpos
    induction order with
    | nil => exact fun _ => rfl
    | cons x rest ih =>
      intro p
      obtain ⟨hx, hrest⟩ := List.forall_mem_cons.mp htime
      rw [List.foldl_cons, ih hrest]
      unfold extensionsOf
      cases hd : x.2.1.daysFor u with
      | none => rw [List.filterMap_cons_none (by rw [hd]; rfl)]; rfl
      | some d =>
        rw [List.filterMap_cons_some (by rw [hd]; rfl), List.map_cons, List.foldl_cons,
          hx (by rw [hd]; rfl)]
        rfl
  rw [premiumUntil_eq_foldl h u, hfold, foldl_extendWindow]
  · simp only [List.map_eq_nil_iff]
  · intro d hd
    obtain ⟨x, hx, rfl⟩ := List.mem_map.mp hd
    exact hpos x hx

theorem minted_of_terms {order : List (PremiumCommit ι)} {w w' : World}
    (h : PremiumInOrder order w w') :
    ∀ id T, (w'.db.premiumInvoices.get? id).map PremiumInvoiceRow.terms = some T →
      (w.db.premiumInvoices.get? id).map PremiumInvoiceRow.terms = some T ∨
        ∃ x ∈ order, ∃ rail row, x.2.1 = .mint rail row ∧ row.invoiceId = id ∧ row.terms = T := by
  refine h.invariant (I := fun v => ∀ id T,
    (v.db.premiumInvoices.get? id).map PremiumInvoiceRow.terms = some T →
      (w.db.premiumInvoices.get? id).map PremiumInvoiceRow.terms = some T ∨
        ∃ x ∈ order, ∃ rail row, x.2.1 = .mint rail row ∧ row.invoiceId = id ∧ row.terms = T)
    ?_ fun _ _ hT => .inl hT
  intro x hx v v' heffect ih id T hT
  rcases heffect.terms_eq id with heq | ⟨rail, row, hmint, hid, -, hnew⟩
  · exact ih id T (heq ▸ hT)
  · rw [hnew, Option.map_some, Option.some.injEq] at hT
    exact .inr ⟨x, hx, rail, row, hmint, hid, hT⟩

/-! ### Conservation -/

/-- The invoices there were at the start grant days. -/
def GrantsDays (w : World) : Prop := ∀ r ∈ w.db.premiumInvoices.rows, 0 < r.periodDays

/-- What holds after any interleaving of premium requests. -/
structure PremiumConserved (inst : PremiumInstance) (q : ι → PremiumCall) (w₀ : World)
    (σ : PremiumJobs ι) : Prop where
  /-- One by one, the committed requests give the database. -/
  inOrder : ∃ order : List (PremiumCommit ι), (order.map Prod.fst).Nodup ∧
    (∀ i g now, (i, g, now) ∈ order ↔ σ.phase i = .committed g now) ∧
    PremiumInOrder order w₀ σ.db
  /-- An invoice is consumed if it was at the start, or if an activation of it committed. -/
  consumed : ∀ id t, σ.db.consumedAt id = some t ↔ w₀.consumedAt id = some t ∨
    ∃ i g, σ.phase i = .committed g t ∧ g.activates = some id
  /-- At most one activation of an invoice commits. -/
  once : ∀ i j g g' t t' id, σ.phase i = .committed g t → σ.phase j = .committed g' t' →
    g.activates = some id → g'.activates = some id → i = j
  /-- An activation writes for the invoice's own user, and the invoice's days. -/
  own : ∀ i rail id user period, (σ.phase i).plan? = some (.activate rail id user period) →
    (σ.db.db.premiumInvoices.get? id).map PremiumInvoiceRow.terms = some (user, rail.kind, period)
  /-- Its invoice was judged settled by a rail of the instance. -/
  settled : ∀ i rail id user period, (σ.phase i).plan? = some (.activate rail id user period) →
    rail ∈ inst.rails ∧
      ∃ inv, (q i).processors.getInvoice rail id = .ok inv ∧ inv.status = .settled
  /-- That rail minted it: in this run, or before, and then the row names the rail. -/
  minted : ∀ i rail id user period, (σ.phase i).plan? = some (.activate rail id user period) →
    (w₀.db.premiumInvoices.get? id).map PremiumInvoiceRow.terms = some (user, rail.kind, period) ∨
      ∃ j row t, σ.phase j = .committed (.mint rail row) t ∧ row.invoiceId = id ∧
        row.terms = (user, rail.kind, period)
  /-- At one `NOW()`, a window is extended by the days of all activations of its user together. -/
  sameNow : ∀ u t (xs : List (ι × Int32)), xs.Nodup →
    (∀ i d, (i, d) ∈ xs ↔ ∃ g now, σ.phase i = .committed g now ∧ g.daysFor u = some d) →
    (∀ i g now, σ.phase i = .committed g now → (g.daysFor u).isSome → now = t) →
    σ.db.premiumUntil u =
      if xs = [] then w₀.premiumUntil u
      else some (max ((w₀.premiumUntil u).getD t) t + days (xs.map fun x => x.2.toInt).sum)

variable [DecidableEq ι]

theorem known_of_run {inst : PremiumInstance} {q : ι → PremiumCall} {w₀ : World} {is : List ι}
    {σ : PremiumJobs ι}
    (hrun : (Lib.jobs (premiumJobs inst q)).Run (.start w₀ (premiumJobs inst q)) is σ) {i : ι}
    {g : PremiumPlanned} (hg : (σ.phase i).plan? = some g) : PremiumKnown inst (q i) g σ.db := by
  have hknows := Lib.Jobs.knows_run (premiumJobs_local inst q) (R := KeepsTerms)
    (K := fun i => PremiumKnown inst (q i)) KeepsTerms.refl KeepsTerms.trans
    (fun _ => PremiumKnown.stable) (fun _ _ _ _ _ h => (effect_of_replay h).keepsTerms)
    (fun i => learns_premiumPlan inst (q i) w₀) hrun i
  exact hknows.of_plan? hg

theorem order_of_run {inst : PremiumInstance} {q : ι → PremiumCall} {w₀ : World} {is : List ι}
    {σ : PremiumJobs ι}
    (hrun : (Lib.jobs (premiumJobs inst q)).Run (.start w₀ (premiumJobs inst q)) is σ) :
    ∃ order : List (PremiumCommit ι), (order.map Prod.fst).Nodup ∧
      (∀ i g now, (i, g, now) ∈ order ↔ σ.phase i = .committed g now) ∧
      PremiumInOrder order w₀ σ.db ∧ MintsFresh order := by
  obtain ⟨order, hserial⟩ := Lib.Jobs.serializable (premiumJobs_local inst q) hrun
  refine ⟨order, hserial.nodup, hserial.mem_iff,
    hserial.inOrder fun _ _ _ h => effect_of_replay h, fun x hx rail row hmint => ?_⟩
  have hphase := (hserial.mem_iff x.1 x.2.1 x.2.2).mp hx
  have hknown := known_of_run hrun (i := x.1) (g := x.2.1) (by rw [hphase]; rfl)
  rw [hmint] at hknown
  exact hknown.2.2.2

/-- The rail that is asked about an invoice minted it. -/
theorem minted_of_run {inst : PremiumInstance} {q : ι → PremiumCall} {w₀ : World} {is : List ι}
    {σ : PremiumJobs ι}
    (hrun : (Lib.jobs (premiumJobs inst q)).Run (.start w₀ (premiumJobs inst q)) is σ) {i : ι}
    {rail : PaymentRail} {id : String} {user : Uuid} {period : Int32}
    (hi : (σ.phase i).plan? = some (.activate rail id user period)) :
    (w₀.db.premiumInvoices.get? id).map PremiumInvoiceRow.terms = some (user, rail.kind, period) ∨
      ∃ j row t, σ.phase j = .committed (.mint rail row) t ∧ row.invoiceId = id ∧
        row.terms = (user, rail.kind, period) := by
  obtain ⟨order, -, hmem, horder, -⟩ := order_of_run hrun
  obtain ⟨hrail, -, hterms⟩ := known_of_run hrun hi
  rcases minted_of_terms horder id _ hterms with hold | ⟨x, hx, rail', row, hmint, hid, hrow⟩
  · exact .inl hold
  · have hphase := (hmem x.1 x.2.1 x.2.2).mp hx
    rw [hmint] at hphase
    obtain ⟨hrail', hkind, -⟩ := known_of_run hrun (i := x.1) (by rw [hphase]; rfl)
    -- both rails are of the kind that the row names
    have hsame : rail'.kind = rail.kind := by
      rw [← hkind]
      exact congrArg (fun T => T.2.1) hrow
    obtain rfl := List.inj_on_of_nodup_map inst.kinds_nodup hrail' hrail hsame
    exact .inr ⟨x.1, row, x.2.2, hphase, hid, hrow⟩

/-- An activation grants days. -/
theorem period_pos_of_run {inst : PremiumInstance} {q : ι → PremiumCall} {w₀ : World} {is : List ι}
    {σ : PremiumJobs ι} (hgrants : GrantsDays w₀)
    (hrun : (Lib.jobs (premiumJobs inst q)).Run (.start w₀ (premiumJobs inst q)) is σ) {i : ι}
    {g : PremiumPlanned} (hi : (σ.phase i).plan? = some g) {u : Uuid} {d : Int32}
    (hd : g.daysFor u = some d) : 0 ≤ d.toInt := by
  have hle : ∀ d : Int32, 0 < d → 0 ≤ d.toInt := fun d hpos =>
    (Int32.lt_iff_toInt_lt.mp hpos).le
  cases g with
  | mint rail row => cases hd
  | activate rail id user period =>
    obtain rfl : period = d := by
      simp only [PremiumPlanned.daysFor] at hd
      split_ifs at hd
      exact Option.some.inj hd
    rcases minted_of_run hrun hi with hold | ⟨j, row, t, hphase, -, hrow⟩
    · obtain ⟨r, hr, hterms⟩ := Option.map_eq_some_iff.mp hold
      have hperiod : r.periodDays = period := congrArg (fun T => T.2.2) hterms
      exact hperiod ▸ hle _ (hgrants r (Table.mem_of_get? hr))
    · obtain ⟨-, -, hpos, -⟩ := known_of_run hrun (i := j) (by rw [hphase]; rfl)
      have hperiod : row.periodDays = period := congrArg (fun T => T.2.2) hrow
      exact hperiod ▸ hle _ hpos

theorem conserved_of_run {inst : PremiumInstance} {q : ι → PremiumCall} {w₀ : World} {is : List ι}
    {σ : PremiumJobs ι} (hgrants : GrantsDays w₀)
    (hrun : (Lib.jobs (premiumJobs inst q)).Run (.start w₀ (premiumJobs inst q)) is σ) :
    PremiumConserved inst q w₀ σ := by
  obtain ⟨order, hnodup, hmem, horder, hfresh⟩ := order_of_run hrun
  have hphase : ∀ x ∈ order, σ.phase x.1 = .committed x.2.1 x.2.2 := fun x hx =>
    (hmem x.1 x.2.1 x.2.2).mp hx
  constructor
  · exact ⟨order, hnodup, hmem, horder⟩
  · intro id t
    rw [consumedAt_iff horder hfresh id t]
    refine or_congr_right ⟨?_, ?_⟩
    · rintro ⟨x, hx, hact, rfl⟩
      exact ⟨x.1, x.2.1, hphase x hx, hact⟩
    · rintro ⟨i, g, hi, hact⟩
      exact ⟨(i, g, t), (hmem i g t).mpr hi, hact, rfl⟩
  · intro i j g g' t t' id hi hj hact hact'
    by_contra hij
    have hapart := (pairwise_activateApart horder hfresh).forall ((hmem i g t).mpr hi)
      ((hmem j g' t').mpr hj) fun heq => hij (congrArg Prod.fst heq)
    exact hapart id hact hact'
  · intro i rail id user period hi
    exact (known_of_run hrun hi).2.2
  · intro i rail id user period hi
    exact ⟨(known_of_run hrun hi).1, (known_of_run hrun hi).2.1⟩
  · intro i rail id user period hi
    exact minted_of_run hrun hi
  · intro u t xs hxs hxsmem htime
    have hperm : xs.Perm (extensionsOf u order) := by
      refine (List.perm_ext_iff_of_nodup hxs (nodup_extensionsOf u hnodup)).mpr fun x => ?_
      obtain ⟨i, d⟩ := x
      rw [hxsmem, mem_extensionsOf]
      constructor
      · rintro ⟨g, now, hi, hd⟩
        exact ⟨(i, g, now), (hmem i g now).mpr hi, rfl, hd⟩
      · rintro ⟨x, hx, rfl, hd⟩
        exact ⟨x.2.1, x.2.2, hphase x hx, hd⟩
    have hnil : xs = [] ↔ extensionsOf u order = [] := by
      rw [← List.length_eq_zero_iff, ← List.length_eq_zero_iff, hperm.length_eq]
    simp only [hnil, (hperm.map fun x : ι × Int32 => x.2.toInt).sum_eq]
    refine premiumUntil_eq_sum horder ?_ ?_
    · exact fun x hx hd => htime x.1 x.2.1 x.2.2 (hphase x hx) hd
    · intro x hx
      obtain ⟨y, hy, hyi, hd⟩ := mem_extensionsOf.mp hx
      exact period_pos_of_run hgrants hrun (i := y.1) (by rw [hphase y hy]; rfl) hd

theorem premiumUntil_mono {g : PremiumPlanned} {now : Timestamp} {w w' : World}
    (h : PremiumEffect g now w w') (hpos : ∀ u d, g.daysFor u = some d → 0 ≤ d.toInt) {u : Uuid}
    {t : Timestamp} (ht : w.premiumUntil u = some t) :
    ∃ t', w'.premiumUntil u = some t' ∧ t ≤ t' := by
  rw [h.premiumUntil_eq u]
  cases hd : g.daysFor u with
  | none => exact ⟨t, ht, le_rfl⟩
  | some d =>
    refine ⟨_, rfl, ?_⟩
    rw [ht]
    exact le_extendWindow (hpos u d hd) t

/-- **Premium extensions are conserved.** However premium requests interleave: each invoice is
consumed by at most one activation, which extends the window of the invoice's own user by the
invoice's days; a step that changes the database at all is a whole transaction, which consumes and
extends; no step shortens a window; at one `NOW()` the windows do not depend on the order; and an
invoice is judged settled by the rail that minted it. -/
theorem premium_conserved (inst : PremiumInstance) (q : ι → PremiumCall) (w₀ : World)
    (hgrants : GrantsDays w₀) {is : List ι} {σ : PremiumJobs ι}
    (hrun : (Lib.jobs (premiumJobs inst q)).Run (.start w₀ (premiumJobs inst q)) is σ) :
    PremiumConserved inst q w₀ σ ∧
      ∀ i σ', (Lib.jobs (premiumJobs inst q)).step σ i σ' →
        (σ'.db = σ.db ∨
          ∃ g now, σ'.phase i = .committed g now ∧ PremiumEffect g now σ.db σ'.db) ∧
        ∀ u t, σ.db.premiumUntil u = some t → ∃ t', σ'.db.premiumUntil u = some t' ∧ t ≤ t' := by
  refine ⟨conserved_of_run hgrants hrun, fun i σ' hstep => ?_⟩
  rcases Lib.Jobs.commit_of_step (premiumJobs_local inst q) hrun hstep with
    hdb | ⟨g, now, hphase, hreplay⟩
  · exact ⟨.inl hdb, fun u t ht => ⟨t, hdb ▸ ht, le_rfl⟩⟩
  · have heffect := effect_of_replay hreplay
    have hrun' := hrun.trans (.cons hstep (.nil _))
    have hpos : ∀ u d, g.daysFor u = some d → 0 ≤ d.toInt := fun u d hd =>
      period_pos_of_run hgrants hrun' (i := i) (by rw [hphase]; rfl) hd
    exact ⟨.inr ⟨g, now, hphase, heffect⟩, fun u t ht => premiumUntil_mono heffect hpos ht⟩

/-- An instance with one plan and one rail. -/
def premiumSample : PremiumInstance where
  plans := [⟨"month", 30, "5"⟩]
  rails := [⟨"btcpay", "https://pay", "store"⟩]
  days_pos := by decide
  kinds_nodup := by decide

/-- A settled invoice is activated by its user. -/
def activateSample (invoiceId : String) : PremiumCall where
  request := .activate invoiceId
  bearer := .ok ⟨1, none⟩
  enabled := true
  processors := ⟨fun _ _ _ => .ok invoiceId, fun _ _ => .ok ⟨.settled, none⟩⟩

/-- Two activations of one invoice, and one of another invoice of the same user. -/
def contestedCalls (i : Fin 3) : PremiumCall := activateSample (if i.val = 2 then "other" else "inv")

/-- A user whose window ends at 9, with two invoices. -/
def premiumWorld : World :=
  ⟨{ Db.empty with
    users := ⟨[⟨1, none, none, none, none, none, none, none, some 9⟩], by simp⟩
    premiumInvoices :=
      ⟨[⟨"inv", 1, "btcpay", 30, none⟩, ⟨"other", 1, "btcpay", 30, none⟩], by decide⟩ }, 0⟩

/-- All three read before anyone writes.  The second one consumes the invoice first; the first one
tries after its commit, while the third one is at work. -/
def contestedTurns : List (Fin 3 × Timestamp) :=
  Lib.numbered [(0, 5), (1, 5), (2, 5), (0, 5), (1, 5), (1, 5), (2, 5), (1, 5), (2, 5), (1, 5),
    (0, 5), (2, 5), (2, 5)]

/-- The state after these steps. -/
def contestedEnd : PremiumJobs (Fin 3) :=
  (Lib.Jobs.play (premiumJobs premiumSample contestedCalls) contestedTurns
    (.start premiumWorld (premiumJobs premiumSample contestedCalls))).get (by decide +kernel)

/-- Each of the two invoices extends the window once, and the first activation fails. -/
theorem contested_invoice_conserved :
    PremiumConserved premiumSample contestedCalls premiumWorld contestedEnd ∧
      contestedEnd.db.premiumUntil 1 = some (9 + days 60) ∧
      (∃ e, contestedEnd.phase 0 = .failed e) ∧
      ∃ now, contestedEnd.phase 1 = .committed (.activate ⟨"btcpay", "https://pay", "store"⟩ "inv"
        1 30) now := by
  have hgrants : GrantsDays premiumWorld := by simp [GrantsDays, premiumWorld]
  have hrun : (Lib.jobs (premiumJobs premiumSample contestedCalls)).Run
      (.start premiumWorld (premiumJobs premiumSample contestedCalls)) (contestedTurns.map Prod.fst)
      contestedEnd :=
    Lib.Jobs.run_play (Option.some_get _).symm
  exact ⟨(premium_conserved premiumSample contestedCalls premiumWorld hgrants hrun).1,
    by decide +kernel, ⟨_, rfl⟩, 5, rfl⟩

end SmirkBackend
