import SmirkBackend.Lib.Table

/-!
# Referential actions

What the deletion of a referenced row does to a table that refers to it.  A foreign key either
deletes the referring rows (`CASCADE`) or clears their reference (`SET NULL`).  Clearing is an
update like any other: it is refused when the new row violates a `CHECK` of its table, and then
the deletion fails as a whole.

`ForeignKey.fire_isSome_iff` says when the action of one foreign key goes through.  After those of
several, in order, no row refers to the deleted one (`fireAll_unreferenced`).
-/

namespace Lib

variable {R κ ρ : Type*} [HasKey R κ] [DecidableEq ρ]

/-- The `ON DELETE` action of a foreign key. -/
inductive OnDelete (R : Type*) {κ : Type*} [HasKey R κ]
  | cascade
  | setNull (clear : Patch R)

/-- A reference column of `R` and its action. -/
structure ForeignKey (R : Type*) {κ : Type*} [HasKey R κ] (ρ : Type*) where
  /-- The row a row refers to. -/
  ref : R → Option ρ
  /-- What happens when that row is deleted. -/
  onDelete : OnDelete R

namespace ForeignKey

/-- The rows of `fk` that refer to `k`. -/
def refers (fk : ForeignKey R ρ) (k : ρ) (r : R) : Bool := fk.ref r = some k

/-- The action of a foreign key on the deletion of `k`; `none` when a `CHECK` refuses it. -/
def fire (fk : ForeignKey R ρ) (check : R → Bool) (k : ρ) (t : Table R) : Option (Table R) :=
  match fk.onDelete with
  | .cascade => some (t.deleteWhere (fk.refers k))
  | .setNull clear =>
    if t.rows.all fun r => !fk.refers k r || check (clear.set r) then
      some (t.updateWhere (fk.refers k) clear)
    else none

/-- The `CHECK` holds of every row the action of `fk` rewrites. -/
def Clearable (fk : ForeignKey R ρ) (check : R → Bool) (k : ρ) (t : Table R) : Prop :=
  match fk.onDelete with
  | .cascade => True
  | .setNull clear => ∀ r ∈ t.rows, fk.ref r = some k → check (clear.set r)

theorem fire_isSome_iff {fk : ForeignKey R ρ} {check : R → Bool} {k : ρ} {t : Table R} :
    (fk.fire check k t).isSome ↔ fk.Clearable check k t := by
  unfold fire Clearable
  cases fk.onDelete with
  | cascade => simp
  | setNull clear =>
    simp only [Option.isSome_ite, List.all_eq_true, Bool.or_eq_true, Bool.not_eq_true', refers,
      decide_eq_false_iff_not]
    refine forall_congr' fun r => forall_congr' fun _ => ?_
    constructor
    · intro h href
      exact h.resolve_left (not_not_intro href)
    · intro h
      by_cases href : fk.ref r = some k
      · exact .inr (h href)
      · exact .inl href

/-- What an action that goes through leaves. -/
theorem eq_of_fire {fk : ForeignKey R ρ} {check : R → Bool} {k : ρ} {t t' : Table R}
    (h : fk.fire check k t = some t') :
    t' = match fk.onDelete with
      | .cascade => t.deleteWhere (fk.refers k)
      | .setNull clear => t.updateWhere (fk.refers k) clear := by
  unfold fire at h
  cases ho : fk.onDelete with
  | cascade =>
    simp only [ho, Option.some.injEq] at h
    exact h.symm
  | setNull clear =>
    simp only [ho] at h
    split_ifs at h
    exact (Option.some.inj h).symm

/-- A foreign key whose action really clears the reference. -/
def Clears (fk : ForeignKey R ρ) : Prop :=
  match fk.onDelete with
  | .cascade => True
  | .setNull clear => ∀ r, fk.ref (clear.set r) = none

/-- The row a surviving row comes from: itself, or itself with the reference cleared. -/
theorem mem_fire {fk : ForeignKey R ρ} {check : R → Bool} {k : ρ} {t t' : Table R}
    (h : fk.fire check k t = some t') {r' : R} (hr' : r' ∈ t'.rows) :
    ∃ r ∈ t.rows, (r' = r ∧ fk.ref r ≠ some k) ∨
      ∃ clear, fk.onDelete = .setNull clear ∧ fk.ref r = some k ∧ r' = clear.set r := by
  have heq := eq_of_fire h
  cases ho : fk.onDelete with
  | cascade =>
    simp only [ho] at heq
    subst heq
    obtain ⟨hmem, hnot⟩ := List.mem_filter.mp hr'
    exact ⟨r', hmem, .inl ⟨rfl, by simpa [refers] using hnot⟩⟩
  | setNull clear =>
    simp only [ho] at heq
    subst heq
    obtain ⟨r, hr, rfl⟩ := List.mem_map.mp hr'
    refine ⟨r, hr, ?_⟩
    by_cases href : fk.ref r = some k
    · exact .inr ⟨clear, rfl, href, by simp [refers, href]⟩
    · exact .inl ⟨by simp [refers, href], href⟩

theorem unreferenced_fire {fk : ForeignKey R ρ} (hc : fk.Clears) {check : R → Bool} {k : ρ}
    {t t' : Table R} (h : fk.fire check k t = some t') {r' : R} (hr' : r' ∈ t'.rows) :
    fk.ref r' ≠ some k := by
  obtain ⟨r, -, ⟨rfl, hne⟩ | ⟨clear, ho, -, rfl⟩⟩ := mem_fire h hr'
  · exact hne
  · simp only [Clears, ho] at hc
    simp [hc r]

end ForeignKey

/-- The actions of several foreign keys of one table, in the order they were declared. -/
def fireAll (check : R → Bool) (k : ρ) : List (ForeignKey R ρ) → Table R → Option (Table R)
  | [], t => some t
  | fk :: fks, t => (fk.fire check k t).bind (fireAll check k fks)

theorem fireAll_cons_eq_some_iff {check : R → Bool} {k : ρ} {fk : ForeignKey R ρ}
    {fks : List (ForeignKey R ρ)} {t t' : Table R} :
    fireAll check k (fk :: fks) t = some t' ↔
      ∃ t₁, fk.fire check k t = some t₁ ∧ fireAll check k fks t₁ = some t' :=
  Option.bind_eq_some_iff

theorem exists_fireAll_of_unchecked {check : R → Bool} (h : ∀ r, check r) (k : ρ)
    (fks : List (ForeignKey R ρ)) (t : Table R) : ∃ t', fireAll check k fks t = some t' := by
  induction fks generalizing t with
  | nil => exact ⟨t, rfl⟩
  | cons fk fks ih =>
    have hfire : (fk.fire check k t).isSome := by
      rw [ForeignKey.fire_isSome_iff]
      unfold ForeignKey.Clearable
      split
      · trivial
      · exact fun r _ _ => h _
    obtain ⟨t₁, ht₁⟩ := Option.isSome_iff_exists.mp hfire
    obtain ⟨t', ht'⟩ := ih t₁
    exact ⟨t', fireAll_cons_eq_some_iff.mpr ⟨t₁, ht₁, ht'⟩⟩

/-- The update of `fk` clears its own reference and no other way changes those of `fk'`. -/
def ForeignKey.Spares (fk fk' : ForeignKey R ρ) : Prop :=
  ∀ clear, fk.onDelete = .setNull clear → ∀ r,
    fk'.ref (clear.set r) = none ∨ fk'.ref (clear.set r) = fk'.ref r

theorem unreferenced_fireAll {check : R → Bool} {k : ρ} {fk : ForeignKey R ρ}
    {fks : List (ForeignKey R ρ)} (hspares : ∀ fk' ∈ fks, fk'.Spares fk) {t t' : Table R}
    (h : fireAll check k fks t = some t') (hgone : ∀ r ∈ t.rows, fk.ref r ≠ some k) :
    ∀ r ∈ t'.rows, fk.ref r ≠ some k := by
  induction fks generalizing t with
  | nil =>
    obtain rfl := Option.some.inj h
    exact hgone
  | cons fk₁ fks ih =>
    obtain ⟨t₁, ht₁, hrest⟩ := fireAll_cons_eq_some_iff.mp h
    refine ih (fun fk' hfk' => hspares fk' (List.mem_cons_of_mem _ hfk')) hrest ?_
    intro r' hr'
    obtain ⟨r, hr, ⟨rfl, -⟩ | ⟨clear, hclear, -, rfl⟩⟩ := ForeignKey.mem_fire ht₁ hr'
    · exact hgone _ hr
    · rcases hspares fk₁ List.mem_cons_self clear hclear r with hnone | hsame
      · simp [hnone]
      · rw [hsame]
        exact hgone r hr

/-- **After all actions no row refers to the deleted one.** -/
theorem fireAll_unreferenced {check : R → Bool} {k : ρ} {fks : List (ForeignKey R ρ)}
    (hclears : ∀ fk ∈ fks, fk.Clears) (hspares : ∀ fk ∈ fks, ∀ fk' ∈ fks, fk.Spares fk')
    {t t' : Table R} (h : fireAll check k fks t = some t') :
    ∀ fk ∈ fks, ∀ r ∈ t'.rows, fk.ref r ≠ some k := by
  induction fks generalizing t with
  | nil => simp
  | cons fk₁ fks ih =>
    obtain ⟨t₁, ht₁, hrest⟩ := fireAll_cons_eq_some_iff.mp h
    intro fk hfk
    rcases List.mem_cons.mp hfk with rfl | hmem
    · refine unreferenced_fireAll (fun fk' hfk' => ?_) hrest fun r hr =>
        ForeignKey.unreferenced_fire (hclears fk List.mem_cons_self) ht₁ hr
      exact hspares fk' (List.mem_cons_of_mem _ hfk') fk List.mem_cons_self
    · exact ih (fun f hf => hclears f (List.mem_cons_of_mem _ hf))
        (fun f hf f' hf' => hspares f (List.mem_cons_of_mem _ hf) f' (List.mem_cons_of_mem _ hf'))
        hrest fk hmem

/-- **Rows that no cascade reaches survive**, under their key. -/
theorem fireAll_survives {check : R → Bool} {k : ρ} {fks : List (ForeignKey R ρ)}
    (hspares : ∀ fk ∈ fks, ∀ fk' ∈ fks, fk.Spares fk') {t t' : Table R}
    (h : fireAll check k fks t = some t') {r : R} (hr : r ∈ t.rows)
    (hfree : ∀ fk ∈ fks, fk.onDelete = .cascade → fk.ref r ≠ some k) :
    ∃ r' ∈ t'.rows, key r' = key r := by
  induction fks generalizing t r with
  | nil =>
    obtain rfl := Option.some.inj h
    exact ⟨r, hr, rfl⟩
  | cons fk₁ fks ih =>
    obtain ⟨t₁, ht₁, hrest⟩ := fireAll_cons_eq_some_iff.mp h
    have hsp := fun f (hf : f ∈ fks) f' (hf' : f' ∈ fks) =>
      hspares f (List.mem_cons_of_mem _ hf) f' (List.mem_cons_of_mem _ hf')
    have heq := ForeignKey.eq_of_fire ht₁
    cases ho : fk₁.onDelete with
    | cascade =>
      simp only [ho] at heq
      subst heq
      have hkeep : r ∈ (t.deleteWhere (fk₁.refers k)).rows := by
        refine List.mem_filter.mpr ⟨hr, ?_⟩
        simpa [ForeignKey.refers] using hfree fk₁ List.mem_cons_self ho
      exact ih hsp hrest hkeep fun f hf => hfree f (List.mem_cons_of_mem _ hf)
    | setNull clear =>
      simp only [ho] at heq
      subst heq
      -- the row's successor keeps its key and every reference that is not cleared
      have hmem := List.mem_map_of_mem (f := fun r => if fk₁.refers k r then clear.set r else r) hr
      obtain ⟨r', hr', hkey⟩ := ih hsp hrest hmem fun f hf hcasc => by
        have hne := hfree f (List.mem_cons_of_mem _ hf) hcasc
        split_ifs
        · rcases hspares fk₁ List.mem_cons_self f (List.mem_cons_of_mem _ hf) clear ho r with
            hnone | hsame
          · simp [hnone]
          · rw [hsame]
            exact hne
        · exact hne
      refine ⟨r', hr', hkey.trans ?_⟩
      split_ifs <;> simp

end Lib
