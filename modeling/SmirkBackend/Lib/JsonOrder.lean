import Mathlib.Data.List.Sort
import Mathlib.Data.String.Basic
import SmirkBackend.Lib.Json

/-!
# JSON values up to the order of members

A store may keep the members of an object in another order than the document.  A reader that
rebuilds ordered maps gets the value back.

* `KeyOrder.sorted_eq` : values that are equal up to the order of members sort alike.
* `sorted_of_keyOrder` : an ordered value is got back.
* `sorted_eq_iff` : only values that are equal up to the order of members sort alike.
-/

namespace Lib

mutual

/-- The members of every object stand in the order of their names. -/
def Json.Ordered : Json → Prop
  | .arr items => OrderedItems items
  | .obj members => (members.map Prod.fst).Pairwise (· < ·) ∧ OrderedMembers members
  | _ => True

/-- All items are ordered. -/
def OrderedItems : List Json → Prop
  | [] => True
  | j :: rest => Json.Ordered j ∧ OrderedItems rest

/-- The values of all members are ordered. -/
def OrderedMembers : List (String × Json) → Prop
  | [] => True
  | (_, j) :: rest => Json.Ordered j ∧ OrderedMembers rest

end

/-- The members in the order of their names. -/
def sortMembers (members : List (String × Json)) : List (String × Json) :=
  members.insertionSort fun a b => a.1 ≤ b.1

mutual

/-- The value with the members of every object in order. -/
def Json.sorted : Json → Json
  | .arr items => .arr (sortedItems items)
  | .obj members => .obj (sortMembers (sortedMembers members))
  | j => j

/-- The items with all members in order. -/
def sortedItems : List Json → List Json
  | [] => []
  | j :: rest => Json.sorted j :: sortedItems rest

/-- The members with the members of their values in order. -/
def sortedMembers : List (String × Json) → List (String × Json)
  | [] => []
  | (name, j) :: rest => (name, Json.sorted j) :: sortedMembers rest

end

theorem sortedItems_eq_map (items : List Json) : sortedItems items = items.map Json.sorted := by
  induction items with
  | nil => rfl
  | cons j rest ih => rw [sortedItems, ih, List.map_cons]

theorem sortedMembers_eq_map (members : List (String × Json)) :
    sortedMembers members = members.map fun m => (m.1, m.2.sorted) := by
  induction members with
  | nil => rfl
  | cons m rest ih =>
    obtain ⟨name, j⟩ := m
    rw [sortedMembers, ih, List.map_cons]

theorem sortMembers_of_ordered {members : List (String × Json)}
    (h : (members.map Prod.fst).Pairwise (· < ·)) : sortMembers members = members := by
  apply List.Pairwise.insertionSort_eq
  rw [List.pairwise_map] at h
  exact h.imp fun hlt => le_of_lt hlt

mutual

theorem sorted_of_ordered {j : Json} (h : j.Ordered) : j.sorted = j := by
  match j with
  | .null => rfl
  | .bool b => rfl
  | .num n => rfl
  | .str s => rfl
  | .arr items => rw [Json.sorted, sortedItems_of_ordered h]
  | .obj members => rw [Json.sorted, sortedMembers_of_ordered h.2, sortMembers_of_ordered h.1]

theorem sortedItems_of_ordered {items : List Json} (h : OrderedItems items) :
    sortedItems items = items := by
  match items with
  | [] => rfl
  | j :: rest => rw [sortedItems, sorted_of_ordered h.1, sortedItems_of_ordered h.2]

theorem sortedMembers_of_ordered {members : List (String × Json)} (h : OrderedMembers members) :
    sortedMembers members = members := by
  match members with
  | [] => rfl
  | (name, j) :: rest => rw [sortedMembers, sorted_of_ordered h.1, sortedMembers_of_ordered h.2]

end

/-- The values are equal up to the order of the members of objects. -/
inductive KeyOrder : Json → Json → Prop
  | refl (v : Json) : KeyOrder v v
  | trans {u v w : Json} : KeyOrder u v → KeyOrder v w → KeyOrder u w
  /-- The members of an object stand in another order. -/
  | perm {members members' : List (String × Json)} : (members.map Prod.fst).Nodup →
      members.Perm members' → KeyOrder (.obj members) (.obj members')
  /-- Inside an item. -/
  | item {v w : Json} (before after : List Json) : KeyOrder v w →
      KeyOrder (.arr (before ++ v :: after)) (.arr (before ++ w :: after))
  /-- Inside the value of a member. -/
  | member {v w : Json} (before : List (String × Json)) (name : String)
      (after : List (String × Json)) : KeyOrder v w →
      KeyOrder (.obj (before ++ (name, v) :: after)) (.obj (before ++ (name, w) :: after))

theorem sortMembers_eq_of_perm {members members' : List (String × Json)}
    (hnodup : (members.map Prod.fst).Nodup) (hperm : members.Perm members') :
    sortMembers members = sortMembers members' := by
  have hsort : ∀ ms : List (String × Json),
      (sortMembers ms).Pairwise fun a b => a.1 ≤ b.1 := fun ms =>
    List.pairwise_insertionSort (fun a b : String × Json => a.1 ≤ b.1) ms
  have hmem : ∀ a, a ∈ sortMembers members → a ∈ members := fun a =>
    (List.mem_insertionSort _).mp
  have hmem' : ∀ a, a ∈ sortMembers members' → a ∈ members := fun a ha =>
    hperm.mem_iff.mpr ((List.mem_insertionSort _).mp ha)
  refine List.Perm.eq_of_pairwise (fun a b ha hb hab hba => ?_) (hsort members) (hsort members')
    ((List.perm_insertionSort _ _).trans (hperm.trans (List.perm_insertionSort _ _).symm))
  exact List.inj_on_of_nodup_map hnodup (hmem a ha) (hmem' b hb) (le_antisymm hab hba)

/-- Values that are equal up to the order of members sort alike. -/
theorem KeyOrder.sorted_eq {v w : Json} (h : KeyOrder v w) : v.sorted = w.sorted := by
  induction h with
  | refl v => rfl
  | trans _ _ ih₁ ih₂ => exact ih₁.trans ih₂
  | perm hnodup hperm =>
    rw [Json.sorted, Json.sorted, sortedMembers_eq_map, sortedMembers_eq_map]
    refine congrArg Json.obj (sortMembers_eq_of_perm ?_ (hperm.map _))
    simpa [List.map_map, Function.comp_def] using hnodup
  | item before after _ ih =>
    rw [Json.sorted, Json.sorted, sortedItems_eq_map, sortedItems_eq_map, List.map_append,
      List.map_append, List.map_cons, List.map_cons, ih]
  | member before name after _ ih =>
    rw [Json.sorted, Json.sorted, sortedMembers_eq_map, sortedMembers_eq_map, List.map_append,
      List.map_append, List.map_cons, List.map_cons, ih]

/-- An ordered value is got back by sorting. -/
theorem sorted_of_keyOrder {v w : Json} (h : KeyOrder w v) (hv : v.Ordered) : w.sorted = v := by
  rw [h.sorted_eq, sorted_of_ordered hv]

theorem KeyOrder.symm {v w : Json} (h : KeyOrder v w) : KeyOrder w v := by
  induction h with
  | refl v => exact .refl v
  | trans _ _ ih₁ ih₂ => exact .trans ih₂ ih₁
  | perm hnodup hperm => exact .perm ((hperm.map _).nodup_iff.mp hnodup) hperm.symm
  | item before after _ ih => exact .item before after ih
  | member before name after _ ih => exact .member before name after ih

/-! ### Distinct names -/

mutual

/-- No object has two members of one name. -/
def Json.Distinct : Json → Prop
  | .arr items => DistinctItems items
  | .obj members => (members.map Prod.fst).Nodup ∧ DistinctMembers members
  | _ => True

/-- The names in all items are distinct. -/
def DistinctItems : List Json → Prop
  | [] => True
  | j :: rest => Json.Distinct j ∧ DistinctItems rest

/-- The names in the values of all members are distinct. -/
def DistinctMembers : List (String × Json) → Prop
  | [] => True
  | (_, j) :: rest => Json.Distinct j ∧ DistinctMembers rest

end

theorem map_fst_sortedMembers (members : List (String × Json)) :
    (sortedMembers members).map Prod.fst = members.map Prod.fst := by
  rw [sortedMembers_eq_map, List.map_map]
  rfl

mutual

theorem keyOrder_sorted {j : Json} (h : j.Distinct) : KeyOrder j j.sorted := by
  match j with
  | .null => exact .refl _
  | .bool b => exact .refl _
  | .num n => exact .refl _
  | .str s => exact .refl _
  | .arr items => exact keyOrder_sortedItems [] h
  | .obj members =>
    refine (keyOrder_sortedMembers [] h.2).trans (.perm ?_ (List.perm_insertionSort _ _).symm)
    rw [List.nil_append, map_fst_sortedMembers]
    exact h.1

theorem keyOrder_sortedItems (before : List Json) {items : List Json} (h : DistinctItems items) :
    KeyOrder (.arr (before ++ items)) (.arr (before ++ sortedItems items)) := by
  match items with
  | [] => exact .refl _
  | j :: rest =>
    have hrest := keyOrder_sortedItems (before ++ [j.sorted]) h.2
    rw [List.append_assoc, List.append_assoc] at hrest
    exact (KeyOrder.item before rest (keyOrder_sorted h.1)).trans hrest

theorem keyOrder_sortedMembers (before : List (String × Json)) {members : List (String × Json)}
    (h : DistinctMembers members) :
    KeyOrder (.obj (before ++ members)) (.obj (before ++ sortedMembers members)) := by
  match members with
  | [] => exact .refl _
  | (name, j) :: rest =>
    have hrest := keyOrder_sortedMembers (before ++ [(name, j.sorted)]) h.2
    rw [List.append_assoc, List.append_assoc] at hrest
    exact (KeyOrder.member before name rest (keyOrder_sorted h.1)).trans hrest

end

/-- Values sort alike exactly when they are equal up to the order of members. -/
theorem sorted_eq_iff {v w : Json} (hv : v.Distinct) (hw : w.Distinct) :
    v.sorted = w.sorted ↔ KeyOrder v w := by
  refine ⟨fun h => ?_, KeyOrder.sorted_eq⟩
  have hsorted := keyOrder_sorted hv
  rw [h] at hsorted
  exact hsorted.trans (keyOrder_sorted hw).symm

end Lib
