/-
**A tree that is handed over part by part is read as its value.**

A tree and the value of a tree sort numbers by size, and what is handed over comes by kind; still a
number becomes the same value.  The entries of a map are put in order as they come.  Those of a tree
that was read from a text are in order already, and so nothing is lost or moved.

Main statements:

* `HubGateway.Value.value_visitNumber` — a number has one value, by kind and by size;
* `HubGateway.Value.readTree_of_ordered` — **a tree is read as its value**, if the value is ordered;
* `HubGateway.Value.ordered_projected`, `readTreeItems_toJsonItems` — so are the trees of values.
-/

import HubGateway.Proofs.Binary64.Rounding
import HubGateway.Proofs.Value.Json

set_option relaxedAutoImplicit false
set_option autoImplicit false

namespace HubGateway.Value

/-! ### Numbers -/

/-- An unsigned integer is the integer that it is as a number. -/
theorem value_unsigned {i : Int} (hlow : 0 ≤ i) (hhigh : i < 0x10000000000000000) :
    (Visit.unsigned (UInt64.ofNat i.toNat)).value = ofInt i := by
  obtain ⟨n, rfl⟩ := Int.eq_ofNat_of_zero_le hlow
  have hn : n < 2 ^ 64 := by omega
  rw [Visit.value, ofInt, Int.toNat_natCast, UInt64.toNat_ofNat_of_lt' hn]
  by_cases h : n < 0x8000000000000000
  · rw [if_pos h, if_pos (by omega), UInt64.toInt64_ofNat', Int64.ofInt_eq_ofNat]
  · rw [if_neg h, if_neg (by omega), Binary64.ofInt_of_nonneg hlow, Int.toNat_natCast]

/-- **A number has one value**, whether it is looked at by kind or by size. -/
theorem value_visitNumber (n : Json.Number) : (visitNumber n).value = ofNumber n := by
  cases n with
  | float x finite => rfl
  | integer i inRange =>
      rw [visitNumber, ofNumber]
      split
      next hneg => rw [Visit.value, ofInt, if_pos (by omega)]
      next hpos => exact value_unsigned (Int.not_lt.1 hpos) inRange.2

/-! ### Trees -/

mutual

/-- **A tree that is handed over part by part is read as its value**, if the value is ordered. -/
theorem readTree_of_ordered (j : Json) (h : (ofJson j).Ordered) : readTree j = ofJson j := by
  match j with
  | .null | .bool _ | .string _ => rfl
  | .number n => exact value_visitNumber n
  | .array items => exact congrArg Value.array (readTreeItems_of_ordered items h)
  | .object members =>
      rw [readTree, Visit.value, readTreeMembers_of_ordered members h.2, ofJson,
        Entries.ofList_of_sorted h.1]

theorem readTreeItems_of_ordered (items : List Json) (h : OrderedItems (ofJsonItems items)) :
    readTreeItems items = ofJsonItems items := by
  match items with
  | [] => rfl
  | item :: items =>
      rw [readTreeItems, ofJsonItems, readTree_of_ordered item h.1,
        readTreeItems_of_ordered items h.2]

theorem readTreeMembers_of_ordered (members : List (String × Json))
    (h : OrderedEntries (ofJsonMembers members)) :
    readTreeMembers members = ofJsonMembers members := by
  match members with
  | [] => rfl
  | (name, value) :: members =>
      rw [readTreeMembers, ofJsonMembers, readTree_of_ordered value h.1,
        readTreeMembers_of_ordered members h.2]

end

/-! ### Trees of values -/

theorem keys_projectedEntries (entries : List (String × Value)) :
    (projectedEntries entries).map Prod.fst = entries.map Prod.fst := by
  induction entries with
  | nil => rfl
  | cons entry entries ih => rw [projectedEntries, List.map_cons, List.map_cons, ih]

mutual

/-- The projection keeps the keys, and with them their order. -/
theorem ordered_projected (v : Value) (h : v.Ordered) : v.projected.Ordered := by
  match v with
  | .null | .bool _ | .integer _ | .string _ | .bytes _ => trivial
  | .float x =>
      rw [projected]
      split <;> trivial
  | .array items => exact orderedItems_projectedItems items h
  | .map entries =>
      have hkeys : (entries.map Prod.fst).Pairwise Entries.Before := List.pairwise_map.2 h.1
      rw [← keys_projectedEntries] at hkeys
      exact ⟨List.pairwise_map.1 hkeys, orderedEntries_projectedEntries entries h.2⟩

theorem orderedItems_projectedItems (items : List Value) (h : OrderedItems items) :
    OrderedItems (projectedItems items) := by
  match items with
  | [] => trivial
  | item :: items => exact ⟨ordered_projected item h.1, orderedItems_projectedItems items h.2⟩

theorem orderedEntries_projectedEntries (entries : List (String × Value))
    (h : OrderedEntries entries) : OrderedEntries (projectedEntries entries) := by
  match entries with
  | [] => trivial
  | (_, value) :: entries =>
      exact ⟨ordered_projected value h.1, orderedEntries_projectedEntries entries h.2⟩

end

/-- The trees of ordered values are read as their projections. -/
theorem readTreeItems_toJsonItems {items : List Value} (h : OrderedItems items) :
    readTreeItems (toJsonItems items) = projectedItems items := by
  have hordered := orderedItems_projectedItems items h
  rw [← ofJsonItems_toJsonItems] at hordered ⊢
  exact readTreeItems_of_ordered _ hordered

end HubGateway.Value
