/-
**What both wire formats can carry.**

A datum is an argument as its sender means it, before any format is chosen.  Its integers are those
that both formats can write, from `-2 ^ 63` to `2 ^ 64 - 1`; its numbers are finite, since JSON has
no others; and the pairs of its maps stand as they are sent, a key possibly repeated.  Blobs, which
only one of the formats has, are left out.

The value of a datum is what a receiver should keep of it, whatever the format.

Main definitions:

* `HubGateway.Datum` — what both formats can carry;
* `HubGateway.Datum.value` — the value of a datum;
* `HubGateway.Datum.IsSigned` — all its integers are those of 64 signed bits.

Main statements:

* `HubGateway.Datum.depthPairs_of_rearranged` — the order of the pairs does not matter for depth;
* `HubGateway.Datum.isSignedPairs_of_rearranged` — neither does it for the integers.
-/

import HubGateway.Proofs.Entries
import HubGateway.Value.Json

set_option relaxedAutoImplicit false
set_option autoImplicit false

namespace HubGateway

/-- The integers of 64 bits, with a sign or without. -/
def IsWide (i : Int) : Prop := -0x8000000000000000 ≤ i ∧ i < 0x10000000000000000

instance (i : Int) : Decidable (IsWide i) :=
  inferInstanceAs (Decidable (-0x8000000000000000 ≤ i ∧ i < 0x10000000000000000))

/-- An argument as its sender means it. -/
inductive Datum where
  | null
  | bool (value : Bool)
  | integer (value : Int) (wide : IsWide value)
  | float (value : Binary64) (finite : value.isFinite = true)
  | string (value : String)
  | list (items : List Datum)
  | map (pairs : List (String × Datum))

namespace Datum

mutual

/-- The value of a datum; of the pairs of a key the last counts. -/
def value : Datum → Value
  | .null => .null
  | .bool value => .bool value
  | .integer value _ => .ofInt value
  | .float value _ => .float value
  | .string value => .string value
  | .list items => .array (valueItems items)
  | .map pairs => .map (Entries.ofList (valuePairs pairs))

/-- The values of the items of a list. -/
def valueItems : List Datum → List Value
  | [] => []
  | item :: items => item.value :: valueItems items

/-- The values of the pairs of a map. -/
def valuePairs : List (String × Datum) → List (String × Value)
  | [] => []
  | (key, item) :: pairs => (key, item.value) :: valuePairs pairs

end

mutual

/-- How many containers are nested in a datum. -/
def depth : Datum → Nat
  | .list items => depthItems items + 1
  | .map pairs => depthPairs pairs + 1
  | _ => 0

/-- The greatest depth of the items of a list. -/
def depthItems : List Datum → Nat
  | [] => 0
  | item :: items => max item.depth (depthItems items)

/-- The greatest depth of the pairs of a map. -/
def depthPairs : List (String × Datum) → Nat
  | [] => 0
  | (_, item) :: pairs => max item.depth (depthPairs pairs)

end

mutual

/-- All integers of a datum are those of 64 signed bits. -/
def IsSigned : Datum → Prop
  | .integer value _ => value < 0x8000000000000000
  | .list items => IsSignedItems items
  | .map pairs => IsSignedPairs pairs
  | _ => True

/-- All integers of the items of a list are those of 64 signed bits. -/
def IsSignedItems : List Datum → Prop
  | [] => True
  | item :: items => item.IsSigned ∧ IsSignedItems items

/-- All integers of the pairs of a map are those of 64 signed bits. -/
def IsSignedPairs : List (String × Datum) → Prop
  | [] => True
  | (_, item) :: pairs => item.IsSigned ∧ IsSignedPairs pairs

end

/-! ### Lists and pairs -/

theorem length_valueItems (items : List Datum) : (valueItems items).length = items.length := by
  induction items with
  | nil => rfl
  | cons item items ih => rw [valueItems, List.length_cons, ih, List.length_cons]

theorem valuePairs_eq (pairs : List (String × Datum)) :
    valuePairs pairs = Entries.mapValues value pairs := by
  induction pairs with
  | nil => rfl
  | cons pair pairs ih =>
      rw [valuePairs, ih]
      rfl

theorem length_valuePairs (pairs : List (String × Datum)) :
    (valuePairs pairs).length = pairs.length := by
  rw [valuePairs_eq, Entries.mapValues, List.length_map]

theorem depthItems_le_iff {items : List Datum} {n : Nat} :
    depthItems items ≤ n ↔ ∀ item ∈ items, item.depth ≤ n := by
  induction items with
  | nil => simp [depthItems]
  | cons item items ih => rw [depthItems, Nat.max_le, ih, List.forall_mem_cons]

theorem depthPairs_le_iff {pairs : List (String × Datum)} {n : Nat} :
    depthPairs pairs ≤ n ↔ ∀ pair ∈ pairs, pair.2.depth ≤ n := by
  induction pairs with
  | nil => simp [depthPairs]
  | cons pair pairs ih => rw [depthPairs, Nat.max_le, ih, List.forall_mem_cons]

theorem isSignedItems_iff {items : List Datum} :
    IsSignedItems items ↔ ∀ item ∈ items, item.IsSigned := by
  induction items with
  | nil => simp [IsSignedItems]
  | cons item items ih => rw [IsSignedItems, ih, List.forall_mem_cons]

theorem isSignedPairs_iff {pairs : List (String × Datum)} :
    IsSignedPairs pairs ↔ ∀ pair ∈ pairs, pair.2.IsSigned := by
  induction pairs with
  | nil => simp [IsSignedPairs]
  | cons pair pairs ih => rw [IsSignedPairs, ih, List.forall_mem_cons]

/-! ### Rearranged pairs -/

section Rearranging

variable {pairs pairs' : List (String × Datum)}

theorem ofList_valuePairs_of_rearranged (h : Entries.Rearranged pairs pairs') :
    Entries.ofList (valuePairs pairs) = Entries.ofList (valuePairs pairs') := by
  rw [valuePairs_eq, valuePairs_eq, Entries.ofList_of_rearranged (h.mapValues value)]

/-- The order of the pairs does not matter for the depth. -/
theorem depthPairs_of_rearranged (h : Entries.Rearranged pairs pairs') :
    depthPairs pairs = depthPairs pairs' :=
  Nat.le_antisymm
    (depthPairs_le_iff.2 fun _ hp => depthPairs_le_iff.1 (Nat.le_refl _) _ (h.symm.mem hp))
    (depthPairs_le_iff.2 fun _ hp => depthPairs_le_iff.1 (Nat.le_refl _) _ (h.mem hp))

/-- The order of the pairs does not matter for the integers. -/
theorem isSignedPairs_of_rearranged (h : Entries.Rearranged pairs pairs') :
    IsSignedPairs pairs ↔ IsSignedPairs pairs' := by
  rw [isSignedPairs_iff, isSignedPairs_iff]
  exact ⟨fun hpairs p hp => hpairs p (h.mem hp), fun hpairs p hp => hpairs p (h.symm.mem hp)⟩

end Rearranging

end Datum

end HubGateway
