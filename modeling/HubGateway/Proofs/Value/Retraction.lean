/-
**From values to trees and back.**

Taking the tree of a value and then the value of the tree gives the projection of the value.  The
projection is its own projection and has the tree of the value, so nothing is lost the second time,
and whatever is bound from the value is bound from its projection.

In the other direction trees lose only integers that 64 signed bits do not hold.  Each of them
becomes the number nearest to it; all other numbers, and what is not a number, stay as they are.

Main definitions:

* `HubGateway.Json.Number.Narrows` — what becomes of a number, said without computing it;
* `HubGateway.Json.narrowed` — a tree in which the numbers alone are narrowed.

Main statements:

* `HubGateway.Value.projected_projected` — **the projection is a projection**;
* `HubGateway.Value.toJson_ofJson` — the tree of the value of a tree;
* `HubGateway.Json.Number.narrows_narrowed` — wide integers are rounded to nearest.
-/

import HubGateway.Binding.Bind
import HubGateway.Proofs.Binary64.Nearest
import HubGateway.Proofs.Value.Json

set_option relaxedAutoImplicit false
set_option autoImplicit false

namespace HubGateway

namespace Json

/-! ### Narrowed trees -/

namespace Number

/-- An integer that 64 signed bits hold stays, a wider one becomes the number nearest to it, and a
float stays. -/
inductive Narrows : Number → Number → Prop
  | integer {i : Int} {inRange : -0x8000000000000000 ≤ i ∧ i < 0x10000000000000000}
      (h : i < 0x8000000000000000) : Narrows (.integer i inRange) (.integer i inRange)
  | wide {i : Int} {inRange : -0x8000000000000000 ≤ i ∧ i < 0x10000000000000000} {x : Binary64}
      (h : 0x8000000000000000 ≤ i) (nearest : x.IsNearest i) :
      Narrows (.integer i inRange) (.float x nearest.finite)
  | float {x : Binary64} {finite : x.isFinite = true} : Narrows (.float x finite) (.float x finite)

theorem isNearest_ofInt {i : Int} (hlow : 0x8000000000000000 ≤ i)
    (hhigh : i < 0x10000000000000000) : (Binary64.ofInt i).IsNearest i := by
  obtain ⟨n, rfl⟩ := Int.eq_ofNat_of_zero_le (Int.le_trans (by decide) hlow)
  have hpos : 0 < n := by omega
  have hbound : n < 2 ^ 64 := by omega
  rw [Binary64.ofInt_of_nonneg (Int.natCast_nonneg n), Int.toNat_natCast]
  exact Binary64.isNearest_ofNat hpos (by decide) hbound

/-- A number in which an integer that 64 signed bits do not hold is rounded. -/
def narrowed : Number → Number
  | .integer i inRange =>
    if h : i < 0x8000000000000000 then .integer i inRange
    else .float (Binary64.ofInt i) (isNearest_ofInt (Int.not_lt.1 h) inRange.2).finite
  | .float x finite => .float x finite

/-- **Only integers that 64 signed bits do not hold are rounded, and to nearest.** -/
theorem narrows_narrowed (n : Number) : n.Narrows n.narrowed := by
  cases n with
  | integer i inRange =>
      rw [narrowed]
      split
      next h => exact .integer h
      next h => exact .wide (Int.not_lt.1 h) (isNearest_ofInt (Int.not_lt.1 h) inRange.2)
  | float x finite => exact .float

end Number

mutual

/-- A tree in which every number is narrowed, and nothing else is changed. -/
def narrowed : Json → Json
  | .null => .null
  | .bool value => .bool value
  | .number value => .number value.narrowed
  | .string value => .string value
  | .array items => .array (narrowedItems items)
  | .object members => .object (narrowedMembers members)

/-- The items of an array with narrowed numbers. -/
def narrowedItems : List Json → List Json
  | [] => []
  | item :: items => item.narrowed :: narrowedItems items

/-- The members of an object with narrowed numbers. -/
def narrowedMembers : List (String × Json) → List (String × Json)
  | [] => []
  | (name, value) :: members => (name, value.narrowed) :: narrowedMembers members

end

end Json

namespace Value

/-! ### The projection -/

/-- **The projection is a projection.** -/
theorem projected_projected (v : Value) : v.projected.projected = v.projected := by
  rw [← ofJson_toJson v.projected, toJson_projected, ofJson_toJson]

/-- What is bound from a value is bound from its projection. -/
theorem bindTo_projected (schema : Schema) (v : Value) :
    v.projected.bindTo schema = v.bindTo schema := by
  rw [bindTo, toJson_projected, bindTo]

/-! ### The tree of the value of a tree -/

/-- The tree of the value of a number is the narrowed number. -/
theorem toJson_ofNumber (n : Json.Number) : (ofNumber n).toJson = .number n.narrowed := by
  cases n with
  | float x finite => exact dif_pos finite
  | integer i inRange =>
      rw [ofNumber, ofInt, Json.Number.narrowed]
      split
      next h =>
        have hi : (Int64.ofInt i).toInt = i := Int64.toInt_ofInt_of_le inRange.1 h
        rw [toJson, Json.ofInt64]
        simp only [hi]
      next h => exact dif_pos _

mutual

/-- **The tree of the value of a tree is the narrowed tree.** -/
theorem toJson_ofJson (j : Json) : (ofJson j).toJson = j.narrowed := by
  match j with
  | .null | .bool _ | .string _ => rfl
  | .number n => exact toJson_ofNumber n
  | .array items => exact congrArg Json.array (toJsonItems_ofJsonItems items)
  | .object members => exact congrArg Json.object (toJsonEntries_ofJsonMembers members)

theorem toJsonItems_ofJsonItems (items : List Json) :
    toJsonItems (ofJsonItems items) = Json.narrowedItems items := by
  match items with
  | [] => rfl
  | item :: items =>
      rw [ofJsonItems, toJsonItems, toJson_ofJson item, toJsonItems_ofJsonItems items,
        Json.narrowedItems]

theorem toJsonEntries_ofJsonMembers (members : List (String × Json)) :
    toJsonEntries (ofJsonMembers members) = Json.narrowedMembers members := by
  match members with
  | [] => rfl
  | (name, value) :: members =>
      rw [ofJsonMembers, toJsonEntries, toJson_ofJson value, toJsonEntries_ofJsonMembers members,
        Json.narrowedMembers]

end

/-- **Values and trees lose, in each direction, only what the other has no form for**: blobs and
numbers that are not finite become texts and null, once and for all and unseen by what is bound;
integers that 64 signed bits do not hold become the numbers nearest to them. -/
theorem json_retraction :
    (∀ v : Value, ofJson v.toJson = v.projected ∧ v.projected.projected = v.projected ∧
        (ofJson v.toJson).toJson = v.toJson ∧
        ∀ schema, (ofJson v.toJson).bindTo schema = v.bindTo schema) ∧
      (∀ j : Json, (ofJson j).toJson = j.narrowed) ∧
      ∀ n : Json.Number, n.Narrows n.narrowed := by
  refine ⟨fun v => ?_, toJson_ofJson, Json.Number.narrows_narrowed⟩
  rw [ofJson_toJson]
  exact ⟨rfl, projected_projected v, toJson_projected v, fun schema => bindTo_projected schema v⟩

/-- `2 ^ 63 + 1` lies between `2 ^ 63` and `2 ^ 63 + 2048`. -/
example : (Json.Number.integer 0x8000000000000001 (by decide)).narrowed =
    .float ⟨0x43E0000000000000⟩ (by decide) := by decide

end Value

end HubGateway
