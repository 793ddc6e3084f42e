/-
**Binding trees to declared forms.**

Binding goes through the JSON form of a value, so that a blob binds as its Base64 text.  Integers
bind to every integer type that holds them and to double precision; floats bind to no integer
type.  The items of a tuple are bound in order, and only then is it checked that none is left
over.  A record binds from an object, whose other members are ignored, or from an array in the
order of its fields.

Main definitions:

* `HubGateway.Schema.bind` — binds a tree;
* `HubGateway.Value.bindTo` — binds a value.
-/

import HubGateway.Binding.Schema

set_option relaxedAutoImplicit false
set_option autoImplicit false

namespace HubGateway.Schema

/-- A tree that is not of the form at all. -/
def reject (s : Schema) (j : Json) : Except Mismatch Bound :=
  .error (.wrongType j.found s.expectation)

/-- Binds an integer type. -/
def bindInteger (type : IntegerType) : Json → Except Mismatch Bound
  | .number (.integer value _) =>
    if type.least ≤ value ∧ value < type.bound then .ok (.integer value)
    else .error (.wrongValue value type.label)
  | j => reject (.integer type) j

/-- Binds every item of an array. -/
def bindItems (bind : Json → Except Mismatch Bound) : List Json → Except Mismatch (List Bound)
  | [] => .ok []
  | item :: items => do
    let value ← bind item
    let values ← bindItems bind items
    return value :: values

/-- Binds every member of an object. -/
def bindMembers (bind : Json → Except Mismatch Bound) :
    List (String × Json) → Except Mismatch (List (String × Bound))
  | [] => .ok []
  | (name, item) :: members => do
    let value ← bind item
    let values ← bindMembers bind members
    return (name, value) :: values

/-- The first mismatch among the members of an object that are fields, in the order of the
members. -/
def firstMismatch (attempts : List (String × Option (Except Mismatch Bound)))
    (members : List (String × Json)) : Option Mismatch :=
  members.findSome? fun (name, _) =>
    match attempts.lookup name with
    | some (some (.error mismatch)) => some mismatch
    | _ => none

/-- The fields of a record from what binding each of them gave, in order. -/
def gatherFields :
    List (String × Schema) → List (String × Option (Except Mismatch Bound)) →
      Except Mismatch (List (String × Bound))
  | (name, schema) :: fields, (_, attempt) :: attempts => do
    let value ← match attempt with
      | some result => result
      | none => if schema.isOptional then .ok .absent else .error (.missingField name)
    let values ← gatherFields fields attempts
    return (name, value) :: values
  | _, _ => .ok []

mutual

/-- Binds a tree to a form. -/
def bind : Schema → Json → Except Mismatch Bound
  | .string, j =>
    match j with
    | .string value => .ok (.string value)
    | j => reject .string j
  | .boolean, j =>
    match j with
    | .bool value => .ok (.boolean value)
    | j => reject .boolean j
  | .integer type, j => bindInteger type j
  | .double, j =>
    match j with
    | .number value => .ok (.double value.toBinary64)
    | j => reject .double j
  | .unit, j =>
    match j with
    | .null => .ok .unit
    | j => reject .unit j
  | .optional schema, j =>
    match j with
    | .null => .ok .absent
    | j => (bind schema j).map .present
  | .list schema, j =>
    match j with
    | .array items => (bindItems (bind schema) items).map .list
    | j => reject (.list schema) j
  | .map schema, j =>
    match j with
    | .object members => (bindMembers (bind schema) members).map .map
    | j => reject (.map schema) j
  | .json, j => .ok (.json j)
  | .dynamic, j => .ok (.dynamic (Value.ofJson j))
  | .tuple schemas, j =>
    match j with
    | .array items =>
      (bindTuple (Schema.tuple schemas).expectation items.length 0 schemas items).map .tuple
    | j => reject (.tuple schemas) j
  | .record name fields, j =>
    match j with
    | .array items =>
      (bindInOrder s!"struct {name} with {fields.length} elements" items.length 0 fields items).map
        .record
    | .object members =>
      let attempts := attemptFields members fields
      match firstMismatch attempts members with
      | some mismatch => .error mismatch
      | none => (gatherFields fields attempts).map .record
    | j => reject (.record name fields) j

/-- Binds the items from index `index` on of an array of `length` items to as many forms. -/
def bindTuple (expected : String) (length : Nat) :
    Nat → List Schema → List Json → Except Mismatch (List Bound)
  | _, [], [] => .ok []
  | _, [], _ :: _ => .error (.tooLong length)
  | index, _ :: _, [] => .error (.tooShort index expected)
  | index, schema :: schemas, item :: items => do
    let value ← bind schema item
    let values ← bindTuple expected length (index + 1) schemas items
    return value :: values

/-- Binds the items from index `index` on of an array of `length` items to as many fields. -/
def bindInOrder (expected : String) (length : Nat) :
    Nat → List (String × Schema) → List Json → Except Mismatch (List (String × Bound))
  | _, [], [] => .ok []
  | _, [], _ :: _ => .error (.tooLong length)
  | index, _ :: _, [] => .error (.tooShort index expected)
  | index, (name, schema) :: fields, item :: items => do
    let value ← bind schema item
    let values ← bindInOrder expected length (index + 1) fields items
    return (name, value) :: values

/-- Binds each field to the member of its name, where there is one. -/
def attemptFields (members : List (String × Json)) :
    List (String × Schema) → List (String × Option (Except Mismatch Bound))
  | [] => []
  | (name, schema) :: fields =>
    (name, (members.lookup name).map fun j => bind schema j) :: attemptFields members fields

end

end HubGateway.Schema

namespace HubGateway.Value

/-- Binds a value to a form. -/
def bindTo (schema : Schema) (v : Value) : Except Mismatch Bound := schema.bind v.toJson

end HubGateway.Value
