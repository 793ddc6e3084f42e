/-
**JSON trees.**

A tree has the six forms of a JSON document.  A number is an integer that 64 bits can hold, signed
or unsigned, or a finite double-precision number; both facts are part of the number.  The members
of an object are sorted by name, each name once.

Main definitions:

* `HubGateway.Json.Number` — the numbers of a tree;
* `HubGateway.Json` — the trees.
-/

import HubGateway.Binary64.Basic

set_option relaxedAutoImplicit false
set_option autoImplicit false

namespace HubGateway

/-- A number of a JSON tree. -/
inductive Json.Number where
  /-- An integer from `-2 ^ 63` to `2 ^ 64 - 1`. -/
  | integer (value : Int)
      (inRange : -0x8000000000000000 ≤ value ∧ value < 0x10000000000000000)
  /-- A finite double-precision number. -/
  | float (value : Binary64) (finite : value.isFinite = true)
  deriving DecidableEq

/-- A JSON tree. -/
inductive Json where
  | null
  | bool (value : Bool)
  | number (value : Json.Number)
  | string (value : String)
  | array (items : List Json)
  | object (members : List (String × Json))

namespace Json

/-- The number nearest to a number of a tree. -/
def Number.toBinary64 : Number → Binary64
  | .integer value _ => Binary64.ofInt value
  | .float value _ => value

/-- A double-precision number as a tree; what is not finite has no number and is null. -/
def ofBinary64 (x : Binary64) : Json :=
  if finite : x.isFinite = true then .number (.float x finite) else .null

/-- A 64-bit signed integer as a tree. -/
def ofInt64 (i : Int64) : Json :=
  .number (.integer i.toInt
    ⟨i.le_toInt, Int.lt_trans i.toInt_lt (by decide)⟩)

end Json

end HubGateway
