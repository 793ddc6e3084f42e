/-
**Types that arguments bind to.**

A handler may ask for its arguments in a declared form.  A schema is such a form, and a bound value
is what a tree that has the form turns into.  A tree that has not is a mismatch, which says what
was found and what was expected.

Main definitions:

* `HubGateway.Schema` — the forms;
* `HubGateway.Bound` — the bound values, with `HubGateway.Bound.renderJson`, their JSON text;
* `HubGateway.Mismatch` — why a tree does not bind, with `HubGateway.Mismatch.message`.
-/

import HubGateway.Value.Json
import HubGateway.Text.Quoted

set_option relaxedAutoImplicit false
set_option autoImplicit false

namespace HubGateway

/-- The integer types by sign and width. -/
inductive IntegerType where
  | i64
  | u64
  | i32
  | u8
  deriving DecidableEq

namespace IntegerType

/-- The name of an integer type. -/
def label : IntegerType → String
  | .i64 => "i64"
  | .u64 => "u64"
  | .i32 => "i32"
  | .u8 => "u8"

/-- The least integer of a type. -/
def least : IntegerType → Int
  | .i64 => -0x8000000000000000
  | .i32 => -0x80000000
  | .u64 | .u8 => 0

/-- The first integer above those of a type. -/
def bound : IntegerType → Int
  | .i64 => 0x8000000000000000
  | .u64 => 0x10000000000000000
  | .i32 => 0x80000000
  | .u8 => 0x100

end IntegerType

/-- A form that arguments can be asked for in. -/
inductive Schema where
  | string
  | boolean
  | integer (type : IntegerType)
  | double
  | unit
  /-- Null, or the form. -/
  | optional (schema : Schema)
  | list (schema : Schema)
  /-- A map from names to the form. -/
  | map (schema : Schema)
  /-- Any tree. -/
  | json
  /-- Any argument value. -/
  | dynamic
  | tuple (schemas : List Schema)
  /-- Named fields, given by name or in order. -/
  | record (name : String) (fields : List (String × Schema))

namespace Schema

/-- What a form is called where something else was found. -/
def expectation : Schema → String
  | .string => "a string"
  | .boolean => "a boolean"
  | .integer type => type.label
  | .double => "f64"
  | .unit => "unit"
  | .optional schema => schema.expectation
  | .list _ => "a sequence"
  | .map _ => "a map"
  | .json => "any valid JSON value"
  | .dynamic => "any argument value"
  | .tuple schemas => s!"a tuple of size {schemas.length}"
  | .record name _ => s!"struct {name}"

/-- Whether a form admits a missing field. -/
def isOptional : Schema → Bool
  | .optional _ => true
  | _ => false

end Schema

/-! ### Bound values -/

/-- A value of a declared form. -/
inductive Bound where
  | unit
  | boolean (value : Bool)
  | integer (value : Int)
  | double (value : Binary64)
  | string (value : String)
  | absent
  | present (value : Bound)
  | list (items : List Bound)
  | map (entries : List (String × Bound))
  | json (value : Json)
  | dynamic (value : Value)
  | tuple (items : List Bound)
  | record (fields : List (String × Bound))

namespace Bound

mutual

/-- The compact JSON text of a bound value. -/
def renderJson : Bound → List Char
  | .unit => Json.renderNull
  | .boolean value => Json.renderBool value
  | .integer value => Json.renderInt value
  | .double value => Value.renderFloat value
  | .string value => Json.quote value
  | .absent => Json.renderNull
  | .present value => value.renderJson
  | .list items => Json.renderArray (renderJsonItems items)
  | .map entries => Json.renderObject (renderJsonEntries entries)
  | .json value => value.render
  | .dynamic value => value.renderJson
  | .tuple items => Json.renderArray (renderJsonItems items)
  | .record fields => Json.renderObject (renderJsonEntries fields)

/-- The texts of items. -/
def renderJsonItems : List Bound → List (List Char)
  | [] => []
  | item :: items => item.renderJson :: renderJsonItems items

/-- The texts of entries. -/
def renderJsonEntries : List (String × Bound) → List (List Char)
  | [] => []
  | (key, value) :: entries => Json.renderMember key value.renderJson :: renderJsonEntries entries

end

/-- The compact JSON text of a bound value. -/
def text (b : Bound) : String := String.ofList b.renderJson

end Bound

/-! ### Mismatches -/

/-- What was found in place of something else. -/
inductive Found where
  | null
  | boolean (value : Bool)
  | integer (value : Int)
  | double (value : Binary64)
  | string (value : String)
  | sequence
  | map
  deriving DecidableEq

/-- What a tree is when it is not what was expected. -/
def Json.found : Json → Found
  | .null => .null
  | .bool value => .boolean value
  | .number (.integer value _) => .integer value
  | .number (.float value _) => .double value
  | .string value => .string value
  | .array _ => .sequence
  | .object _ => .map

/-- The wording of what was found. -/
def Found.message : Found → String
  | .null => "null"
  | .boolean value => s!"boolean `{value}`"
  | .integer value => s!"integer `{value}`"
  | .double value => s!"floating point `{String.ofList value.render}`"
  | .string value => s!"string {Text.quoted value}"
  | .sequence => "sequence"
  | .map => "map"

/-- Why a tree does not bind. -/
inductive Mismatch where
  /-- Another kind of tree. -/
  | wrongType (found : Found) (expected : String)
  /-- An integer that the type does not hold. -/
  | wrongValue (value : Int) (expected : String)
  /-- Fewer items than the form has. -/
  | tooShort (length : Nat) (expected : String)
  /-- More items than the form has. -/
  | tooLong (length : Nat)
  /-- A field without a value. -/
  | missingField (name : String)
  deriving DecidableEq

/-- The wording of a mismatch. -/
def Mismatch.message : Mismatch → String
  | .wrongType found expected => s!"invalid type: {found.message}, expected {expected}"
  | .wrongValue value expected => s!"invalid value: integer `{value}`, expected {expected}"
  | .tooShort length expected => s!"invalid length {length}, expected {expected}"
  | .tooLong length => s!"invalid length {length}, expected fewer elements in array"
  | .missingField name => s!"missing field `{name}`"

end HubGateway
