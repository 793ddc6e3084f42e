/-
**Argument values.**

The arguments of an invocation have no declared type on the wire.  A value is one decoded
argument: a scalar, a blob, a sequence, or a map whose keys are in ascending order.

Main definitions:

* `HubGateway.Value` — the values;
* `HubGateway.Value.sameAs` — equality in which numbers are compared as numbers;
* `HubGateway.Value.depth`, `HubGateway.Value.weight` — nesting and size;
* `HubGateway.Value.Ordered` — all keys, at every level, are in ascending order.
-/

import HubGateway.Entries
import HubGateway.Binary64.Basic
import HubGateway.Text.Utf8

set_option relaxedAutoImplicit false
set_option autoImplicit false

namespace HubGateway

/-- A decoded argument. -/
inductive Value where
  | null
  | bool (value : Bool)
  | integer (value : Int64)
  | float (value : Binary64)
  | string (value : String)
  | bytes (value : List UInt8)
  | array (items : List Value)
  | map (entries : List (String × Value))

namespace Value

/-- Whether a value is null. -/
def isNull : Value → Bool
  | .null => true
  | _ => false

/-- The text of a string. -/
def asString? : Value → Option String
  | .string value => some value
  | _ => none

/-- The integer of an integer. -/
def asInteger? : Value → Option Int64
  | .integer value => some value
  | _ => none

/-! ### Comparison -/

mutual

/-- Whether two values are equal, where floats are compared as numbers. -/
def sameAs : Value → Value → Bool
  | .null, .null => true
  | .bool a, .bool b => a == b
  | .integer a, .integer b => a == b
  | .float a, .float b => a.sameNumber b
  | .string a, .string b => a == b
  | .bytes a, .bytes b => a == b
  | .array as, .array bs => sameItems as bs
  | .map as, .map bs => sameEntries as bs
  | _, _ => false

/-- Whether two sequences agree item by item. -/
def sameItems : List Value → List Value → Bool
  | [], [] => true
  | a :: as, b :: bs => a.sameAs b && sameItems as bs
  | _, _ => false

/-- Whether two maps agree entry by entry. -/
def sameEntries : List (String × Value) → List (String × Value) → Bool
  | [], [] => true
  | (j, a) :: as, (k, b) :: bs => j == k && a.sameAs b && sameEntries as bs
  | _, _ => false

end

/-! ### Measures -/

mutual

/-- How many containers are nested in a value. -/
def depth : Value → Nat
  | .array items => depthItems items + 1
  | .map entries => depthEntries entries + 1
  | _ => 0

/-- The greatest depth of the items of a sequence. -/
def depthItems : List Value → Nat
  | [] => 0
  | item :: items => max item.depth (depthItems items)

/-- The greatest depth of the entries of a map. -/
def depthEntries : List (String × Value) → Nat
  | [] => 0
  | (_, value) :: entries => max value.depth (depthEntries entries)

end

mutual

/-- The size of a value: one for itself, its text or blob byte by byte, its items, and for each
entry one more than its key and its value. -/
def weight : Value → Nat
  | .string value => 1 + (Utf8.encode value).length
  | .bytes value => 1 + value.length
  | .array items => 1 + weightItems items
  | .map entries => 1 + weightEntries entries
  | _ => 1

/-- The weight of the items of a sequence. -/
def weightItems : List Value → Nat
  | [] => 0
  | item :: items => item.weight + weightItems items

/-- The weight of the entries of a map. -/
def weightEntries : List (String × Value) → Nat
  | [] => 0
  | (key, value) :: entries =>
    1 + (Utf8.encode key).length + value.weight + weightEntries entries

end

mutual

/-- All keys, at every level, are in ascending order. -/
def Ordered : Value → Prop
  | .array items => OrderedItems items
  | .map entries => Entries.Sorted entries ∧ OrderedEntries entries
  | _ => True

/-- All items of a sequence are ordered. -/
def OrderedItems : List Value → Prop
  | [] => True
  | item :: items => item.Ordered ∧ OrderedItems items

/-- The values of all entries of a map are ordered. -/
def OrderedEntries : List (String × Value) → Prop
  | [] => True
  | (_, value) :: entries => value.Ordered ∧ OrderedEntries entries

end

end Value

end HubGateway
