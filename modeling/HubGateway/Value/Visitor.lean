/-
**What a reader hands over becomes a value.**

The text of a document, a tree and binary data are read by different readers, but all of them hand
over what they meet in the same few kinds, and what becomes of each kind is said here once.

A number is handed over as it is kept, so that an unsigned integer may be one that no signed 64-bit
integer equals; it is rounded.  The entries of a map are handed over in the order in which they
stand, and of entries with one key the last counts.

Main definitions:

* `HubGateway.Value.Visit` — what a reader hands over;
* `HubGateway.Value.Visit.value` — the value that it becomes.
-/

import HubGateway.Value.Basic

set_option relaxedAutoImplicit false
set_option autoImplicit false

namespace HubGateway.Value

/-- What a reader hands over; the parts of a container are values already. -/
inductive Visit where
  | nothing
  | boolean (value : Bool)
  | signed (value : Int64)
  | unsigned (value : UInt64)
  | double (value : Binary64)
  | text (value : String)
  | blob (value : List UInt8)
  | items (values : List Value)
  | entries (pairs : List (String × Value))

/-- The value of what is handed over. -/
def Visit.value : Visit → Value
  | .nothing => .null
  | .boolean value => .bool value
  | .signed value => .integer value
  | .unsigned value =>
    if value.toNat < 0x8000000000000000 then .integer value.toInt64
    else .float (Binary64.ofNat value.toNat)
  | .double value => .float value
  | .text value => .string value
  | .blob value => .bytes value
  | .items values => .array values
  | .entries pairs => .map (Entries.ofList pairs)

end HubGateway.Value
