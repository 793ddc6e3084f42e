/-
**Reading MessagePack values into argument values.**

A value is read recursively, with a limit on how many containers may be nested.  The limit is
checked before a container's header is read, so that a container that is nested too deep is left
unread.  Extensions have no argument form and read as null; of equal keys the last counts.

Errors say where in the value they arose, as a path from its root.

Main definitions:

* `HubGateway.MessagePack.Limits` — the nesting limit;
* `HubGateway.MessagePack.readValue` — one value;
* `HubGateway.MessagePack.Call` — the reads that can be made at a cursor, and what they give.
-/

import HubGateway.MessagePack.Cursor
import HubGateway.Value.Basic

set_option relaxedAutoImplicit false
set_option autoImplicit false

namespace HubGateway.MessagePack

/-- How many containers may be nested when nothing else is asked for. -/
def defaultMaxDepth : Nat := 64

/-- What decoding untrusted bytes is limited to. -/
structure Limits where
  maxDepth : Nat := defaultMaxDepth
  deriving DecidableEq

/-! ### Containers -/

/-- `count` items read by `item`, the first with index `index`, in front of which `acc` was read
(last item first). -/
def readItems (item : List UInt8 → Outcome Failure Value) :
    Nat → Nat → List Value → List UInt8 → Outcome Failure Value
  | 0, _, acc, bytes => (.ok (.array acc.reverse), bytes)
  | count + 1, index, acc, bytes =>
    match item bytes with
    | (.error failure, rest) => (.error (failure.under (.item index)), rest)
    | (.ok value, rest) => readItems item count (index + 1) (value :: acc) rest

/-- `count` entries with values read by `item`, the first with index `index`, added to `entries`. -/
def readEntries (item : List UInt8 → Outcome Failure Value) :
    Nat → Nat → List (String × Value) → List UInt8 → Outcome Failure Value
  | 0, _, entries, bytes => (.ok (.map entries), bytes)
  | count + 1, index, entries, bytes =>
    match readString bytes with
    | (.error cause, rest) => (.error ⟨[.keyOf index], cause⟩, rest)
    | (.ok key, rest) =>
      match item rest with
      | (.error failure, rest) => (.error (failure.under (.key key)), rest)
      | (.ok value, rest) =>
        readEntries item count (index + 1) (Entries.insert key value entries) rest

/-- An array whose items are read by `item`. -/
def readArrayOf (item : List UInt8 → Outcome Failure Value) (bytes : List UInt8) :
    Outcome Failure Value :=
  match readArrayHeader bytes with
  | (.error cause, rest) => (.error (.here cause), rest)
  | (.ok count, rest) => readItems item count 0 [] rest

/-- A map whose values are read by `item`. -/
def readMapOf (item : List UInt8 → Outcome Failure Value) (bytes : List UInt8) :
    Outcome Failure Value :=
  match readMapHeader bytes with
  | (.error cause, rest) => (.error (.here cause), rest)
  | (.ok count, rest) => readEntries item count 0 [] rest

/-! ### Values -/

/-- The kinds of values that a first byte can begin. -/
inductive Shape where
  | nil
  | boolean
  | integer
  | float
  | string
  | blob
  | extension
  | array
  | map
  | reserved
  deriving DecidableEq

/-- The kind of value that a marker begins. -/
def Marker.shape : Marker → Shape
  | .nil => .nil
  | .boolean _ => .boolean
  | .fixPositive _ | .fixNegative _ | .unsigned _ | .signed _ => .integer
  | .float32 | .float64 => .float
  | .fixString _ | .string _ => .string
  | .blob _ => .blob
  | .fixExtension _ | .extension _ => .extension
  | .fixArray _ | .array _ => .array
  | .fixMap _ | .map _ => .map
  | .reserved => .reserved

/-- One value around which `budget` more containers may be nested; `limit` is what the budget was at
the root. -/
def readValueWithin (limit : Nat) : Nat → List UInt8 → Outcome Failure Value
  | _, [] => (.error (.here .endOfInput), [])
  | budget, b :: rest =>
    let bytes := b :: rest
    match (Marker.ofByte b).shape with
    | .nil => (readNil bytes).map .here fun _ => .null
    | .boolean => (readBoolean bytes).map .here .bool
    | .integer => (readInt64 bytes).map .here .integer
    | .float => (readDouble bytes).map .here .float
    | .string => (readString bytes).map .here .string
    | .blob => (readBlob bytes).map .here .bytes
    | .extension => (skipExtension bytes).map .here fun _ => .null
    | .reserved => (.error (.here .reservedMarker), bytes)
    | .array =>
      match budget with
      | 0 => (.error (.here (.tooDeep limit)), bytes)
      | budget + 1 => readArrayOf (readValueWithin limit budget) bytes
    | .map =>
      match budget with
      | 0 => (.error (.here (.tooDeep limit)), bytes)
      | budget + 1 => readMapOf (readValueWithin limit budget) bytes

/-- One value. -/
def readValue (limits : Limits) (bytes : List UInt8) : Outcome Failure Value :=
  readValueWithin limits.maxDepth limits.maxDepth bytes

/-! ### Calls -/

/-- A read that can be made at a cursor. -/
inductive Call where
  | int32
  | int64
  | boolean
  | double
  | nil
  | string
  | optionalString
  | blob
  | arrayHeader
  | mapHeader
  | skipExtension
  | value (limits : Limits)
  deriving DecidableEq

/-- What a read gives. -/
inductive Item where
  | integer (value : Int)
  | boolean (value : Bool)
  | double (value : Binary64)
  | nothing
  | string (value : String)
  | blob (value : List UInt8)
  | count (value : Nat)
  | value (value : Value)

/-- Makes a read at a cursor. -/
def Call.run : Call → List UInt8 → Outcome Failure Item
  | .int32, bytes => (readInt32 bytes).map .here fun i => .integer i.toInt
  | .int64, bytes => (readInt64 bytes).map .here fun i => .integer i.toInt
  | .boolean, bytes => (readBoolean bytes).map .here .boolean
  | .double, bytes => (readDouble bytes).map .here .double
  | .nil, bytes => (readNil bytes).map .here fun _ => .nothing
  | .string, bytes => (readString bytes).map .here .string
  | .optionalString, bytes =>
    (readOptionalString bytes).map .here fun
      | some text => .string text
      | none => .nothing
  | .blob, bytes => (readBlob bytes).map .here .blob
  | .arrayHeader, bytes => (readArrayHeader bytes).map .here .count
  | .mapHeader, bytes => (readMapHeader bytes).map .here .count
  | .skipExtension, bytes => (MessagePack.skipExtension bytes).map .here fun _ => .nothing
  | .value limits, bytes => (readValue limits bytes).map id .value

/-- The marker at a cursor. -/
def peekMarker : List UInt8 → Option Marker
  | [] => none
  | b :: _ => some (.ofByte b)

/-- Makes reads one after the other, each where the one before it stopped, whether it failed or
not. -/
def runCalls : List Call → List UInt8 → List (Outcome Failure Item)
  | [], _ => []
  | call :: calls, bytes =>
    let outcome := call.run bytes
    outcome :: runCalls calls outcome.2

end HubGateway.MessagePack
