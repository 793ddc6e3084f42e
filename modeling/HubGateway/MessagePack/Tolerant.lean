/-
**The tolerant reading of MessagePack values.**

Where a value stands alone rather than in a frame, its markers only say what is handed over: an
integer above the 64-bit signed range becomes the nearest double-precision number, a string that is
not UTF-8 is handed over as a blob, a key may be written as a blob of UTF-8 bytes, and bytes behind
the value are ignored.  An extension is refused, and so is nesting beyond a fixed depth.

Main definitions:

* `HubGateway.MessagePack.takeVisit` — what a value that is no container hands over;
* `HubGateway.MessagePack.readTolerant` — a value and the bytes behind it;
* `HubGateway.MessagePack.ofBytes?` — the value at the beginning of bytes.
-/

import HubGateway.MessagePack.Reader
import HubGateway.Value.Visitor

set_option relaxedAutoImplicit false
set_option autoImplicit false

namespace HubGateway.MessagePack

/-- How many containers the tolerant reading lets be nested. -/
def maxTolerantDepth : Nat := 1023

/-- A successful outcome, with its result changed. -/
def accept {ε α β : Type} (f : α → β) : Outcome ε α → Option (β × List UInt8)
  | (.ok a, rest) => some (f a, rest)
  | (.error _, _) => none

/-- The payload of a string or blob, by its size. -/
def takeSized {β : Type} (f : List UInt8 → β) : Size → List UInt8 → Option (β × List UInt8)
  | .given length, bytes => accept f (takePayload length bytes)
  | .behind width, bytes =>
    match takeNumber width bytes with
    | (.ok length, rest) => accept f (takePayload length rest)
    | (.error _, _) => none

/-- What the payload of a string is handed over as. -/
def visitText (payload : List UInt8) : Value.Visit :=
  match Utf8.decode payload with
  | .ok text => .text text
  | .error _ => .blob payload

/-- What a marker that begins no container hands over, together with the bytes behind it. -/
def visitScalar (marker : Marker) (bytes : List UInt8) : Option (Value.Visit × List UInt8) :=
  match marker with
  | .nil => some (.nothing, bytes)
  | .boolean value => some (.boolean value, bytes)
  | .fixPositive value => some (.unsigned (UInt64.ofNat value), bytes)
  | .fixNegative value => some (.signed (Int64.ofInt value), bytes)
  | .unsigned width => accept (fun n => .unsigned (UInt64.ofNat n)) (takeNumber width bytes)
  | .signed width =>
    accept (fun n => .signed (Int64.ofInt (twosComplement width n))) (takeNumber width bytes)
  | .float32 => accept (fun n => .double (Binary64.ofBinary32 n.toUInt32)) (takeNumber 4 bytes)
  | .float64 => accept (fun n => .double ⟨n.toUInt64⟩) (takeNumber 8 bytes)
  | .fixString length => takeSized visitText (.given length) bytes
  | .string width => takeSized visitText (.behind width) bytes
  | .blob width => takeSized .blob (.behind width) bytes
  | .fixExtension _ | .extension _ | .fixArray _ | .array _ | .fixMap _ | .map _ | .reserved => none

/-- What the bytes of a value that is no container hand over. -/
def takeVisit : List UInt8 → Option (Value.Visit × List UInt8)
  | [] => none
  | b :: rest => visitScalar (.ofByte b) rest

/-- The key that is handed over, as a text or as a blob. -/
def visitedKey : Value.Visit → Option String
  | .text key => some key
  | .blob payload => Utf8.decode? payload
  | _ => none

/-- A key. -/
def readTolerantKey (bytes : List UInt8) : Option (String × List UInt8) :=
  match takeVisit bytes with
  | some (visit, rest) => (visitedKey visit).map fun key => (key, rest)
  | none => none

/-- `count` items read by `item`, in front of which `acc` was read (last item first). -/
def readTolerantItems (item : List UInt8 → Option (Value × List UInt8)) :
    Nat → List Value → List UInt8 → Option (List Value × List UInt8)
  | 0, acc, bytes => some (acc.reverse, bytes)
  | count + 1, acc, bytes =>
    match item bytes with
    | none => none
    | some (value, rest) => readTolerantItems item count (value :: acc) rest

/-- `count` entries with values read by `item`, in front of which `acc` was read (last entry
first). -/
def readTolerantEntries (item : List UInt8 → Option (Value × List UInt8)) :
    Nat → List (String × Value) → List UInt8 → Option (List (String × Value) × List UInt8)
  | 0, acc, bytes => some (acc.reverse, bytes)
  | count + 1, acc, bytes =>
    match readTolerantKey bytes with
    | none => none
    | some (key, rest) =>
      match item rest with
      | none => none
      | some (value, rest) => readTolerantEntries item count ((key, value) :: acc) rest

/-- A value in which `depth` containers may be nested, and the bytes behind it. -/
def readTolerant : Nat → List UInt8 → Option (Value × List UInt8)
  | _, [] => none
  | depth, b :: rest =>
    let bytes := b :: rest
    match (Marker.ofByte b).shape with
    | .array =>
      match depth with
      | 0 => none
      | depth + 1 =>
        match takeArrayCount bytes with
        | (.ok count, rest) =>
          (readTolerantItems (readTolerant depth) count [] rest).map fun (values, rest) =>
            ((Value.Visit.items values).value, rest)
        | (.error _, _) => none
    | .map =>
      match depth with
      | 0 => none
      | depth + 1 =>
        match takeMapCount bytes with
        | (.ok count, rest) =>
          (readTolerantEntries (readTolerant depth) count [] rest).map fun (pairs, rest) =>
            ((Value.Visit.entries pairs).value, rest)
        | (.error _, _) => none
    | _ => (takeVisit bytes).map fun (visit, rest) => (visit.value, rest)

/-- The value at the beginning of bytes. -/
def ofBytes? (bytes : List UInt8) : Option Value :=
  (readTolerant maxTolerantDepth bytes).map Prod.fst

end HubGateway.MessagePack
