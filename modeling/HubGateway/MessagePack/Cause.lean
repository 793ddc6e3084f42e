/-
**Why a MessagePack read fails.**

A read names what it was looking for and what it found instead.  Reads within a value also say
where they failed: the path from the value's root through the items and keys on the wire.

Main definitions:

* `HubGateway.MessagePack.Fault` — what can be wrong with a marker and the number behind it;
* `HubGateway.MessagePack.Cause` — what can be wrong with a read, with its wording;
* `HubGateway.MessagePack.Segment` — one step of a path;
* `HubGateway.MessagePack.Failure` — a cause at the end of a path.
-/

import HubGateway.Text.Utf8

set_option relaxedAutoImplicit false
set_option autoImplicit false

namespace HubGateway.MessagePack

/-- What can be wrong with a marker and the number behind it. -/
inductive Fault where
  /-- There is no byte left. -/
  | noMarker
  /-- The bytes end within the number. -/
  | noData
  /-- The marker begins another kind of value. -/
  | mismatch
  /-- The number does not fit. -/
  | outOfRange
  deriving DecidableEq

/-- The wording of a fault. -/
def Fault.message : Fault → String
  | .noMarker => "failed to read MessagePack marker"
  | .noData => "failed to read MessagePack data"
  | .mismatch => "the type decoded isn't match with the expected one"
  | .outOfRange => "out of range integral type conversion attempted"

/-- The kinds of values that are read whole. -/
inductive Kind where
  | int32
  | int64
  | boolean
  | double
  | nil
  | string
  | blob
  | extension
  deriving DecidableEq

/-- The name of a kind in messages. -/
def Kind.label : Kind → String
  | .int32 => "Int32"
  | .int64 => "Int64"
  | .boolean => "Boolean"
  | .double => "Double"
  | .nil => "Nil"
  | .string => "String"
  | .blob => "Byte[]"
  | .extension => "Extension"

/-- The kinds of values that are read header first. -/
inductive Container where
  | array
  | map
  deriving DecidableEq

/-- The name of a container in messages. -/
def Container.label : Container → String
  | .array => "array"
  | .map => "map"

/-- What can be wrong with a read. -/
inductive Cause where
  /-- No value of the kind begins here. -/
  | unreadable (kind : Kind) (fault : Fault)
  /-- A string holds bytes that are not UTF-8. -/
  | notText (fault : Utf8.Fault)
  /-- No header of the container begins here. -/
  | unreadableHeader (container : Container) (fault : Fault)
  /-- A payload is longer than what is left. -/
  | shortPayload (needed remaining : Nat)
  /-- A container has more entries than what is left can hold. -/
  | shortContainer (declared remaining : Nat)
  /-- There is no value left. -/
  | endOfInput
  /-- The byte that begins no value. -/
  | reservedMarker
  /-- A container is nested in too many others. -/
  | tooDeep (limit : Nat)
  deriving DecidableEq

/-- The wording of a cause. -/
def Cause.message : Cause → String
  | .unreadable kind fault => s!"as {kind.label}: {fault.message}"
  | .notText fault => s!"as {Kind.string.label}: {fault.message}"
  | .unreadableHeader container fault => s!"reading {container.label} length: {fault.message}"
  | .shortPayload needed remaining => s!"need {needed} bytes, {remaining} remaining"
  | .shortContainer declared remaining =>
    s!"declared {declared} entries but only {remaining} bytes remain"
  | .endOfInput => "unexpected end of input"
  | .reservedMarker => "reserved marker 0xc1"
  | .tooDeep limit => s!"nesting exceeds maximum depth of {limit}"

/-- One step from a container to a part of it. -/
inductive Segment where
  /-- To an item of an array. -/
  | item (index : Nat)
  /-- To the value of a key. -/
  | key (name : String)
  /-- To the key of an entry. -/
  | keyOf (index : Nat)
  deriving DecidableEq

/-- A step as it extends the name of a field. -/
def Segment.render : Segment → String
  | .item index => s!"[{index}]"
  | .key name => s!".{name}"
  | .keyOf index => s!".keys[{index}]"

/-- A field that is reached from another one by steps. -/
def fieldAt (root : String) (path : List Segment) : String :=
  path.foldl (fun field segment => field ++ segment.render) root

/-- A cause at the end of a path. -/
structure Failure where
  path : List Segment
  cause : Cause
  deriving DecidableEq

/-- A failure at the value itself. -/
def Failure.here (cause : Cause) : Failure := ⟨[], cause⟩

/-- A failure in a part, seen from the container. -/
def Failure.under (segment : Segment) (f : Failure) : Failure := ⟨segment :: f.path, f.cause⟩

end HubGateway.MessagePack
