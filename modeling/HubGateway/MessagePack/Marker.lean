/-
**MessagePack markers.**

Every MessagePack value begins with one byte that tells its kind and either a small payload of its
own or the width of the number, length or count that follows.

Main definitions:

* `HubGateway.MessagePack.Marker` — the meanings of a first byte;
* `HubGateway.MessagePack.Marker.ofByte` — the meaning of a byte;
* `HubGateway.MessagePack.Size` — where the size that a marker tells stands;
* `HubGateway.MessagePack.Marker.label` — the name of a marker in traces.
-/

set_option relaxedAutoImplicit false
set_option autoImplicit false

namespace HubGateway.MessagePack

/-- The meaning of the first byte of a value.  A `width` is the number of bytes of the big-endian
number that follows: 1, 2, 4 or 8. -/
inductive Marker where
  /-- An integer from 0 to 127. -/
  | fixPositive (value : Nat)
  /-- An integer from -32 to -1. -/
  | fixNegative (value : Int)
  /-- A map of up to 15 entries. -/
  | fixMap (count : Nat)
  /-- An array of up to 15 items. -/
  | fixArray (count : Nat)
  /-- A string of up to 31 bytes. -/
  | fixString (length : Nat)
  /-- An extension of 1, 2, 4, 8 or 16 bytes. -/
  | fixExtension (length : Nat)
  | nil
  /-- The byte that begins no value. -/
  | reserved
  | boolean (value : Bool)
  | blob (width : Nat)
  | extension (width : Nat)
  | float32
  | float64
  | unsigned (width : Nat)
  | signed (width : Nat)
  | string (width : Nat)
  | array (width : Nat)
  | map (width : Nat)
  deriving DecidableEq

namespace Marker

/-- The meaning of a byte. -/
def ofByte (b : UInt8) : Marker :=
  let n := b.toNat
  if n < 0x80 then .fixPositive n
  else if n < 0x90 then .fixMap (n - 0x80)
  else if n < 0xA0 then .fixArray (n - 0x90)
  else if n < 0xC0 then .fixString (n - 0xA0)
  else if 0xE0 ≤ n then .fixNegative (n - 256)
  else match b with
    | 0xC0 => .nil
    | 0xC2 => .boolean false
    | 0xC3 => .boolean true
    | 0xC4 => .blob 1
    | 0xC5 => .blob 2
    | 0xC6 => .blob 4
    | 0xC7 => .extension 1
    | 0xC8 => .extension 2
    | 0xC9 => .extension 4
    | 0xCA => .float32
    | 0xCB => .float64
    | 0xCC => .unsigned 1
    | 0xCD => .unsigned 2
    | 0xCE => .unsigned 4
    | 0xCF => .unsigned 8
    | 0xD0 => .signed 1
    | 0xD1 => .signed 2
    | 0xD2 => .signed 4
    | 0xD3 => .signed 8
    | 0xD4 => .fixExtension 1
    | 0xD5 => .fixExtension 2
    | 0xD6 => .fixExtension 4
    | 0xD7 => .fixExtension 8
    | 0xD8 => .fixExtension 16
    | 0xD9 => .string 1
    | 0xDA => .string 2
    | 0xDB => .string 4
    | 0xDC => .array 2
    | 0xDD => .array 4
    | 0xDE => .map 2
    | 0xDF => .map 4
    | _ => .reserved

/-! ### Sizes -/

end Marker

/-- Where the length of a payload or the count of a container stands. -/
inductive Size where
  /-- In the marker itself. -/
  | given (n : Nat)
  /-- In the `width` bytes behind the marker. -/
  | behind (width : Nat)
  deriving DecidableEq

namespace Marker

/-- The length of a string. -/
def stringSize? : Marker → Option Size
  | .fixString length => some (.given length)
  | .string width => some (.behind width)
  | _ => none

/-- The length of a blob. -/
def blobSize? : Marker → Option Size
  | .blob width => some (.behind width)
  | _ => none

/-- The length of an extension's payload. -/
def extensionSize? : Marker → Option Size
  | .fixExtension length => some (.given length)
  | .extension width => some (.behind width)
  | _ => none

/-- The count of an array. -/
def arraySize? : Marker → Option Size
  | .fixArray count => some (.given count)
  | .array width => some (.behind width)
  | _ => none

/-- The count of a map. -/
def mapSize? : Marker → Option Size
  | .fixMap count => some (.given count)
  | .map width => some (.behind width)
  | _ => none

/-! ### Names -/

/-- The name of a marker in traces; widths are counted in bits. -/
def label : Marker → String
  | .fixPositive value => s!"FixPos({value})"
  | .fixNegative value => s!"FixNeg({value})"
  | .fixMap count => s!"FixMap({count})"
  | .fixArray count => s!"FixArray({count})"
  | .fixString length => s!"FixStr({length})"
  | .fixExtension length => s!"FixExt{length}"
  | .nil => "Null"
  | .reserved => "Reserved"
  | .boolean false => "False"
  | .boolean true => "True"
  | .blob width => s!"Bin{8 * width}"
  | .extension width => s!"Ext{8 * width}"
  | .float32 => "F32"
  | .float64 => "F64"
  | .unsigned width => s!"U{8 * width}"
  | .signed width => s!"I{8 * width}"
  | .string width => s!"Str{8 * width}"
  | .array width => s!"Array{8 * width}"
  | .map width => s!"Map{8 * width}"

end Marker

end HubGateway.MessagePack
