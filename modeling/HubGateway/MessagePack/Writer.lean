/-
**Writing argument values as MessagePack.**

Every integer, string, blob and container header is written in its shortest form; floats always
take 64 bits.  Lengths and counts are below `2 ^ 32`.

Main definitions:

* `HubGateway.MessagePack.writeInteger`, `writeString`, `writeBlob` — scalars;
* `HubGateway.MessagePack.arrayHeader`, `mapHeader` — headers;
* `HubGateway.MessagePack.writeValue` — values.
-/

import HubGateway.Value.Basic

set_option relaxedAutoImplicit false
set_option autoImplicit false

namespace HubGateway.MessagePack

/-- The `width` big-endian bytes of a number. -/
def numberBytes : Nat → Nat → List UInt8
  | 0, _ => []
  | width + 1, n => (n / Nat.pow 256 width % 256).toUInt8 :: numberBytes width n

/-! ### Scalars -/

/-- An integer of at least zero. -/
def writeNatural (n : Nat) : List UInt8 :=
  if n < 0x80 then [n.toUInt8]
  else if n < 0x100 then 0xCC :: numberBytes 1 n
  else if n < 0x10000 then 0xCD :: numberBytes 2 n
  else if n < 0x100000000 then 0xCE :: numberBytes 4 n
  else 0xCF :: numberBytes 8 n

/-- An integer below zero, in two's complement form. -/
def writeNegative (i : Int) : List UInt8 :=
  if -0x20 ≤ i then [(i + 0x100).toNat.toUInt8]
  else if -0x80 ≤ i then 0xD0 :: numberBytes 1 (i + 0x100).toNat
  else if -0x8000 ≤ i then 0xD1 :: numberBytes 2 (i + 0x10000).toNat
  else if -0x80000000 ≤ i then 0xD2 :: numberBytes 4 (i + 0x100000000).toNat
  else 0xD3 :: numberBytes 8 (i + 0x10000000000000000).toNat

/-- An integer. -/
def writeInteger (i : Int) : List UInt8 := if i < 0 then writeNegative i else writeNatural i.toNat

/-- A truth value. -/
def writeBoolean : Bool → List UInt8
  | false => [0xC2]
  | true => [0xC3]

/-- A double-precision number. -/
def writeDouble (x : Binary64) : List UInt8 := 0xCB :: numberBytes 8 x.bits.toNat

/-- The header of a string of `length` bytes. -/
def stringHeader (length : Nat) : List UInt8 :=
  if length < 0x20 then [(0xA0 + length).toUInt8]
  else if length < 0x100 then 0xD9 :: numberBytes 1 length
  else if length < 0x10000 then 0xDA :: numberBytes 2 length
  else 0xDB :: numberBytes 4 length

/-- The header of a blob of `length` bytes. -/
def blobHeader (length : Nat) : List UInt8 :=
  if length < 0x100 then 0xC4 :: numberBytes 1 length
  else if length < 0x10000 then 0xC5 :: numberBytes 2 length
  else 0xC6 :: numberBytes 4 length

/-- A string. -/
def writeString (s : String) : List UInt8 :=
  let bytes := Utf8.encode s
  stringHeader bytes.length ++ bytes

/-- A blob. -/
def writeBlob (bytes : List UInt8) : List UInt8 := blobHeader bytes.length ++ bytes

/-! ### Containers -/

/-- The header of an array of `count` items. -/
def arrayHeader (count : Nat) : List UInt8 :=
  if count < 0x10 then [(0x90 + count).toUInt8]
  else if count < 0x10000 then 0xDC :: numberBytes 2 count
  else 0xDD :: numberBytes 4 count

/-- The header of a map of `count` entries. -/
def mapHeader (count : Nat) : List UInt8 :=
  if count < 0x10 then [(0x80 + count).toUInt8]
  else if count < 0x10000 then 0xDE :: numberBytes 2 count
  else 0xDF :: numberBytes 4 count

mutual

/-- A value. -/
def writeValue : Value → List UInt8
  | .null => [0xC0]
  | .bool value => writeBoolean value
  | .integer value => writeInteger value.toInt
  | .float value => writeDouble value
  | .string value => writeString value
  | .bytes value => writeBlob value
  | .array items => arrayHeader items.length ++ writeItems items
  | .map entries => mapHeader entries.length ++ writeEntries entries

/-- Items one after the other. -/
def writeItems : List Value → List UInt8
  | [] => []
  | item :: items => writeValue item ++ writeItems items

/-- Entries one after the other, each key before its value. -/
def writeEntries : List (String × Value) → List UInt8
  | [] => []
  | (key, value) :: entries => writeString key ++ writeValue value ++ writeEntries entries

end

end HubGateway.MessagePack
