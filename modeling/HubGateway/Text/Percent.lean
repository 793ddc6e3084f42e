/-
**Percent escapes.**

Client queries are percent-encoded: a percent sign and two hexadecimal digits stand for a byte.
A percent sign that no two digits follow stands for itself, and a text whose decoded bytes are
not UTF-8 is left as it is.

Main definitions:

* `HubGateway.Percent.decodeBytes` — the bytes that escaped bytes stand for;
* `HubGateway.Percent.decode` — the text that a text stands for.
-/

import HubGateway.Text.Utf8
import HubGateway.Text.Hex

set_option relaxedAutoImplicit false
set_option autoImplicit false

namespace HubGateway.Percent

/-- The byte of the two digits `hi` and `lo`, if both are hexadecimal. -/
def escaped? (hi lo : UInt8) : Option UInt8 :=
  match Hex.value? hi, Hex.value? lo with
  | some h, some l => some (h * 16 + l).toUInt8
  | _, _ => none

/-- The bytes that escaped bytes stand for. -/
def decodeBytes : List UInt8 → List UInt8
  | 0x25 :: hi :: lo :: rest =>
    match escaped? hi lo with
    | some b => b :: decodeBytes rest
    | none => 0x25 :: decodeBytes (hi :: lo :: rest)
  | b :: rest => b :: decodeBytes rest
  | [] => []

/-- The text that a text stands for; itself, if that would not be UTF-8. -/
def decode (s : String) : String :=
  match Utf8.decode (decodeBytes (Utf8.encode s)) with
  | .ok text => text
  | .error _ => s

end HubGateway.Percent
