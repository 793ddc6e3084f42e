/-
**Values and JSON.**

JSON has neither blobs nor infinite numbers: a blob becomes its Base64 text and a number that is
not finite becomes null.  In the other direction an integer that 64 signed bits do not hold
becomes the nearest double-precision number.

A value can be written as JSON text in two ways, through its tree and directly, and be read from
JSON text in two ways.  Directly, the reader of the text hands its parts over as it meets them; or
they come from a tree, which has sorted members and numbers out.  A tree can be handed over part by
part too.

Main definitions:

* `HubGateway.Value.toJson` — the tree of a value;
* `HubGateway.Value.ofJson` — the value of a tree;
* `HubGateway.Value.readTree` — the value of a tree that is handed over part by part;
* `HubGateway.Value.renderJson` — the text of a value, written directly;
* `HubGateway.Value.direct`, `HubGateway.Value.parseJson` — the value of a document, read directly.
-/

import HubGateway.Value.Visitor
import HubGateway.Json.Printer
import HubGateway.Json.Reader
import HubGateway.Text.Base64

set_option relaxedAutoImplicit false
set_option autoImplicit false

namespace HubGateway.Value

/-! ### Trees -/

/-- The text of a blob. -/
def blobText (bytes : List UInt8) : String := String.ofList (Base64.encode bytes)

mutual

/-- The JSON tree of a value. -/
def toJson : Value → Json
  | .null => .null
  | .bool value => .bool value
  | .integer value => Json.ofInt64 value
  | .float value => Json.ofBinary64 value
  | .string value => .string value
  | .bytes value => .string (blobText value)
  | .array items => .array (toJsonItems items)
  | .map entries => .object (toJsonEntries entries)

/-- The trees of the items of a sequence. -/
def toJsonItems : List Value → List Json
  | [] => []
  | item :: items => item.toJson :: toJsonItems items

/-- The trees of the entries of a map. -/
def toJsonEntries : List (String × Value) → List (String × Json)
  | [] => []
  | (key, value) :: entries => (key, value.toJson) :: toJsonEntries entries

end

/-- The value of an integer. -/
def ofInt (i : Int) : Value :=
  if i < 0x8000000000000000 then .integer (Int64.ofInt i) else .float (Binary64.ofInt i)

/-- The value of a number of a tree. -/
def ofNumber : Json.Number → Value
  | .integer value _ => ofInt value
  | .float value _ => .float value

mutual

/-- The value of a JSON tree. -/
def ofJson : Json → Value
  | .null => .null
  | .bool value => .bool value
  | .number value => ofNumber value
  | .string value => .string value
  | .array items => .array (ofJsonItems items)
  | .object members => .map (ofJsonMembers members)

/-- The values of the items of an array. -/
def ofJsonItems : List Json → List Value
  | [] => []
  | item :: items => ofJson item :: ofJsonItems items

/-- The values of the members of an object. -/
def ofJsonMembers : List (String × Json) → List (String × Value)
  | [] => []
  | (name, value) :: members => (name, ofJson value) :: ofJsonMembers members

end

/-! ### Direct text -/

/-- The text of a number that may not be finite. -/
def renderFloat (x : Binary64) : List Char := if x.isFinite then x.render else Json.renderNull

mutual

/-- The JSON text of a value, written without building its tree. -/
def renderJson : Value → List Char
  | .null => Json.renderNull
  | .bool value => Json.renderBool value
  | .integer value => Json.renderInt value.toInt
  | .float value => renderFloat value
  | .string value => Json.quote value
  | .bytes value => Json.quote (blobText value)
  | .array items => Json.renderArray (renderJsonItems items)
  | .map entries => Json.renderObject (renderJsonEntries entries)

/-- The texts of the items of a sequence. -/
def renderJsonItems : List Value → List (List Char)
  | [] => []
  | item :: items => item.renderJson :: renderJsonItems items

/-- The texts of the entries of a map. -/
def renderJsonEntries : List (String × Value) → List (List Char)
  | [] => []
  | (key, value) :: entries => Json.renderMember key value.renderJson :: renderJsonEntries entries

end

/-! ### Trees that are handed over -/

/-- What a number is handed over as: an integer with a minus sign as a signed one, any other integer
as an unsigned one. -/
def visitNumber : Json.Number → Visit
  | .integer value _ =>
    if value < 0 then .signed (Int64.ofInt value) else .unsigned (UInt64.ofNat value.toNat)
  | .float value _ => .double value

mutual

/-- The value of a tree whose parts are handed over one after the other. -/
def readTree : Json → Value
  | .null => Visit.nothing.value
  | .bool value => (Visit.boolean value).value
  | .number value => (visitNumber value).value
  | .string value => (Visit.text value).value
  | .array items => (Visit.items (readTreeItems items)).value
  | .object members => (Visit.entries (readTreeMembers members)).value

/-- The values of the items of an array. -/
def readTreeItems : List Json → List Value
  | [] => []
  | item :: items => readTree item :: readTreeItems items

/-- The values of the members of an object. -/
def readTreeMembers : List (String × Json) → List (String × Value)
  | [] => []
  | (name, value) :: members => (name, readTree value) :: readTreeMembers members

end

/-! ### Direct reading -/

/-- The reading of a document as a value, in which numbers come by kind and entries in the order of
the document. -/
def direct : Json.Reading String Value where
  null := Visit.nothing.value
  bool value := (Visit.boolean value).value
  number n := n.toNumber?.map fun number => (visitNumber number).value
  string pieces := (Json.piecesText? pieces).map fun text => (Visit.text text).value
  array items := (Visit.items items).value
  name := Json.piecesText?
  object members := (Visit.entries members).value

/-- The value of a document, read without building its tree. -/
def parseJson (bytes : List UInt8) : Option Value := Json.readDocument direct bytes

end HubGateway.Value
