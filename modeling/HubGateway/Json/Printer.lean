/-
**The compact text of JSON trees.**

A tree is written without any blank.  Within quotes only the quote, the backslash and the control
characters below the space are escaped, with the short escape where there is one.  Integers are
decimal, and floats are the shortest decimal that identifies them.

Main definitions:

* `HubGateway.Json.quote` — a text within quotes;
* `HubGateway.Json.render` — the characters of a tree;
* `HubGateway.Json.text` — the text of a tree.
-/

import HubGateway.Json.Basic
import HubGateway.Binary64.Shortest
import HubGateway.Text.Hex

set_option relaxedAutoImplicit false
set_option autoImplicit false

namespace HubGateway.Json

/-! ### Scalars -/

/-- A character as it appears within quotes. -/
def escape (c : Char) : List Char :=
  if c = '"' then ['\\', '"']
  else if c = '\\' then ['\\', '\\']
  else if c = '\n' then ['\\', 'n']
  else if c = '\r' then ['\\', 'r']
  else if c = '\t' then ['\\', 't']
  else if c.toNat = 8 then ['\\', 'b']
  else if c.toNat = 12 then ['\\', 'f']
  else if c.toNat < 32 then
    ['\\', 'u', '0', '0', Hex.digit (c.toNat / 16), Hex.digit (c.toNat % 16)]
  else [c]

/-- A text within quotes. -/
def quote (s : String) : List Char := '"' :: (s.toList.flatMap escape ++ ['"'])

/-- The decimal text of an integer. -/
def renderInt (i : Int) : List Char :=
  if i < 0 then '-' :: Binary64.naturalDigits i.natAbs else Binary64.naturalDigits i.natAbs

/-- The text of a number. -/
def Number.render : Number → List Char
  | .integer value _ => renderInt value
  | .float value _ => value.render

/-- The text of a truth value. -/
def renderBool : Bool → List Char
  | true => ['t', 'r', 'u', 'e']
  | false => ['f', 'a', 'l', 's', 'e']

/-- The text of nothing. -/
def renderNull : List Char := ['n', 'u', 'l', 'l']

/-! ### Containers -/

/-- Written items as an array. -/
def renderArray (items : List (List Char)) : List Char :=
  '[' :: ([','].intercalate items ++ [']'])

/-- Written members as an object. -/
def renderObject (members : List (List Char)) : List Char :=
  '{' :: ([','].intercalate members ++ ['}'])

/-- A member with a written value. -/
def renderMember (name : String) (value : List Char) : List Char := quote name ++ ':' :: value

mutual

/-- The compact text of a tree. -/
def render : Json → List Char
  | .null => renderNull
  | .bool value => renderBool value
  | .number value => value.render
  | .string value => quote value
  | .array items => renderArray (renderItems items)
  | .object members => renderObject (renderMembers members)

/-- The texts of the items of an array. -/
def renderItems : List Json → List (List Char)
  | [] => []
  | item :: items => item.render :: renderItems items

/-- The texts of the members of an object. -/
def renderMembers : List (String × Json) → List (List Char)
  | [] => []
  | (name, value) :: members => renderMember name value.render :: renderMembers members

end

/-- The compact text of a tree. -/
def text (j : Json) : String := String.ofList j.render

end HubGateway.Json
