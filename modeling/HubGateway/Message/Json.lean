/-
**Messages in JSON documents.**

Each kind of message has a list of properties.  Given the values of the properties, a message
exists if they have the right forms: a missing type number is the kind's own, a missing text and a
missing list of arguments are empty, and null counts as missing for both.

A document that should hold one kind of message gives the properties by name or, as an array, in
order.  Members that are no property are passed over unread; a property that is given twice is
refused.

Main definitions:

* `HubGateway.Invocation.ofProperties`, `HubGateway.CloseConnection.ofProperties`,
  `HubGateway.Message.openOfProperties` — messages from the values of properties;
* `HubGateway.Json.readProperties` — the properties that a document gives;
* `HubGateway.Message.parseInvocation`, `parseOpen`, `parseClose` — documents of one kind.
-/

import HubGateway.Message.Basic

set_option relaxedAutoImplicit false
set_option autoImplicit false

namespace HubGateway

/-! ### Values of properties -/

/-- The values of properties by name. -/
abbrev Properties := String → Option Json

namespace Properties

/-- The properties that members give. -/
def ofMembers (members : List (String × Json)) : Properties := fun name => members.lookup name

/-- A 32-bit integer. -/
def asInt32? : Json → Option Int32
  | .number (.integer value _) =>
    if -0x80000000 ≤ value ∧ value < 0x80000000 then some (Int32.ofInt value) else none
  | _ => none

/-- A type number; a missing one is `default`. -/
def messageType (p : Properties) (default : Int32) : Option Int32 :=
  match p "type" with
  | none => some default
  | some j => asInt32? j

/-- A text that may be missing, null or empty. -/
def optionalText (p : Properties) (name : String) : Option (Option String) :=
  match p name with
  | none | some .null => some none
  | some (.string text) => some (nonEmpty text)
  | some _ => none

/-- A text. -/
def text (p : Properties) (name : String) : Option String :=
  match p name with
  | some (.string text) => some text
  | _ => none

/-- A list of arguments that may be missing or null. -/
def argumentList (p : Properties) (name : String) : Option (List Value) :=
  match p name with
  | none | some .null => some []
  | some (.array items) => some (Value.readTreeItems items)
  | some _ => none

end Properties

/-- The invocation with the given properties. -/
def Invocation.ofProperties (p : Properties) : Option Invocation := do
  let messageType ← p.messageType invocationType
  let invocationId ← p.optionalText "invocationId"
  let target ← p.text "target"
  let arguments ← p.argumentList "arguments"
  return ⟨messageType, invocationId, target, arguments⟩

/-- The opening message with the given properties. -/
def Message.openOfProperties (p : Properties) : Option Message :=
  (p.messageType openConnectionType).map .openConnection

/-- The closing message with the given properties. -/
def CloseConnection.ofProperties (p : Properties) : Option CloseConnection := do
  let messageType ← p.messageType closeConnectionType
  let error ← p.optionalText "error"
  return ⟨messageType, error⟩

/-! ### Documents -/

namespace Json

/-- The reading that passes over a part: only its grammar counts. -/
def skipped : Reading Unit Unit where
  null := ()
  bool _ := ()
  number _ := some ()
  string _ := some ()
  array _ := ()
  name _ := some ()
  object _ := ()

/-- The value of a member: a tree for one of the `known` names, nothing for another one, which is
passed over whatever it nests. -/
def readKnown (known : List String) (fuel : Nat) (name : String) (bytes : List UInt8) :
    Option (Option Json × List UInt8) :=
  if known.contains name then
    (read tree fuel (maxNesting - 1) bytes).map fun (j, rest) => (some j, rest)
  else (read skipped fuel fuel bytes).map fun (_, rest) => (none, rest)

/-- The members with a value. -/
def knownMembers : List (String × Option Json) → List (String × Json)
  | [] => []
  | (name, some value) :: members => (name, value) :: knownMembers members
  | (_, none) :: members => knownMembers members

/-- The `known` properties of an object whose opening brace was read, none given twice. -/
def readNamed (known : List String) (bytes : List UInt8) : Option (List (String × Json)) :=
  let fuel := bytes.length
  match atEnd (readObject (readMember piecesText? (readKnown known fuel)) fuel bytes) with
  | none => none
  | some members =>
    let members := knownMembers members
    if (members.map Prod.fst).Nodup then some members else none

/-- The `known` properties that a document gives by name or in order. -/
def readProperties (known : List String) (bytes : List UInt8) : Option (List (String × Json)) :=
  match dropBlanks bytes with
  | 0x7B :: rest => readNamed known rest
  | bytes =>
    match parse bytes with
    | some (.array items) => if items.length ≤ known.length then some (known.zip items) else none
    | _ => none

end Json

namespace Message

/-- A document that holds an invocation. -/
def parseInvocation (bytes : List UInt8) : Option Message := do
  let members ← Json.readProperties ["type", "invocationId", "target", "arguments"] bytes
  (Invocation.ofProperties (.ofMembers members)).map .invocation

/-- A document that holds an opening message. -/
def parseOpen (bytes : List UInt8) : Option Message := do
  let members ← Json.readProperties ["type"] bytes
  openOfProperties (.ofMembers members)

/-- A document that holds a closing message. -/
def parseClose (bytes : List UInt8) : Option Message := do
  let members ← Json.readProperties ["type", "error"] bytes
  (CloseConnection.ofProperties (.ofMembers members)).map .closeConnection

end Message

end HubGateway
