/-
**Text frames.**

A text frame is a JSON object that ends with a record separator; whatever stands behind the first
separator is not read.  Decoding is lenient, so that newer senders do not break older gateways:
what is not a known message is no message.

The properties of a message are bound by name without regard to the case of ASCII letters.  Where
several members have one name up to case, the last in the order of their spellings counts.

Main definitions:

* `HubGateway.TextFrame.record` — the bytes in front of the first separator;
* `HubGateway.TextFrame.canonicalName` — the spelling under which a member is bound;
* `HubGateway.TextFrame.decode` — the message of a frame;
* `HubGateway.TextFrame.encode` — the frame of a message.
-/

import HubGateway.Message.Json
import HubGateway.Text.Lowercase

set_option relaxedAutoImplicit false
set_option autoImplicit false

namespace HubGateway.TextFrame

/-- The byte that ends a frame. -/
def separator : UInt8 := 0x1E

/-- The bytes in front of the first separator, or all of them. -/
def record (bytes : List UInt8) : List UInt8 := bytes.takeWhile (· != separator)

/-- The properties that are bound without regard to case. -/
def knownNames : List String := ["type", "invocationId", "target", "arguments", "error"]

/-- The spelling under which a member is bound. -/
def canonicalName (name : String) : String :=
  (knownNames.find? fun known => Text.sameAscii known name).getD name

/-- The members under their canonical names. -/
def canonicalMembers (members : List (String × Json)) : List (String × Json) :=
  Entries.ofList (members.map fun (name, value) => (canonicalName name, value))

/-- The message with the given properties, of the kind that its type number names. -/
def ofProperties (p : Properties) : Option Message := do
  let j ← p "type"
  let messageType ← Properties.asInt32? j
  if messageType = invocationType then (Invocation.ofProperties p).map .invocation
  else if messageType = openConnectionType then Message.openOfProperties p
  else if messageType = closeConnectionType then
    (CloseConnection.ofProperties p).map .closeConnection
  else none

/-- The message of a frame. -/
def decode (bytes : List UInt8) : Option Message :=
  match Json.parse (record bytes) with
  | some (.object members) => ofProperties (.ofMembers (canonicalMembers members))
  | _ => none

/-- The frame of a message. -/
def encode (m : Message) : List UInt8 := Utf8.encodeChars m.renderJson ++ [separator]

end HubGateway.TextFrame
