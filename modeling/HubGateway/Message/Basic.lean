/-
**Messages of the hub.**

Three kinds of messages reach the gateway: a client called a method of the hub, a client connected,
or a client disconnected.  Each carries the number of its type; invocations and closing messages
carry an optional text, for which the empty text counts as absent.

Main definitions:

* `HubGateway.Invocation`, `HubGateway.CloseConnection`, `HubGateway.Message` — the messages;
* `HubGateway.Message.kind`, `HubGateway.Message.messageType` — their names and numbers;
* `HubGateway.Message.renderJson` — the JSON text of a message, its members in declared order.
-/

import HubGateway.Value.Json

set_option relaxedAutoImplicit false
set_option autoImplicit false

namespace HubGateway

/-- The type number of invocations. -/
def invocationType : Int32 := 1

/-- The type number of messages that a connection opened. -/
def openConnectionType : Int32 := 10

/-- The type number of messages that a connection closed. -/
def closeConnectionType : Int32 := 11

/-- A text that is not empty. -/
def nonEmpty (s : String) : Option String := if s = "" then none else some s

/-- A client called a method of the hub. -/
structure Invocation where
  messageType : Int32
  /-- Present only if the caller waits for the result. -/
  invocationId : Option String
  target : String
  arguments : List Value

/-- A client disconnected. -/
structure CloseConnection where
  messageType : Int32
  /-- Why, unless the connection was closed orderly. -/
  error : Option String

/-- A message of the hub. -/
inductive Message where
  | invocation (message : Invocation)
  | openConnection (messageType : Int32)
  | closeConnection (message : CloseConnection)

namespace Invocation

/-- The invocation of a method, without an invocation id. -/
def new (target : String) (arguments : List Value) : Invocation :=
  ⟨invocationType, none, target, arguments⟩

/-- The invocation with an id; an empty one removes it. -/
def withId (m : Invocation) (id : String) : Invocation := { m with invocationId := nonEmpty id }

end Invocation

namespace CloseConnection

/-- The message that a connection closed, for a reason or none. -/
def new (error : Option String) : CloseConnection := ⟨closeConnectionType, error.bind nonEmpty⟩

end CloseConnection

namespace Message

/-- The message that a connection opened. -/
def opened : Message := .openConnection openConnectionType

/-- The type number of a message. -/
def messageType : Message → Int32
  | .invocation m => m.messageType
  | .openConnection messageType => messageType
  | .closeConnection m => m.messageType

/-- The name of a message's kind. -/
def kind : Message → String
  | .invocation _ => "invocation"
  | .openConnection _ => "open connection"
  | .closeConnection _ => "close connection"

/-! ### JSON text -/

/-- A member for a text that may be absent. -/
def renderOptional (name : String) : Option String → List (List Char)
  | none => []
  | some text => [Json.renderMember name (Json.quote text)]

/-- The members of a message in declared order, each with its value written. -/
def renderMembers : Message → List (List Char)
  | .invocation m =>
    Json.renderMember "type" (Json.renderInt m.messageType.toInt)
      :: renderOptional "invocationId" m.invocationId
      ++ [Json.renderMember "target" (Json.quote m.target),
        Json.renderMember "arguments" (Json.renderArray (Value.renderJsonItems m.arguments))]
  | .openConnection messageType => [Json.renderMember "type" (Json.renderInt messageType.toInt)]
  | .closeConnection m =>
    Json.renderMember "type" (Json.renderInt m.messageType.toInt) :: renderOptional "error" m.error

/-- The JSON text of a message. -/
def renderJson (m : Message) : List Char := Json.renderObject m.renderMembers

end Message

end HubGateway
