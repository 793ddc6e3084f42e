/-
**Invocation contexts.**

A handler is given a context: what the headers of its request say, completed with what the message
in the body carries.  The context of a message exists only if the message agrees with the headers:
an invocation belongs to the category of messages and its target is the event's name; an opening
message does not go with the event of disconnecting, nor a closing one with that of connecting.

Main definitions:

* `HubGateway.Category` — the categories of events;
* `HubGateway.Context` — what a handler knows about its request;
* `HubGateway.Context.argument`, `HubGateway.Context.argumentsAs` — typed access to arguments;
* `HubGateway.Context.bindMessage` — the context completed with a message;
* `HubGateway.Context.toJson`, `HubGateway.Context.renderJson` — its JSON forms.
-/

import HubGateway.Message.Basic
import HubGateway.DecodeError
import HubGateway.Binding.Bind
import HubGateway.Request.Parameters
import HubGateway.Text.Lowercase

set_option relaxedAutoImplicit false
set_option autoImplicit false

namespace HubGateway

/-- The category of an event. -/
inductive Category where
  /-- Clients connecting and disconnecting. -/
  | connections
  /-- Clients calling methods of the hub. -/
  | messages
  deriving DecidableEq

namespace Category

/-- The name of a category. -/
def label : Category → String
  | .connections => "connections"
  | .messages => "messages"

/-- The category with a name, without regard to case. -/
def parse? (text : String) : Option Category :=
  if Text.sameAscii text Category.connections.label then some .connections
  else if Text.sameAscii text Category.messages.label then some .messages
  else none

end Category

/-- The event of a client connecting. -/
def connectedEvent : String := "connected"

/-- The event of a client disconnecting. -/
def disconnectedEvent : String := "disconnected"

/-- What a handler knows about its request. -/
structure Context where
  connectionId : String
  hub : String
  category : Category
  event : String
  userId : Option String := none
  query : Option Parameters.Table := none
  claims : Option Parameters.Table := none
  headers : Parameters.Table := []
  /-- Present only for invocations. -/
  arguments : Option (List Value) := none
  invocationId : Option String := none
  /-- Why the connection closed, unless that was orderly. -/
  error : Option String := none

namespace Context

/-! ### Typed arguments -/

/-- The name of the field of an argument. -/
def argumentField (index : Nat) : String := s!"arguments[{index}]"

/-- Binds the argument with an index. -/
def argument (c : Context) (index : Nat) (schema : Schema) : Except DecodeError Bound :=
  match (c.arguments.getD [])[index]? with
  | none => .error ⟨argumentField index, .absentArgument⟩
  | some value =>
    match value.bindTo schema with
    | .ok bound => .ok bound
    | .error mismatch => .error ⟨argumentField index, .unbound mismatch⟩

/-- Binds the list of all arguments. -/
def argumentsAs (c : Context) (schema : Schema) : Except DecodeError Bound :=
  match schema.bind (.array (Value.toJsonItems (c.arguments.getD []))) with
  | .ok bound => .ok bound
  | .error mismatch => .error ⟨"arguments", .unbound mismatch⟩

/-! ### Messages -/

/-- Why a message does not go with a context. -/
inductive Disagreement where
  /-- The target of an invocation is not the event. -/
  | target (target event : String)
  /-- The kind of message does not go with the category and event. -/
  | kind (category : Category) (event messageKind : String)
  deriving DecidableEq

/-- The wording of a disagreement. -/
def Disagreement.message : Disagreement → String
  | .target name event => s!"target '{name}' does not match event '{event}'"
  | .kind category event messageKind =>
    s!"{category.label} event '{event}' cannot carry a {messageKind} message"

/-- The context completed with a message. -/
def bindMessage (c : Context) (m : Message) : Except Disagreement Context :=
  let refused : Except Disagreement Context := .error (.kind c.category c.event m.kind)
  match c.category, m with
  | .messages, .invocation i =>
    if Text.sameFolded i.target c.event then
      .ok { c with invocationId := i.invocationId, arguments := some i.arguments }
    else .error (.target i.target c.event)
  | .connections, .openConnection _ =>
    if Text.sameFolded c.event disconnectedEvent then refused else .ok c
  | .connections, .closeConnection m =>
    if Text.sameFolded c.event connectedEvent then refused else .ok { c with error := m.error }
  | _, _ => refused

/-! ### JSON forms -/

/-- The members of a table. -/
def tableMembers (table : Parameters.Table) : List (String × Json) :=
  table.map fun (name, text) => (name, .string text)

/-- The members of a context's tree, in declared order; what is absent has no member. -/
def members (c : Context) : List (String × Json) :=
  [("connectionId", .string c.connectionId), ("hub", .string c.hub),
    ("category", .string c.category.label), ("event", .string c.event)]
  ++ (c.userId.map fun text => ("userId", Json.string text)).toList
  ++ (c.query.map fun table => ("query", Json.object (tableMembers table))).toList
  ++ (c.claims.map fun table => ("claims", Json.object (tableMembers table))).toList
  ++ [("headers", .object (tableMembers c.headers))]
  ++ (c.arguments.map fun values => ("arguments", Json.array (Value.toJsonItems values))).toList
  ++ (c.invocationId.map fun text => ("invocationId", Json.string text)).toList
  ++ (c.error.map fun text => ("error", Json.string text)).toList

/-- The JSON tree of a context. -/
def toJson (c : Context) : Json := .object (Entries.ofList c.members)

/-- A table written as an object. -/
def renderTable (table : Parameters.Table) : List Char :=
  Json.renderObject (table.map fun (name, text) => Json.renderMember name (Json.quote text))

/-- The JSON text of a context, its members in declared order, written without building a tree of
the context; arguments are written in the form of their trees. -/
def renderJson (c : Context) : List Char :=
  Json.renderObject
    ([Json.renderMember "connectionId" (Json.quote c.connectionId),
      Json.renderMember "hub" (Json.quote c.hub),
      Json.renderMember "category" (Json.quote c.category.label),
      Json.renderMember "event" (Json.quote c.event)]
    ++ Message.renderOptional "userId" c.userId
    ++ (c.query.map fun table => Json.renderMember "query" (renderTable table)).toList
    ++ (c.claims.map fun table => Json.renderMember "claims" (renderTable table)).toList
    ++ [Json.renderMember "headers" (renderTable c.headers)]
    ++ (c.arguments.map fun values => Json.renderMember "arguments"
        (Json.renderArray (Json.renderItems (Value.toJsonItems values)))).toList
    ++ Message.renderOptional "invocationId" c.invocationId
    ++ Message.renderOptional "error" c.error)

end Context

end HubGateway
