/-
**Requests of the hub.**

A request has headers and a body.  Its content type names the wire format of the body, and four
headers are required for a context: the connection's id, the hub, the category and the event.

Main definitions:

* `HubGateway.Request` — headers and body;
* `HubGateway.Headers.wireFormat?` — the wire format that the headers name;
* `HubGateway.Headers.context` — the context that the headers give.
-/

import HubGateway.Gateway.Error
import HubGateway.Message.WireFormat
import HubGateway.Request.Headers

set_option relaxedAutoImplicit false
set_option autoImplicit false

namespace HubGateway

/-- A request of the hub. -/
structure Request where
  headers : Headers
  body : List UInt8

namespace Headers

/-- The wire format that the first content type names. -/
def wireFormat? (h : Headers) : Option WireFormat :=
  (h.first? contentType).bind WireFormat.ofContentType?

/-- The text of a header without which there is no context. -/
def required (h : Headers) (name : String) : Except GatewayError String :=
  match h.value? name with
  | some text => .ok text
  | none => .error .missingContext

/-- The context that the headers give. -/
def context (h : Headers) : Except GatewayError Context := do
  let connectionId ← h.required connectionId
  let hub ← h.required hub
  let rawCategory ← h.required category
  let event ← h.required event
  match Category.parse? (Text.trim rawCategory) with
  | none => .error (.invalidCategory rawCategory)
  | some category =>
    .ok {
      connectionId, hub, category, event
      userId := h.value? userId
      query := (h.value? clientQuery).map Parameters.ofQuery
      claims := (h.value? userClaims).map Parameters.ofClaims
      headers := h.collect }

end Headers

end HubGateway
