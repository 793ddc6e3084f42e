/-
**Errors of the gateway and its responses.**

A request that is not answered by a handler ends with an error.  Each error has a status and a
reason for the caller: the wording of the error itself, except that nothing is told about the
bytes of a malformed payload, and that a handler's failure is told in the handler's own words.

Main definitions:

* `HubGateway.HandlerError` — the failure that a handler reports;
* `HubGateway.GatewayError` — the errors, with `message`, `status`, `reason` and `sources`;
* `HubGateway.Response` — the status and reason of an answered request;
* `HubGateway.Response.toHttp` — the response in the terms of HTTP.
-/

import HubGateway.DecodeError
import HubGateway.Gateway.Context

set_option relaxedAutoImplicit false
set_option autoImplicit false

namespace HubGateway

/-- The failure that a handler reports. -/
structure HandlerError where
  message : String
  /-- What the failure goes back to. -/
  source : Option DecodeError := none
  deriving DecidableEq

/-- The failure of a handler whose arguments do not bind. -/
def HandlerError.ofDecodeError (e : DecodeError) : HandlerError :=
  ⟨"Argument binding failed", some e⟩

/-- Why a request is not answered by a handler that completed. -/
inductive GatewayError where
  /-- The content type names no wire format. -/
  | unsupportedContentType (contentType : String)
  /-- A required header is missing or blank. -/
  | missingContext
  /-- The category header names no category. -/
  | invalidCategory (category : String)
  /-- No key gives any of the signatures. -/
  | invalidSignature
  /-- There is no handler under the hub. -/
  | unknownHub (hub : String)
  /-- There is no handler for the event. -/
  | unknownEvent (category event : String)
  /-- The payload is malformed. -/
  | decode (error : DecodeError)
  /-- The payload holds no message that is known. -/
  | notDecoded
  /-- The message does not go with the headers. -/
  | categoryMismatch (description : String)
  /-- The handler failed. -/
  | handler (error : HandlerError)
  /-- The host gave up waiting. -/
  | cancelled
  deriving DecidableEq

namespace GatewayError

/-- The wording of an error. -/
def message : GatewayError → String
  | .unsupportedContentType contentType => s!"Unsupported content type: {contentType}"
  | .missingContext => "Missing required context headers"
  | .invalidCategory category => s!"Unsupported category: {category}"
  | .invalidSignature => "Signature validation failed"
  | .unknownHub hub => s!"Unknown hub: {hub}"
  | .unknownEvent category event => s!"No handler for {category} event '{event}'"
  | .decode error => s!"Decode error: {error.message}"
  | .notDecoded => "Payload is not a recognized message"
  | .categoryMismatch description => s!"Category mismatch: {description}"
  | .handler error => s!"Handler failed: {error.message}"
  | .cancelled => "Dispatch cancelled"

/-- The status of an error's response. -/
def status : GatewayError → Nat
  | .unsupportedContentType _ | .missingContext | .invalidCategory _ | .decode _ | .notDecoded
  | .categoryMismatch _ => 400
  | .invalidSignature => 403
  | .unknownHub _ | .unknownEvent _ _ => 404
  | .handler _ => 500
  | .cancelled => 503

/-- What the caller is told. -/
def reason : GatewayError → String
  | .decode _ => "Malformed payload"
  | .handler error => error.message
  | error => error.message

/-- The wordings of what an error goes back to, the nearest first. -/
def sources : GatewayError → List String
  | .decode error => [error.message]
  | .handler error => error.message :: (error.source.map DecodeError.message).toList
  | _ => []

end GatewayError

/-- How a request was answered. -/
structure Response where
  status : Nat
  reason : Option String
  deriving DecidableEq

namespace Response

/-- The response of a handler that completed. -/
def ok : Response := ⟨200, none⟩

/-- The response to an error. -/
def ofError (e : GatewayError) : Response := ⟨e.status, some e.reason⟩

/-- The response to an outcome. -/
def ofOutcome : Except GatewayError Unit → Response
  | .ok _ => ok
  | .error e => ofError e

/-- Whether the status is one of success. -/
def isSuccess (r : Response) : Bool := 200 ≤ r.status && r.status < 300

/-- A response in the terms of HTTP. -/
structure Http where
  status : Nat
  contentType : Option String
  body : String
  deriving DecidableEq

/-- The response in the terms of HTTP: a reason becomes a body of plain text. -/
def toHttp (r : Response) : Http :=
  match r.reason with
  | none => ⟨r.status, none, ""⟩
  | some reason => ⟨r.status, some "text/plain; charset=utf-8", reason⟩

end Response

end HubGateway
