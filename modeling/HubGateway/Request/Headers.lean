/-
**Request headers.**

A request carries header fields; names are compared without regard to case, and one name may have
several values, whose order counts.  A value is a list of bytes.  Read as text, the values of a name
are joined with commas; those that are not UTF-8 are left out, and a text that is blank counts as
absent.

Main definitions:

* `HubGateway.Headers` — header fields under lowercase names;
* `HubGateway.Headers.first?` — the first value of a name, if it is plain visible text;
* `HubGateway.Headers.value?` — all values of a name as one text;
* `HubGateway.Headers.collect` — the texts of all names.
-/

import HubGateway.Entries
import HubGateway.Text.Utf8
import HubGateway.Text.Blank
import HubGateway.Text.Lowercase

set_option relaxedAutoImplicit false
set_option autoImplicit false

namespace HubGateway

/-- Header fields in the order of the request, each name in lowercase. -/
structure Headers where
  fields : List (String × List UInt8)

namespace Headers

/-- The fields of a request, as they were sent. -/
def ofList (fields : List (String × List UInt8)) : Headers :=
  ⟨fields.map fun (name, value) => (Text.lowerAscii name, value)⟩

/-- The values of a name in order. -/
def values (h : Headers) (name : String) : List (List UInt8) :=
  (h.fields.filter fun field => field.1 == Text.lowerAscii name).map Prod.snd

/-- A byte of plain text: visible ASCII, the space or the tab. -/
def isPlain (b : UInt8) : Bool := (0x20 ≤ b && b ≤ 0x7E) || b == 0x09

/-- The first value of a name, if it is plain text. -/
def first? (h : Headers) (name : String) : Option String :=
  match h.values name with
  | [] => none
  | value :: _ => if value.all isPlain then Utf8.decode? value else none

/-- Texts with commas between them. -/
def joinValues (texts : List String) : String :=
  String.ofList ([','].intercalate (texts.map String.toList))

/-- The values of a name as one text, unless it is blank. -/
def value? (h : Headers) (name : String) : Option String :=
  let joined := joinValues ((h.values name).filterMap Utf8.decode?)
  if Text.isBlankText joined then none else some joined

/-- The texts of all names that have one. -/
def collect (h : Headers) : List (String × String) :=
  Entries.ofList (h.fields.filterMap fun (name, _) => (h.value? name).map fun value => (name, value))

/-! ### Names -/

/-- The name of the header that says how the body is encoded. -/
def contentType : String := "content-type"

/-- The name of the header with the connection's id. -/
def connectionId : String := "x-asrs-connection-id"

/-- The name of the header with the hub's name. -/
def hub : String := "x-asrs-hub"

/-- The name of the header with the category of the event. -/
def category : String := "x-asrs-category"

/-- The name of the header with the event's name. -/
def event : String := "x-asrs-event"

/-- The name of the header with the user's id. -/
def userId : String := "x-asrs-user-id"

/-- The name of the header with the query of the client's connection. -/
def clientQuery : String := "x-asrs-client-query"

/-- The name of the header with the user's claims. -/
def userClaims : String := "x-asrs-user-claims"

/-- The name of the header with the signatures. -/
def signature : String := "x-asrs-signature"

end Headers

end HubGateway
