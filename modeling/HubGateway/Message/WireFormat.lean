/-
**Wire formats.**

The body of a request holds a text frame or a binary frame, as its content type says.

Main definitions:

* `HubGateway.WireFormat` — the two formats;
* `HubGateway.WireFormat.ofContentType?` — the format that a content type names;
* `HubGateway.WireFormat.decode` — the message of a body.
-/

import HubGateway.Message.TextFrame
import HubGateway.Message.BinaryFrame
import HubGateway.Text.Blank

set_option relaxedAutoImplicit false
set_option autoImplicit false

namespace HubGateway

/-- The format of a body. -/
inductive WireFormat where
  | json
  | messagePack
  deriving DecidableEq

namespace WireFormat

/-- The media type of a format. -/
def contentType : WireFormat → String
  | .json => "application/json"
  | .messagePack => "application/x-msgpack"

/-- The media type of a content type: what stands before its parameters, without blanks around. -/
def mediaType (contentType : String) : String :=
  Text.trim (String.ofList (contentType.toList.takeWhile (· != ';')))

/-- The format that a content type names, without regard to case. -/
def ofContentType? (contentType : String) : Option WireFormat :=
  let mediaType := mediaType contentType
  if Text.sameAscii mediaType WireFormat.json.contentType then some .json
  else if Text.sameAscii mediaType WireFormat.messagePack.contentType then some .messagePack
  else none

/-- The message of a body, none if it holds no message that is known. -/
def decode (format : WireFormat) (limits : MessagePack.Limits) (body : List UInt8) :
    Except DecodeError (Option Message) :=
  match format with
  | .json => .ok (TextFrame.decode body)
  | .messagePack => BinaryFrame.decode limits body

end WireFormat

end HubGateway
