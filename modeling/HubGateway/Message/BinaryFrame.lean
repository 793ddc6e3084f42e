/-
**Binary frames.**

Only invocations travel in binary.  A frame is an array without names: the type number, a map of
headers, which is read and not kept, an invocation id or nil, the target and the arguments.  The
frame's own count is not used, and what stands behind the last argument is not read.

Main definitions:

* `HubGateway.BinaryFrame.decode` — the message of a frame, none if its type number is unknown;
* `HubGateway.BinaryFrame.encode` — the frame of an invocation.
-/

import HubGateway.Message.Basic
import HubGateway.DecodeError
import HubGateway.MessagePack.Writer

set_option relaxedAutoImplicit false
set_option autoImplicit false

namespace HubGateway.BinaryFrame

open MessagePack

/-! ### Reading -/

/-- Passes over `count` headers, the first with index `index`. -/
def skipHeaders : Nat → Nat → List UInt8 → Except DecodeError (List UInt8)
  | 0, _, bytes => .ok bytes
  | count + 1, index, bytes =>
    match (readString bytes).named s!"headers[{index}].Key" with
    | (.error e, _) => .error e
    | (.ok _, rest) =>
      match (readString rest).named s!"headers[{index}].Value" with
      | (.error e, _) => .error e
      | (.ok _, rest) => skipHeaders count (index + 1) rest

/-- `count` arguments, the first with index `index`, in front of which `acc` was read (last argument
first). -/
def readArguments (limits : Limits) :
    Nat → Nat → List Value → List UInt8 → Except DecodeError (List Value)
  | 0, _, acc, _ => .ok acc.reverse
  | count + 1, index, acc, bytes =>
    match readField limits s!"arguments[{index}]" bytes with
    | (.error e, _) => .error e
    | (.ok value, rest) => readArguments limits count (index + 1) (value :: acc) rest

/-- What follows the type number of an invocation. -/
def readInvocation (limits : Limits) (bytes : List UInt8) : Except DecodeError Invocation :=
  match (readMapHeader bytes).named "headers" with
  | (.error e, _) => .error e
  | (.ok count, rest) =>
    match skipHeaders count 0 rest with
    | .error e => .error e
    | .ok rest =>
      match (readOptionalString rest).named "invocationId" with
      | (.error e, _) => .error e
      | (.ok id, rest) =>
        match (readString rest).named "target" with
        | (.error e, _) => .error e
        | (.ok target, rest) =>
          match (readArrayHeader rest).named "arguments" with
          | (.error e, _) => .error e
          | (.ok count, rest) =>
            match readArguments limits count 0 [] rest with
            | .error e => .error e
            | .ok arguments => .ok ⟨invocationType, id.bind nonEmpty, target, arguments⟩

/-- The message of a frame; a frame of another type is no message. -/
def decode (limits : Limits) (bytes : List UInt8) : Except DecodeError (Option Message) :=
  match (readArrayHeader bytes).named "frame" with
  | (.error e, _) => .error e
  | (.ok _, rest) =>
    match (readInt32 rest).named "messageType" with
    | (.error e, _) => .error e
    | (.ok messageType, rest) =>
      if messageType = invocationType then
        (readInvocation limits rest).map fun m => some (.invocation m)
      else .ok none

/-! ### Writing -/

/-- An invocation id, or nil. -/
def writeId : Option String → List UInt8
  | none => [0xC0]
  | some id => writeString id

/-- The frame of an invocation, whatever type number it carries. -/
def encode (m : Invocation) : List UInt8 :=
  arrayHeader 5 ++ writeInteger 1 ++ mapHeader 0 ++ writeId m.invocationId ++ writeString m.target
    ++ arrayHeader m.arguments.length ++ writeItems m.arguments

end HubGateway.BinaryFrame
