/-
**Decoding errors.**

The binary encoding carries no field names, so an error names the logical field that was being
read, such as `arguments[1].name`, beside what went wrong with it.

Main definitions:

* `HubGateway.DecodeError` — a field and a cause;
* `HubGateway.DecodeError.message` — its wording.
-/

import HubGateway.MessagePack.Reader
import HubGateway.Binding.Schema

set_option relaxedAutoImplicit false
set_option autoImplicit false

namespace HubGateway

/-- What went wrong with a field. -/
inductive DecodeError.Cause where
  /-- Its bytes could not be read. -/
  | unread (cause : MessagePack.Cause)
  /-- It does not have the form that was asked for. -/
  | unbound (mismatch : Mismatch)
  /-- There is no argument with its index. -/
  | absentArgument
  /-- What a host reports in words of its own. -/
  | other (text : String)
  deriving DecidableEq

/-- A payload could not be decoded. -/
structure DecodeError where
  field : String
  cause : DecodeError.Cause
  deriving DecidableEq

namespace DecodeError

/-- The wording of a cause. -/
def Cause.message : Cause → String
  | .unread cause => cause.message
  | .unbound mismatch => mismatch.message
  | .absentArgument => "argument not present"
  | .other text => text

/-- The wording of an error. -/
def message (e : DecodeError) : String := s!"Reading '{e.field}' failed: {e.cause.message}"

/-- The error of a read of `field` that failed within its value. -/
def ofFailure (field : String) (f : MessagePack.Failure) : DecodeError :=
  ⟨MessagePack.fieldAt field f.path, .unread f.cause⟩

end DecodeError

namespace MessagePack

/-- The outcome of a read of `field`. -/
def Outcome.named {α : Type} (field : String) : Outcome Cause α → Outcome DecodeError α :=
  Outcome.map (fun cause => ⟨field, .unread cause⟩) id

/-- Reads the value of `field`. -/
def readField (limits : Limits) (field : String) (bytes : List UInt8) : Outcome DecodeError Value :=
  (readValue limits bytes).map (.ofFailure field) id

/-- Makes a read of `field` at a cursor. -/
def Call.runAs (call : Call) (field : String) (bytes : List UInt8) : Outcome DecodeError Item :=
  (call.run bytes).map (.ofFailure field) id

end MessagePack

end HubGateway
