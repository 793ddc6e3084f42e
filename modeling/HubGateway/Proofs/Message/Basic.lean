/-
**What messages say.**

An invocation may carry an id, and a closing message may say why the connection closed.  Where an
empty text stands in place of such a text, it counts as none.

Main definitions:

* `HubGateway.Message.keptText` — what counts of an optional text;
* `HubGateway.Message.optionalText`, `Message.arguments` — what only some messages carry;
* `HubGateway.Message.HasOwnType` — messages as they are sent.

Main statements:

* `HubGateway.Message.bind_nonEmpty` — decoders keep of a text what counts of it.
-/

import HubGateway.Message.Basic

set_option relaxedAutoImplicit false
set_option autoImplicit false

namespace HubGateway.Message

/-! ### Parts of messages -/

/-- The text of a message that may be missing: an invocation id, or why a connection closed. -/
def optionalText : Message → Option String
  | .invocation m => m.invocationId
  | .openConnection _ => none
  | .closeConnection m => m.error

/-- The arguments of a message; only invocations have any. -/
def arguments : Message → List Value
  | .invocation m => m.arguments
  | _ => []

/-- The message carries the type number of its kind. -/
def HasOwnType : Message → Prop
  | .invocation m => m.messageType = invocationType
  | .openConnection messageType => messageType = openConnectionType
  | .closeConnection m => m.messageType = closeConnectionType

/-! ### Optional texts -/

/-- What counts of an optional text: an empty one is none. -/
def keptText : Option String → Option String
  | none => none
  | some "" => none
  | some text => some text

section Kept

variable {text : Option String} {s : String}

theorem keptText_some (h : s ≠ "") : keptText (some s) = some s := by
  rw [keptText]
  exact h

theorem keptText_of_ne (h : text ≠ some "") : keptText text = text := by
  cases text with
  | none => rfl
  | some s => exact keptText_some fun hs => h (congrArg some hs)

/-- What counts is a text that is not empty. -/
theorem keptText_eq_some_iff : keptText text = some s ↔ text = some s ∧ s ≠ "" := by
  constructor
  · intro h
    unfold keptText at h
    split at h
    next => cases h
    next => cases h
    next t ht =>
      cases h
      exact ⟨rfl, ht⟩
  · rintro ⟨rfl, hs⟩
    exact keptText_some hs

theorem keptText_ne (text : Option String) : keptText text ≠ some "" :=
  fun h => (keptText_eq_some_iff.1 h).2 rfl

/-- **Decoders keep of a text what counts of it.** -/
theorem bind_nonEmpty (text : Option String) : text.bind nonEmpty = keptText text := by
  unfold keptText
  split
  next => rfl
  next => rfl
  next s hs => exact if_neg hs

end Kept

end HubGateway.Message
