/-
**Handlers.**

What a handler is, is up to the host.  The gateway knows only this about the host's type of
handlers: whether one asks for its arguments in a declared form, and what a call of one does.  A
call may register further handlers, and it completes, fails, or does not end.

A handler with a declared form is called only if all arguments bind to the form.

Main definitions:

* `HubGateway.Activity` — what one call does;
* `HubGateway.Handling` — what the gateway knows about handlers;
* `HubGateway.Call`, `HubGateway.Run` — calls made, and what came of them;
* `HubGateway.Registry.invoke` — calls the handler of a context's route.
-/

import HubGateway.Gateway.Registry
import HubGateway.Gateway.Error

set_option relaxedAutoImplicit false
set_option autoImplicit false

namespace HubGateway

/-- How a call ends. -/
inductive Completion where
  | completed
  | failed (error : HandlerError)
  /-- The call does not end. -/
  | pending
  deriving DecidableEq

/-- What one call of a handler does: the handlers it registers, and how it ends. -/
structure Activity (H : Type) where
  registrations : List (Route × H) := []
  completion : Completion

/-- What the gateway knows about the host's handlers. -/
class Handling (H : Type) where
  /-- The form in which a handler asks for its arguments. -/
  schema? : H → Option Schema
  /-- What a call of a handler does, given its bound arguments if it asks for a form. -/
  act : H → Context → Option Bound → Activity H

/-- A call of a handler. -/
structure Call (H : Type) where
  handler : H
  context : Context
  /-- The bound arguments of a handler that asks for a form. -/
  bound : Option Bound

/-- The result of work that may not end. -/
inductive Progress (α : Type) where
  | done (result : α)
  | pending

/-- What came of asking for a handler: the calls made, the registry afterwards, and the result. -/
structure Run (H : Type) where
  calls : List (Call H)
  registry : Registry H
  outcome : Progress (Except GatewayError Unit)

variable {H : Type}

/-- A run without a call that ends in an error. -/
def Run.refused (g : Registry H) (e : GatewayError) : Run H := ⟨[], g, .done (.error e)⟩

/-- The result of a call that ended in some way. -/
def Completion.outcome : Completion → Progress (Except GatewayError Unit)
  | .completed => .done (.ok ())
  | .failed error => .done (.error (.handler error))
  | .pending => .pending

/-- Calls a handler. -/
def Registry.call [Handling H] (g : Registry H) (handler : H) (c : Context)
    (bound : Option Bound) : Run H :=
  let activity := Handling.act handler c bound
  ⟨[⟨handler, c, bound⟩], g.registerAll activity.registrations, activity.completion.outcome⟩

/-- Calls a handler, with its arguments bound if it asks for a form. -/
def Registry.start [Handling H] (g : Registry H) (handler : H) (c : Context) : Run H :=
  match Handling.schema? handler with
  | none => g.call handler c none
  | some schema =>
    match c.argumentsAs schema with
    | .ok bound => g.call handler c (some bound)
    | .error e => .refused g (.handler (.ofDecodeError e))

/-- Calls the handler of a context's route. -/
def Registry.invoke [Handling H] (g : Registry H) (c : Context) : Run H :=
  match g.find? c.route with
  | none => .refused g (.unknownEvent c.category.label c.event)
  | some handler => g.start handler c

end HubGateway
