/-
**Dispatching requests.**

Every request runs through the same checks, and the first that fails decides the answer: the
content type, the signature, the headers of the context, the hub, the body, the agreement of the
message with the headers, and the route.  What passes them all is given to the handler of its
route.

The keys that signatures are checked with are fixed, or they are a set that can be replaced while
the dispatcher runs.  A host may give up waiting: when its signal and the handler are both ready
to be looked at, either may be looked at first.

Main definitions:

* `HubGateway.KeySource`, `HubGateway.Dispatcher` — a dispatcher with its registry and keys;
* `HubGateway.Dispatcher.prepare` — the checks in front of the route;
* `HubGateway.Dispatcher.dispatch`, `dispatchWithCancel` — one request;
* `HubGateway.Step`, `HubGateway.Dispatcher.run` — sequences of requests and changes.
-/

import HubGateway.Gateway.Handler
import HubGateway.Gateway.Request
import HubGateway.Request.Signature

set_option relaxedAutoImplicit false
set_option autoImplicit false

namespace HubGateway

/-- Where a dispatcher takes its keys from. -/
inductive KeySource where
  /-- Keys that stay the same. -/
  | fixed (keys : List String)
  /-- The keys that are in force, which can be replaced. -/
  | rotating
  deriving DecidableEq

/-- A dispatcher in some state. -/
structure Dispatcher (H : Type) where
  registry : Registry H := {}
  source : KeySource := .fixed []
  /-- The set of keys that can be replaced. -/
  rotation : List String := []
  limits : MessagePack.Limits := {}
  /-- What signatures are digested with. -/
  digest : KeyedDigest := Hmac.sha256

/-- What came of a request: the calls made, the dispatcher afterwards, and the response. -/
structure Dispatched (H : Type) where
  calls : List (Call H)
  dispatcher : Dispatcher H
  response : Progress Response

/-- When a host stops waiting for a handler. -/
inductive Signal where
  /-- It does not. -/
  | never
  /-- It stops at once, and looks at the signal first. -/
  | beforeHandler
  /-- It stops at once, and looks at the handler first. -/
  | afterHandler
  deriving DecidableEq

namespace Dispatcher

variable {H : Type}

/-- The keys that are in force. -/
def candidateKeys (d : Dispatcher H) : List String :=
  match d.source with
  | .fixed keys => keys
  | .rotating => d.rotation

/-- What is said about a content type that cannot be shown. -/
def noContentType : String := "<none>"

/-- The context of a request that passes all checks in front of the route. -/
def prepare (d : Dispatcher H) (r : Request) : Except GatewayError Context :=
  match r.headers.wireFormat? with
  | none =>
    .error (.unsupportedContentType ((r.headers.first? Headers.contentType).getD noContentType))
  | some format =>
    if !Signature.validates r.headers d.candidateKeys d.digest then .error .invalidSignature
    else
      match r.headers.context with
      | .error e => .error e
      | .ok c =>
        if !d.registry.containsHub c.hub then .error (.unknownHub c.hub)
        else
          match format.decode d.limits r.body with
          | .error e => .error (.decode e)
          | .ok none => .error .notDecoded
          | .ok (some m) =>
            match c.bindMessage m with
            | .error e => .error (.categoryMismatch e.message)
            | .ok c => .ok c

/-- The response to an outcome. -/
def respond : Progress (Except GatewayError Unit) → Progress Response
  | .done outcome => .done (.ofOutcome outcome)
  | .pending => .pending

/-- What came of a run. -/
def finish (d : Dispatcher H) (run : Run H) : Dispatched H :=
  ⟨run.calls, { d with registry := run.registry }, respond run.outcome⟩

/-- A request that ends in an error before any handler is asked for. -/
def reject (d : Dispatcher H) (e : GatewayError) : Dispatched H := d.finish (.refused d.registry e)

variable [Handling H]

/-- Answers a request. -/
def dispatch (d : Dispatcher H) (r : Request) : Dispatched H :=
  match d.prepare r with
  | .error e => d.reject e
  | .ok c => d.finish (d.registry.invoke c)

/-- A run that is given up if it does not end. -/
def giveUp (run : Run H) : Run H :=
  match run.outcome with
  | .done _ => run
  | .pending => { run with outcome := .done (.error .cancelled) }

/-- Answers a request, unless the host stops waiting. -/
def dispatchWithCancel (d : Dispatcher H) (signal : Signal) (r : Request) : Dispatched H :=
  match d.prepare r with
  | .error e => d.reject e
  | .ok c =>
    match signal with
    | .never => d.finish (d.registry.invoke c)
    | .beforeHandler => d.reject .cancelled
    | .afterHandler => d.finish (giveUp (d.registry.invoke c))

end Dispatcher

/-! ### Sequences of steps -/

/-- What happens to a dispatcher. -/
inductive Step (H : Type) where
  | register (route : Route) (handler : H)
  /-- The set of keys is replaced. -/
  | rotate (keys : List String)
  | dispatch (request : Request)
  | dispatchWithCancel (signal : Signal) (request : Request)
  /-- The handler of a context's route is called without a request. -/
  | invoke (context : Context)

namespace Dispatcher

variable {H : Type} [Handling H]

/-- Makes a step. -/
def step (d : Dispatcher H) : Step H → Dispatched H
  | .register route handler =>
    ⟨[], { d with registry := d.registry.register route handler }, .done .ok⟩
  | .rotate keys => ⟨[], { d with rotation := keys }, .done .ok⟩
  | .dispatch request => d.dispatch request
  | .dispatchWithCancel signal request => d.dispatchWithCancel signal request
  | .invoke context => d.finish (d.registry.invoke context)

/-- Makes steps one after the other; gives what came of each. -/
def run (d : Dispatcher H) : List (Step H) → List (Dispatched H)
  | [] => []
  | step :: steps =>
    let dispatched := d.step step
    dispatched :: dispatched.dispatcher.run steps

end Dispatcher

end HubGateway
