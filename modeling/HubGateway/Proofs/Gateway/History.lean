/-
**What a run leaves behind.**

Two things change in the course of a run: handlers are registered, by the host and by handlers that
are called, and the set of keys is replaced.  Everything else about a dispatcher stays.  Its state
is therefore determined by the dispatcher at the beginning, by what was registered, in order, and by
the last replacement of the keys.

Main definitions:

* `HubGateway.Call.registrations`, `HubGateway.Step.registrations` — what a call or step registers;
* `HubGateway.Dispatcher.after` — the dispatcher after steps;
* `HubGateway.Dispatcher.history` — what is registered in the course of steps;
* `HubGateway.Dispatcher.keysInForce` — the keys that count after steps.

Main statements:

* `HubGateway.Dispatcher.dispatcher_step`, `after_eq` — the state after one step and after all;
* `HubGateway.Dispatcher.getElem?_run` — what came of each step of a run.
-/

import HubGateway.Gateway.Dispatcher
import HubGateway.Proofs.Gateway.Registry

set_option relaxedAutoImplicit false
set_option autoImplicit false

namespace HubGateway

variable {H : Type}

/-! ### Registrations and keys -/

/-- The handlers that a call registers. -/
def Call.registrations [Handling H] (call : Call H) : List (Route × H) :=
  (Handling.act call.handler call.context call.bound).registrations

/-- The handlers that a step registers: the host's, or those of the calls made in it. -/
def Step.registrations [Handling H] (calls : List (Call H)) : Step H → List (Route × H)
  | .register route handler => [(route, handler)]
  | _ => calls.flatMap Call.registrations

/-- The set of keys that a step puts in the place of the old one. -/
def Step.replacement? : Step H → Option (List String)
  | .rotate keys => some keys
  | _ => none

/-- The last set of keys that steps put in the place of the old one. -/
def Step.lastReplacement? (steps : List (Step H)) : Option (List String) :=
  (steps.filterMap Step.replacement?).getLast?

theorem Step.lastReplacement?_cons (step : Step H) (steps : List (Step H)) (keys : List String) :
    (lastReplacement? (step :: steps)).getD keys =
      (lastReplacement? steps).getD (step.replacement?.getD keys) := by
  unfold lastReplacement?
  cases h : step.replacement? with
  | none => rw [List.filterMap_cons_none h, Option.getD_none]
  | some keys =>
      rw [List.filterMap_cons_some h, List.getLast?_cons, Option.getD_some, Option.getD_some]

/-- Nothing is registered in a run but by the calls made in it. -/
def Run.RegistersFrom [Handling H] (g : Registry H) (run : Run H) : Prop :=
  run.registry = g.registerAll (run.calls.flatMap Call.registrations)

theorem registersFrom_refused [Handling H] (g : Registry H) (e : GatewayError) :
    (Run.refused g e).RegistersFrom g := rfl

theorem registersFrom_call [Handling H] (g : Registry H) (handler : H) (c : Context)
    (bound : Option Bound) : (g.call handler c bound).RegistersFrom g := by
  simp [Run.RegistersFrom, Registry.call, Call.registrations]

theorem registersFrom_start [Handling H] (g : Registry H) (handler : H) (c : Context) :
    (g.start handler c).RegistersFrom g := by
  unfold Registry.start
  split
  next => exact registersFrom_call g handler c none
  split
  next bound hbound => exact registersFrom_call g handler c (some bound)
  next => exact registersFrom_refused g _

theorem registersFrom_invoke [Handling H] (g : Registry H) (c : Context) :
    (g.invoke c).RegistersFrom g := by
  unfold Registry.invoke
  split
  next => exact registersFrom_refused g _
  next handler hfind => exact registersFrom_start g handler c

/-! ### Steps -/

namespace Dispatcher

variable [Handling H]

theorem registersFrom_giveUp {g : Registry H} {run : Run H} (h : run.RegistersFrom g) :
    (giveUp run).RegistersFrom g := by
  unfold giveUp
  split
  next => exact h
  next => exact h

theorem dispatcher_finish {d : Dispatcher H} {run : Run H} (h : run.RegistersFrom d.registry) :
    (d.finish run).dispatcher = { d with
      registry := d.registry.registerAll ((d.finish run).calls.flatMap Call.registrations) } := by
  rw [finish, h]

theorem dispatcher_dispatch (d : Dispatcher H) (r : Request) :
    (d.dispatch r).dispatcher = { d with
      registry := d.registry.registerAll ((d.dispatch r).calls.flatMap Call.registrations) } := by
  unfold dispatch
  split
  next => exact dispatcher_finish (registersFrom_refused _ _)
  next => exact dispatcher_finish (registersFrom_invoke _ _)

theorem dispatcher_dispatchWithCancel (d : Dispatcher H) (signal : Signal) (r : Request) :
    (d.dispatchWithCancel signal r).dispatcher = { d with
      registry := d.registry.registerAll
        ((d.dispatchWithCancel signal r).calls.flatMap Call.registrations) } := by
  unfold dispatchWithCancel
  split
  next => exact dispatcher_finish (registersFrom_refused _ _)
  next =>
    cases signal with
    | never => exact dispatcher_finish (registersFrom_invoke _ _)
    | beforeHandler => exact dispatcher_finish (registersFrom_refused _ _)
    | afterHandler => exact dispatcher_finish (registersFrom_giveUp (registersFrom_invoke _ _))

/-- A step changes nothing but the registry and the set of keys. -/
theorem dispatcher_step (d : Dispatcher H) (step : Step H) :
    (d.step step).dispatcher = { d with
      registry := d.registry.registerAll (step.registrations (d.step step).calls)
      rotation := step.replacement?.getD d.rotation } := by
  cases step with
  | register route handler => rfl
  | rotate keys => rfl
  | dispatch r => exact dispatcher_dispatch d r
  | dispatchWithCancel signal r => exact dispatcher_dispatchWithCancel d signal r
  | invoke c => exact dispatcher_finish (registersFrom_invoke _ _)

/-! ### Runs -/

/-- The dispatcher after steps. -/
def after (d : Dispatcher H) (steps : List (Step H)) : Dispatcher H :=
  steps.foldl (fun d step => (d.step step).dispatcher) d

/-- What is registered in the course of steps, by the host and by handlers, in order. -/
def history (d : Dispatcher H) (steps : List (Step H)) : List (Route × H) :=
  (steps.zip (d.run steps)).flatMap fun (step, dispatched) => step.registrations dispatched.calls

/-- The keys that signatures are checked with after steps. -/
def keysInForce (d : Dispatcher H) (steps : List (Step H)) : List String :=
  match d.source with
  | .fixed keys => keys
  | .rotating => (Step.lastReplacement? steps).getD d.rotation

theorem history_cons (d : Dispatcher H) (step : Step H) (steps : List (Step H)) :
    d.history (step :: steps) =
      step.registrations (d.step step).calls ++ (d.step step).dispatcher.history steps := rfl

/-- **The state after steps** follows from what was registered and which keys were set last. -/
theorem after_eq (d : Dispatcher H) (steps : List (Step H)) :
    d.after steps = { d with
      registry := d.registry.registerAll (d.history steps)
      rotation := (Step.lastReplacement? steps).getD d.rotation } := by
  induction steps generalizing d with
  | nil => rfl
  | cons step steps ih =>
      -- the first step hands a dispatcher to the others that differs in these two parts alone
      have hstep := dispatcher_step d step
      rw [history_cons, Step.lastReplacement?_cons, Registry.registerAll_append]
      rw [after, List.foldl_cons, ← after, ih, hstep]

theorem candidateKeys_after (d : Dispatcher H) (steps : List (Step H)) :
    (d.after steps).candidateKeys = d.keysInForce steps := by
  rw [after_eq]
  rfl

/-- What came of each step of a run is what comes of it after the steps before. -/
theorem getElem?_run (d : Dispatcher H) (steps : List (Step H)) (i : Nat) :
    (d.run steps)[i]? = steps[i]?.map (d.after (steps.take i)).step := by
  induction steps generalizing d i with
  | nil => rfl
  | cons step steps ih =>
      cases i with
      | zero => rfl
      | succ i => exact ih (d.step step).dispatcher i

end Dispatcher

/-! ### A run that changes its own routes -/

/-- A handler that registers handlers of its kind, which register none, and completes. -/
structure Registrar where
  routes : List Route
  deriving DecidableEq

namespace Registrar

instance : Handling Registrar where
  schema? _ := none
  act handler _ _ := ⟨handler.routes.map fun route => (route, ⟨[]⟩), .completed⟩

/-- A request whose connection and signatures stand in several fields. -/
def request (event : String) : Request where
  headers := .ofList [
    ("Content-Type", Utf8.encode "application/json"),
    (Headers.connectionId, Utf8.encode "c1"), (Headers.connectionId, Utf8.encode "c2"),
    (Headers.hub, Utf8.encode "chat"), (Headers.category, Utf8.encode " Connections"),
    (Headers.event, Utf8.encode event), (Headers.signature, [0xFF]),
    (Headers.signature, Utf8.encode "none , SHA256=6B63312C6332")]
  body := Utf8.encode "\x7b\"type\":10\x7d"

/-- A dispatcher without keys, whose digests are the keys and the messages themselves. -/
def dispatcher : Dispatcher Registrar where
  source := .rotating
  digest key message := key ++ message

/-- The handler of the first request registers that of the second one. -/
def steps : List (Step Registrar) :=
  [.register ⟨"Chat", .connections, "CONNECTED"⟩ ⟨[⟨"chat", .connections, "again"⟩]⟩,
    .rotate ["", "k"], .dispatch (request "connected"), .dispatch (request "again")]

end Registrar

end HubGateway
