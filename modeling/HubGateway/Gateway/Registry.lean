/-
**The registry of handlers.**

A route is a hub, a category and an event.  Hubs and events are compared by their lowercase forms,
and registering a route again replaces its handler.  The registry has a table of hubs, and each hub
a table of its own.

Main definitions:

* `HubGateway.Route` — a route, with `HubGateway.Route.folded`, its lowercase form;
* `HubGateway.Registration` — the ways of registering a handler;
* `HubGateway.Registry` — handlers by folded hub, category and folded event;
* `HubGateway.Registry.register`, `find?`, `containsHub`, `size` — its operations.
-/

import HubGateway.Gateway.Context

set_option relaxedAutoImplicit false
set_option autoImplicit false

namespace HubGateway

/-- What a handler is registered for. -/
structure Route where
  hub : String
  category : Category
  event : String
  deriving DecidableEq

/-- The route with its names in lowercase. -/
def Route.folded (r : Route) : Route := ⟨Text.lowercase r.hub, r.category, Text.lowercase r.event⟩

/-- The route of a context. -/
def Context.route (c : Context) : Route := ⟨c.hub, c.category, c.event⟩

/-! ### Ways of registering -/

/-- A way of registering a handler. -/
inductive Registration (H : Type) where
  | route (hub : String) (category : Category) (event : String) (handler : H)
  /-- For calls of a method. -/
  | message (hub event : String) (handler : H)
  /-- For clients connecting. -/
  | connected (hub : String) (handler : H)
  /-- For clients disconnecting. -/
  | disconnected (hub : String) (handler : H)

/-- The route and the handler of a registration. -/
def Registration.entry {H : Type} : Registration H → Route × H
  | .route hub category event handler => (⟨hub, category, event⟩, handler)
  | .message hub event handler => (⟨hub, .messages, event⟩, handler)
  | .connected hub handler => (⟨hub, .connections, connectedEvent⟩, handler)
  | .disconnected hub handler => (⟨hub, .connections, disconnectedEvent⟩, handler)

/-! ### Tables -/

/-- Sets the value of a key in a table, in place of an older one. -/
def setEntry {K V : Type} [DecidableEq K] (key : K) (value : V) : List (K × V) → List (K × V)
  | [] => [(key, value)]
  | (k, v) :: entries =>
    if k = key then (k, value) :: entries else (k, v) :: setEntry key value entries

/-- The routes of one hub: handlers by category and folded event. -/
abbrev HubRoutes (H : Type) := List ((Category × String) × H)

/-- The routes by folded hub. -/
structure Registry (H : Type) where
  hubs : List (String × HubRoutes H) := []

namespace Registry

variable {H : Type}

/-- Registers a handler; an earlier one of the same route is replaced. -/
def register (g : Registry H) (route : Route) (handler : H) : Registry H :=
  let folded := route.folded
  let routes := (g.hubs.lookup folded.hub).getD []
  ⟨setEntry folded.hub (setEntry (folded.category, folded.event) handler routes) g.hubs⟩

/-- Registers handlers one after the other. -/
def registerAll (g : Registry H) (registrations : List (Route × H)) : Registry H :=
  registrations.foldl (fun g (route, handler) => g.register route handler) g

/-- A registry with handlers that are registered in some way, one after the other. -/
def build (registrations : List (Registration H)) : Registry H :=
  registerAll {} (registrations.map Registration.entry)

/-- The handler that is stored under a folded route. -/
def stored? (g : Registry H) (folded : Route) : Option H :=
  (g.hubs.lookup folded.hub).bind fun routes => routes.lookup (folded.category, folded.event)

/-- The handler of a route. -/
def find? (g : Registry H) (route : Route) : Option H := g.stored? route.folded

/-- Whether any handler is registered under a hub. -/
def containsHub (g : Registry H) (hub : String) : Bool :=
  (g.hubs.lookup (Text.lowercase hub)).isSome

/-- The number of routes. -/
def size (g : Registry H) : Nat := g.hubs.foldr (fun (_, routes) n => routes.length + n) 0

/-- Whether there is no route. -/
def isEmpty (g : Registry H) : Bool := g.size == 0

end Registry

end HubGateway
