/-
**What a handler is told.**

A handler is told what the headers of its request say and what its message carries.  The message
completes the context of the headers: it fills in the parts that headers do not have and leaves the
others alone.  Whatever the kind of the message, the category of the context, its event and its
parts fit together, and the handler is one that was registered for messages of that kind.

Main definitions:

* `HubGateway.Context.IsBare`, `HubGateway.Context.KeepsHeaders` — the part of the headers;
* `HubGateway.Context.Coherent` — a context fits a message;
* `HubGateway.Request.Says` — the context and the message that a request holds.

Main statements:

* `HubGateway.Context.Agrees.keepsHeaders`, `HubGateway.Context.Agrees.coherent` — one message;
* `HubGateway.Dispatcher.coherent_of_prepare` — one request;
* `HubGateway.Dispatcher.run_calls_coherent` — **every call of a run**.
-/

import HubGateway.Proofs.Gateway.Answers
import HubGateway.Proofs.Gateway.Authentication
import HubGateway.Proofs.Gateway.Table

set_option relaxedAutoImplicit false
set_option autoImplicit false

namespace HubGateway

/-! ### Contexts and messages -/

namespace Context

/-- Nothing of a message is in the context. -/
structure IsBare (c : Context) : Prop where
  arguments : c.arguments = none
  invocationId : c.invocationId = none
  error : c.error = none

/-- The context says all that the headers say. -/
structure KeepsHeaders (c c₀ : Context) : Prop where
  connectionId : c.connectionId = c₀.connectionId
  hub : c.hub = c₀.hub
  category : c.category = c₀.category
  event : c.event = c₀.event
  userId : c.userId = c₀.userId
  query : c.query = c₀.query
  claims : c.claims = c₀.claims
  headers : c.headers = c₀.headers

/-- The context fits the message, and says all that the message carries and nothing else. -/
structure Coherent (c : Context) (m : Message) : Prop where
  /-- Calls of methods have the category of messages, and nothing else has it. -/
  category : c.category = .messages ↔ ∃ i, m = .invocation i
  /-- There are arguments if and only if the category is that of messages. -/
  arguments : c.arguments.isSome ↔ c.category = .messages
  /-- They and the id are those of the call, whose target is the event up to the case of letters. -/
  invocation : ∀ i, m = .invocation i → c.arguments = some i.arguments ∧
    c.invocationId = i.invocationId ∧ Text.lowercase i.target = Text.lowercase c.event
  /-- Clients that connect or disconnect do not wait for a result. -/
  invocationId : c.category = .connections → c.invocationId = none
  /-- The error is the one that a closing message carries. -/
  error : ∀ e, c.error = some e ↔ c.category = .connections ∧
    ∃ closed, m = .closeConnection closed ∧ closed.error = some e
  /-- Nobody who connects is disconnecting. -/
  connected : Text.lowercase c.event = "connected" → ∀ closed, m ≠ .closeConnection closed
  /-- Nobody who disconnects is connecting. -/
  disconnected : Text.lowercase c.event = "disconnected" →
    ∀ messageType, m ≠ .openConnection messageType

variable {c c₀ : Context} {m : Message}

/-- A message leaves the part of the headers alone. -/
theorem Agrees.keepsHeaders (h : c₀.Agrees m c) : c.KeepsHeaders c₀ := by
  cases h with
  | invocation hcategory htarget => exact ⟨rfl, rfl, rfl, rfl, rfl, rfl, rfl, rfl⟩
  | opened hcategory hevent => exact ⟨rfl, rfl, rfl, rfl, rfl, rfl, rfl, rfl⟩
  | closed hcategory hevent => exact ⟨rfl, rfl, rfl, rfl, rfl, rfl, rfl, rfl⟩

/-- **A message completes a bare context to one that fits it.** -/
theorem Agrees.coherent (h : c₀.Agrees m c) (hbare : c₀.IsBare) : c.Coherent m := by
  have hconnected : Text.lowercase connectedEvent = "connected" := by decide +kernel
  have hdisconnected : Text.lowercase disconnectedEvent = "disconnected" := by decide +kernel
  cases h with
  | invocation hcategory htarget =>
      refine ⟨by simp [hcategory], by simp [hcategory], ?_, by simp [hcategory], ?_, ?_, ?_⟩
      · intro i hi
        cases hi
        exact ⟨rfl, rfl, htarget⟩
      · simp [hbare.error]
      · simp
      · simp
  | opened hcategory hevent =>
      refine ⟨by simp [hcategory], by simp [hcategory, hbare.arguments], by simp, ?_, ?_, ?_, ?_⟩
      · intro _
        exact hbare.invocationId
      · simp [hbare.error]
      · simp
      · intro hdisconnects
        exact absurd (hdisconnects.trans hdisconnected.symm) hevent
  | closed hcategory hevent =>
      refine ⟨by simp [hcategory], by simp [hcategory, hbare.arguments], by simp, ?_, ?_, ?_, ?_⟩
      · intro _
        exact hbare.invocationId
      · simp [hcategory]
      · intro hconnects
        exact absurd (hconnects.trans hconnected.symm) hevent
      · simp

end Context

/-- The context of headers is bare. -/
theorem Headers.Gives.isBare {h : Headers} {c : Context} (hc : h.Gives c) : c.IsBare := by
  rw [hc.optional]
  exact ⟨rfl, rfl, rfl⟩

/-! ### Requests -/

/-- The headers of the request say the context, and its body holds the message. -/
def Request.Says (r : Request) (limits : MessagePack.Limits) (c : Context) (m : Message) : Prop :=
  r.headers.context = .ok c ∧ ∃ format, r.headers.wireFormat? = some format ∧
    format.decode limits r.body = .ok (some m)

namespace Dispatcher

variable {H : Type}

/-- **What is prepared from a request** says what its headers say, and fits its message. -/
theorem coherent_of_prepare {d : Dispatcher H} {r : Request} {c : Context}
    (h : d.prepare r = .ok c) :
    ∃ c₀ m, r.Says d.limits c₀ m ∧ c.KeepsHeaders c₀ ∧ c.Coherent m := by
  obtain ⟨format, c₀, m, hformat, -, hcontext, -, hbody, hagrees⟩ := checks_of_prepare h
  have hbare := (Headers.gives_of_context hcontext).isBare
  exact ⟨c₀, m, ⟨hcontext, format, hformat, hbody⟩, hagrees.keepsHeaders, hagrees.coherent hbare⟩

end Dispatcher

/-! ### Handlers -/

namespace Registry

variable {H : Type}

/-- What is registered last for a route was registered for it. -/
theorem exists_of_latest {registrations : List (Route × H)} {route : Route} {handler : H}
    (h : latest registrations route = some handler) :
    ∃ r, (r, handler) ∈ registrations ∧ r.folded = route.folded := by
  obtain ⟨front, r, back, hregistrations, hr, -⟩ := latest_eq_some_iff.1 h
  exact ⟨r, by simp [hregistrations], hr⟩

variable [Handling H]

theorem handler_of_mem_start {g : Registry H} {handler : H} {c : Context} {call : Call H}
    (h : call ∈ (g.start handler c).calls) : call.handler = handler := by
  rcases g.start_cases handler c with ⟨bound, -, hstart⟩ | ⟨-, e, hstart⟩
  · rw [hstart] at h
    rw [List.mem_singleton.1 h]
  · rw [hstart] at h
    cases h

/-- The handler that is called is the one that the route of its context selects. -/
theorem find?_of_mem_invoke {g : Registry H} {c : Context} {call : Call H}
    (h : call ∈ (g.invoke c).calls) : g.find? c.route = some call.handler := by
  unfold invoke at h
  split at h
  next => cases h
  next handler hfind => rw [hfind, handler_of_mem_start h]

end Registry

/-! ### Runs -/

namespace Dispatcher

variable {H : Type} [Handling H]

section Run

variable {d : Dispatcher H} {steps : List (Step H)} {i : Nat} {r : Request}

/-- The calls that are made in answer to a request of a run are those of the dispatcher that the
steps before have left. -/
theorem mem_calls_after (hstep : steps[i]? = some (.dispatch r) ∨
      ∃ signal, steps[i]? = some (.dispatchWithCancel signal r))
    {out : Dispatched H} (hout : (d.run steps)[i]? = some out) {call : Call H}
    (hcall : call ∈ out.calls) :
    call ∈ ((d.after (steps.take i)).dispatch r).calls ∨
      ∃ signal, call ∈ ((d.after (steps.take i)).dispatchWithCancel signal r).calls := by
  rw [getElem?_run] at hout
  rcases hstep with hstep | ⟨signal, hstep⟩
  · rw [hstep] at hout
    cases hout
    exact .inl hcall
  · rw [hstep] at hout
    cases hout
    exact .inr ⟨signal, hcall⟩

/-- **Every call of a run is told what its request says.**  The context has the part of the headers
as it is, and of the message what it carries.  The handler was registered for the route, so that it
is one for messages if and only if the message calls a method. -/
theorem run_calls_coherent {built : List (Route × H)}
    (hbuilt : d.registry = Registry.registerAll {} built)
    (hstep : steps[i]? = some (.dispatch r) ∨
      ∃ signal, steps[i]? = some (.dispatchWithCancel signal r))
    {out : Dispatched H} (hout : (d.run steps)[i]? = some out) {call : Call H}
    (hcall : call ∈ out.calls) :
    ∃ c₀ m, r.Says d.limits c₀ m ∧ call.context.KeepsHeaders c₀ ∧ call.context.Coherent m ∧
      ∃ route, (route, call.handler) ∈ built ++ d.history (steps.take i) ∧
        route.folded = call.context.route.folded ∧
        (route.category = .messages ↔ ∃ i, m = .invocation i) := by
  obtain ⟨c, hprepare, hinvoke⟩ := mem_invoke_of_mem_calls (mem_calls_after hstep hout hcall)
  -- the context that was prepared is the one that the handler is given
  obtain rfl := Registry.context_of_mem_invoke hinvoke
  have hrealizes := realizes_after hbuilt (steps.take i)
  obtain ⟨c₀, m, hsays, hkeeps, hcoherent⟩ := coherent_of_prepare hprepare
  rw [hrealizes.limits] at hsays
  have hfind := Registry.find?_of_mem_invoke hinvoke
  rw [hrealizes.find?] at hfind
  obtain ⟨route, hroute, hfolded⟩ := Registry.exists_of_latest hfind
  -- folding a route keeps its category
  have hcategory : route.category = call.context.category := congrArg Route.category hfolded
  exact ⟨c₀, m, hsays, hkeeps, hcoherent, route, hroute, hfolded,
    by rw [hcategory, hcoherent.category]⟩

end Run

/-- A method is called whose target, event and route are spelled in three ways. -/
theorem run_calls_coherent_spelled :
    let r : Request := {
      headers := .ofList [("Content-Type", Utf8.encode "application/json"),
        (Headers.connectionId, Utf8.encode "c1"), (Headers.hub, Utf8.encode "CHAT"),
        (Headers.category, Utf8.encode " Messages"), (Headers.event, Utf8.encode "SEND"),
        (Headers.signature, Utf8.encode "sha256=6b6331")]
      body := Utf8.encode
        "\x7b\"type\":1,\"invocationId\":\"7\",\"target\":\"Send\",\"arguments\":[true]\x7d" }
    let steps : List (Step Registrar) := [.rotate ["k"], .register ⟨"chat", .messages, "send"⟩ ⟨[]⟩,
      .dispatchWithCancel .afterHandler r]
    Registrar.dispatcher.registry = Registry.registerAll {} [] ∧
    steps[2]? = some (.dispatchWithCancel .afterHandler r) ∧
    ∃ out call, (Registrar.dispatcher.run steps)[2]? = some out ∧ call ∈ out.calls ∧
      call.context.event = "SEND" ∧ call.context.invocationId = some "7" ∧
    ∃ c₀ m, r.Says Registrar.dispatcher.limits c₀ m ∧ call.context.KeepsHeaders c₀ ∧
      call.context.Coherent m ∧
      ∃ route, (route, call.handler) ∈ [] ++ Registrar.dispatcher.history (steps.take 2) ∧
        route.folded = call.context.route.folded ∧
        (route.category = .messages ↔ ∃ i, m = .invocation i) := by
  intro r steps
  have hbuilt : Registrar.dispatcher.registry = Registry.registerAll {} [] := rfl
  have hstep : steps[2]? = some (.dispatchWithCancel .afterHandler r) := rfl
  have hcalls : (Registrar.dispatcher.run steps)[2]?.map (fun out => out.calls.map fun call =>
      (call.context.event, call.context.invocationId)) = some [("SEND", some "7")] := by
    decide +kernel
  obtain ⟨out, hout, hcontexts⟩ := Option.map_eq_some_iff.1 hcalls
  obtain ⟨call, hcall, hcontext⟩ := List.map_eq_singleton_iff.1 hcontexts
  obtain ⟨hevent, hid⟩ := Prod.mk.inj hcontext
  have hmem : call ∈ out.calls := by rw [hcall]; exact List.mem_singleton_self call
  exact ⟨hbuilt, hstep, out, call, hout, hmem, hevent, hid,
    run_calls_coherent hbuilt (.inr ⟨_, hstep⟩) hout hmem⟩

end Dispatcher

end HubGateway
