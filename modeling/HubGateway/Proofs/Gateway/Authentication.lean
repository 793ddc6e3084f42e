/-
**No call without authentication.**

The check of the signature and the context of the handler read the connection's id from the headers
each for itself, and a message completes the context without changing it.  Whatever happened before
in a run, a handler is therefore only called for a connection whose id was signed, under one of the
keys that are in force at that moment and not empty.

Main statements:

* `HubGateway.Dispatcher.prepare_of_mem_calls` — a call is made with the context that was prepared;
* `HubGateway.Dispatcher.checks_of_prepare` — what is prepared has passed every check;
* `HubGateway.Dispatcher.authentic_of_prepare` — what is prepared is authentic;
* `HubGateway.Dispatcher.run_calls_authentic` — **every call of a run is authenticated**.
-/

import HubGateway.Proofs.Gateway.Checks
import HubGateway.Proofs.Gateway.History
import HubGateway.Proofs.Request.Rotation

set_option relaxedAutoImplicit false
set_option autoImplicit false

namespace HubGateway

variable {H : Type} [Handling H]

/-! ### Calls and their contexts -/

namespace Registry

theorem context_of_mem_start {g : Registry H} {handler : H} {c : Context} {call : Call H}
    (h : call ∈ (g.start handler c).calls) : call.context = c := by
  unfold start at h
  split at h
  next => rw [List.mem_singleton.1 h]
  split at h
  next bound hbound => rw [List.mem_singleton.1 h]
  next => cases h

theorem context_of_mem_invoke {g : Registry H} {c : Context} {call : Call H}
    (h : call ∈ (g.invoke c).calls) : call.context = c := by
  unfold invoke at h
  split at h
  next => cases h
  next handler hfind => exact context_of_mem_start h

end Registry

namespace Dispatcher

omit [Handling H] in
theorem calls_giveUp (run : Run H) : (giveUp run).calls = run.calls := by
  unfold giveUp
  split <;> rfl

/-- A call is made by asking for the handler of the context that was prepared. -/
theorem mem_invoke_of_mem_calls {d : Dispatcher H} {r : Request} {call : Call H}
    (h : call ∈ (d.dispatch r).calls ∨ ∃ signal, call ∈ (d.dispatchWithCancel signal r).calls) :
    ∃ c, d.prepare r = .ok c ∧ call ∈ (d.registry.invoke c).calls := by
  rcases h with h | ⟨signal, h⟩
  · unfold dispatch at h
    split at h
    next => cases h
    next c hprepare => exact ⟨c, hprepare, h⟩
  · unfold dispatchWithCancel at h
    split at h
    next => cases h
    next c hprepare =>
      refine ⟨c, hprepare, ?_⟩
      cases signal with
      | never => exact h
      | beforeHandler => cases h
      | afterHandler =>
          have hcalls : call ∈ (giveUp (d.registry.invoke c)).calls := h
          rw [calls_giveUp] at hcalls
          exact hcalls

/-- A call is made with the context that was prepared. -/
theorem prepare_of_mem_calls {d : Dispatcher H} {r : Request} {call : Call H}
    (h : call ∈ (d.dispatch r).calls ∨ ∃ signal, call ∈ (d.dispatchWithCancel signal r).calls) :
    d.prepare r = .ok call.context := by
  obtain ⟨c, hprepare, hcall⟩ := mem_invoke_of_mem_calls h
  rw [hprepare, Registry.context_of_mem_invoke hcall]

/-! ### What is prepared is authentic -/

omit [Handling H] in
/-- What is prepared has passed every check in front of the route. -/
theorem checks_of_prepare {d : Dispatcher H} {r : Request} {c : Context}
    (h : d.prepare r = .ok c) :
    ∃ format c₀ m, r.headers.wireFormat? = some format ∧
      Signature.validates r.headers d.candidateKeys d.digest = true ∧
      r.headers.context = .ok c₀ ∧ d.registry.containsHub c₀.hub = true ∧
      format.decode d.limits r.body = .ok (some m) ∧ c₀.Agrees m c := by
  unfold prepare at h
  split at h
  next => cases h
  next format hformat =>
    split at h
    next => cases h
    next hsignature =>
      split at h
      next => cases h
      next c₀ hcontext =>
        split at h
        next => cases h
        next hhub =>
          split at h
          next => cases h
          next => cases h
          next m hbody =>
            split at h
            next => cases h
            next c' hmessage =>
              cases h
              exact ⟨format, c₀, m, hformat, by simpa using hsignature, hcontext,
                by simpa using hhub, hbody, Context.bindMessage_eq_ok_iff.1 hmessage⟩

omit [Handling H] in
/-- What is prepared has been checked, and is for the connection that the headers name. -/
theorem authentic_of_prepare {d : Dispatcher H} {r : Request} {c : Context}
    (h : d.prepare r = .ok c) :
    Signature.validates r.headers d.candidateKeys d.digest = true ∧
      r.headers.value? Headers.connectionId = some c.connectionId := by
  obtain ⟨format, c₀, m, -, hsignature, hcontext, -, -, hagrees⟩ := checks_of_prepare h
  have hgives := Headers.gives_of_context hcontext
  exact ⟨hsignature, by rw [hgives.connectionId, hagrees.connectionId_eq]⟩

/-! ### Runs -/

/-- **Every call of a run is authenticated.**  When a handler is called in answer to a request, the
keys in force then contain one that is not empty, and the request carries its signature of the very
connection that the handler is told. -/
theorem run_calls_authentic (d : Dispatcher H) {steps : List (Step H)} {i : Nat} {r : Request}
    (hstep : steps[i]? = some (.dispatch r) ∨
      ∃ signal, steps[i]? = some (.dispatchWithCancel signal r))
    {out : Dispatched H} (hout : (d.run steps)[i]? = some out) {call : Call H}
    (hcall : call ∈ out.calls) :
    ∃ key ∈ d.keysInForce (steps.take i), key ≠ "" ∧
      ∃ s, r.headers.HasElement Headers.signature s ∧
        Text.lowerAscii s = "sha256=" ++ String.ofList
          (Hex.encode (d.digest (Utf8.encode key) (Utf8.encode call.context.connectionId))) := by
  have hprepare : (d.after (steps.take i)).prepare r = .ok call.context := by
    apply prepare_of_mem_calls
    rw [getElem?_run] at hout
    rcases hstep with hstep | ⟨signal, hstep⟩
    · rw [hstep] at hout
      cases hout
      exact .inl hcall
    · rw [hstep] at hout
      cases hout
      exact .inr ⟨signal, hcall⟩
  obtain ⟨hvalidates, hconnection⟩ := authentic_of_prepare hprepare
  rw [candidateKeys_after, Signature.validates_iff_hasElement] at hvalidates
  obtain ⟨-, key, hkey, hne, s, hs, hsignature⟩ := hvalidates
  -- the connection that was checked is the one of the context, since both are the header's text
  obtain ⟨-, hconnection⟩ := Headers.value?_eq_some_iff.1 hconnection
  refine ⟨key, hkey, hne, s, hs, ?_⟩
  rw [hsignature, ← hconnection, after_eq]
  rfl

/-- The first request of the run is signed for both connection ids together, in its second field. -/
theorem run_calls_authentic_connected :
    Registrar.steps[2]? = some (.dispatch (Registrar.request "connected")) ∧
    ∃ out call, (Registrar.dispatcher.run Registrar.steps)[2]? = some out ∧ call ∈ out.calls ∧
      call.context.connectionId = "c1,c2" ∧
    ∃ key ∈ Registrar.dispatcher.keysInForce (Registrar.steps.take 2), key ≠ "" ∧
      ∃ s, (Registrar.request "connected").headers.HasElement Headers.signature s ∧
        Text.lowerAscii s = "sha256=" ++ String.ofList (Hex.encode
          (Registrar.dispatcher.digest (Utf8.encode key) (Utf8.encode call.context.connectionId)))
    := by
  have hstep : Registrar.steps[2]? = some (.dispatch (Registrar.request "connected")) := rfl
  have hcalls : (Registrar.dispatcher.run Registrar.steps)[2]?.map
      (fun out => out.calls.map fun call => call.context.connectionId) = some ["c1,c2"] := by
    decide +kernel
  obtain ⟨out, hout, hids⟩ := Option.map_eq_some_iff.1 hcalls
  obtain ⟨call, hcall, hid⟩ := List.map_eq_singleton_iff.1 hids
  have hmem : call ∈ out.calls := by rw [hcall]; exact List.mem_singleton_self call
  exact ⟨hstep, out, call, hout, hmem, hid,
    run_calls_authentic Registrar.dispatcher (.inl hstep) hout hmem⟩

end Dispatcher

end HubGateway
