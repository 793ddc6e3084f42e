/-
**How a request is answered in the course of a run.**

At every point of a run, a request is answered by what was registered until then and by the keys
that are in force.  If it passes all checks, the handler that was registered last for its route is
called once, unless its arguments do not bind, and the response tells how the call ended.  If not,
nothing is called, and the response is that of the first check that fails.

Main definitions:

* `HubGateway.Dispatcher.Realizes` — a dispatcher is in a setting;
* `HubGateway.Dispatched.Answers` — what the answer to a request has to be in a setting.

Main statements:

* `HubGateway.Dispatcher.realizes_after` — the setting of a dispatcher after steps;
* `HubGateway.Dispatcher.dispatch_answers` — a dispatcher answers by its setting;
* `HubGateway.Dispatcher.run_answers` — **every request of a run is answered by its setting**.
-/

import HubGateway.Proofs.Gateway.Checks
import HubGateway.Proofs.Gateway.History

set_option relaxedAutoImplicit false
set_option autoImplicit false

namespace HubGateway

variable {H : Type}

/-! ### Dispatchers and settings -/

namespace Dispatcher

/-- The dispatcher holds what was registered in the setting, and is otherwise as it says. -/
structure Realizes (d : Dispatcher H) (s : Setting H) : Prop where
  registry : d.registry = Registry.registerAll {} s.registrations
  keys : d.candidateKeys = s.keys
  limits : d.limits = s.limits
  digest : d.digest = s.digest

/-- A dispatcher that is in the setting. -/
def ofSetting (s : Setting H) : Dispatcher H where
  registry := Registry.registerAll {} s.registrations
  source := .fixed s.keys
  limits := s.limits
  digest := s.digest

theorem realizes_ofSetting (s : Setting H) : (ofSetting s).Realizes s := ⟨rfl, rfl, rfl, rfl⟩

/-- The setting after steps of a dispatcher that was built from the given registrations. -/
def setting [Handling H] (d : Dispatcher H) (built : List (Route × H)) (steps : List (Step H)) :
    Setting H :=
  ⟨built ++ d.history steps, d.keysInForce steps, d.limits, d.digest⟩

/-- **The setting of a dispatcher after steps.** -/
theorem realizes_after [Handling H] {d : Dispatcher H} {built : List (Route × H)}
    (hbuilt : d.registry = Registry.registerAll {} built) (steps : List (Step H)) :
    (d.after steps).Realizes (d.setting built steps) where
  registry := by rw [after_eq, setting, Registry.registerAll_append, hbuilt]
  keys := candidateKeys_after d steps
  limits := by rw [after_eq]; rfl
  digest := by rw [after_eq]; rfl

section Realizes

variable {d : Dispatcher H} {s : Setting H} {r : Request}

theorem Realizes.containsHub (hd : d.Realizes s) (hub : String) :
    d.registry.containsHub hub = true ↔ s.Knows hub := by
  rw [hd.registry]
  exact Registry.containsHub_registerAll_empty s.registrations hub

theorem Realizes.find? (hd : d.Realizes s) (route : Route) :
    d.registry.find? route = Registry.latest s.registrations route := by
  rw [hd.registry]
  exact Registry.find?_registerAll_empty s.registrations route

/-- Behind the check of the hub, the body decides. -/
theorem Realizes.prepare_of_known (hd : d.Realizes s) {format : WireFormat} {c : Context}
    (hformat : r.headers.NamesFormat format)
    (hsignature : Signature.validates r.headers s.keys s.digest = true)
    (hheaders : r.headers.Gives c) (hhub : s.Knows c.hub) :
    d.prepare r =
      match format.decode s.limits r.body with
      | .error e => .error (.decode e)
      | .ok none => .error .notDecoded
      | .ok (some m) =>
        match c.bindMessage m with
        | .error e => .error (.categoryMismatch e.message)
        | .ok c => .ok c := by
  have hknown := (hd.containsHub c.hub).2 hhub
  rw [← hd.limits, prepare, Headers.wireFormat?_eq_some_iff.2 hformat]
  simp only [hd.keys, hd.digest, hsignature, Headers.context_of_gives hheaders, Bool.not_true,
    Bool.false_eq_true, if_false]
  exact if_neg (by simp [hknown])

/-- A request that passes the checks in front of the route is prepared. -/
theorem Realizes.prepare_of_admits (hd : d.Realizes s) {m : Message} {c : Context}
    (h : s.Admits r m c) : d.prepare r = .ok c := by
  cases h with
  | intro hformat hsignature hheaders hhub hbody hmessage =>
      have hmessage := Context.bindMessage_eq_ok_iff.2 hmessage
      rw [hd.prepare_of_known hformat hsignature hheaders hhub, hbody]
      simp only [hmessage]

/-- A request that fails a check is not prepared, or not routed. -/
theorem Realizes.prepare_of_refuses (hd : d.Realizes s) {e : GatewayError} (h : s.Refuses r e) :
    d.prepare r = .error e ∨ ∃ c, d.prepare r = .ok c ∧
      Registry.latest s.registrations c.route = none ∧
      e = .unknownEvent c.category.label c.event := by
  cases h with
  | contentType hformat =>
      have hformat := Headers.wireFormat?_eq_none_iff.2 hformat
      simp [prepare, hformat]
  | signature hformat hsignature =>
      have hformat := Headers.wireFormat?_eq_some_iff.2 hformat
      simp [prepare, hformat, hd.keys, hd.digest, hsignature]
  | headers hformat hsignature hheaders =>
      have hformat := Headers.wireFormat?_eq_some_iff.2 hformat
      have hcontext := Headers.context_of_lacks hheaders
      simp [prepare, hformat, hd.keys, hd.digest, hsignature, hcontext]
  | hub hformat hsignature hheaders hhub =>
      have hformat := Headers.wireFormat?_eq_some_iff.2 hformat
      have hcontext := Headers.context_of_gives hheaders
      have hhub := mt (hd.containsHub _).1 hhub
      simp [prepare, hformat, hd.keys, hd.digest, hsignature, hcontext, hhub]
  | body hformat hsignature hheaders hhub hbody
  | noMessage hformat hsignature hheaders hhub hbody =>
      rw [hd.prepare_of_known hformat hsignature hheaders hhub, hbody]
      exact .inl rfl
  | message hformat hsignature hheaders hhub hbody hmessage =>
      rw [hd.prepare_of_known hformat hsignature hheaders hhub, hbody]
      exact .inl (by simp only [hmessage])
  | route hadmits hroute => exact .inr ⟨_, hd.prepare_of_admits hadmits, hroute, rfl⟩

variable [Handling H]

/-- A request that fails a check is rejected for it. -/
theorem Realizes.dispatch_of_refuses (hd : d.Realizes s) {e : GatewayError}
    (h : s.Refuses r e) : d.dispatch r = d.reject e := by
  rcases hd.prepare_of_refuses h with hprepare | ⟨c, hprepare, hroute, rfl⟩
  · rw [dispatch, hprepare]
  · rw [dispatch, hprepare]
    simp only [Registry.invoke, hd.find?, hroute, reject]

/-- A request that passes all checks is given to the handler of its route. -/
theorem Realizes.dispatch_of_accepts (hd : d.Realizes s) {m : Message} {c : Context} {handler : H}
    (h : s.Accepts r m c handler) : d.dispatch r = d.finish (d.registry.start handler c) := by
  rw [dispatch, hd.prepare_of_admits h.1]
  simp only [Registry.invoke, hd.find?, h.2]

end Realizes

end Dispatcher

/-! ### One outcome of the checks -/

namespace Setting

variable {s : Setting H} {r : Request} {m m' : Message} {c c' : Context} {handler handler' : H}

/-- There is one context and one handler for a request. -/
theorem Accepts.unique (h : s.Accepts r m c handler) (h' : s.Accepts r m' c' handler') :
    c = c' ∧ handler = handler' := by
  -- a dispatcher in the setting prepares one context for the request
  have hd := Dispatcher.realizes_ofSetting s
  have hprepare := hd.prepare_of_admits h.1
  rw [hd.prepare_of_admits h'.1] at hprepare
  cases hprepare
  have hroute := h.2
  rw [h'.2] at hroute
  cases hroute
  exact ⟨rfl, rfl⟩

/-- No request both passes all checks and fails one. -/
theorem Accepts.not_refuses (h : s.Accepts r m c handler) (e : GatewayError) :
    ¬ s.Refuses r e := by
  intro hrefuses
  have hd := Dispatcher.realizes_ofSetting s
  have hprepare := hd.prepare_of_admits h.1
  rcases hd.prepare_of_refuses hrefuses with herror | ⟨c', hprepare', hroute, -⟩
  · rw [herror] at hprepare
    cases hprepare
  · rw [hprepare'] at hprepare
    cases hprepare
    rw [h.2] at hroute
    cases hroute

/-- **A request is refused unless it passes all checks.** -/
theorem refuses_iff_not_accepts (s : Setting H) (r : Request) :
    (∃ e, s.Refuses r e) ↔ ¬ ∃ m c handler, s.Accepts r m c handler := by
  constructor
  · rintro ⟨e, hrefuses⟩ ⟨m, c, handler, haccepts⟩
    exact haccepts.not_refuses e hrefuses
  · intro hnone
    exact (accepts_or_refuses s r).resolve_left hnone

/-- What refuses a request is no fault of a handler. -/
theorem Refuses.status_ne {e : GatewayError} (h : s.Refuses r e) : e.status ≠ 500 := by
  cases h with
  | headers _ _ hheaders => cases hheaders <;> simp [GatewayError.status]
  | _ => simp [GatewayError.status]

/-- The handler of an invocation is the one that its own target selects. -/
theorem Accepts.latest_target {i : Invocation} (h : s.Accepts r (.invocation i) c handler) :
    Registry.latest s.registrations ⟨c.hub, .messages, i.target⟩ = some handler := by
  obtain ⟨hadmits, hroute⟩ := h
  rw [← hroute]
  -- target and event have the same lowercase form
  apply Registry.latest_congr
  cases hadmits with
  | intro _ _ _ _ _ hmessage =>
      cases hmessage with
      | invocation hcategory htarget => simp [Route.folded, Context.route, hcategory, htarget]

end Setting

/-! ### Calls -/

section Calls

variable [Handling H]

/-- The call has the arguments that its handler asks for. -/
def Call.BindsAsAsked (call : Call H) : Prop :=
  match Handling.schema? call.handler with
  | none => call.bound = none
  | some schema => ∃ bound, call.context.argumentsAs schema = .ok bound ∧ call.bound = some bound

/-- How a call ends. -/
def Call.completion (call : Call H) : Completion :=
  (Handling.act call.handler call.context call.bound).completion

/-- The arguments do not have the form that the handler asks for. -/
def Context.FailsToBind (c : Context) (handler : H) : Prop :=
  ∃ schema e, Handling.schema? handler = some schema ∧ c.argumentsAs schema = .error e

theorem Call.BindsAsAsked.not_failsToBind {call : Call H} (h : call.BindsAsAsked) :
    ¬ call.context.FailsToBind call.handler := by
  rintro ⟨schema, e, hschema, herror⟩
  simp only [BindsAsAsked, hschema, herror] at h
  obtain ⟨bound, hbound, -⟩ := h
  cases hbound

/-- There is one way to call a handler with a context. -/
theorem Call.BindsAsAsked.unique {handler : H} {c : Context} {bound bound' : Option Bound}
    (h : Call.BindsAsAsked ⟨handler, c, bound⟩) (h' : Call.BindsAsAsked ⟨handler, c, bound'⟩) :
    bound = bound' := by
  unfold BindsAsAsked at h h'
  cases hschema : Handling.schema? handler with
  | none =>
      simp only [hschema] at h h'
      rw [h, h']
  | some schema =>
      simp only [hschema] at h h'
      obtain ⟨b, hb, rfl⟩ := h
      obtain ⟨b', hb', rfl⟩ := h'
      rw [hb] at hb'
      cases hb'
      rfl

/-- A handler is called with its arguments bound, or the binding fails. -/
theorem Registry.start_cases (g : Registry H) (handler : H) (c : Context) :
    (∃ bound, Call.BindsAsAsked ⟨handler, c, bound⟩ ∧
      g.start handler c = g.call handler c bound) ∨
    c.FailsToBind handler ∧
      ∃ e, g.start handler c = .refused g (.handler (.ofDecodeError e)) := by
  unfold Registry.start Call.BindsAsAsked
  cases hschema : Handling.schema? handler with
  | none => exact .inl ⟨none, by simp [hschema], rfl⟩
  | some schema =>
      cases hbound : c.argumentsAs schema with
      | ok bound => exact .inl ⟨some bound, by simp [hschema, hbound], by simp [hbound]⟩
      | error e => exact .inr ⟨⟨schema, e, hschema, hbound⟩, e, by simp [hbound]⟩

end Calls

/-! ### Answers -/

/-- What the answer to a request has to be in a setting. -/
structure Dispatched.Answers [Handling H] (out : Dispatched H) (s : Setting H) (r : Request) :
    Prop where
  /-- At most one call is made. -/
  once : out.calls.length ≤ 1
  /-- The call is that of the accepting handler, with the arguments that it asks for. -/
  called : ∀ call, call ∈ out.calls ↔
    (∃ m, s.Accepts r m call.context call.handler) ∧ call.BindsAsAsked
  /-- Success is answered if and only if the call completed. -/
  completed : out.response = .done ⟨200, none⟩ ↔ ∃ call ∈ out.calls, call.completion = .completed
  /-- A failure of the handler is told in its own words, one to bind in fixed ones. -/
  failed : ∀ text, out.response = .done ⟨500, some text⟩ ↔
    (∃ call ∈ out.calls, ∃ e, call.completion = .failed e ∧ e.message = text) ∨
    text = "Argument binding failed" ∧
      ∃ m c handler, s.Accepts r m c handler ∧ c.FailsToBind handler
  /-- There is no answer if and only if the call does not end. -/
  pending : out.response = .pending ↔ ∃ call ∈ out.calls, call.completion = .pending
  /-- The first check that fails gives the answer. -/
  refused : ∀ e, s.Refuses r e → out.response = .done (.ofError e)

namespace Dispatcher

variable [Handling H] {d : Dispatcher H} {s : Setting H} {r : Request}

theorem answers_of_refuses (hd : d.Realizes s) {e : GatewayError} (h : s.Refuses r e) :
    (d.dispatch r).Answers s r := by
  have hnone : ∀ m c handler, ¬ s.Accepts r m c handler := fun m c handler haccepts =>
    haccepts.not_refuses e h
  have hstatus := h.status_ne
  have hrefused : ∀ e', s.Refuses r e' → (d.dispatch r).response = .done (.ofError e') :=
    fun e' h' => by rw [hd.dispatch_of_refuses h']; rfl
  rw [hd.dispatch_of_refuses h] at hrefused ⊢
  refine ⟨Nat.zero_le _, fun call => ?_, ?_, fun text => ?_, ?_, hrefused⟩
  · simp [reject, finish, Run.refused, hnone]
  · simp [reject, finish, Run.refused, respond, Response.ofOutcome, Response.ofError]
  · simp [reject, finish, Run.refused, respond, Response.ofOutcome, Response.ofError, hnone,
      hstatus]
  · simp [reject, finish, Run.refused, respond]

theorem respond_eq_ok_iff (completion : Completion) :
    respond completion.outcome = .done ⟨200, none⟩ ↔ completion = .completed := by
  cases completion <;>
    simp [Completion.outcome, respond, Response.ofOutcome, Response.ok, Response.ofError]

theorem respond_eq_failed_iff (completion : Completion) (text : String) :
    respond completion.outcome = .done ⟨500, some text⟩ ↔
      ∃ e, completion = .failed e ∧ e.message = text := by
  cases completion <;>
    simp [Completion.outcome, respond, Response.ofOutcome, Response.ok, Response.ofError,
      GatewayError.status, GatewayError.reason]

theorem respond_eq_pending_iff (completion : Completion) :
    respond completion.outcome = .pending ↔ completion = .pending := by
  cases completion <;> simp [Completion.outcome, respond]

/-- The answer of a handler that is called. -/
theorem answers_of_call {m : Message} {c : Context} {handler : H}
    (h : s.Accepts r m c handler) {bound : Option Bound}
    (hbinds : Call.BindsAsAsked ⟨handler, c, bound⟩)
    (hdispatch : d.dispatch r = d.finish (d.registry.call handler c bound)) :
    (d.dispatch r).Answers s r := by
  have hnever : ¬ ∃ m c handler, s.Accepts r m c handler ∧ c.FailsToBind handler := by
    rintro ⟨m', c', handler', h', hfails⟩
    obtain ⟨rfl, rfl⟩ := h.unique h'
    exact hbinds.not_failsToBind hfails
  have hresponse : (d.dispatch r).response =
      respond (Call.completion ⟨handler, c, bound⟩).outcome := by rw [hdispatch]; rfl
  have hcalls : (d.dispatch r).calls = [⟨handler, c, bound⟩] := by rw [hdispatch]; rfl
  refine ⟨by simp [hcalls], fun call => ?_, ?_, fun text => ?_, ?_,
    fun e hrefuses => absurd hrefuses (h.not_refuses e)⟩
  · rw [hcalls, List.mem_singleton]
    constructor
    · rintro rfl
      exact ⟨⟨m, h⟩, hbinds⟩
    · rintro ⟨⟨m', h'⟩, hbinds'⟩
      obtain ⟨handler', c', bound'⟩ := call
      obtain ⟨rfl, rfl⟩ := h.unique h'
      rw [hbinds.unique hbinds']
  · rw [hresponse, hcalls, respond_eq_ok_iff]
    simp
  · rw [hresponse, hcalls, respond_eq_failed_iff]
    simp [hnever]
  · rw [hresponse, hcalls, respond_eq_pending_iff]
    simp

/-- The answer of a handler whose arguments do not bind. -/
theorem answers_of_failsToBind {m : Message} {c : Context} {handler : H}
    (h : s.Accepts r m c handler) (hfails : c.FailsToBind handler) {e : DecodeError}
    (hdispatch : d.dispatch r = d.reject (.handler (.ofDecodeError e))) :
    (d.dispatch r).Answers s r := by
  have hcalls : (d.dispatch r).calls = [] := by rw [hdispatch]; rfl
  have hresponse : (d.dispatch r).response = .done ⟨500, some "Argument binding failed"⟩ := by
    rw [hdispatch]; rfl
  refine ⟨by simp [hcalls], fun call => ?_, by simp [hcalls, hresponse], fun text => ?_,
    by simp [hcalls, hresponse], fun e hrefuses => absurd hrefuses (h.not_refuses e)⟩
  · constructor
    · intro hcall
      rw [hcalls] at hcall
      cases hcall
    · rintro ⟨⟨m', h'⟩, hbinds⟩
      obtain ⟨hcontext, hhandler⟩ := h.unique h'
      exact absurd (hcontext ▸ hhandler ▸ hfails) hbinds.not_failsToBind
  · simp only [hcalls, hresponse, List.not_mem_nil, false_and, exists_false, false_or]
    constructor
    · intro htext
      cases htext
      exact ⟨rfl, m, c, handler, h, hfails⟩
    · rintro ⟨rfl, -⟩
      rfl

/-- **A dispatcher answers by its setting.** -/
theorem dispatch_answers (hd : d.Realizes s) (r : Request) : (d.dispatch r).Answers s r := by
  rcases s.accepts_or_refuses r with ⟨m, c, handler, haccepts⟩ | ⟨e, hrefuses⟩
  · have hdispatch := hd.dispatch_of_accepts haccepts
    rcases d.registry.start_cases handler c with ⟨bound, hbinds, hstart⟩ | ⟨hfails, e, hstart⟩
    · exact answers_of_call haccepts hbinds (hstart ▸ hdispatch)
    · exact answers_of_failsToBind haccepts hfails (hstart ▸ hdispatch)
  · exact answers_of_refuses hd hrefuses

/-- **Every request of a run is answered by its setting.**  What was registered before it counts, by
the host when the dispatcher was built, by the host in earlier steps, and by handlers that were
called in earlier steps; the keys that count are those in force.  The request is refused unless it
passes all checks, and the target of an invocation selects the same handler as its event. -/
theorem run_answers {d : Dispatcher H} {built : List (Route × H)}
    (hbuilt : d.registry = Registry.registerAll {} built) {steps : List (Step H)} {i : Nat}
    {r : Request} (hstep : steps[i]? = some (.dispatch r)) :
    ∃ out, (d.run steps)[i]? = some out ∧
      let s := d.setting built (steps.take i)
      out.Answers s r ∧
      ((∃ e, s.Refuses r e) ↔ ¬ ∃ m c handler, s.Accepts r m c handler) ∧
      ∀ i c handler, s.Accepts r (.invocation i) c handler →
        Registry.latest s.registrations ⟨c.hub, .messages, i.target⟩ = some handler := by
  refine ⟨(d.after (steps.take i)).dispatch r, ?_, ?_, Setting.refuses_iff_not_accepts _ r,
    fun _ _ _ haccepts => haccepts.latest_target⟩
  · rw [getElem?_run, hstep]
    rfl
  · exact dispatch_answers (realizes_after hbuilt (steps.take i)) r

/-- The second request of the run goes to a handler that the first one has registered. -/
theorem run_answers_again :
    Registrar.dispatcher.registry = Registry.registerAll {} [] ∧
      Registrar.steps[3]? = some (.dispatch (Registrar.request "again")) ∧
      ∃ out, (Registrar.dispatcher.run Registrar.steps)[3]? = some out ∧ out.calls.length = 1 ∧
        out.Answers (Registrar.dispatcher.setting [] (Registrar.steps.take 3))
          (Registrar.request "again") := by
  have hbuilt : Registrar.dispatcher.registry = Registry.registerAll {} [] := rfl
  have hstep : Registrar.steps[3]? = some (.dispatch (Registrar.request "again")) := rfl
  obtain ⟨out, hout, hanswers, -⟩ := run_answers hbuilt hstep
  have hcalls : (Registrar.dispatcher.run Registrar.steps)[3]?.map (·.calls.length) = some 1 := by
    decide +kernel
  rw [hout] at hcalls
  exact ⟨hbuilt, hstep, out, hout, Option.some.inj hcalls, hanswers⟩

end Dispatcher

end HubGateway
