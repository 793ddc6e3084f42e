/-
**What a host changes by not waiting.**

A host that waits for an answer looks at the call and at its signal in rounds.  Which of the two it
looks at first in a round is left open, and so is the number of looks that a call takes until it
ends: what the call registers is spread over them.  If the signal is there when it is looked at, the
wait is over, and what the call would have done later is not done.

The rounds are said here apart from the dispatcher, one round after the other.  A signal that does
not come changes nothing, however long the call takes.  One that is there at once lets the call have
one look or none: all that can come of it is the answer that there would have been, or that the
request is cancelled.  A request that is rejected in front of its route is not waited for.

Main definitions:

* `HubGateway.Watch` — which of the two a host looks at in each round, and what it sees;
* `HubGateway.Wait` — a wait, with `HubGateway.Wait.round` and `HubGateway.Wait.after`;
* `HubGateway.Dispatcher.Awaits` — what may come of a request of a host that watches;
* `HubGateway.Dispatcher.AnswersAtOnce` — what a signal that is there may change.

Main statements:

* `HubGateway.Wait.after_quiet`, `HubGateway.Wait.after_signalled` — **what a wait comes to**;
* `HubGateway.Dispatcher.awaits_quiet_iff` — without a signal, a request is answered as ever;
* `HubGateway.Dispatcher.cancel_only_ends_waiting` — **a signal does nothing but end the waiting**.
-/

import HubGateway.Proofs.Gateway.Answers
import HubGateway.Proofs.Gateway.Required

set_option relaxedAutoImplicit false
set_option autoImplicit false

namespace HubGateway

variable {H : Type}

/-! ### Rounds -/

/-- What a host sees when it waits. -/
structure Watch where
  /-- Whether the signal is there in a round. -/
  signalled : Nat → Bool
  /-- Whether the call is looked at before the signal in a round. -/
  callFirst : Nat → Bool

namespace Watch

/-- The signal does not come. -/
def Quiet (w : Watch) : Prop := ∀ n, w.signalled n = false

/-- The signal is there in the first round. -/
def Signalled (w : Watch) : Prop := w.signalled 0 = true

/-- The call is looked at in the first round. -/
def LooksAtOnce (w : Watch) : Prop := w.signalled 0 = false ∨ w.callFirst 0 = true

/-- What the host of a signal sees. -/
def ofSignal : Signal → Watch
  | .never => ⟨fun _ => false, fun _ => true⟩
  | .beforeHandler => ⟨fun _ => true, fun _ => false⟩
  | .afterHandler => ⟨fun _ => true, fun _ => true⟩

end Watch

/-- The work of a call, one stage for each look at it: the handlers that it registers. -/
abbrev Stages (H : Type) := List (List (Route × H))

/-- A wait, with the registry as it is, and whether the call was looked at. -/
inductive Wait (H : Type) where
  /-- There are stages to come, or the call does not end. -/
  | waiting (looked : Bool) (registry : Registry H) (stages : Stages H)
  | ended (looked : Bool) (registry : Registry H) (result : Except GatewayError Unit)

namespace Wait

/-- A look at the call: it does the work of a stage, and ends if this was the last stage and it
ends at all. -/
def look (outcome : Progress (Except GatewayError Unit)) (g : Registry H) (stages : Stages H) :
    Wait H :=
  let g := g.registerAll (stages.headD [])
  match stages.tail, outcome with
  | [], .done result => .ended true g result
  | rest, _ => .waiting true g rest

/-- A look at a signal that is there ends the wait, unless it is over. -/
def cancel : Wait H → Wait H
  | .waiting looked g _ => .ended looked g (.error .cancelled)
  | .ended looked g result => .ended looked g result

/-- A round: the call and the signal are looked at, until the wait is over. -/
def round (outcome : Progress (Except GatewayError Unit)) (signalled callFirst : Bool)
    (wait : Wait H) : Wait H :=
  match wait with
  | .ended looked g result => .ended looked g result
  | .waiting _ g stages =>
    match signalled, callFirst with
    | false, _ => look outcome g stages
    | true, false => wait.cancel
    | true, true => (look outcome g stages).cancel

/-- The wait after some rounds. -/
def after (w : Watch) (outcome : Progress (Except GatewayError Unit)) (wait : Wait H) :
    Nat → Wait H
  | 0 => wait
  | n + 1 => (wait.after w outcome n).round outcome (w.signalled n) (w.callFirst n)

end Wait

/-! ### What a wait comes to -/

namespace Wait

variable {w : Watch} {outcome : Progress (Except GatewayError Unit)} {wait : Wait H}
  {whole g : Registry H} {stages : Stages H}

/-- A wait without a signal: what is registered and what is to come make up the whole, and a call
that ends does so with its last stage. -/
inductive OnCourse (whole : Registry H) (outcome : Progress (Except GatewayError Unit))
    (left : Nat) : Wait H → Prop
  | waiting {looked : Bool} {g : Registry H} {stages : Stages H}
      (hwhole : g.registerAll stages.flatten = whole) (hleft : stages.length = left)
      (hends : left = 0 → outcome = .pending) :
      OnCourse whole outcome left (.waiting looked g stages)
  | ended {result : Except GatewayError Unit} (houtcome : outcome = .done result) :
      OnCourse whole outcome left (.ended true whole result)

/-- A round without a signal does the work of one stage. -/
theorem OnCourse.round {left : Nat} (h : OnCourse whole outcome left wait) (callFirst : Bool) :
    OnCourse whole outcome (left - 1) (wait.round outcome false callFirst) := by
  cases h with
  | ended houtcome => exact .ended houtcome
  | @waiting looked g stages hwhole hleft hends =>
      subst hleft
      cases stages with
      | nil =>
          -- nothing is left to do, and the call does not end
          obtain rfl : outcome = .pending := hends rfl
          exact .waiting hwhole rfl fun _ => rfl
      | cons stage rest =>
          rw [List.flatten_cons, Registry.registerAll_append] at hwhole
          cases rest with
          | nil =>
              cases outcome with
              | done result =>
                  rw [← hwhole]
                  exact .ended rfl
              | pending => exact .waiting hwhole rfl fun _ => rfl
          | cons next rest => exact .waiting hwhole rfl fun hzero => by simp at hzero

/-- **Without a signal** a call does its work stage by stage, to its end if it has one. -/
theorem after_quiet (outcome : Progress (Except GatewayError Unit)) (g : Registry H)
    (hquiet : w.Quiet) (hne : stages ≠ []) (n : Nat) :
    OnCourse (g.registerAll stages.flatten) outcome (stages.length - n)
      (after w outcome (.waiting false g stages) n) := by
  induction n with
  | zero =>
      refine .waiting rfl rfl fun hzero => ?_
      exact absurd (List.length_eq_zero_iff.1 hzero) hne
  | succ n ih =>
      rw [after, hquiet n, Nat.sub_add_eq]
      exact ih.round _

/-- A call that ends at its first look ends in the first round, if it is looked at. -/
theorem after_of_looksAtOnce (hlooks : w.LooksAtOnce) (g : Registry H) (stage : List (Route × H))
    (result : Except GatewayError Unit) (n : Nat) :
    after w (.done result) (.waiting false g [stage]) (n + 1) =
      .ended true (g.registerAll stage) result := by
  induction n with
  | zero =>
      rw [after, after]
      cases hsignalled : w.signalled 0 with
      | false => rfl
      | true =>
          rcases hlooks with hquiet | hfirst
          · rw [hsignalled] at hquiet
            cases hquiet
          · rw [hfirst]
            rfl
  | succ n ih => rw [after, ih, round]

/-- A call that does not end is waited for, after its first look as after all others. -/
theorem after_quiet_pending (hquiet : w.Quiet) (g : Registry H) (stage : List (Route × H))
    (n : Nat) :
    after w .pending (.waiting false g [stage]) (n + 1) =
      .waiting true (g.registerAll stage) [] := by
  induction n with
  | zero =>
      rw [after, after, hquiet 0]
      rfl
  | succ n ih =>
      rw [after, ih, hquiet (n + 1)]
      rfl

/-- A wait with a signal is over: it was given up, or the call has ended with all its work done. -/
inductive Settled (whole : Registry H) (outcome : Progress (Except GatewayError Unit)) :
    Wait H → Prop
  | cancelled {looked : Bool} {g : Registry H} :
      Settled whole outcome (.ended looked g (.error .cancelled))
  | ended {result : Except GatewayError Unit} (houtcome : outcome = .done result) :
      Settled whole outcome (.ended true whole result)

/-- A round with a signal settles a wait. -/
theorem settled_round (looked callFirst : Bool) (g : Registry H) (stages : Stages H) :
    Settled (g.registerAll stages.flatten) outcome
      ((Wait.waiting looked g stages).round outcome true callFirst) := by
  cases callFirst with
  | false => exact .cancelled
  | true =>
      cases stages with
      | nil =>
          cases outcome with
          | done result => exact .ended rfl
          | pending => exact .cancelled
      | cons stage rest =>
          cases rest with
          | nil =>
              cases outcome with
              | done result =>
                  rw [List.flatten_singleton]
                  exact .ended rfl
              | pending => exact .cancelled
          | cons next rest => exact .cancelled

theorem Settled.round (h : Settled whole outcome wait) (signalled callFirst : Bool) :
    Settled whole outcome (wait.round outcome signalled callFirst) := by
  cases h with
  | cancelled => exact .cancelled
  | ended houtcome => exact .ended houtcome

/-- **With a signal at once** the first round settles a wait. -/
theorem after_signalled (outcome : Progress (Except GatewayError Unit)) (g : Registry H)
    (stages : Stages H) (hsignalled : w.Signalled) (n : Nat) :
    Settled (g.registerAll stages.flatten) outcome
      (after w outcome (.waiting false g stages) (n + 1)) := by
  induction n with
  | zero =>
      rw [after, after, hsignalled]
      exact settled_round _ _ _ _
  | succ n ih =>
      rw [after]
      exact ih.round _ _

end Wait

/-! ### A call that does not end -/

/-- A handler that registers another one and does not end, and one that completes. -/
inductive Sleeper where
  | asleep
  | awake

namespace Sleeper

instance : Handling Sleeper where
  schema? _ := none
  act
    | .asleep, _, _ => ⟨[(⟨"chat", .connections, "again"⟩, .awake)], .pending⟩
    | .awake, _, _ => ⟨[], .completed⟩

/-- A dispatcher for requests whose digests are the keys and the messages themselves. -/
def dispatcher : Dispatcher Sleeper where
  registry := Registry.register {} ⟨"chat", .connections, "connected"⟩ .asleep
  source := .fixed ["k"]
  digest key message := key ++ message

end Sleeper

/-! ### Requests of a host that watches -/

/-- No other error has the status of cancelling. -/
theorem GatewayError.status_eq_cancelled_iff {e : GatewayError} :
    e.status = 503 ↔ e = .cancelled := by
  cases e <;> simp [GatewayError.status]

/-- The stages make up the work of a run.  What ends without a call ends at the first look. -/
structure Run.InStages [Handling H] (run : Run H) (stages : Stages H) : Prop where
  nonempty : stages ≠ []
  work : stages.flatten = run.calls.flatMap Call.registrations
  atOnce : run.calls = [] → stages.length = 1

/-- All work may be done in one stage. -/
theorem Run.inStages_single [Handling H] (run : Run H) :
    run.InStages [run.calls.flatMap Call.registrations] :=
  ⟨List.cons_ne_nil _ _, List.flatten_singleton, fun _ => rfl⟩

namespace Dispatcher

variable [Handling H] {d : Dispatcher H} {w : Watch} {r : Request} {out : Dispatched H}

/-- What may come of a request whose host watches. -/
inductive Awaits (d : Dispatcher H) (w : Watch) (r : Request) : Dispatched H → Prop
  /-- What fails a check in front of the route is not waited for. -/
  | rejected {e : GatewayError} (hprepare : d.prepare r = .error e) : Awaits d w r (d.reject e)
  /-- The wait is over after some rounds; a call that was not looked at was not made. -/
  | ended {c : Context} {stages : Stages H} {n : Nat} {looked : Bool} {g : Registry H}
      {result : Except GatewayError Unit} (hprepare : d.prepare r = .ok c)
      (hstages : (d.registry.invoke c).InStages stages)
      (hended : Wait.after w (d.registry.invoke c).outcome (.waiting false d.registry stages) n =
        .ended looked g result) :
      Awaits d w r
        (d.finish ⟨if looked then (d.registry.invoke c).calls else [], g, .done result⟩)
  /-- The call has nothing left to do, does not end, and is waited for. -/
  | endless {c : Context} {stages : Stages H} {n : Nat} {g : Registry H}
      (hprepare : d.prepare r = .ok c) (hstages : (d.registry.invoke c).InStages stages)
      (hwaiting : ∀ m, n ≤ m →
        Wait.after w (d.registry.invoke c).outcome (.waiting false d.registry stages) m =
          .waiting true g []) :
      Awaits d w r (d.finish ⟨(d.registry.invoke c).calls, g, .pending⟩)

/-- The wait is over and the call was looked at. -/
theorem Awaits.looked {c : Context} {stages : Stages H} {n : Nat} {g : Registry H}
    {result : Except GatewayError Unit} (hprepare : d.prepare r = .ok c)
    (hstages : (d.registry.invoke c).InStages stages)
    (hended : Wait.after w (d.registry.invoke c).outcome (.waiting false d.registry stages) n =
      .ended true g result) :
    Awaits d w r (d.finish ⟨(d.registry.invoke c).calls, g, .done result⟩) := by
  have hawaits := Awaits.ended hprepare hstages hended
  rwa [if_pos rfl] at hawaits

theorem dispatch_of_error {e : GatewayError} (hprepare : d.prepare r = .error e) :
    d.dispatch r = d.reject e := by
  rw [dispatch, hprepare]

theorem dispatch_of_ok {c : Context} (hprepare : d.prepare r = .ok c) :
    d.dispatch r = d.finish (d.registry.invoke c) := by
  rw [dispatch, hprepare]

/-- The stages of a run leave the registry that the run leaves. -/
theorem registry_invoke_of_inStages {c : Context} {stages : Stages H}
    (hstages : (d.registry.invoke c).InStages stages) :
    d.registry.registerAll stages.flatten = (d.registry.invoke c).registry := by
  rw [hstages.work]
  exact (registersFrom_invoke d.registry c).symm

/-- A run with this outcome that has called what it calls and registered what it registers. -/
theorem finish_invoke_of_outcome {c : Context} {stages : Stages H}
    (hstages : (d.registry.invoke c).InStages stages)
    {outcome : Progress (Except GatewayError Unit)}
    (houtcome : (d.registry.invoke c).outcome = outcome) :
    d.finish ⟨(d.registry.invoke c).calls, d.registry.registerAll stages.flatten, outcome⟩ =
      d.finish (d.registry.invoke c) := by
  rw [registry_invoke_of_inStages hstages, ← houtcome]

/-- **Without a signal a request is answered as ever**, in however many stages its call ends. -/
theorem awaits_quiet_iff (hquiet : w.Quiet) : d.Awaits w r out ↔ out = d.dispatch r := by
  constructor
  · intro hawaits
    cases hawaits with
    | rejected hprepare => rw [dispatch_of_error hprepare]
    | @ended c stages n looked g result hprepare hstages hended =>
        have hcourse := Wait.after_quiet (d.registry.invoke c).outcome d.registry hquiet
          hstages.nonempty n
        rw [hended] at hcourse
        cases hcourse with
        | ended houtcome =>
            rw [dispatch_of_ok hprepare]
            exact finish_invoke_of_outcome hstages houtcome
    | @endless c stages n g hprepare hstages hwaiting =>
        have hcourse := Wait.after_quiet (d.registry.invoke c).outcome d.registry hquiet
          hstages.nonempty n
        rw [hwaiting n (Nat.le_refl n)] at hcourse
        cases hcourse with
        | waiting hwhole hleft hends =>
            rw [dispatch_of_ok hprepare, ← finish_invoke_of_outcome hstages (hends hleft.symm),
              ← hwhole]
            rfl
  · rintro rfl
    cases hprepare : d.prepare r with
    | error e =>
        rw [dispatch_of_error hprepare]
        exact .rejected hprepare
    | ok c =>
        have hstages := (d.registry.invoke c).inStages_single
        rw [dispatch_of_ok hprepare]
        cases houtcome : (d.registry.invoke c).outcome with
        | done result =>
            rw [← finish_invoke_of_outcome hstages houtcome]
            refine .looked (n := 1) hprepare hstages ?_
            rw [houtcome, Wait.after_of_looksAtOnce (.inl (hquiet 0)), List.flatten_singleton]
        | pending =>
            rw [← finish_invoke_of_outcome hstages houtcome]
            refine .endless (n := 1) hprepare hstages fun m hle => ?_
            obtain ⟨n, rfl⟩ := Nat.exists_eq_add_of_le' hle
            rw [houtcome, Wait.after_quiet_pending hquiet, List.flatten_singleton]

/-- A run without a call ends. -/
theorem outcome_of_no_calls {g : Registry H} {c : Context} (hcalls : (g.invoke c).calls = []) :
    ∃ e, (g.invoke c).outcome = .done (.error e) := by
  unfold Registry.invoke at hcalls ⊢
  cases hfind : g.find? c.route with
  | none => exact ⟨_, rfl⟩
  | some handler =>
      simp only [hfind] at hcalls
      rcases g.start_cases handler c with ⟨bound, -, hstart⟩ | ⟨-, e, hstart⟩
      · rw [hstart] at hcalls
        cases hcalls
      · simp only [hstart]
        exact ⟨_, rfl⟩

/-- What ends without a call is over in the first round, if it is looked at. -/
theorem after_invoke_of_no_calls (hlooks : w.LooksAtOnce) {c : Context} {stages : Stages H}
    (hstages : (d.registry.invoke c).InStages stages)
    (hcalls : (d.registry.invoke c).calls = []) :
    ∃ result, (d.registry.invoke c).outcome = .done result ∧ ∀ n,
      Wait.after w (d.registry.invoke c).outcome (.waiting false d.registry stages) (n + 1) =
        .ended true (d.registry.registerAll stages.flatten) result := by
  obtain ⟨e, houtcome⟩ := outcome_of_no_calls hcalls
  obtain ⟨stage, rfl⟩ := List.length_eq_one_iff.1 (hstages.atOnce hcalls)
  refine ⟨_, houtcome, fun n => ?_⟩
  rw [houtcome, List.flatten_singleton]
  exact Wait.after_of_looksAtOnce hlooks _ _ _ n

/-- **What needs no call is answered as ever**, if it is looked at in the first round. -/
theorem awaits_looksAtOnce_iff (hlooks : w.LooksAtOnce) (hcalls : (d.dispatch r).calls = []) :
    d.Awaits w r out ↔ out = d.dispatch r := by
  constructor
  · intro hawaits
    cases hawaits with
    | rejected hprepare => rw [dispatch_of_error hprepare]
    | @ended c stages n looked g result hprepare hstages hended =>
        rw [dispatch_of_ok hprepare] at hcalls ⊢
        obtain ⟨result', houtcome, hafter⟩ := after_invoke_of_no_calls hlooks hstages hcalls
        cases n with
        | zero => cases hended
        | succ n =>
            rw [hafter n] at hended
            cases hended
            exact finish_invoke_of_outcome hstages houtcome
    | @endless c stages n g hprepare hstages hwaiting =>
        rw [dispatch_of_ok hprepare] at hcalls
        obtain ⟨result', -, hafter⟩ := after_invoke_of_no_calls hlooks hstages hcalls
        have hended := hwaiting (n + 1) (Nat.le_succ n)
        rw [hafter n] at hended
        cases hended
  · rintro rfl
    cases hprepare : d.prepare r with
    | error e =>
        rw [dispatch_of_error hprepare]
        exact .rejected hprepare
    | ok c =>
        rw [dispatch_of_ok hprepare] at hcalls ⊢
        have hstages := (d.registry.invoke c).inStages_single
        obtain ⟨result, houtcome, hafter⟩ := after_invoke_of_no_calls hlooks hstages hcalls
        rw [← finish_invoke_of_outcome hstages houtcome]
        exact .looked hprepare hstages (hafter 0)

/-! ### Signals that are there -/

omit [Handling H] in
theorem giveUp_of_done {run : Run H} {result : Except GatewayError Unit}
    (houtcome : run.outcome = .done result) : giveUp run = run := by
  rw [giveUp, houtcome]

omit [Handling H] in
theorem giveUp_of_pending {run : Run H} (houtcome : run.outcome = .pending) :
    giveUp run = { run with outcome := .done (.error .cancelled) } := by
  rw [giveUp, houtcome]

/-- The answer to a request that is cancelled. -/
def cancelled : Progress Response := .done ⟨503, some "Dispatch cancelled"⟩

/-- What a signal that is there may make of an answer. -/
structure AnswersAtOnce (d : Dispatcher H) (r : Request) (out : Dispatched H) : Prop where
  /-- The request is answered. -/
  settled : out.response ≠ .pending
  /-- A request that is rejected in front of its route is rejected, and not cancelled. -/
  rejected : ∀ e, d.prepare r = .error e → out = d.dispatch r ∧
    ∀ response, out.response = .done response → response.status ≠ 503
  /-- A call that does not end is cancelled. -/
  endless : (d.dispatch r).response = .pending → out.response = cancelled
  /-- There is no other answer than the one without the signal, and that of cancelling. -/
  answer : out.response = (d.dispatch r).response ∨ out.response = cancelled
  /-- There are no other calls than those without the signal. -/
  calls : out.calls = [] ∨ out.calls = (d.dispatch r).calls

omit [Handling H] in
/-- No check in front of the route cancels a request. -/
theorem prepare_ne_cancelled : d.prepare r ≠ .error .cancelled := by
  intro hprepare
  unfold prepare at hprepare
  split at hprepare
  next => cases hprepare
  split at hprepare
  next => cases hprepare
  split at hprepare
  next e hcontext =>
    cases hprepare
    cases Headers.lacks_of_context hcontext
  split at hprepare
  next => cases hprepare
  split at hprepare
  next => cases hprepare
  next => cases hprepare
  split at hprepare
  next => cases hprepare
  next => cases hprepare

omit [Handling H] in
theorem status_reject_ne {e : GatewayError} (hprepare : d.prepare r = .error e)
    {response : Response} (hresponse : (d.reject e).response = .done response) :
    response.status ≠ 503 := by
  intro hstatus
  have herror : Response.ofError e = response := Progress.done.inj hresponse
  rw [← herror] at hstatus
  rw [GatewayError.status_eq_cancelled_iff.1 hstatus] at hprepare
  exact prepare_ne_cancelled hprepare

/-- The answer without the signal is one of those, if there is one. -/
theorem answersAtOnce_dispatch (hsettled : (d.dispatch r).response ≠ .pending) :
    d.AnswersAtOnce r (d.dispatch r) where
  settled := hsettled
  rejected e hprepare := by
    refine ⟨rfl, fun response hresponse => ?_⟩
    rw [dispatch_of_error hprepare] at hresponse
    exact status_reject_ne hprepare hresponse
  endless hpending := absurd hpending hsettled
  answer := .inl rfl
  calls := .inr rfl

/-- **A signal that is there at once** lets a request be answered as ever, or cancels it. -/
theorem answersAtOnce_of_awaits (hsignalled : w.Signalled) (hawaits : d.Awaits w r out) :
    d.AnswersAtOnce r out := by
  cases hawaits with
  | @rejected e hprepare =>
      rw [← dispatch_of_error hprepare]
      refine answersAtOnce_dispatch ?_
      rw [dispatch_of_error hprepare]
      intro hpending
      cases hpending
  | @ended c stages n looked g result hprepare hstages hended =>
      have hwait : Wait.Settled (d.registry.registerAll stages.flatten)
          (d.registry.invoke c).outcome (.ended looked g result) := by
        cases n with
        | zero => cases hended
        | succ n =>
            rw [← hended]
            exact Wait.after_signalled _ _ _ hsignalled n
      cases hwait with
      | cancelled =>
          refine ⟨?_, ?_, fun _ => rfl, .inr rfl, ?_⟩
          · intro hpending
            cases hpending
          · intro e herror
            rw [hprepare] at herror
            cases herror
          · rw [dispatch_of_ok hprepare]
            cases looked with
            | false => exact .inl rfl
            | true => exact .inr rfl
      | ended houtcome =>
          have hdispatch := dispatch_of_ok hprepare
          rw [← finish_invoke_of_outcome hstages houtcome] at hdispatch
          rw [if_pos rfl, ← hdispatch]
          refine answersAtOnce_dispatch ?_
          rw [hdispatch]
          intro hpending
          cases hpending
  | @endless c stages n g hprepare hstages hwaiting =>
      have hwait := Wait.after_signalled (d.registry.invoke c).outcome d.registry stages
        hsignalled n
      rw [hwaiting (n + 1) (Nat.le_succ n)] at hwait
      cases hwait

/-- What a dispatcher makes of a signal is what may come of a host that sees it. -/
theorem awaits_dispatchWithCancel (d : Dispatcher H) (signal : Signal) (r : Request) :
    d.Awaits (.ofSignal signal) r (d.dispatchWithCancel signal r) := by
  cases hprepare : d.prepare r with
  | error e =>
      rw [dispatchWithCancel, hprepare]
      exact .rejected hprepare
  | ok c =>
      have hstages := (d.registry.invoke c).inStages_single
      rw [dispatchWithCancel, hprepare]
      cases signal with
      | never =>
          rw [awaits_quiet_iff fun _ => rfl]
          exact (dispatch_of_ok hprepare).symm
      | beforeHandler =>
          have hended : Wait.after (.ofSignal .beforeHandler) (d.registry.invoke c).outcome
              (.waiting false d.registry [(d.registry.invoke c).calls.flatMap Call.registrations])
              1 = .ended false d.registry (.error .cancelled) := rfl
          exact .ended hprepare hstages hended
      | afterHandler =>
          -- the first look does all the work of the call
          cases houtcome : (d.registry.invoke c).outcome with
          | done result =>
              simp only [giveUp_of_done houtcome, ← finish_invoke_of_outcome hstages houtcome]
              refine .looked (n := 1) hprepare hstages ?_
              rw [houtcome, List.flatten_singleton]
              rfl
          | pending =>
              simp only [giveUp_of_pending houtcome, ← registry_invoke_of_inStages hstages]
              refine .looked (n := 1) hprepare hstages ?_
              rw [houtcome, List.flatten_singleton]
              rfl

/-- **A signal does nothing but end the waiting.**  One that does not come changes nothing, whether
the call ends at its first look or later.  One that is there at once leaves a request that is
rejected as it is and cancels a call that does not end; any other request is answered as ever or
cancelled.  What needs no call is answered as ever if it is looked at first. -/
theorem cancel_only_ends_waiting (d : Dispatcher H) (r : Request) :
    d.dispatchWithCancel .never r = d.dispatch r ∧
    (∀ signal, signal ≠ .never → d.AnswersAtOnce r (d.dispatchWithCancel signal r)) ∧
    (∀ w out, w.Quiet → (d.Awaits w r out ↔ out = d.dispatch r)) ∧
    (∀ w out, w.Signalled → d.Awaits w r out → d.AnswersAtOnce r out) ∧
    (∀ w out, w.LooksAtOnce → (d.dispatch r).calls = [] →
      (d.Awaits w r out ↔ out = d.dispatch r)) ∧
    ∀ signal, d.Awaits (.ofSignal signal) r (d.dispatchWithCancel signal r) := by
  refine ⟨?_, ?_, ?_, ?_, ?_, ?_⟩
  · exact (awaits_quiet_iff fun _ => rfl).1 (awaits_dispatchWithCancel d .never r)
  · intro signal hsignal
    refine answersAtOnce_of_awaits ?_ (awaits_dispatchWithCancel d signal r)
    cases signal with
    | never => exact absurd rfl hsignal
    | beforeHandler => rfl
    | afterHandler => rfl
  · intro w out hquiet
    exact awaits_quiet_iff hquiet
  · intro w out hsignalled hawaits
    exact answersAtOnce_of_awaits hsignalled hawaits
  · intro w out hlooks hcalls
    exact awaits_looksAtOnce_iff hlooks hcalls
  · intro signal
    exact awaits_dispatchWithCancel d signal r

/-- A call that does not end is cancelled by either signal and waited for without one; an event
without a handler is told to be unknown if it is looked at first. -/
theorem cancel_only_ends_waiting_asleep :
    let d := Sleeper.dispatcher
    let r := Registrar.request "connected"
    let unknown := Registrar.request "unknown"
    (d.dispatch r).response = .pending ∧ d.dispatchWithCancel .never r = d.dispatch r ∧
      (∀ signal, signal ≠ .never → (d.dispatchWithCancel signal r).response = cancelled) ∧
      (∀ out, d.Awaits (.ofSignal .never) r out → out.response = .pending) ∧
      (∀ out, d.Awaits (.ofSignal .beforeHandler) r out → out.response = cancelled) ∧
      ∀ out, d.Awaits (.ofSignal .afterHandler) unknown out → out = d.dispatch unknown := by
  intro d r unknown
  have hpending : (d.dispatch r).response = .pending := by
    have hdone : ((d.dispatch r).response matches .pending) = true := by decide +kernel
    cases hresponse : (d.dispatch r).response with
    | pending => rfl
    | done response =>
        rw [hresponse] at hdone
        cases hdone
  have hcalls : (d.dispatch unknown).calls = [] := by
    have hempty : (d.dispatch unknown).calls.isEmpty = true := by decide +kernel
    exact List.isEmpty_iff.1 hempty
  obtain ⟨hnever, hsignal, hquiet, hsignalled, -, -⟩ := cancel_only_ends_waiting d r
  obtain ⟨-, -, -, -, hlooks, -⟩ := cancel_only_ends_waiting d unknown
  refine ⟨hpending, hnever, ?_, ?_, ?_, ?_⟩
  · intro signal hne
    exact (hsignal signal hne).endless hpending
  · intro out hawaits
    rw [(hquiet _ out fun _ => rfl).1 hawaits]
    exact hpending
  · intro out hawaits
    exact (hsignalled (.ofSignal .beforeHandler) out rfl hawaits).endless hpending
  · intro out hawaits
    exact (hlooks _ out (.inr rfl) hcalls).1 hawaits

end Dispatcher

end HubGateway
