/-
**The checks in front of a handler.**

A request meets a setting: what was registered so far, the keys in force, the nesting limit and the
digest.  Whether it is accepted, and else why it is refused, is said here check by check and without
a dispatcher.  A refusal names the first check that fails, so that all earlier ones have passed.

Main definitions:

* `HubGateway.Headers.NamesFormat` — the format that headers name;
* `HubGateway.Headers.Gives`, `HubGateway.Headers.Lacks` — the context that headers give, and why
  they give none;
* `HubGateway.Context.Agrees` — the messages that go with a context;
* `HubGateway.Setting` — what a request meets;
* `HubGateway.Setting.Admits`, `Accepts`, `Refuses` — how the checks turn out.

Main statements:

* `HubGateway.Headers.wireFormat?_eq_some_iff`, `wireFormat?_eq_none_iff` — the format of headers;
* `HubGateway.Headers.context_of_gives`, `context_of_lacks` — the context of headers;
* `HubGateway.Context.bindMessage_eq_ok_iff` — the context completed with a message;
* `HubGateway.Setting.accepts_or_refuses` — one of the two is the case.
-/

import HubGateway.Gateway.Dispatcher
import HubGateway.Proofs.Gateway.Registry
import HubGateway.Proofs.Message.WireFormat

set_option relaxedAutoImplicit false
set_option autoImplicit false

namespace HubGateway

/-! ### Headers -/

namespace Headers

/-- The first content type is plain text and names the format. -/
def NamesFormat (h : Headers) (format : WireFormat) : Prop :=
  ∃ text, h.first? Headers.contentType = some text ∧ format.IsNamedBy text

theorem wireFormat?_eq_some_iff {h : Headers} {format : WireFormat} :
    h.wireFormat? = some format ↔ h.NamesFormat format := by
  simp only [wireFormat?, Option.bind_eq_some_iff, WireFormat.ofContentType?_eq_some_iff,
    NamesFormat]

theorem wireFormat?_eq_none_iff {h : Headers} :
    h.wireFormat? = none ↔ ∀ format, ¬ h.NamesFormat format := by
  simp only [Option.eq_none_iff_forall_ne_some, ne_eq, wireFormat?_eq_some_iff]

/-- The context with these required parts, and what else the headers say. -/
def contextWith (h : Headers) (connectionId hub : String) (category : Category)
    (event : String) : Context where
  connectionId := connectionId
  hub := hub
  category := category
  event := event
  userId := h.value? Headers.userId
  query := (h.value? Headers.clientQuery).map Parameters.ofQuery
  claims := (h.value? Headers.userClaims).map Parameters.ofClaims
  headers := h.collect

/-- All required headers are present, the category is known, and this is the context. -/
structure Gives (h : Headers) (c : Context) : Prop where
  connectionId : h.value? Headers.connectionId = some c.connectionId
  hub : h.value? Headers.hub = some c.hub
  category : ∃ raw, h.value? Headers.category = some raw ∧
    Category.parse? (Text.trim raw) = some c.category
  event : h.value? Headers.event = some c.event
  optional : c = h.contextWith c.connectionId c.hub c.category c.event

/-- The names of the headers without which there is no context. -/
def requiredNames : List String :=
  [Headers.connectionId, Headers.hub, Headers.category, Headers.event]

/-- Why headers give no context: one is missing, or all are present and the category is unknown. -/
inductive Lacks (h : Headers) : GatewayError → Prop
  | missing {name : String} (hname : name ∈ requiredNames) (hvalue : h.value? name = none) :
      Lacks h .missingContext
  | category {raw : String} (hvalues : ∀ name ∈ requiredNames, (h.value? name).isSome)
      (hraw : h.value? Headers.category = some raw)
      (hparse : Category.parse? (Text.trim raw) = none) : Lacks h (.invalidCategory raw)

/-- The values of the required headers, all of which are present. -/
theorem exists_values {h : Headers} (hvalues : ∀ name ∈ requiredNames, (h.value? name).isSome) :
    ∃ connection hub category event, h.value? Headers.connectionId = some connection ∧
      h.value? Headers.hub = some hub ∧ h.value? Headers.category = some category ∧
      h.value? Headers.event = some event := by
  have hvalue : ∀ name ∈ requiredNames, ∃ value, h.value? name = some value := fun name hname =>
    Option.isSome_iff_exists.1 (hvalues name hname)
  obtain ⟨connection, hconnection⟩ := hvalue Headers.connectionId (by simp [requiredNames])
  obtain ⟨hub, hhub⟩ := hvalue Headers.hub (by simp [requiredNames])
  obtain ⟨category, hcategory⟩ := hvalue Headers.category (by simp [requiredNames])
  obtain ⟨event, hevent⟩ := hvalue Headers.event (by simp [requiredNames])
  exact ⟨connection, hub, category, event, hconnection, hhub, hcategory, hevent⟩

theorem context_of_gives {h : Headers} {c : Context} (hc : h.Gives c) : h.context = .ok c := by
  obtain ⟨hconnection, hhub, ⟨raw, hraw, hparse⟩, hevent, hoptional⟩ := hc
  rw [hoptional]
  simp [context, contextWith, required, hconnection, hhub, hraw, hparse, hevent, bind, Except.bind]

theorem context_of_lacks {h : Headers} {e : GatewayError} (he : h.Lacks e) :
    h.context = .error e := by
  cases he with
  | missing hname hvalue =>
      -- whichever header is the first to be missing, the error is the same
      cases hconnection : h.value? Headers.connectionId with
      | none => simp [context, required, hconnection, bind, Except.bind]
      | some connection =>
      cases hhub : h.value? Headers.hub with
      | none => simp [context, required, hconnection, hhub, bind, Except.bind]
      | some hub =>
      cases hcategory : h.value? Headers.category with
      | none => simp [context, required, hconnection, hhub, hcategory, bind, Except.bind]
      | some raw =>
      cases hevent : h.value? Headers.event with
      | none => simp [context, required, hconnection, hhub, hcategory, hevent, bind, Except.bind]
      | some event =>
          simp only [requiredNames, List.mem_cons, List.not_mem_nil, or_false] at hname
          rcases hname with rfl | rfl | rfl | rfl <;> simp_all
  | category hvalues hraw hparse =>
      obtain ⟨connection, hub, -, event, hconnection, hhub, -, hevent⟩ := exists_values hvalues
      simp [context, required, hconnection, hhub, hraw, hevent, hparse, bind, Except.bind]

theorem gives_or_lacks (h : Headers) : (∃ c, h.Gives c) ∨ ∃ e, h.Lacks e := by
  by_cases hvalues : ∀ name ∈ requiredNames, (h.value? name).isSome
  · obtain ⟨connection, hub, raw, event, hconnection, hhub, hraw, hevent⟩ := exists_values hvalues
    cases hparse : Category.parse? (Text.trim raw) with
    | none => exact .inr ⟨_, .category hvalues hraw hparse⟩
    | some category =>
        exact .inl ⟨h.contextWith connection hub category event, hconnection, hhub,
          ⟨raw, hraw, hparse⟩, hevent, rfl⟩
  · simp only [Classical.not_forall] at hvalues
    obtain ⟨name, hname, hvalue⟩ := hvalues
    exact .inr ⟨_, .missing hname (by simpa using hvalue)⟩

theorem gives_of_context {h : Headers} {c : Context} (hc : h.context = .ok c) : h.Gives c := by
  rcases h.gives_or_lacks with ⟨c', hgives⟩ | ⟨e, hlacks⟩
  · rw [context_of_gives hgives] at hc
    cases hc
    exact hgives
  · rw [context_of_lacks hlacks] at hc
    cases hc

end Headers

/-! ### Messages -/

namespace Context

/-- The messages that go with a context, and what they complete it to. -/
inductive Agrees (c : Context) : Message → Context → Prop
  | invocation {i : Invocation} (hcategory : c.category = .messages)
      (htarget : Text.lowercase i.target = Text.lowercase c.event) :
      Agrees c (.invocation i)
        { c with invocationId := i.invocationId, arguments := some i.arguments }
  | opened {messageType : Int32} (hcategory : c.category = .connections)
      (hevent : Text.lowercase c.event ≠ Text.lowercase disconnectedEvent) :
      Agrees c (.openConnection messageType) c
  | closed {m : CloseConnection} (hcategory : c.category = .connections)
      (hevent : Text.lowercase c.event ≠ Text.lowercase connectedEvent) :
      Agrees c (.closeConnection m) { c with error := m.error }

/-- A context is completed exactly with the messages that go with it. -/
theorem bindMessage_eq_ok_iff {c c' : Context} {m : Message} :
    c.bindMessage m = .ok c' ↔ c.Agrees m c' := by
  constructor
  · intro h
    cases m with
    | invocation i =>
        cases hcategory : c.category with
        | connections => simp [bindMessage, hcategory] at h
        | messages =>
            simp only [bindMessage, hcategory] at h
            split at h
            next htarget =>
              cases h
              rw [← hcategory]
              exact .invocation hcategory (beq_iff_eq.1 htarget)
            next => cases h
    | openConnection messageType =>
        cases hcategory : c.category with
        | messages => simp [bindMessage, hcategory] at h
        | connections =>
            simp only [bindMessage, hcategory] at h
            split at h
            next => cases h
            next hevent =>
              cases h
              exact .opened hcategory fun heq => hevent (beq_iff_eq.2 heq)
    | closeConnection m =>
        cases hcategory : c.category with
        | messages => simp [bindMessage, hcategory] at h
        | connections =>
            simp only [bindMessage, hcategory] at h
            split at h
            next => cases h
            next hevent =>
              cases h
              rw [← hcategory]
              exact .closed hcategory fun heq => hevent (beq_iff_eq.2 heq)
  · intro h
    cases h with
    | invocation hcategory htarget => simp [bindMessage, hcategory, Text.sameFolded, htarget]
    | opened hcategory hevent => simp [bindMessage, hcategory, Text.sameFolded, hevent]
    | closed hcategory hevent => simp [bindMessage, hcategory, Text.sameFolded, hevent]

/-- Completing a context does not change whose it is. -/
theorem Agrees.connectionId_eq {c c' : Context} {m : Message} (h : c.Agrees m c') :
    c'.connectionId = c.connectionId := by
  cases h <;> rfl

end Context

/-! ### Settings -/

/-- What a request meets. -/
structure Setting (H : Type) where
  /-- What was registered so far, in order. -/
  registrations : List (Route × H)
  /-- The keys in force. -/
  keys : List String
  limits : MessagePack.Limits
  digest : KeyedDigest

namespace Setting

variable {H : Type}

/-- Some handler was registered under the hub. -/
def Knows (s : Setting H) (hub : String) : Prop :=
  ∃ e ∈ s.registrations, Text.lowercase e.1.hub = Text.lowercase hub

/-- The request passes the checks in front of the route, with a message and a context. -/
inductive Admits (s : Setting H) (r : Request) : Message → Context → Prop
  | intro {format : WireFormat} {m : Message} {c c' : Context}
      (hformat : r.headers.NamesFormat format)
      (hsignature : Signature.validates r.headers s.keys s.digest = true)
      (hheaders : r.headers.Gives c) (hhub : s.Knows c.hub)
      (hbody : format.decode s.limits r.body = .ok (some m)) (hmessage : c.Agrees m c') :
      Admits s r m c'

/-- The request passes all checks, and the handler is the one registered last for its route. -/
def Accepts (s : Setting H) (r : Request) (m : Message) (c : Context) (handler : H) : Prop :=
  s.Admits r m c ∧ Registry.latest s.registrations c.route = some handler

/-- The request fails a check, after it has passed those before. -/
inductive Refuses (s : Setting H) (r : Request) : GatewayError → Prop
  | contentType (hformat : ∀ format, ¬ r.headers.NamesFormat format) :
      Refuses s r (.unsupportedContentType
        ((r.headers.first? Headers.contentType).getD Dispatcher.noContentType))
  | signature {format : WireFormat} (hformat : r.headers.NamesFormat format)
      (hsignature : Signature.validates r.headers s.keys s.digest = false) :
      Refuses s r .invalidSignature
  | headers {format : WireFormat} {e : GatewayError}
      (hformat : r.headers.NamesFormat format)
      (hsignature : Signature.validates r.headers s.keys s.digest = true)
      (hheaders : r.headers.Lacks e) : Refuses s r e
  | hub {format : WireFormat} {c : Context} (hformat : r.headers.NamesFormat format)
      (hsignature : Signature.validates r.headers s.keys s.digest = true)
      (hheaders : r.headers.Gives c) (hhub : ¬ s.Knows c.hub) : Refuses s r (.unknownHub c.hub)
  | body {format : WireFormat} {c : Context} {e : DecodeError}
      (hformat : r.headers.NamesFormat format)
      (hsignature : Signature.validates r.headers s.keys s.digest = true)
      (hheaders : r.headers.Gives c) (hhub : s.Knows c.hub)
      (hbody : format.decode s.limits r.body = .error e) : Refuses s r (.decode e)
  | noMessage {format : WireFormat} {c : Context} (hformat : r.headers.NamesFormat format)
      (hsignature : Signature.validates r.headers s.keys s.digest = true)
      (hheaders : r.headers.Gives c) (hhub : s.Knows c.hub)
      (hbody : format.decode s.limits r.body = .ok none) : Refuses s r .notDecoded
  | message {format : WireFormat} {c : Context} {m : Message} {e : Context.Disagreement}
      (hformat : r.headers.NamesFormat format)
      (hsignature : Signature.validates r.headers s.keys s.digest = true)
      (hheaders : r.headers.Gives c) (hhub : s.Knows c.hub)
      (hbody : format.decode s.limits r.body = .ok (some m))
      (hmessage : c.bindMessage m = .error e) : Refuses s r (.categoryMismatch e.message)
  | route {m : Message} {c : Context} (hadmits : s.Admits r m c)
      (hroute : Registry.latest s.registrations c.route = none) :
      Refuses s r (.unknownEvent c.category.label c.event)

/-- Every request passes all checks or fails one. -/
theorem accepts_or_refuses (s : Setting H) (r : Request) :
    (∃ m c handler, s.Accepts r m c handler) ∨ ∃ e, s.Refuses r e := by
  -- in the order of the checks, each of which is passed from here on
  cases hformat : r.headers.wireFormat? with
  | none => exact .inr ⟨_, .contentType (Headers.wireFormat?_eq_none_iff.1 hformat)⟩
  | some format =>
  have hformat := Headers.wireFormat?_eq_some_iff.1 hformat
  cases hsignature : Signature.validates r.headers s.keys s.digest with
  | false => exact .inr ⟨_, .signature hformat hsignature⟩
  | true =>
  rcases r.headers.gives_or_lacks with ⟨c, hheaders⟩ | ⟨e, hheaders⟩
  case inr => exact .inr ⟨e, .headers hformat hsignature hheaders⟩
  by_cases hhub : s.Knows c.hub
  case neg => exact .inr ⟨_, .hub hformat hsignature hheaders hhub⟩
  cases hbody : format.decode s.limits r.body with
  | error e => exact .inr ⟨_, .body hformat hsignature hheaders hhub hbody⟩
  | ok message =>
  cases message with
  | none => exact .inr ⟨_, .noMessage hformat hsignature hheaders hhub hbody⟩
  | some m =>
  cases hmessage : c.bindMessage m with
  | error e => exact .inr ⟨_, .message hformat hsignature hheaders hhub hbody hmessage⟩
  | ok c' =>
  have hadmits : s.Admits r m c' :=
    .intro hformat hsignature hheaders hhub hbody (Context.bindMessage_eq_ok_iff.1 hmessage)
  cases hroute : Registry.latest s.registrations c'.route with
  | none => exact .inr ⟨_, .route hadmits hroute⟩
  | some handler => exact .inl ⟨m, c', handler, hadmits, hroute⟩

end Setting

end HubGateway
