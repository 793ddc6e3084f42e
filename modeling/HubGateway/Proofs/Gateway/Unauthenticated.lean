/-
**What a caller without a signature finds out.**

The first two checks of a request, of its content type and of its signature, read three headers and
the keys in force, and nothing else.  A request that fails one of them is therefore answered
by these alone: what handlers there are, what limits hold, what the body says and what the other
headers say does not show in the answer.  Nothing is called and nothing changes, whether or not
the host stops waiting.

Main definitions:

* `HubGateway.Headers.AgreeOn` — two requests carry the same values under some names;
* `HubGateway.Headers.rejection` — what a request is told that fails one of the two checks;
* `HubGateway.Dispatcher.OnlyAnswers` — a request has an answer and no other effect.

Main statements:

* `HubGateway.Headers.AgreeOn.validates`, `AgreeOn.rejection` — the two checks read three headers;
* `HubGateway.Dispatcher.prepare_of_unauthenticated` — they come before all others;
* `HubGateway.Dispatcher.unauthenticated_learns_nothing` — **a caller without a signature learns
  nothing and changes nothing**.
-/

import HubGateway.Proofs.Gateway.History

set_option relaxedAutoImplicit false
set_option autoImplicit false

namespace HubGateway

/-! ### What the first two checks read -/

namespace Headers

/-- Two requests carry the same values, in the same order, under each of the names. -/
def AgreeOn (names : List String) (h h' : Headers) : Prop :=
  ∀ name ∈ names, h.values name = h'.values name

/-- The names of the headers that say who sends a request, and in which format. -/
def authenticatingNames : List String := [contentType, connectionId, signature]

/-- What a request is told that has no known content type, or else no valid signature. -/
def rejection (h : Headers) : GatewayError :=
  match h.wireFormat? with
  | none => .unsupportedContentType ((h.first? contentType).getD Dispatcher.noContentType)
  | some _ => .invalidSignature

section Agreement

variable {h h' : Headers} {name : String}

theorem first?_congr (hvalues : h.values name = h'.values name) :
    h.first? name = h'.first? name := by
  rw [first?, first?, hvalues]

theorem value?_congr (hvalues : h.values name = h'.values name) :
    h.value? name = h'.value? name := by
  rw [value?, value?, hvalues]

theorem AgreeOn.wireFormat? (hagree : AgreeOn authenticatingNames h h') :
    h.wireFormat? = h'.wireFormat? := by
  have hvalues := hagree contentType (by simp [authenticatingNames])
  rw [Headers.wireFormat?, Headers.wireFormat?, first?_congr hvalues]

/-- The check of the signature reads two headers and the keys. -/
theorem AgreeOn.validates (hagree : AgreeOn authenticatingNames h h') (keys : List String)
    (digest : KeyedDigest) :
    Signature.validates h keys digest = Signature.validates h' keys digest := by
  have hconnection := hagree connectionId (by simp [authenticatingNames])
  have hsignature := hagree signature (by simp [authenticatingNames])
  rw [Signature.validates, Signature.validates, value?_congr hconnection, value?_congr hsignature]

theorem AgreeOn.rejection (hagree : AgreeOn authenticatingNames h h') :
    h.rejection = h'.rejection := by
  have hvalues := hagree contentType (by simp [authenticatingNames])
  rw [Headers.rejection, Headers.rejection, hagree.wireFormat?, first?_congr hvalues]

end Agreement

end Headers

/-! ### Requests without authentication -/

namespace Dispatcher

variable {H H' : Type}

/-- The request names no known content type, or no key in force gives one of its signatures. -/
def Unauthenticated (d : Dispatcher H) (r : Request) : Prop :=
  r.headers.wireFormat? = none ∨ Signature.validates r.headers d.candidateKeys d.digest = false

/-- The two checks come before all others. -/
theorem prepare_of_unauthenticated {d : Dispatcher H} {r : Request} (h : d.Unauthenticated r) :
    d.prepare r = .error r.headers.rejection := by
  rw [prepare, Headers.rejection]
  cases hformat : r.headers.wireFormat? with
  | none => rfl
  | some format =>
      rcases h with h | h
      · rw [hformat] at h
        cases h
      · simp only [h, Bool.not_false, if_true]

variable [Handling H] [Handling H']

/-- In whatever way the request is dispatched, it has this response, no handler is called for it,
and the dispatcher stays as it is. -/
structure OnlyAnswers (d : Dispatcher H) (r : Request) (response : Response) : Prop where
  dispatch : d.dispatch r = ⟨[], d, .done response⟩
  dispatchWithCancel : ∀ signal, d.dispatchWithCancel signal r = ⟨[], d, .done response⟩

theorem onlyAnswers_of_prepare {d : Dispatcher H} {r : Request} {e : GatewayError}
    (h : d.prepare r = .error e) : d.OnlyAnswers r (.ofError e) where
  dispatch := by
    rw [Dispatcher.dispatch, h]
    rfl
  dispatchWithCancel := by
    intro signal
    rw [Dispatcher.dispatchWithCancel, h]
    rfl

/-- **A caller without a signature learns nothing and changes nothing.**  Two dispatchers with the
same keys give one answer to two requests that agree on three headers, whatever else there is to
the dispatchers and to the requests. -/
theorem unauthenticated_learns_nothing {d : Dispatcher H} {d' : Dispatcher H'}
    (hkeys : d.candidateKeys = d'.candidateKeys) (hdigest : d.digest = d'.digest) {r r' : Request}
    (hagree : Headers.AgreeOn Headers.authenticatingNames r.headers r'.headers)
    (hunauthenticated : d.Unauthenticated r) :
    ∃ response, d.OnlyAnswers r response ∧ d'.OnlyAnswers r' response := by
  have hunauthenticated' : d'.Unauthenticated r' := by
    rw [Unauthenticated, hagree.wireFormat?, hagree.validates, hkeys, hdigest] at hunauthenticated
    exact hunauthenticated
  have hprepare := prepare_of_unauthenticated hunauthenticated
  have hprepare' := prepare_of_unauthenticated hunauthenticated'
  rw [← hagree.rejection] at hprepare'
  exact ⟨_, onlyAnswers_of_prepare hprepare, onlyAnswers_of_prepare hprepare'⟩

/-- A request with all that its hub asks for but a valid signature, and one without a body: neither
the empty registry nor the other one shows. -/
theorem unauthenticated_learns_nothing_forged :
    let d : Dispatcher Registrar := { source := .fixed ["", "k"], digest := fun _ _ => [] }
    let d' : Dispatcher Registrar :=
      { registry := Registry.register {} ⟨"chat", .connections, "connected"⟩ ⟨[]⟩
        source := .rotating, rotation := ["", "k"], limits := ⟨0⟩, digest := fun _ _ => [] }
    let r := Registrar.request "connected"
    let r' : Request := ⟨⟨r.headers.fields.filter (·.1 ∈ Headers.authenticatingNames)⟩, []⟩
    Headers.AgreeOn Headers.authenticatingNames r.headers r'.headers ∧ d.Unauthenticated r ∧
      ∃ response, d.OnlyAnswers r response ∧ d'.OnlyAnswers r' response := by
  intro d d' r r'
  have hagree : Headers.AgreeOn Headers.authenticatingNames r.headers r'.headers := by
    unfold Headers.AgreeOn
    decide +kernel
  have hunauthenticated : d.Unauthenticated r := by
    right
    decide +kernel
  have hkeys : d.candidateKeys = d'.candidateKeys := rfl
  have hdigest : d.digest = d'.digest := rfl
  exact ⟨hagree, hunauthenticated,
    unauthenticated_learns_nothing hkeys hdigest hagree hunauthenticated⟩

end Dispatcher

end HubGateway
