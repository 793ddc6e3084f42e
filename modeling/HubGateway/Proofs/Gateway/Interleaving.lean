/-
**Headers are read name by name.**

The headers of a request are a list in which a name may stand several times, in any case of its
letters.  All that is read of them are the values of one name, in their order: the first one, or all
of them as one text.  The table of captured headers holds what reading each name by itself gives,
under the name in lowercase, and nothing else.

So two lists are read alike if every name has the same values in the same order, however the fields
of different names stand between each other: the wire format, the check of the signature, the
context and with it the answer to the request are the same, and so is a run of such requests.

Main definitions:

* `HubGateway.Headers.SameValues` — two lists in which each name has the same values;
* `HubGateway.Step.SameButOrder` — two steps whose requests differ in the order of names alone.

Main statements:

* `HubGateway.Headers.lookup_collect` — **captured headers are what their names read**;
* `HubGateway.Headers.SameValues.context`, `HubGateway.Dispatcher.step_congr`, `run_congr` — the
  order of names does not show in a context, in a step, in a run;
* `HubGateway.Dispatcher.headers_read_by_name` — **headers are read name by name**.
-/

import HubGateway.Proofs.Entries
import HubGateway.Proofs.Gateway.Unauthenticated
import HubGateway.Proofs.Request.Texts

set_option relaxedAutoImplicit false
set_option autoImplicit false

namespace HubGateway

/-! ### Captured headers -/

theorem Text.lowerAscii_lowerAscii (s : String) :
    Text.lowerAscii (Text.lowerAscii s) = Text.lowerAscii s := by
  simp [Text.lowerAscii, Function.comp_def]

namespace Headers

/-- All names are in lowercase. -/
def IsFolded (h : Headers) : Prop := ∀ field ∈ h.fields, Text.lowerAscii field.1 = field.1

theorem isFolded_ofList (fields : List (String × List UInt8)) : (ofList fields).IsFolded := by
  intro field hfield
  obtain ⟨⟨name, value⟩, -, rfl⟩ := List.mem_map.1 hfield
  exact Text.lowerAscii_lowerAscii name

section Capture

variable {h : Headers} {name key text : String}

theorem values_lowerAscii (h : Headers) (name : String) :
    h.values (Text.lowerAscii name) = h.values name := by
  rw [values, values, Text.lowerAscii_lowerAscii]

/-- A name is read alike in any case. -/
theorem value?_lowerAscii (h : Headers) (name : String) :
    h.value? (Text.lowerAscii name) = h.value? name := by
  rw [value?, value?, values_lowerAscii]

/-- What can be read stands in a field. -/
theorem exists_field_of_value? (htext : h.value? name = some text) :
    ∃ field ∈ h.fields, field.1 = Text.lowerAscii name := by
  obtain ⟨hpresent, -⟩ := value?_eq_some_iff.1 htext
  have hne : h.values name ≠ [] := by
    intro hnil
    rcases hpresent with ⟨_, hmem, -⟩ | hseveral
    · rw [hnil] at hmem
      cases hmem
    · rw [texts, hnil] at hseveral
      simp at hseveral
  obtain ⟨value, hvalue⟩ := List.exists_mem_of_ne_nil _ hne
  obtain ⟨field, hfield, -⟩ := List.mem_map.1 hvalue
  obtain ⟨hmem, hname⟩ := List.mem_filter.1 hfield
  exact ⟨field, hmem, eq_of_beq hname⟩

/-- The texts that are captured, in the order of the fields. -/
def captures (h : Headers) : List (String × String) :=
  h.fields.filterMap fun (name, _) => (h.value? name).map fun value => (name, value)

theorem mem_captures_iff :
    (key, text) ∈ h.captures ↔ (∃ field ∈ h.fields, field.1 = key) ∧ h.value? key = some text := by
  simp only [captures, List.mem_filterMap, Option.map_eq_some_iff, Prod.mk.injEq]
  constructor
  · intro hmem
    obtain ⟨field, hfield, text', htext, rfl, rfl⟩ := hmem
    exact ⟨⟨field, hfield, rfl⟩, htext⟩
  · intro hread
    obtain ⟨⟨field, hfield, rfl⟩, htext⟩ := hread
    exact ⟨field, hfield, text, htext, rfl, rfl⟩

/-- Captured headers are sorted by name, each name once. -/
theorem sorted_collect (h : Headers) : Entries.Sorted h.collect := Entries.sorted_ofList _

/-- **Captured headers are what their names read**, each under its name in lowercase. -/
theorem lookup_collect (hfolded : h.IsFolded) (key : String) :
    h.collect.lookup key = if Text.lowerAscii key = key then h.value? key else none := by
  have hcollect : h.collect.lookup key = h.captures.reverse.lookup key :=
    Entries.lookup_ofList h.captures key
  rw [hcollect]
  split
  next hkey =>
    cases htext : h.value? key with
    | none =>
        refine Entries.lookup_of_absent fun text hmem => ?_
        rw [List.mem_reverse, mem_captures_iff, htext] at hmem
        cases hmem.2
    | some text =>
        obtain ⟨field, hfield, hname⟩ := exists_field_of_value? htext
        rw [hkey] at hname
        refine Entries.lookup_of_unique ?_ fun text' hmem => ?_
        · rw [List.mem_reverse, mem_captures_iff]
          exact ⟨⟨field, hfield, hname⟩, htext⟩
        · rw [List.mem_reverse, mem_captures_iff, htext] at hmem
          exact (Option.some.inj hmem.2).symm
  next hkey =>
    refine Entries.lookup_of_absent fun text hmem => ?_
    rw [List.mem_reverse, mem_captures_iff] at hmem
    obtain ⟨⟨field, hfield, rfl⟩, -⟩ := hmem
    exact hkey (hfolded field hfield)

theorem lookup_collect_lowerAscii (hfolded : h.IsFolded) (name : String) :
    h.collect.lookup (Text.lowerAscii name) = h.value? name := by
  rw [lookup_collect hfolded, if_pos (Text.lowerAscii_lowerAscii name), value?_lowerAscii]

/-- What is captured was sent under some name, and is what this name reads. -/
theorem exists_name_of_mem_collect {fields : List (String × List UInt8)}
    (hmem : (key, text) ∈ (ofList fields).collect) :
    ∃ field ∈ fields, key = Text.lowerAscii field.1 ∧
      (ofList fields).value? field.1 = some text := by
  have hcapture : (key, text) ∈ (ofList fields).captures := Entries.mem_of_mem_ofList hmem
  obtain ⟨⟨folded, hfolded, rfl⟩, htext⟩ := mem_captures_iff.1 hcapture
  obtain ⟨field, hfield, rfl⟩ := List.mem_map.1 hfolded
  exact ⟨field, hfield, rfl, (value?_lowerAscii _ _).symm.trans htext⟩

end Capture

/-! ### Lists in which the names stand in another order -/

/-- Every name has the same values in the same order. -/
def SameValues (h h' : Headers) : Prop := ∀ name, h.values name = h'.values name

section SameValues

variable {h h' : Headers}

/-- Fields of different names may change places. -/
theorem sameValues_of_rearranged (hfields : Entries.Rearranged h.fields h'.fields) :
    SameValues h h' := by
  intro name
  have hname := hfields (Text.lowerAscii name)
  simp only [← beq_eq_decide] at hname
  rw [values, values, hname]

theorem SameValues.agreeOn (hsame : SameValues h h') (names : List String) : AgreeOn names h h' :=
  fun name _ => hsame name

theorem SameValues.first? (hsame : SameValues h h') (name : String) :
    h.first? name = h'.first? name :=
  first?_congr (hsame name)

theorem SameValues.value? (hsame : SameValues h h') (name : String) :
    h.value? name = h'.value? name :=
  value?_congr (hsame name)

theorem SameValues.collect (hsame : SameValues h h') (hfolded : h.IsFolded)
    (hfolded' : h'.IsFolded) : h.collect = h'.collect := by
  refine Entries.eq_of_lookup_eq (sorted_collect h) (sorted_collect h') fun key => ?_
  rw [lookup_collect hfolded, lookup_collect hfolded', hsame.value?]

theorem SameValues.required (hsame : SameValues h h') (name : String) :
    h.required name = h'.required name := by
  rw [Headers.required, Headers.required, hsame.value?]

/-- **The order of names does not show in a context.** -/
theorem SameValues.context (hsame : SameValues h h') (hfolded : h.IsFolded)
    (hfolded' : h'.IsFolded) : h.context = h'.context := by
  simp only [Headers.context, hsame.required, hsame.value?, hsame.collect hfolded hfolded']

end SameValues

end Headers

/-! ### Requests in which the names stand in another order -/

namespace Dispatcher

variable {H : Type}

section Requests

variable {h h' : Headers} (hsame : h.SameValues h') (hfolded : h.IsFolded)
  (hfolded' : h'.IsFolded) (d : Dispatcher H) (body : List UInt8)

include hsame hfolded hfolded'

theorem prepare_congr : d.prepare ⟨h, body⟩ = d.prepare ⟨h', body⟩ := by
  have hagree := hsame.agreeOn Headers.authenticatingNames
  simp only [prepare, hagree.wireFormat?, hagree.validates, hsame.first?,
    hsame.context hfolded hfolded']

theorem dispatch_congr [Handling H] : d.dispatch ⟨h, body⟩ = d.dispatch ⟨h', body⟩ := by
  rw [dispatch, dispatch, prepare_congr hsame hfolded hfolded']

theorem dispatchWithCancel_congr [Handling H] (signal : Signal) :
    d.dispatchWithCancel signal ⟨h, body⟩ = d.dispatchWithCancel signal ⟨h', body⟩ := by
  rw [dispatchWithCancel, dispatchWithCancel, prepare_congr hsame hfolded hfolded']

end Requests

end Dispatcher

/-! ### Steps and runs -/

/-- Two headers that differ in the order of different names alone. -/
def Headers.SameButOrder (h h' : Headers) : Prop :=
  h.IsFolded ∧ h'.IsFolded ∧ h.SameValues h'

theorem Headers.sameButOrder_ofList {fields fields' : List (String × List UInt8)}
    (hsame : (ofList fields).SameValues (ofList fields')) :
    (ofList fields).SameButOrder (ofList fields') :=
  ⟨isFolded_ofList fields, isFolded_ofList fields', hsame⟩

/-- Two steps that are the same, but for the order of different names in their requests. -/
inductive Step.SameButOrder {H : Type} : Step H → Step H → Prop
  | same (step : Step H) : SameButOrder step step
  | dispatch {h h' : Headers} (hsame : h.SameButOrder h') (body : List UInt8) :
      SameButOrder (.dispatch ⟨h, body⟩) (.dispatch ⟨h', body⟩)
  | dispatchWithCancel {h h' : Headers} (hsame : h.SameButOrder h') (signal : Signal)
      (body : List UInt8) :
      SameButOrder (.dispatchWithCancel signal ⟨h, body⟩) (.dispatchWithCancel signal ⟨h', body⟩)

namespace Dispatcher

variable {H : Type} [Handling H]

theorem step_congr {step step' : Step H} (hsame : step.SameButOrder step') (d : Dispatcher H) :
    d.step step = d.step step' := by
  cases hsame with
  | same step => rfl
  | dispatch hsame body =>
      obtain ⟨hfolded, hfolded', hvalues⟩ := hsame
      exact dispatch_congr hvalues hfolded hfolded' d body
  | dispatchWithCancel hsame signal body =>
      obtain ⟨hfolded, hfolded', hvalues⟩ := hsame
      exact dispatchWithCancel_congr hvalues hfolded hfolded' d body signal

/-- **The order of names does not show in a run.** -/
theorem run_congr {steps steps' : List (Step H)}
    (hsame : List.Forall₂ Step.SameButOrder steps steps') (d : Dispatcher H) :
    d.run steps = d.run steps' := by
  induction hsame generalizing d with
  | nil => rfl
  | cons hstep _ ih => rw [run, run, step_congr hstep, ih]

/-- **Headers are read name by name.**  What is captured under a name is what this name reads, in
whatever case, and nothing else is captured.  Requests in which every name has the same values in
the same order are read alike and answered alike, at whatever point of a run. -/
theorem headers_read_by_name :
    (∀ fields, let h := Headers.ofList fields
      Entries.Sorted h.collect ∧
      (∀ name, h.collect.lookup (Text.lowerAscii name) = h.value? name) ∧
      ∀ key text, (key, text) ∈ h.collect →
        ∃ field ∈ fields, key = Text.lowerAscii field.1 ∧ h.value? field.1 = some text) ∧
    (∀ fields fields', let h := Headers.ofList fields; let h' := Headers.ofList fields'
      h.SameValues h' →
      h.wireFormat? = h'.wireFormat? ∧
      (∀ keys digest, Signature.validates h keys digest = Signature.validates h' keys digest) ∧
      h.collect = h'.collect ∧ h.context = h'.context ∧
      ∀ (d : Dispatcher H) body, d.dispatch ⟨h, body⟩ = d.dispatch ⟨h', body⟩ ∧
        ∀ signal, d.dispatchWithCancel signal ⟨h, body⟩ =
          d.dispatchWithCancel signal ⟨h', body⟩) ∧
    ∀ (d : Dispatcher H) steps steps', List.Forall₂ Step.SameButOrder steps steps' →
      d.run steps = d.run steps' := by
  refine ⟨?_, ?_, ?_⟩
  · intro fields h
    refine ⟨Headers.sorted_collect h, ?_, ?_⟩
    · intro name
      exact Headers.lookup_collect_lowerAscii (Headers.isFolded_ofList fields) name
    · intro key text hmem
      exact Headers.exists_name_of_mem_collect hmem
  · intro fields fields' h h' hsame
    have hfolded := Headers.isFolded_ofList fields
    have hfolded' := Headers.isFolded_ofList fields'
    have hagree := hsame.agreeOn Headers.authenticatingNames
    refine ⟨hagree.wireFormat?, hagree.validates, hsame.collect hfolded hfolded',
      hsame.context hfolded hfolded', ?_⟩
    intro d body
    refine ⟨dispatch_congr hsame hfolded hfolded' d body, ?_⟩
    intro signal
    exact dispatchWithCancel_congr hsame hfolded hfolded' d body signal
  · intro d steps steps' hsame
    exact run_congr hsame d

/-- The connection may stand in front of its signatures, or between them. -/
theorem headers_read_by_name_interleaved :
    let connection := ("X-ASRS-Connection-Id", Utf8.encode "c1")
    let old := ("x-asrs-signature", Utf8.encode "sha256=00")
    let new := ("X-ASRS-Signature", Utf8.encode "SHA256=6B6331")
    let h := Headers.ofList [connection, old, new]
    let h' := Headers.ofList [old, connection, new]
    h.SameValues h' ∧ h.collect.lookup "x-asrs-signature" = some "sha256=00,SHA256=6B6331" ∧
      h.context = h'.context ∧
      ∀ (d : Dispatcher Registrar) body,
        d.run [.dispatch ⟨h, body⟩, .dispatch ⟨h', body⟩] =
          d.run [.dispatch ⟨h', body⟩, .dispatch ⟨h', body⟩] := by
  intro connection old new h h'
  have hsame : h.SameValues h' := by
    apply Headers.sameValues_of_rearranged
    exact Entries.rearranged_swap (by decide +kernel) _
  obtain ⟨hcaptured, hread, hrun⟩ := headers_read_by_name (H := Registrar)
  obtain ⟨-, hlookup, -⟩ := hcaptured [connection, old, new]
  obtain ⟨-, -, -, hcontext, -⟩ := hread _ _ hsame
  have hsignature : h.value? "X-ASRS-SIGNATURE" = some "sha256=00,SHA256=6B6331" := by
    decide +kernel
  refine ⟨hsame, ?_, hcontext, ?_⟩
  · rw [← hsignature, ← hlookup "X-ASRS-SIGNATURE"]
    congr 1
  · intro d body
    refine hrun d _ _ (.cons ?_ (.cons (.same _) .nil))
    exact .dispatch (Headers.sameButOrder_ofList hsame) body

end Dispatcher

end HubGateway
