/-
**Typed binding does not see the encoding.**

An invocation arrives in a text frame or in a binary one, and its arguments are then not the same
values: a text holds neither blobs nor numbers that are not finite.  But whatever a handler binds
its arguments to, it binds their trees, and these agree.  So the contexts of both messages give the
same results, and a handler with a declared form is called for both or for neither.

Main definitions:

* `HubGateway.Context.trees` — the trees of the arguments of a context;
* `HubGateway.Context.BindsAlike` — two contexts that no typed binding tells apart.

Main statements:

* `HubGateway.Context.bindMessage_alike` — invocations whose arguments have the same trees;
* `HubGateway.Invocation.encodings_bind_alike` — **both encodings of an invocation bind alike**.
-/

import HubGateway.Gateway.Handler
import HubGateway.Proofs.Message.BinaryFrame
import HubGateway.Proofs.Message.TextFrame

set_option relaxedAutoImplicit false
set_option autoImplicit false

namespace HubGateway

/-! ### Trees of arguments -/

namespace Context

/-- The trees of the arguments of a context. -/
def trees (c : Context) : List Json := Value.toJsonItems (c.arguments.getD [])

/-- An argument is bound through its tree. -/
theorem argument_eq (c : Context) (index : Nat) (schema : Schema) :
    c.argument index schema =
      match c.trees[index]? with
      | none => .error ⟨argumentField index, .absentArgument⟩
      | some tree =>
        match schema.bind tree with
        | .ok bound => .ok bound
        | .error mismatch => .error ⟨argumentField index, .unbound mismatch⟩ := by
  rw [trees, Value.toJsonItems_eq_map, List.getElem?_map, argument]
  cases (c.arguments.getD [])[index]? <;> rfl

/-- Two contexts that no typed binding tells apart.  Every type that arguments can be bound to is
read from the trees of the arguments, so that these stand for the types that are no form. -/
structure BindsAlike (c d : Context) : Prop where
  trees : c.trees = d.trees
  argument : ∀ (index : Nat) (schema : Schema), c.argument index schema = d.argument index schema
  argumentsAs : ∀ schema : Schema, c.argumentsAs schema = d.argumentsAs schema
  toJson : c.toJson = d.toJson
  /-- A handler is called for both or for neither, with the same bound arguments. -/
  calls : ∀ {H : Type} [Handling H] (g : Registry H) (handler : H),
    (g.start handler c).calls.map (fun call => (call.handler, call.bound)) =
      (g.start handler d).calls.map fun call => (call.handler, call.bound)
  /-- A handler with a form that is not called fails in the same way for both. -/
  refused : ∀ {H : Type} [Handling H] (g : Registry H) (handler : H),
    (g.start handler c).calls = [] → g.start handler d = g.start handler c

/-- The calls of a handler depend on what binding all arguments gives. -/
theorem start_alike {H : Type} [Handling H] {c d : Context}
    (h : ∀ schema : Schema, c.argumentsAs schema = d.argumentsAs schema) (g : Registry H)
    (handler : H) :
    (g.start handler c).calls.map (fun call => (call.handler, call.bound)) =
        (g.start handler d).calls.map (fun call => (call.handler, call.bound)) ∧
      ((g.start handler c).calls = [] → g.start handler d = g.start handler c) := by
  unfold Registry.start
  cases Handling.schema? handler with
  | none => exact ⟨rfl, fun hnone => nomatch hnone⟩
  | some schema =>
      simp only [h schema]
      cases d.argumentsAs schema with
      | ok bound => exact ⟨rfl, fun hnone => nomatch hnone⟩
      | error e => exact ⟨rfl, fun _ => rfl⟩

/-- Contexts that differ in arguments with the same trees bind alike. -/
theorem bindsAlike_of_trees (c : Context) (id : Option String) {xs ys : List Value}
    (h : Value.toJsonItems xs = Value.toJsonItems ys) :
    BindsAlike { c with invocationId := id, arguments := some xs }
      { c with invocationId := id, arguments := some ys } := by
  have hall : ∀ schema : Schema,
      argumentsAs { c with invocationId := id, arguments := some xs } schema =
        argumentsAs { c with invocationId := id, arguments := some ys } schema := by
    intro schema
    simp only [argumentsAs, Option.getD_some, h]
  exact
    { trees := h
      argument := by
        intro index schema
        rw [argument_eq, argument_eq]
        simp only [trees, Option.getD_some, h]
      argumentsAs := hall
      toJson := by simp only [toJson, members, Option.map_some, h]
      calls := fun g handler => (start_alike hall g handler).1
      refused := fun g handler => (start_alike hall g handler).2 }

/-- **Invocations whose arguments have the same trees** go with the same contexts, and bind alike
there. -/
theorem bindMessage_alike (c : Context) {m n : Invocation} (hid : m.invocationId = n.invocationId)
    (htarget : m.target = n.target)
    (htrees : Value.toJsonItems m.arguments = Value.toJsonItems n.arguments) :
    (∃ e, c.bindMessage (.invocation m) = .error e ∧ c.bindMessage (.invocation n) = .error e) ∨
      ∃ d e, c.bindMessage (.invocation m) = .ok d ∧ c.bindMessage (.invocation n) = .ok e ∧
        d.BindsAlike e := by
  obtain ⟨mtype, id, target, xs⟩ := m
  obtain ⟨ntype, id', target', ys⟩ := n
  obtain rfl : id = id' := hid
  obtain rfl : target = target' := htarget
  simp only [bindMessage]
  cases c.category with
  | connections => exact .inl ⟨_, rfl, rfl⟩
  | messages =>
      by_cases h : Text.sameFolded target c.event = true
      · refine .inr ⟨_, _, if_pos h, if_pos h, ?_⟩
        exact bindsAlike_of_trees { c with category := .messages } id htrees
      · exact .inl ⟨_, if_neg h, if_neg h⟩

end Context

/-! ### Encodings -/

/-- **Both encodings of an invocation bind alike.** -/
theorem Invocation.encodings_bind_alike (limits : MessagePack.Limits) {m : Invocation}
    (htype : m.messageType = invocationType) (hfits : m.Fits)
    (hordered : Value.OrderedItems m.arguments) (hfloats : Value.FloatsSurviveItems m.arguments)
    (hdepth : ∀ v ∈ m.arguments, v.depth ≤ min limits.maxDepth 125) :
    ∃ j b, TextFrame.decode (TextFrame.encode (.invocation m)) = some j ∧
      BinaryFrame.decode limits (BinaryFrame.encode m) = .ok (some b) ∧
        ∀ c : Context,
          (∃ e, c.bindMessage j = .error e ∧ c.bindMessage b = .error e) ∨
            ∃ cj cb, c.bindMessage j = .ok cj ∧ c.bindMessage b = .ok cb ∧ cj.BindsAlike cb := by
  have htext := TextFrame.decode_encode (m := .invocation m) htype hordered hfloats
    (fun v hv => (le_min_iff.1 (hdepth v hv)).2) []
  have hbinary := BinaryFrame.decode_of_isFrame (BinaryFrame.isFrame_encode hfits hordered
    (fun v hv => (le_min_iff.1 (hdepth v hv)).1) [])
  rw [List.append_nil] at htext hbinary
  refine ⟨_, _, htext, hbinary, fun c => ?_⟩
  exact c.bindMessage_alike rfl rfl (Value.toJsonItems_projectedItems m.arguments)

/-- A blob, a number that is not one and a float in a map bind alike, at the limit of the
nesting. -/
theorem Invocation.encodings_bind_alike_blob :
    let m : Invocation := ⟨invocationType, some "a1", "send",
      [.bytes [0xFF], .float ⟨0x7FF8000000000001⟩, .map [("k", .float ⟨0x3FB999999999999A⟩)]]⟩
    m.Fits ∧ Value.OrderedItems m.arguments ∧ Value.FloatsSurviveItems m.arguments ∧
      ∃ j b, TextFrame.decode (TextFrame.encode (.invocation m)) = some j ∧
        BinaryFrame.decode ⟨1⟩ (BinaryFrame.encode m) = .ok (some b) ∧
          ∀ c : Context,
            (∃ e, c.bindMessage j = .error e ∧ c.bindMessage b = .error e) ∨
              ∃ cj cb, c.bindMessage j = .ok cj ∧ c.bindMessage b = .ok cb ∧ cj.BindsAlike cb := by
  intro m
  have hblob : ([0xFF] : List UInt8).length < 2 ^ 32 := by decide
  have hfits : m.Fits := ⟨by rintro _ ⟨⟩; decide, by decide, by decide,
    hblob, trivial, ⟨by decide, by decide, trivial, trivial⟩, trivial⟩
  have hordered : Value.OrderedItems m.arguments := by
    simp [m, Value.OrderedItems, Value.Ordered, Value.OrderedEntries, Entries.Sorted]
  have htenth : Json.Survives ⟨0x3FB999999999999A⟩ :=
    Json.survives_of_scanNumeral (by decide) (n := ⟨false, [0], [1], none⟩) (by decide +kernel)
      (by decide +kernel)
  have hnan : Json.Survives ⟨0x7FF8000000000001⟩ := Json.survives_of_not_finite (by decide)
  have hfloats : Value.FloatsSurviveItems m.arguments :=
    ⟨trivial, hnan, ⟨htenth, trivial⟩, trivial⟩
  have hdepth : ∀ v ∈ m.arguments, v.depth ≤ min 1 125 := by
    simp [m, Value.depth, Value.depthEntries]
  exact ⟨hfits, hordered, hfloats,
    Invocation.encodings_bind_alike ⟨1⟩ rfl hfits hordered hfloats hdepth⟩

end HubGateway
