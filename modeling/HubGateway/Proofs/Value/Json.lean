/-
**Values and their JSON trees.**

A tree forgets two things of a value: that a text was a blob, and that nothing was a number that is
not finite.  What is left of a value once both are forgotten is its projection.  It has the same
tree, and it is the value of that tree.

The text of a value is written without its tree, but it is the compact text of the tree.  In the
sense of the grammar it is a text of the tree if the keys of all maps ascend and every float is read
back from its own text.

Main definitions:

* `HubGateway.Value.projected` — the value that is left in a tree;
* `HubGateway.Value.FloatsSurvive` — every float of a value is read back from its text.

Main statements:

* `HubGateway.Value.ofJson_toJson`, `toJson_projected` — **the projection is the value of the
  tree**;
* `HubGateway.Value.renderJson_eq_render` — **both ways of writing a value give one text**;
* `HubGateway.Value.writes_renderJson` — the text of a value is a text of its tree;
* `HubGateway.Value.printable_renderJson` — it holds no control character.
-/

import HubGateway.Value.Json
import HubGateway.Proofs.Json.Written

set_option relaxedAutoImplicit false
set_option autoImplicit false

namespace HubGateway.Value

theorem depthItems_le_iff {items : List Value} {n : Nat} :
    depthItems items ≤ n ↔ ∀ v ∈ items, v.depth ≤ n := by
  induction items with
  | nil => simp [depthItems]
  | cons item items ih => rw [depthItems, Nat.max_le, ih, List.forall_mem_cons]

theorem ofJsonItems_eq (items : List Json) : ofJsonItems items = items.map ofJson := by
  induction items with
  | nil => rfl
  | cons item items ih => rw [ofJsonItems, ih, List.map_cons]

theorem toJsonItems_eq_map (items : List Value) : toJsonItems items = items.map toJson := by
  induction items with
  | nil => rfl
  | cons item items ih => rw [toJsonItems, List.map_cons, ih]

/-! ### What a tree forgets -/

mutual

/-- What a tree keeps of a value: a blob as its Base64 text, and a number that is not finite as
null. -/
def projected : Value → Value
  | .null => .null
  | .bool value => .bool value
  | .integer value => .integer value
  | .float value => if value.isFinite then .float value else .null
  | .string value => .string value
  | .bytes value => .string (blobText value)
  | .array items => .array (projectedItems items)
  | .map entries => .map (projectedEntries entries)

/-- The projections of the items of a sequence. -/
def projectedItems : List Value → List Value
  | [] => []
  | item :: items => item.projected :: projectedItems items

/-- The projections of the entries of a map. -/
def projectedEntries : List (String × Value) → List (String × Value)
  | [] => []
  | (key, value) :: entries => (key, value.projected) :: projectedEntries entries

end

theorem ofInt_toInt (i : Int64) : ofInt i.toInt = .integer i := by
  rw [ofInt, if_pos (by simpa using i.toInt_lt), Int64.ofInt_toInt]

mutual

/-- **The value of a value's tree is its projection.** -/
theorem ofJson_toJson (v : Value) : ofJson v.toJson = v.projected := by
  match v with
  | .null | .bool _ | .string _ | .bytes _ => rfl
  | .integer i => exact ofInt_toInt i
  | .float x =>
      rw [toJson, Json.ofBinary64, projected]
      split <;> rfl
  | .array items => exact congrArg Value.array (ofJsonItems_toJsonItems items)
  | .map entries => exact congrArg Value.map (ofJsonMembers_toJsonEntries entries)

theorem ofJsonItems_toJsonItems (items : List Value) :
    ofJsonItems (toJsonItems items) = projectedItems items := by
  match items with
  | [] => rfl
  | item :: items =>
      rw [toJsonItems, ofJsonItems, ofJson_toJson item, ofJsonItems_toJsonItems items,
        projectedItems]

theorem ofJsonMembers_toJsonEntries (entries : List (String × Value)) :
    ofJsonMembers (toJsonEntries entries) = projectedEntries entries := by
  match entries with
  | [] => rfl
  | (key, value) :: entries =>
      rw [toJsonEntries, ofJsonMembers, ofJson_toJson value, ofJsonMembers_toJsonEntries entries,
        projectedEntries]

end

mutual

/-- **A value and its projection have one tree.** -/
theorem toJson_projected (v : Value) : v.projected.toJson = v.toJson := by
  match v with
  | .null | .bool _ | .integer _ | .string _ | .bytes _ => rfl
  | .float x =>
      rw [projected]
      split
      next => rfl
      next h => exact (show (Value.float x).toJson = .null from dif_neg h).symm
  | .array items => exact congrArg Json.array (toJsonItems_projectedItems items)
  | .map entries => exact congrArg Json.object (toJsonEntries_projectedEntries entries)

theorem toJsonItems_projectedItems (items : List Value) :
    toJsonItems (projectedItems items) = toJsonItems items := by
  match items with
  | [] => rfl
  | item :: items =>
      rw [projectedItems, toJsonItems, toJsonItems, toJson_projected item,
        toJsonItems_projectedItems items]

theorem toJsonEntries_projectedEntries (entries : List (String × Value)) :
    toJsonEntries (projectedEntries entries) = toJsonEntries entries := by
  match entries with
  | [] => rfl
  | (key, value) :: entries =>
      rw [projectedEntries, toJsonEntries, toJsonEntries, toJson_projected value,
        toJsonEntries_projectedEntries entries]

end

/-! ### Texts -/

/-- The text of a number that may not be finite is that of its tree. -/
theorem renderFloat_eq_render (x : Binary64) : renderFloat x = (Json.ofBinary64 x).render := by
  rw [renderFloat, Json.ofBinary64]
  split <;> rfl

mutual

/-- **The text of a value is the compact text of its tree.** -/
theorem renderJson_eq_render (v : Value) : v.renderJson = v.toJson.render := by
  match v with
  | .null | .bool _ | .integer _ | .string _ | .bytes _ => rfl
  | .float x => exact renderFloat_eq_render x
  | .array items => exact congrArg Json.renderArray (renderJsonItems_eq_renderItems items)
  | .map entries => exact congrArg Json.renderObject (renderJsonEntries_eq_renderMembers entries)

theorem renderJsonItems_eq_renderItems (items : List Value) :
    renderJsonItems items = Json.renderItems (toJsonItems items) := by
  match items with
  | [] => rfl
  | item :: items =>
      rw [renderJsonItems, toJsonItems, Json.renderItems, renderJson_eq_render item,
        renderJsonItems_eq_renderItems items]

theorem renderJsonEntries_eq_renderMembers (entries : List (String × Value)) :
    renderJsonEntries entries = Json.renderMembers (toJsonEntries entries) := by
  match entries with
  | [] => rfl
  | (key, value) :: entries =>
      rw [renderJsonEntries, toJsonEntries, Json.renderMembers, renderJson_eq_render value,
        renderJsonEntries_eq_renderMembers entries]

end

mutual

/-- Every float of a value is read back from its text. -/
def FloatsSurvive : Value → Prop
  | .float value => Json.Survives value
  | .array items => FloatsSurviveItems items
  | .map entries => FloatsSurviveEntries entries
  | _ => True

/-- Every float of the items of a sequence is read back from its text. -/
def FloatsSurviveItems : List Value → Prop
  | [] => True
  | item :: items => item.FloatsSurvive ∧ FloatsSurviveItems items

/-- Every float of the entries of a map is read back from its text. -/
def FloatsSurviveEntries : List (String × Value) → Prop
  | [] => True
  | (_, value) :: entries => value.FloatsSurvive ∧ FloatsSurviveEntries entries

end

theorem keys_toJsonEntries (entries : List (String × Value)) :
    (toJsonEntries entries).map Prod.fst = entries.map Prod.fst := by
  induction entries with
  | nil => rfl
  | cons entry entries ih => rw [toJsonEntries, List.map_cons, List.map_cons, ih]

theorem sorted_toJsonEntries {entries : List (String × Value)} (h : Entries.Sorted entries) :
    Entries.Sorted (toJsonEntries entries) := by
  have hkeys : (entries.map Prod.fst).Pairwise Entries.Before := List.pairwise_map.2 h
  rw [← keys_toJsonEntries] at hkeys
  exact List.pairwise_map.1 hkeys

open Json (Document Writes WritesMember)
open Utf8 (encodeChars)

theorem writes_renderFloat {x : Binary64} (h : Json.Survives x) :
    ∃ d : Document, Writes d (encodeChars (renderFloat x)) ∧
      d.tree? = some (Json.ofBinary64 x) ∧ d.depth = 0 := by
  rw [renderFloat, Json.ofBinary64]
  split
  next finite =>
    obtain ⟨n, hform, hnumber⟩ := h.numeral finite
    exact ⟨.number n, .number hform, by rw [Document.tree?, hnumber]; rfl, rfl⟩
  next => exact ⟨.null, .null, rfl, rfl⟩

mutual

/-- **The text of a value is a text of its tree**, with as many containers nested in it. -/
theorem writes_renderJson (v : Value) (hordered : v.Ordered) (hfloats : v.FloatsSurvive) :
    ∃ d : Document, Writes d (encodeChars v.renderJson) ∧ d.tree? = some v.toJson ∧
      d.depth = v.depth := by
  match v with
  | .null => exact ⟨.null, .null, rfl, rfl⟩
  | .bool false => exact ⟨.bool false, .no, rfl, rfl⟩
  | .bool true => exact ⟨.bool true, .yes, rfl, rfl⟩
  | .integer i =>
      refine ⟨_, .number (Json.numeralForm_renderInt i.toInt), ?_, rfl⟩
      rw [Document.tree?, Json.toNumber?_decimalDigits]
      rfl
  | .float x => exact writes_renderFloat hfloats
  | .string s => exact ⟨.string s, .string (Json.stringForm_quote s), rfl, rfl⟩
  | .bytes b =>
      exact ⟨.string (blobText b), .string (Json.stringForm_quote _), rfl, rfl⟩
  | .array items =>
      obtain ⟨ds, hwrites, htrees, hdepth⟩ := writes_renderJsonItems items hordered hfloats
      refine ⟨.array ds, Json.writes_renderArray hwrites, ?_, ?_⟩
      · rw [Document.tree?, htrees]
        rfl
      · rw [Document.depth, hdepth, Value.depth]
  | .map entries =>
      obtain ⟨ms, hwrites, htrees, hdepth⟩ := writes_renderJsonEntries entries hordered.2 hfloats
      refine ⟨.object ms, Json.writes_renderObject hwrites, ?_, ?_⟩
      · -- the keys ascend, so that no member replaces another one
        rw [Document.tree?, htrees, Option.map_some,
          Entries.ofList_of_sorted (sorted_toJsonEntries hordered.1), toJson]
      · rw [Document.depth, hdepth, Value.depth]

theorem writes_renderJsonItems (items : List Value) (hordered : OrderedItems items)
    (hfloats : FloatsSurviveItems items) :
    ∃ ds : List Document,
      List.Forall₂ (fun d text => Writes d (encodeChars text)) ds (renderJsonItems items) ∧
        Document.treeItems? ds = some (toJsonItems items) ∧
          Document.depthItems ds = depthItems items := by
  match items with
  | [] => exact ⟨[], .nil, rfl, rfl⟩
  | item :: items =>
      obtain ⟨d, hwrites, htree, hdepth⟩ := writes_renderJson item hordered.1 hfloats.1
      obtain ⟨ds, hrest, htrees, hdepths⟩ := writes_renderJsonItems items hordered.2 hfloats.2
      refine ⟨d :: ds, .cons hwrites hrest, ?_, ?_⟩
      · simp only [Document.treeItems?, htree, htrees, Option.map_some, toJsonItems]
      · rw [Document.depthItems, hdepth, hdepths, depthItems]

theorem writes_renderJsonEntries (entries : List (String × Value))
    (hordered : OrderedEntries entries) (hfloats : FloatsSurviveEntries entries) :
    ∃ ms : List (String × Document),
      List.Forall₂ (fun member text => WritesMember member (encodeChars text)) ms
          (renderJsonEntries entries) ∧
        Document.treeMembers? ms = some (toJsonEntries entries) ∧
          Document.depthMembers ms = depthEntries entries := by
  match entries with
  | [] => exact ⟨[], .nil, rfl, rfl⟩
  | (key, value) :: entries =>
      obtain ⟨d, hwrites, htree, hdepth⟩ := writes_renderJson value hordered.1 hfloats.1
      obtain ⟨ms, hrest, htrees, hdepths⟩ :=
        writes_renderJsonEntries entries hordered.2 hfloats.2
      refine ⟨(key, d) :: ms, .cons (Json.writesMember_renderMember key hwrites) hrest, ?_, ?_⟩
      · simp only [Document.treeMembers?, htree, htrees, Option.map_some, toJsonEntries]
      · rw [Document.depthMembers, hdepth, hdepths, depthEntries]

end

/-! ### No control characters -/

open Json (Printable)

theorem printable_renderFloat (x : Binary64) : Printable (renderFloat x) := by
  unfold renderFloat
  split
  · exact Json.printable_render x
  · simp [Printable, Json.renderNull]

mutual

/-- The text of a value holds no control character. -/
theorem printable_renderJson (v : Value) : Printable v.renderJson := by
  match v with
  | .null => simp [Printable, renderJson, Json.renderNull]
  | .bool false => simp [Printable, renderJson, Json.renderBool]
  | .bool true => simp [Printable, renderJson, Json.renderBool]
  | .integer i => exact Json.printable_renderInt i.toInt
  | .float x => exact printable_renderFloat x
  | .string s => exact Json.printable_quote s
  | .bytes b => exact Json.printable_quote _
  | .array items => exact Json.printable_renderArray (printable_renderJsonItems items)
  | .map entries => exact Json.printable_renderObject (printable_renderJsonEntries entries)

theorem printable_renderJsonItems (items : List Value) :
    ∀ text ∈ renderJsonItems items, Printable text := by
  match items with
  | [] => exact fun _ h => nomatch h
  | item :: items =>
      exact List.forall_mem_cons.2 ⟨printable_renderJson item, printable_renderJsonItems items⟩

theorem printable_renderJsonEntries (entries : List (String × Value)) :
    ∀ text ∈ renderJsonEntries entries, Printable text := by
  match entries with
  | [] => exact fun _ h => nomatch h
  | (key, value) :: entries =>
      exact List.forall_mem_cons.2 ⟨Json.printable_renderMember key (printable_renderJson value),
        printable_renderJsonEntries entries⟩

end

end HubGateway.Value
