/-
**Values are read in two ways with one result.**

A value can be read from a document through its tree, or directly.  The ways differ in what they are
given: direct reading meets numbers by the kind in which they are written, and the entries of a map
in the order of the document, with keys repeated; the tree has sorted both out.  They agree on every
part of a document, and so on every document.

Main statements:

* `HubGateway.Value.factors_direct` — direct reading is reading of a tree followed by its value;
* `HubGateway.Value.parseJson_agrees` — **both ways take the same documents as the same values**.
-/

import HubGateway.Proofs.Json.Reading
import HubGateway.Proofs.Json.Size
import HubGateway.Proofs.Json.Soundness
import HubGateway.Proofs.Value.Visitor

set_option relaxedAutoImplicit false
set_option autoImplicit false

namespace HubGateway.Value

open Json (Writes IsBlank maxNesting)

/-! ### Documents -/

/-- **Direct reading is the reading of a tree followed by the value of the tree.** -/
theorem factors_direct : Json.tree.Factors direct ofJson where
  null := rfl
  bool _ := rfl
  number n := by
    rw [direct, Json.tree, funext value_visitNumber, Option.map_map]
    rfl
  string pieces := by
    rw [direct, Json.tree, Option.map_map]
    rfl
  array items := by
    rw [Json.tree, ofJson, ofJsonItems_eq]
    rfl
  name := rfl
  object members := by
    -- entries with one key are made one before or after their values are taken
    rw [Json.tree, ofJson_object_ofList, Json.ofJsonMembers_eq]
    rfl

/-- **Both ways take the same documents as the same values**, and these are the documents of the
grammar that mean a tree and are not nested too deep. -/
theorem parseJson_agrees (bytes : List UInt8) :
    parseJson bytes = (Json.parse bytes).map ofJson ∧
      ∀ v, parseJson bytes = some v ↔ ∃ d before p after j, Writes d p ∧ d.depth ≤ maxNesting ∧
        d.tree? = some j ∧ v = ofJson j ∧ IsBlank before ∧ IsBlank after ∧
        bytes = before ++ (p ++ after) := by
  have hparse : parseJson bytes = (Json.parse bytes).map ofJson := factors_direct.readDocument bytes
  refine ⟨hparse, fun v => ?_⟩
  rw [hparse, Option.map_eq_some_iff]
  constructor
  · rintro ⟨j, hj, rfl⟩
    obtain ⟨d, before, p, after, hwrites, hdepth, htree, hblanks⟩ := Json.parse_eq_some_iff.1 hj
    exact ⟨d, before, p, after, j, hwrites, hdepth, htree, rfl, hblanks⟩
  · rintro ⟨d, before, p, after, j, hwrites, hdepth, htree, rfl, hblanks⟩
    exact ⟨j, Json.parse_eq_some_iff.2 ⟨d, before, p, after, hwrites, hdepth, htree, hblanks⟩, rfl⟩

end HubGateway.Value
