/-
**What a JSON text means is no larger than it is.**

A document means a value that is not deeper than the document, whose keys ascend and in which there
are neither blobs nor numbers that are not finite, since a tree holds none.  A text of the document
takes at least as many bytes as the value weighs: a character takes no more in UTF-8 than in any of
its forms, and the quotes, brackets and commas make up for what a value weighs by itself.

Main statements:

* `HubGateway.Json.Document.regular_ofJson` — the value that a document means;
* `HubGateway.Json.Writes.weight_le` — **a value weighs no more than its text**.
-/

import HubGateway.Proofs.Binary64.Rounding
import HubGateway.Proofs.Json.Denotation
import HubGateway.Proofs.Json.Spelling
import HubGateway.Proofs.Value.Pairs

set_option relaxedAutoImplicit false
set_option autoImplicit false

namespace HubGateway

open Utf8 (encodeChar encodeChars)

/-- The value of an object is a map that its members build. -/
theorem Value.ofJson_object_ofList (members : List (String × Json)) :
    Value.ofJson (.object (Entries.ofList members)) =
      .map (Entries.ofList (Value.ofJsonMembers members)) := by
  rw [Value.ofJson, Json.ofJsonMembers_eq, Json.ofJsonMembers_eq, Entries.ofList_map]

/-- The value of a number is an integer or a finite number. -/
theorem Value.ofNumber_cases (n : Json.Number) :
    (∃ i, Value.ofNumber n = .integer i) ∨
      ∃ x, Value.ofNumber n = .float x ∧ x.isFinite = true := by
  cases n with
  | float x finite => exact .inr ⟨x, rfl, finite⟩
  | integer i inRange =>
      rw [Value.ofNumber, Value.ofInt]
      split
      next => exact .inl ⟨_, rfl⟩
      next => exact .inr ⟨_, rfl, Binary64.isFinite_ofRatio _ Nat.one_pos (by omega)⟩

namespace Json

/-! ### The value of a document -/

namespace Document

theorem exists_of_treeItems?_cons {d : Document} {ds : List Document} {trees : List Json}
    (h : treeItems? (d :: ds) = some trees) :
    ∃ j js, d.tree? = some j ∧ treeItems? ds = some js ∧ trees = j :: js := by
  rw [treeItems?] at h
  split at h
  next => cases h
  next j hj =>
    obtain ⟨js, hjs, rfl⟩ := Option.map_eq_some_iff.1 h
    exact ⟨j, js, hj, hjs, rfl⟩

theorem exists_of_treeMembers?_cons {member : String × Document}
    {ds : List (String × Document)} {trees : List (String × Json)}
    (h : treeMembers? (member :: ds) = some trees) :
    ∃ j js, member.2.tree? = some j ∧ treeMembers? ds = some js ∧ trees = (member.1, j) :: js := by
  rw [treeMembers?] at h
  split at h
  next => cases h
  next j hj =>
    obtain ⟨js, hjs, rfl⟩ := Option.map_eq_some_iff.1 h
    exact ⟨j, js, hj, hjs, rfl⟩

mutual

/-- What a document means has ascending keys, is not deeper than the document and is textual. -/
theorem regular_ofJson (d : Document) {j : Json} (h : d.tree? = some j) :
    (Value.ofJson j).Ordered ∧ (Value.ofJson j).depth ≤ d.depth ∧ (Value.ofJson j).Textual := by
  match d with
  | .null | .bool _ | .string _ =>
      cases h
      exact ⟨trivial, Nat.le_refl 0, trivial⟩
  | .number n =>
      obtain ⟨number, -, rfl⟩ := Option.map_eq_some_iff.1 h
      rw [Value.ofJson]
      rcases Value.ofNumber_cases number with ⟨i, hi⟩ | ⟨x, hx, hfinite⟩
      · rw [hi]
        exact ⟨trivial, Nat.le_refl 0, trivial⟩
      · rw [hx]
        exact ⟨trivial, Nat.le_refl 0, hfinite⟩
  | .array items =>
      rw [tree?] at h
      obtain ⟨trees, htrees, rfl⟩ := Option.map_eq_some_iff.1 h
      obtain ⟨hordered, hdepth, htextual⟩ := regular_ofJsonItems items htrees
      exact ⟨hordered, Nat.succ_le_succ hdepth, htextual⟩
  | .object members =>
      rw [tree?] at h
      obtain ⟨trees, htrees, rfl⟩ := Option.map_eq_some_iff.1 h
      obtain ⟨hordered, hdepth, htextual⟩ := regular_ofJsonMembers members htrees
      rw [Value.ofJson_object_ofList]
      refine ⟨Value.ordered_map_ofList hordered, Nat.succ_le_succ ?_,
        Value.textualEntries_ofList htextual⟩
      exact Nat.le_trans (Value.depthEntries_ofList_le _) hdepth

theorem regular_ofJsonItems (items : List Document) {trees : List Json}
    (h : treeItems? items = some trees) :
    Value.OrderedItems (Value.ofJsonItems trees) ∧
      Value.depthItems (Value.ofJsonItems trees) ≤ depthItems items ∧
      Value.TextualItems (Value.ofJsonItems trees) := by
  match items with
  | [] =>
      cases h
      exact ⟨trivial, Nat.le_refl 0, trivial⟩
  | item :: items =>
      obtain ⟨j, trees, hj, htrees, rfl⟩ := exists_of_treeItems?_cons h
      obtain ⟨hordered, hdepth, htextual⟩ := regular_ofJson item hj
      obtain ⟨hordereds, hdepths, htextuals⟩ := regular_ofJsonItems items htrees
      exact ⟨⟨hordered, hordereds⟩, max_le_max hdepth hdepths, htextual, htextuals⟩

theorem regular_ofJsonMembers (members : List (String × Document))
    {trees : List (String × Json)} (h : treeMembers? members = some trees) :
    Value.OrderedEntries (Value.ofJsonMembers trees) ∧
      Value.depthEntries (Value.ofJsonMembers trees) ≤ depthMembers members ∧
      Value.TextualEntries (Value.ofJsonMembers trees) := by
  match members with
  | [] =>
      cases h
      exact ⟨trivial, Nat.le_refl 0, trivial⟩
  | (name, d) :: members =>
      obtain ⟨j, trees, hj, htrees, rfl⟩ := exists_of_treeMembers?_cons h
      obtain ⟨hordered, hdepth, htextual⟩ := regular_ofJson d hj
      obtain ⟨hordereds, hdepths, htextuals⟩ := regular_ofJsonMembers members htrees
      exact ⟨⟨hordered, hordereds⟩, max_le_max hdepth hdepths, htextual, htextuals⟩

end

end Document

/-! ### Texts -/

/-- A character takes no more in UTF-8 than in any of its forms. -/
theorem CharForm.length_le {c : Char} {p : List UInt8} (h : CharForm c p) :
    (encodeChar c).length ≤ p.length := by
  have hfour : (encodeChar c).length ≤ 4 := by
    rw [encodeChar]
    split_ifs <;> simp
  have hunit : ∀ {u q}, UnitForm u q → q.length = 6 := by
    rintro u q ⟨⟩
    rfl
  cases h with
  | plain => exact Nat.le_refl _
  | letter hletter =>
      rw [(shortEscape_of_mem hletter).2.2]
      exact Nat.le_succ 1
  | unit h =>
      rw [hunit h]
      omega
  | pair _ _ hp hq =>
      rw [List.length_append, hunit hp, hunit hq]
      omega

theorem CharsForm.length_le {cs : List Char} {p : List UInt8} (h : CharsForm cs p) :
    (encodeChars cs).length ≤ p.length := by
  induction h with
  | nil => exact Nat.le_refl 0
  | cons h _ ih =>
      have := h.length_le
      rw [Utf8.encodeChars_cons, List.length_append, List.length_append]
      omega

/-- The quotes come on top of the text. -/
theorem StringForm.length_lt {s : String} {p : List UInt8} (h : StringForm s p) :
    (Utf8.encode s).length + 1 < p.length := by
  cases h with
  | intro h =>
      have := h.length_le
      rw [List.length_cons, List.length_append, List.length_singleton, Utf8.encode]
      omega

mutual

/-- **A value weighs no more than its text.** -/
theorem Writes.weight_le {d : Document} {p : List UInt8} {j : Json} (h : Writes d p)
    (hj : d.tree? = some j) : (Value.ofJson j).weight ≤ p.length := by
  match h with
  | .null | .yes | .no =>
      cases hj
      exact Nat.succ_le_succ (Nat.zero_le _)
  | .number h =>
      obtain ⟨number, -, rfl⟩ := Option.map_eq_some_iff.1 hj
      have hpos := (Writes.number h).length_pos
      rw [Value.ofJson]
      rcases Value.ofNumber_cases number with ⟨i, hi⟩ | ⟨x, hx, -⟩
      · rwa [hi]
      · rwa [hx]
  | .string h =>
      cases hj
      have := h.length_lt
      rw [Value.ofJson, Value.weight]
      omega
  | .emptyArray _ =>
      cases hj
      exact Nat.succ_le_succ (Nat.zero_le _)
  | .array h =>
      rw [Document.tree?] at hj
      obtain ⟨trees, htrees, rfl⟩ := Option.map_eq_some_iff.1 hj
      have := h.weight_le htrees
      rw [Value.ofJson, Value.weight, List.length_cons, List.length_append]
      omega
  | .emptyObject _ =>
      cases hj
      exact Nat.succ_le_succ (Nat.zero_le _)
  | .object h =>
      rw [Document.tree?] at hj
      obtain ⟨trees, htrees, rfl⟩ := Option.map_eq_some_iff.1 hj
      have := h.weight_le htrees
      have := Value.weightEntries_ofList_le (Value.ofJsonMembers trees)
      rw [Value.ofJson_object_ofList, Value.weight, List.length_cons, List.length_append]
      omega

theorem WritesItems.weight_le {items : List Document} {p : List UInt8} {trees : List Json}
    (h : WritesItems items p) (htrees : Document.treeItems? items = some trees) :
    Value.weightItems (Value.ofJsonItems trees) ≤ p.length := by
  match h with
  | .last _ h _ =>
      obtain ⟨j, _, hj, hothers, rfl⟩ := Document.exists_of_treeItems?_cons htrees
      cases hothers
      have := h.weight_le hj
      simp only [Value.ofJsonItems, Value.weightItems, List.length_append]
      omega
  | .cons _ h _ hitems =>
      obtain ⟨j, others, hj, hothers, rfl⟩ := Document.exists_of_treeItems?_cons htrees
      have := h.weight_le hj
      have := hitems.weight_le hothers
      simp only [Value.ofJsonItems, Value.weightItems, List.length_append, List.length_cons]
      omega

theorem WritesMembers.weight_le {members : List (String × Document)} {p : List UInt8}
    {trees : List (String × Json)} (h : WritesMembers members p)
    (htrees : Document.treeMembers? members = some trees) :
    Value.weightEntries (Value.ofJsonMembers trees) ≤ p.length := by
  match h with
  | .last h =>
      obtain ⟨j, _, hj, hothers, rfl⟩ := Document.exists_of_treeMembers?_cons htrees
      cases hothers
      have := h.weight_le hj
      simp only [Value.ofJsonMembers, Value.weightEntries]
      omega
  | .cons h hmembers =>
      obtain ⟨j, others, hj, hothers, rfl⟩ := Document.exists_of_treeMembers?_cons htrees
      have := h.weight_le hj
      have := hmembers.weight_le hothers
      simp only [Value.ofJsonMembers, Value.weightEntries, List.length_append, List.length_cons]
      omega

theorem WritesMember.weight_le {member : String × Document} {p : List UInt8} {j : Json}
    (h : WritesMember member p) (hj : member.2.tree? = some j) :
    1 + (Utf8.encode member.1).length + (Value.ofJson j).weight ≤ p.length := by
  match h with
  | .intro _ hname _ _ h _ =>
      have := hname.length_lt
      have := h.weight_le hj
      simp only [List.length_append, List.length_cons]
      omega

end

end Json

end HubGateway
