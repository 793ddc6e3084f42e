/-
**The text of a header.**

The values of a header that are text are joined with commas, and the header counts as absent if what
comes of it is blank.  It is there if one of its values is text that is not blank.  It is also there
if several values are text and all of them are blank, because the comma between two of them is not.

Read as a list, a joined text has the elements of all values, each of them between commas and
without the white space around it.

Main definitions:

* `HubGateway.Headers.texts`, `joined` — the texts of a name, and all of them as one;
* `HubGateway.Headers.Carries`, `Present` — a name with a text that is not blank, or with several;
* `HubGateway.Parameters.IsElement` — an element of a list;
* `HubGateway.Headers.HasElement` — an element of a list in one of the values of a name.

Main statements:

* `HubGateway.Headers.value?_eq_some_iff`, `value?_eq_none_iff` — **when a header has a text**;
* `HubGateway.Parameters.mem_splitList_iff` — the elements of a list;
* `HubGateway.Headers.isElement_joined_iff` — **joining neither makes nor loses an element**.
-/

import HubGateway.Proofs.Text.Pieces
import HubGateway.Proofs.Text.Utf8
import HubGateway.Request.Headers
import HubGateway.Request.Parameters

set_option relaxedAutoImplicit false
set_option autoImplicit false

namespace HubGateway

/-! ### Texts -/

namespace Headers

/-- The values of a name that are text, in order. -/
def texts (h : Headers) (name : String) : List String := (h.values name).filterMap Utf8.decode?

/-- The texts of a name, with commas between them. -/
def joined (h : Headers) (name : String) : String := ",".intercalate (h.texts name)

/-- One of the values of a name is text that is not blank. -/
def Carries (h : Headers) (name : String) : Prop :=
  ∃ text, Utf8.encode text ∈ h.values name ∧ Text.isBlankText text = false

/-- A name carries a text that is not blank, or several texts, with a comma between them. -/
def Present (h : Headers) (name : String) : Prop := h.Carries name ∨ 2 ≤ (h.texts name).length

section Texts

variable {h : Headers} {name : String}

theorem mem_texts_iff {text : String} : text ∈ h.texts name ↔ Utf8.encode text ∈ h.values name := by
  rw [texts, List.mem_filterMap]
  constructor
  · intro hmem
    obtain ⟨value, hvalue, hdecode⟩ := hmem
    rw [← Utf8.decode?_eq_some_iff.1 hdecode]
    exact hvalue
  · intro hmem
    exact ⟨_, hmem, Utf8.decode?_eq_some_iff.2 rfl⟩

theorem toList_intercalate (texts : List String) :
    (",".intercalate texts).toList = [','].intercalate (texts.map String.toList) := by
  rw [String.toList_intercalate]
  rfl

theorem joinValues_eq_intercalate (texts : List String) :
    joinValues texts = ",".intercalate texts := by
  rw [joinValues, ← toList_intercalate, String.ofList_toList]

/-- Joined texts are blank if there is no comma and all of them are blank. -/
theorem isBlankText_joined_iff :
    Text.isBlankText (h.joined name) = true ↔
      (∀ text ∈ h.texts name, Text.isBlankText text = true) ∧ (h.texts name).length ≤ 1 := by
  have hcomma : Text.isBlank ',' = false := by decide
  rw [Text.isBlankText, joined, toList_intercalate, Text.all_intercalate, hcomma]
  simp [Text.isBlankText]

/-- Joined texts are not blank if one of them is not, or if there are several. -/
theorem isBlankText_joined_eq_false_iff :
    Text.isBlankText (h.joined name) = false ↔ h.Present name := by
  rw [← Bool.not_eq_true, isBlankText_joined_iff, Classical.not_and_iff_not_or_not, Present]
  simp [Carries, mem_texts_iff, Nat.lt_iff_add_one_le]

/-- **A header has its joined text**, unless that is blank. -/
theorem value?_eq_some_iff {raw : String} :
    h.value? name = some raw ↔ h.Present name ∧ raw = h.joined name := by
  rw [← isBlankText_joined_eq_false_iff]
  have hjoined : joinValues ((h.values name).filterMap Utf8.decode?) = h.joined name :=
    joinValues_eq_intercalate _
  simp only [value?, hjoined]
  cases Text.isBlankText (h.joined name) <;> simp [eq_comm]

/-- **A header is absent** if none of its values is text that is not blank, and at most one of them
is text at all. -/
theorem value?_eq_none_iff : h.value? name = none ↔ ¬ h.Present name := by
  rw [Option.eq_none_iff_forall_ne_some]
  simp [value?_eq_some_iff]

theorem isSome_value?_iff : (h.value? name).isSome ↔ h.Present name := by
  rw [← not_iff_not, ← value?_eq_none_iff]
  simp

end Texts

end Headers

/-! ### Elements of lists -/

namespace Parameters

/-- The element stands in the list between commas, with or without white space around it, and is
not empty. -/
def IsElement (element list : String) : Prop :=
  element ≠ "" ∧ ∃ piece, Text.IsPiece ',' piece list.toList ∧ Text.Trims piece element.toList

/-- **A list is cut into its elements.** -/
theorem mem_splitList_iff {element list : String} :
    element ∈ splitList list ↔ IsElement element list := by
  simp only [splitList, List.mem_map, List.mem_filter, IsElement, ← Text.mem_splitOn_iff,
    ← Text.trimChars_eq_iff]
  constructor
  · intro h
    obtain ⟨_, ⟨⟨piece, hpiece, rfl⟩, hne⟩, rfl⟩ := h
    exact ⟨by simpa [← String.toList_inj] using hne, piece, hpiece, by rw [String.toList_ofList]⟩
  · intro h
    obtain ⟨hne, piece, hpiece, htrim⟩ := h
    have hchars : element.toList ≠ [] := fun hnil => hne (String.toList_eq_nil_iff.1 hnil)
    exact ⟨_, ⟨⟨piece, hpiece, htrim⟩, by simpa using hchars⟩, String.ofList_toList⟩

/-- The elements of joined lists are those of each of them, in order. -/
theorem splitList_intercalate (lists : List String) :
    splitList (",".intercalate lists) = lists.flatMap splitList := by
  by_cases hne : lists = []
  · subst hne
    rfl
  · rw [splitList, Headers.toList_intercalate, Text.splitOn_intercalate ',' (by simpa using hne)]
    rw [List.flatMap_map, List.map_flatMap, List.filter_flatMap, List.map_flatMap]
    rfl

end Parameters

namespace Headers

/-- One of the values of a name is a list with the element. -/
def HasElement (h : Headers) (name element : String) : Prop :=
  ∃ list, Utf8.encode list ∈ h.values name ∧ Parameters.IsElement element list

/-- **Joining neither makes nor loses an element.** -/
theorem isElement_joined_iff {h : Headers} {name element : String} :
    Parameters.IsElement element (h.joined name) ↔ h.HasElement name element := by
  rw [← Parameters.mem_splitList_iff, joined, Parameters.splitList_intercalate, List.mem_flatMap]
  simp only [mem_texts_iff, Parameters.mem_splitList_iff]
  rfl

end Headers

end HubGateway
