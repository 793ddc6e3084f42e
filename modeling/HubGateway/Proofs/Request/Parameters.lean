/-
**Tables of parameters.**

Parameters are read as pairs of a name and a text, and one name may come several times.  The table
of the pairs lists each name once, in the order of names, with the texts of the name in the order of
the pairs and commas between them.

Main definitions:

* `HubGateway.Parameters.textsOf` — the texts that pairs give to a name;
* `HubGateway.Parameters.Lists` — a table that lists pairs.

Main statements:

* `HubGateway.Parameters.lookup_ofPairs` — what is read under a name;
* `HubGateway.Parameters.lists_ofPairs` — **the table of pairs lists them**;
* `HubGateway.Parameters.Lists.mem_names_iff` — a name is listed iff a pair gives it a text.
-/

import HubGateway.Proofs.Entries
import HubGateway.Proofs.Request.Texts

set_option relaxedAutoImplicit false
set_option autoImplicit false

namespace HubGateway

/-! ### Adding texts to entries -/

namespace Entries

variable {entries : List (String × String)}

theorem sorted_adjoin (h : Sorted entries) (key text : String) :
    Sorted (adjoin key text entries) := by
  unfold adjoin
  split
  · exact sorted_insert h key _
  · exact sorted_insert h key _

theorem lookup_adjoin_of_ne {key k : String} (h : k ≠ key) (text : String) :
    (adjoin key text entries).lookup k = entries.lookup k := by
  unfold adjoin
  split
  · rw [lookup_insert, if_neg h]
  · rw [lookup_insert, if_neg h]

/-- Reading a key after adding a text under it. -/
theorem lookup_adjoin_self (key text : String) :
    (adjoin key text entries).lookup key =
      some (((entries.lookup key).map (· ++ "," ++ text)).getD text) := by
  unfold adjoin
  split
  next old hold => rw [lookup_insert, if_pos rfl, hold, Option.map_some, Option.getD_some]
  next hnone => rw [lookup_insert, if_pos rfl, hnone, Option.map_none, Option.getD_none]

end Entries

/-! ### The table of pairs -/

namespace Parameters

/-- The texts that pairs give to a name, in the order of the pairs. -/
def textsOf (pairs : List (String × String)) (name : String) : List String :=
  (pairs.filter (·.1 = name)).map Prod.snd

/-- The table lists the pairs: each name once, with its texts in their order and commas between
them. -/
structure Lists (table : Table) (pairs : List (String × String)) : Prop where
  /-- Names are in ascending order, each of them once. -/
  sorted : Entries.Sorted table
  /-- A name is listed if there is a text for it, with all of them. -/
  mem_iff : ∀ name text, (name, text) ∈ table ↔
    textsOf pairs name ≠ [] ∧ text = ",".intercalate (textsOf pairs name)

section Pairs

variable {table : Table} {pairs : List (String × String)} {name text : String}

theorem mem_textsOf_iff : text ∈ textsOf pairs name ↔ (name, text) ∈ pairs := by
  simp [textsOf]

theorem textsOf_append (front back : List (String × String)) (name : String) :
    textsOf (front ++ back) name = textsOf front name ++ textsOf back name := by
  rw [textsOf, List.filter_append, List.map_append]
  rfl

theorem textsOf_cons_self (name text : String) (pairs : List (String × String)) :
    textsOf ((name, text) :: pairs) name = text :: textsOf pairs name := by
  simp [textsOf]

theorem textsOf_cons_of_ne {key : String} (h : name ≠ key) (text : String)
    (pairs : List (String × String)) :
    textsOf ((key, text) :: pairs) name = textsOf pairs name := by
  simp [textsOf, Ne.symm h]

/-- One more text stands behind a comma. -/
theorem intercalate_concat {texts : List String} (hne : texts ≠ []) (text : String) :
    ",".intercalate (texts ++ [text]) = ",".intercalate texts ++ "," ++ text := by
  rw [← String.toList_inj, Headers.toList_intercalate, List.map_append,
    Text.intercalate_append ',' (by simpa using hne) (by simp), String.toList_append,
    String.toList_append, Headers.toList_intercalate]
  simp

theorem ofPairs_concat (pairs : List (String × String)) (name text : String) :
    ofPairs (pairs ++ [(name, text)]) = Entries.adjoin name text (ofPairs pairs) := by
  rw [ofPairs, List.foldl_append]
  rfl

theorem sorted_ofPairs (pairs : List (String × String)) : Entries.Sorted (ofPairs pairs) := by
  induction pairs using List.reverseRecOn with
  | nil => exact List.Pairwise.nil
  | append_singleton pairs pair ih =>
      rw [ofPairs_concat]
      exact Entries.sorted_adjoin ih pair.1 pair.2

/-- Under a name its texts are read, if there are any. -/
theorem lookup_ofPairs (pairs : List (String × String)) (name : String) :
    (ofPairs pairs).lookup name =
      if textsOf pairs name = [] then none else some (",".intercalate (textsOf pairs name)) := by
  induction pairs using List.reverseRecOn with
  | nil => rfl
  | append_singleton pairs pair ih =>
      obtain ⟨key, text⟩ := pair
      rw [ofPairs_concat, textsOf_append]
      by_cases h : name = key
      · subst h
        have htext : textsOf [(name, text)] name = [text] := textsOf_cons_self name text []
        rw [Entries.lookup_adjoin_self, ih, htext]
        by_cases hnil : textsOf pairs name = []
        · simp [hnil]
        · simp [hnil, intercalate_concat hnil]
      · have hnone : textsOf [(key, text)] name = [] := textsOf_cons_of_ne h text []
        rw [Entries.lookup_adjoin_of_ne h, ih, hnone, List.append_nil]

/-- **The table of pairs lists them.** -/
theorem lists_ofPairs (pairs : List (String × String)) : Lists (ofPairs pairs) pairs := by
  refine ⟨sorted_ofPairs pairs, fun name text => ?_⟩
  have hread : (name, text) ∈ ofPairs pairs ↔ (ofPairs pairs).lookup name = some text := by
    constructor
    · exact Entries.lookup_of_mem_sorted (sorted_ofPairs pairs)
    · exact Entries.mem_of_lookup
  rw [hread, lookup_ofPairs]
  split
  next hnil => simp [hnil]
  next hne => simp [hne, eq_comm]

/-- A name is listed iff a pair gives it a text. -/
theorem Lists.mem_names_iff (h : Lists table pairs) :
    name ∈ table.map Prod.fst ↔ ∃ text, (name, text) ∈ pairs := by
  simp only [← mem_textsOf_iff, List.mem_map, Prod.exists, exists_and_right, exists_eq_right,
    h.mem_iff]
  constructor
  · exact List.exists_mem_of_ne_nil _
  · intro htext
    obtain ⟨text, htext⟩ := htext
    exact List.ne_nil_of_mem htext

end Pairs

end Parameters

end HubGateway
