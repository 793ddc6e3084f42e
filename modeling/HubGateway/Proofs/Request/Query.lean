/-
**A client query is read in full.**

Behind the question marks at its beginning, a query is cut at its ampersands, and each fragment at
its first equals sign.  A fragment with something in front of it gives a text to a name, and both
are what their escapes stand for.  The table of the query lists every name that a fragment gives a
text to, with these texts in order and no others.

Since cutting comes before decoding, an ampersand or an equals sign within a name or a text is safe
if it is written as an escape.  So pairs that are written with escapes are read again, whatever
fragments without a name stand between them.

Main definitions:

* `HubGateway.Parameters.IsQuery` — a query and its fragments;
* `HubGateway.Parameters.Gives`, `Collects` — the text that a fragment gives to a name, and the ones
  that fragments give to it;
* `HubGateway.Parameters.Writes` — fragments in which pairs are written, among others.

Main statements:

* `HubGateway.Parameters.IsQuery.unique`, `exists_isQuery` — a text is a query in one way;
* `HubGateway.Parameters.queryPair?_eq_some_iff`, `collects_textsOf` — what fragments give;
* `HubGateway.Parameters.Writes.pairsOf_eq`, `Writes.lists` — written pairs are read again;
* `HubGateway.Parameters.ofQuery_loses_nothing` — **a query is read in full**.
-/

import HubGateway.Proofs.Request.Parameters
import HubGateway.Proofs.Text.Percent

set_option relaxedAutoImplicit false
set_option autoImplicit false

namespace HubGateway.Parameters

/-! ### Fragments -/

/-- The text is a query of these fragments: question marks, and then the fragments with ampersands
between them, which begin with no further question mark. -/
structure IsQuery (raw : String) (fragments : List String) : Prop where
  /-- There is at least one fragment, which may be empty. -/
  ne_nil : fragments ≠ []
  /-- Fragments end at ampersands. -/
  apart : ∀ fragment ∈ fragments, '&' ∉ fragment.toList
  /-- The fragments stand behind question marks. -/
  marked : ∃ marks, (∀ c ∈ marks.toList, c = '?') ∧ raw = marks ++ "&".intercalate fragments
  /-- All question marks at the beginning are taken away. -/
  head_ne : ("&".intercalate fragments).toList.head? ≠ some '?'

theorem toList_intercalate_ampersand (fragments : List String) :
    ("&".intercalate fragments).toList = ['&'].intercalate (fragments.map String.toList) := by
  rw [String.toList_intercalate]
  rfl

/-- Question marks can be taken from the beginning of a text. -/
theorem exists_marks (text : String) :
    ∃ marks rest : String, text = marks ++ rest ∧ (∀ c ∈ marks.toList, c = '?') ∧
      rest.toList.head? ≠ some '?' ∧ rest.toList = text.toList.dropWhile (· == '?') := by
  refine ⟨String.ofList (text.toList.takeWhile (· == '?')),
    String.ofList (text.toList.dropWhile (· == '?')), ?_, ?_, ?_, String.toList_ofList⟩
  · rw [← String.toList_inj, String.toList_append, String.toList_ofList, String.toList_ofList,
      List.takeWhile_append_dropWhile]
  · intro c hc
    rw [String.toList_ofList] at hc
    exact eq_of_beq (List.mem_takeWhile_imp (p := (· == '?')) hc)
  · intro hhead
    have hnot := List.head?_dropWhile_not (· == '?') text.toList
    rw [String.toList_ofList] at hhead
    rw [hhead] at hnot
    exact absurd hnot (by decide)

/-- The fragments of a query are the pieces that it is cut into. -/
theorem IsQuery.queryFragments_eq {raw : String} {fragments : List String}
    (h : IsQuery raw fragments) : queryFragments raw = fragments.map String.toList := by
  obtain ⟨hne, hapart, ⟨marks, hmarks, rfl⟩, hhead⟩ := h
  have hdrop : (marks ++ "&".intercalate fragments).toList.dropWhile (· == '?') =
      ("&".intercalate fragments).toList := by
    rw [String.toList_append, List.dropWhile_append_of_pos (by simpa using hmarks)]
    cases hchars : ("&".intercalate fragments).toList with
    | nil => rfl
    | cons c cs =>
        rw [hchars] at hhead
        exact List.dropWhile_cons_of_neg (by simpa using hhead)
  rw [queryFragments, hdrop, toList_intercalate_ampersand]
  exact List.splitOn_intercalate '&' (by simpa using hapart) (by simpa using hne)

/-- A text is a query of one list of fragments. -/
theorem IsQuery.unique {raw : String} {fragments fragments' : List String}
    (h : IsQuery raw fragments) (h' : IsQuery raw fragments') : fragments = fragments' := by
  have hchars := h.queryFragments_eq.symm.trans h'.queryFragments_eq
  exact List.map_injective_iff.2 (fun _ _ => String.toList_inj.1) hchars

/-- Every text is a query. -/
theorem exists_isQuery (raw : String) : ∃ fragments, IsQuery raw fragments := by
  obtain ⟨marks, rest, hraw, hmarks, hhead, hrest⟩ := exists_marks raw
  have hjoin : "&".intercalate ((queryFragments raw).map String.ofList) = rest := by
    rw [← String.toList_inj, toList_intercalate_ampersand, hrest, List.map_map]
    simp [queryFragments, Function.comp_def, List.intercalate_splitOn]
  refine ⟨(queryFragments raw).map String.ofList, ?_, ?_, ⟨marks, hmarks, ?_⟩, ?_⟩
  · rw [Ne, List.map_eq_nil_iff]
    exact List.splitOn_ne_nil '&' _
  · intro fragment hfragment
    obtain ⟨piece, hpiece, rfl⟩ := List.mem_map.1 hfragment
    rw [String.toList_ofList]
    exact Text.not_mem_of_mem_splitOn hpiece
  · rw [hjoin, hraw]
  · rw [hjoin]
    exact hhead

/-! ### What fragments give -/

/-- The fragment gives the text to the name: they are what its two sides stand for around the first
equals sign, in front of which there is something. -/
def Gives (fragment name text : String) : Prop :=
  ∃ key value, fragment = key ++ "=" ++ value ∧ '=' ∉ key.toList ∧ key ≠ "" ∧
    Percent.Means key name ∧ Percent.Means value text

/-- The texts that fragments give to a name, in the order of the fragments. -/
inductive Collects (name : String) : List String → List String → Prop
  | nil : Collects name [] []
  | gives {fragment text : String} {fragments texts : List String} (h : Gives fragment name text)
      (hrest : Collects name fragments texts) :
      Collects name (fragment :: fragments) (text :: texts)
  | skips {fragment : String} {fragments texts : List String}
      (h : ∀ text, ¬ Gives fragment name text) (hrest : Collects name fragments texts) :
      Collects name (fragment :: fragments) texts

/-- A fragment is cut at its first equals sign. -/
theorem cutAt_equals_iff {cs key value : List Char} :
    Text.cutAt ['='] cs = some (key, value) ↔ cs = key ++ '=' :: value ∧ '=' ∉ key := by
  rw [Text.cutAt_eq_some_iff (List.cons_ne_nil _ _), List.dropLast_singleton, List.append_nil,
    List.singleton_infix_iff, List.append_assoc, List.singleton_append]

/-- **A fragment is read as the text that it gives to a name.** -/
theorem queryPair?_eq_some_iff {fragment name text : String} :
    queryPair? fragment.toList = some (name, text) ↔ Gives fragment name text := by
  unfold queryPair? Gives
  constructor
  · intro h
    split at h
    next => cases h
    next key value hcut =>
      obtain ⟨hchars, hkey⟩ := cutAt_equals_iff.1 hcut
      split at h
      next => cases h
      next hempty =>
        cases h
        refine ⟨String.ofList key, String.ofList value, ?_, ?_, ?_, ?_, ?_⟩
        · rw [← String.toList_inj, hchars]
          simp
        · rwa [String.toList_ofList]
        · rw [Ne, ← String.toList_inj, String.toList_ofList]
          simpa using hempty
        · exact Percent.decode_eq_iff.1 rfl
        · exact Percent.decode_eq_iff.1 rfl
  · intro h
    obtain ⟨key, value, rfl, hkey, hne, hname, htext⟩ := h
    have hcut : Text.cutAt ['='] (key ++ "=" ++ value).toList = some (key.toList, value.toList) :=
      cutAt_equals_iff.2 ⟨by simp, hkey⟩
    have hempty : key.toList.isEmpty = false := by
      simpa using hne
    simp only [hcut, hempty, String.ofList_toList, Percent.decode_eq_iff.2 hname,
      Percent.decode_eq_iff.2 htext]
    rfl

/-- A fragment gives one text to one name. -/
theorem Gives.unique {fragment name name' text text' : String} (h : Gives fragment name text)
    (h' : Gives fragment name' text') : name = name' ∧ text = text' := by
  have hpair := (queryPair?_eq_some_iff.2 h).symm.trans (queryPair?_eq_some_iff.2 h')
  cases hpair
  exact ⟨rfl, rfl⟩

/-- The pairs that fragments are read as. -/
def pairsOf (fragments : List String) : List (String × String) :=
  (fragments.map String.toList).filterMap queryPair?

theorem pairsOf_cons_of_gives {fragment name text : String} (h : Gives fragment name text)
    (fragments : List String) :
    pairsOf (fragment :: fragments) = (name, text) :: pairsOf fragments := by
  rw [pairsOf, List.map_cons, List.filterMap_cons_some (queryPair?_eq_some_iff.2 h)]
  rfl

theorem pairsOf_cons_of_not_gives {fragment : String} (h : ∀ name text, ¬ Gives fragment name text)
    (fragments : List String) : pairsOf (fragment :: fragments) = pairsOf fragments := by
  rw [pairsOf, List.map_cons, List.filterMap_cons_none]
  · rfl
  · rw [Option.eq_none_iff_forall_ne_some]
    intro pair hpair
    exact h pair.1 pair.2 (queryPair?_eq_some_iff.1 hpair)

/-- Every list of fragments collects the texts of the pairs that it is read as. -/
theorem collects_textsOf (name : String) (fragments : List String) :
    Collects name fragments (textsOf (pairsOf fragments) name) := by
  induction fragments with
  | nil => exact .nil
  | cons fragment fragments ih =>
      by_cases hgives : ∃ key text, Gives fragment key text
      · obtain ⟨key, text, hgives⟩ := hgives
        rw [pairsOf_cons_of_gives hgives]
        by_cases hname : name = key
        · subst hname
          rw [textsOf_cons_self]
          exact .gives hgives ih
        · rw [textsOf_cons_of_ne hname]
          exact .skips (fun text hother => hname (hother.unique hgives).1) ih
      · have hnone : ∀ key text, ¬ Gives fragment key text := by
          simpa using hgives
        rw [pairsOf_cons_of_not_gives hnone]
        exact .skips (hnone name) ih

theorem exists_mem_pairsOf_iff {fragments : List String} {name : String} :
    (∃ text, (name, text) ∈ pairsOf fragments) ↔
      ∃ fragment ∈ fragments, ∃ text, Gives fragment name text := by
  simp only [pairsOf, List.mem_filterMap, List.mem_map, exists_exists_and_eq_and,
    queryPair?_eq_some_iff]
  constructor
  · intro h
    obtain ⟨text, fragment, hfragment, hgives⟩ := h
    exact ⟨fragment, hfragment, text, hgives⟩
  · intro h
    obtain ⟨fragment, hfragment, text, hgives⟩ := h
    exact ⟨text, fragment, hfragment, hgives⟩

/-- The table of a query lists the pairs that its fragments are read as. -/
theorem IsQuery.lists {raw : String} {fragments : List String} (h : IsQuery raw fragments) :
    Lists (ofQuery raw) (pairsOf fragments) := by
  rw [ofQuery, h.queryFragments_eq]
  exact lists_ofPairs _

/-! ### Written queries -/

/-- A fragment between the others that gives nothing: it has no equals sign, or nothing in front of
the first one. -/
def IsStray (fragment : String) : Prop :=
  '&' ∉ fragment.toList ∧ ('=' ∉ fragment.toList ∨ ∃ rest, fragment = "=" ++ rest)

/-- The fragments are the pairs in order, each written with escapes, and stray fragments. -/
inductive Writes : List String → List (String × String) → Prop
  | nil : Writes [] []
  | pair {key value name text : String} {fragments : List String} {pairs : List (String × String)}
      (hname : Percent.Escapes key.toList name.toList) (hne : name ≠ "")
      (htext : Percent.Escapes value.toList text.toList) (hrest : Writes fragments pairs) :
      Writes ((key ++ "=" ++ value) :: fragments) ((name, text) :: pairs)
  | stray {fragment : String} {fragments : List String} {pairs : List (String × String)}
      (h : IsStray fragment) (hrest : Writes fragments pairs) : Writes (fragment :: fragments) pairs

/-- A pair as a fragment, with all characters escaped that are not unreserved. -/
def written (pair : String × String) : String :=
  Percent.encode pair.1 ++ "=" ++ Percent.encode pair.2

/-- In a writing, an escaped character does not stand as it is. -/
theorem not_mem_of_escapes {c : Char} {written text : List Char}
    (h : Percent.Escapes written text) (hc : c ∈ Percent.reserved) (hne : c ≠ '%') :
    c ∉ written := fun hmem => hne (h.eq_percent c hmem hc)

theorem gives_of_escapes {key value name text : String}
    (hname : Percent.Escapes key.toList name.toList) (hne : name ≠ "")
    (htext : Percent.Escapes value.toList text.toList) : Gives (key ++ "=" ++ value) name text := by
  refine ⟨key, value, rfl, not_mem_of_escapes hname (by decide) (by decide), ?_, hname.means,
    htext.means⟩
  rintro rfl
  exact hname.ne_nil (by simpa using hne) rfl

theorem IsStray.not_gives {fragment : String} (h : IsStray fragment) (name text : String) :
    ¬ Gives fragment name text := by
  intro hgives
  obtain ⟨key, value, rfl, hkey, hne, -, -⟩ := hgives
  obtain ⟨-, hnone | ⟨rest, hrest⟩⟩ := h
  · simp at hnone
  · -- what stands in front of the first equals sign would begin with one
    cases hchars : key.toList with
    | nil => exact hne (String.toList_eq_nil_iff.1 hchars)
    | cons c cs =>
        have hhead := congrArg (·.toList.head?) hrest
        have hc : c = '=' := by simpa [hchars] using hhead
        exact hkey (by simp [hchars, hc])

/-- **Written pairs are read again.** -/
theorem Writes.pairsOf_eq {fragments : List String} {pairs : List (String × String)}
    (h : Writes fragments pairs) : pairsOf fragments = pairs := by
  induction h with
  | nil => rfl
  | pair hname hne htext _ ih =>
      rw [pairsOf_cons_of_gives (gives_of_escapes hname hne htext), ih]
  | stray h _ ih => rw [pairsOf_cons_of_not_gives h.not_gives, ih]

theorem Writes.apart {fragments : List String} {pairs : List (String × String)}
    (h : Writes fragments pairs) : ∀ fragment ∈ fragments, '&' ∉ fragment.toList := by
  induction h with
  | nil =>
      intro fragment hfragment
      cases hfragment
  | pair hname _ htext _ ih =>
      refine List.forall_mem_cons.2 ⟨?_, ih⟩
      have hkey := not_mem_of_escapes hname (c := '&') (by decide) (by decide)
      have hvalue := not_mem_of_escapes htext (c := '&') (by decide) (by decide)
      simp [hkey, hvalue]
  | stray h _ ih => exact List.forall_mem_cons.2 ⟨h.1, ih⟩

/-- Question marks at the beginning of the first fragment can be taken away. -/
theorem Writes.strip {marks rest : String} {fragments : List String}
    {pairs : List (String × String)} (h : Writes ((marks ++ rest) :: fragments) pairs)
    (hmarks : ∀ c ∈ marks.toList, c = '?') : Writes (rest :: fragments) pairs := by
  cases hchars : marks.toList with
  | nil =>
      rw [String.toList_eq_nil_iff] at hchars
      rwa [hchars, String.empty_append] at h
  | cons c cs =>
      -- what begins with a question mark is neither a pair nor begins with an equals sign
      have hc : c = '?' := hmarks c (by simp [hchars])
      subst hc
      generalize hfirst : marks ++ rest = first at h
      cases h with
      | @pair key value _ _ _ _ hname hne =>
          have hhead := congrArg (·.toList.head?) hfirst
          cases hkey : key.toList with
          | nil => exact absurd hkey (hname.ne_nil (by simpa using hne))
          | cons d ds =>
              have hd : '?' = d := by simpa [hchars, hkey] using hhead
              have hmark := not_mem_of_escapes hname (c := '?') (by decide) (by decide)
              rw [hkey, hd] at hmark
              exact absurd List.mem_cons_self hmark
      | stray h hrest =>
          subst hfirst
          obtain ⟨hapart, hnone | ⟨tail, htail⟩⟩ := h
          · rw [String.toList_append, List.mem_append, not_or] at hapart hnone
            exact .stray ⟨hapart.2, .inl hnone.2⟩ hrest
          · have hhead := congrArg (·.toList.head?) htail
            simp [hchars] at hhead

/-- What is joined begins as the first text does, or with the separator. -/
theorem head?_intercalate_ne {first : List Char} (h : first.head? ≠ some '?')
    (texts : List (List Char)) : (['&'].intercalate (first :: texts)).head? ≠ some '?' := by
  cases first with
  | nil => cases texts <;> simp
  | cons c cs => cases texts <;> simpa using h

theorem intercalate_append (front first : String) (fragments : List String) :
    "&".intercalate ((front ++ first) :: fragments) =
      front ++ "&".intercalate (first :: fragments) := by
  rw [← String.toList_inj, String.toList_append, toList_intercalate_ampersand,
    toList_intercalate_ampersand]
  cases fragments <;> simp

/-- Behind its question marks, a written query has the fragments that it was written with, but for
further question marks at the beginning of the first one. -/
theorem Writes.exists_isQuery {first : String} {fragments : List String}
    {pairs : List (String × String)} (h : Writes (first :: fragments) pairs) :
    ∃ fragments', IsQuery ("?" ++ "&".intercalate (first :: fragments)) fragments' ∧
      Writes fragments' pairs := by
  obtain ⟨marks, rest, rfl, hmarks, hhead, -⟩ := exists_marks first
  have hstrip := h.strip hmarks
  refine ⟨rest :: fragments, ⟨List.cons_ne_nil _ _, hstrip.apart, ⟨"?" ++ marks, ?_, ?_⟩, ?_⟩,
    hstrip⟩
  · simpa using hmarks
  · rw [intercalate_append, String.append_assoc]
  · rw [toList_intercalate_ampersand]
    exact head?_intercalate_ne hhead _

/-- The table of a written query lists the pairs. -/
theorem Writes.lists {fragments : List String} {pairs : List (String × String)}
    (h : Writes fragments pairs) : Lists (ofQuery ("?" ++ "&".intercalate fragments)) pairs := by
  cases fragments with
  | nil =>
      cases h
      exact lists_ofPairs []
  | cons first fragments =>
      obtain ⟨fragments', hquery, hwrites⟩ := h.exists_isQuery
      have hlists := hquery.lists
      rwa [hwrites.pairsOf_eq] at hlists

/-- A pair is written by escaping all characters that are not unreserved. -/
theorem Writes.pair_written {name : String} (hne : name ≠ "") (text : String)
    {fragments : List String} {pairs : List (String × String)} (hrest : Writes fragments pairs) :
    Writes (written (name, text) :: fragments) ((name, text) :: pairs) :=
  .pair (Percent.escapes_encode name) hne (Percent.escapes_encode text) hrest

theorem writes_map_written {pairs : List (String × String)} (h : ∀ pair ∈ pairs, pair.1 ≠ "") :
    Writes (pairs.map written) pairs := by
  induction pairs with
  | nil => exact .nil
  | cons pair pairs ih =>
      obtain ⟨hpair, hpairs⟩ := List.forall_mem_cons.1 h
      exact .pair_written hpair pair.2 (ih hpairs)

/-! ### Reading -/

/-- **A query is read in full.**  Its table has the names that a fragment gives a text to, each of
them once, with all these texts in order.  Pairs that are written with escapes are listed, whatever
other fragments stand between them; and all pairs with a name can be written so. -/
theorem ofQuery_loses_nothing :
    (∀ raw, ∃ fragments, IsQuery raw fragments ∧ Entries.Sorted (ofQuery raw) ∧
      ∀ name, (name ∈ (ofQuery raw).map Prod.fst ↔
          ∃ fragment ∈ fragments, ∃ text, Gives fragment name text) ∧
        ∀ text, (name, text) ∈ ofQuery raw →
          ∃ texts, Collects name fragments texts ∧ text = ",".intercalate texts) ∧
    (∀ fragments pairs, Writes fragments pairs →
      Lists (ofQuery ("?" ++ "&".intercalate fragments)) pairs) ∧
    ∀ pairs : List (String × String), (∀ pair ∈ pairs, pair.1 ≠ "") →
      Writes (pairs.map written) pairs := by
  refine ⟨fun raw => ?_, fun _ _ => Writes.lists, fun _ => writes_map_written⟩
  obtain ⟨fragments, hquery⟩ := exists_isQuery raw
  have hlists := hquery.lists
  refine ⟨fragments, hquery, hlists.sorted, fun name => ⟨?_, fun text htext => ?_⟩⟩
  · rw [hlists.mem_names_iff, exists_mem_pairsOf_iff]
  · exact ⟨_, collects_textsOf name fragments, ((hlists.mem_iff name text).1 htext).2⟩

/-- An ampersand in a name, an equals sign and a letter beyond ASCII in its texts, with two stray
fragments between them. -/
theorem ofQuery_loses_nothing_interspersed :
    Writes ["flag", "a%26b=1%3D", "=x", "a%26b=%C3%A9"] [("a&b", "1="), ("a&b", "é")] ∧
      Lists (ofQuery "?flag&a%26b=1%3D&=x&a%26b=%C3%A9") [("a&b", "1="), ("a&b", "é")] := by
  have hfirst : written ("a&b", "1=") = "a%26b=1%3D" := by decide +kernel
  have hsecond : written ("a&b", "é") = "a%26b=%C3%A9" := by decide +kernel
  have hflag : IsStray "flag" := ⟨by decide, .inl (by decide)⟩
  have hequals : IsStray "=x" := ⟨by decide, .inr ⟨"x", by decide⟩⟩
  have hwrites : Writes ["flag", "a%26b=1%3D", "=x", "a%26b=%C3%A9"]
      [("a&b", "1="), ("a&b", "é")] := by
    rw [← hfirst, ← hsecond]
    exact .stray hflag (.pair_written (by decide) "1=" (.stray hequals
      (.pair_written (by decide) "é" .nil)))
  have hraw : "?flag&a%26b=1%3D&=x&a%26b=%C3%A9" =
      "?" ++ "&".intercalate ["flag", "a%26b=1%3D", "=x", "a%26b=%C3%A9"] := by decide +kernel
  rw [hraw]
  exact ⟨hwrites, ofQuery_loses_nothing.2.1 _ _ hwrites⟩

end HubGateway.Parameters
