/-
**What entries built from pairs hold.**

Entries are built by setting one key after the other, so that of several pairs with one key the
last is read.  A function of the values can be applied before or after.  Pairs of different keys may
change places: sorted entries are known by what they hold.

Main definitions:

* `HubGateway.Entries.Rearranged` — pairs in another order, but not those of one key.

Main statements:

* `HubGateway.Entries.lookup_ofList` — **the last pair of a key is read**;
* `HubGateway.Entries.mem_of_mem_ofList`, `exists_mem_ofList` — entries are among the pairs, and
  every key of the pairs has one;
* `HubGateway.Entries.lookup_of_unique` — a key that has only one value is read as it;
* `HubGateway.Entries.perm_ofList` — pairs of different keys are put in order, and that is all;
* `HubGateway.Entries.ofList_map` — building entries commutes with a function of the values;
* `HubGateway.Entries.ofList_of_rearranged` — rearranged pairs build the same entries.
-/

import Mathlib.Data.List.Sort
import HubGateway.Entries

set_option relaxedAutoImplicit false
set_option autoImplicit false

namespace HubGateway.Entries

variable {α β : Type}

theorem mem_of_mem_foldl {pairs entries : List (String × α)} {p : String × α}
    (h : p ∈ pairs.foldl (fun entries (key, value) => insert key value entries) entries) :
    p ∈ pairs ∨ p ∈ entries := by
  induction pairs generalizing entries with
  | nil => exact .inr h
  | cons pair pairs ih =>
      rcases ih h with h | h
      · exact .inl (List.mem_cons_of_mem _ h)
      · rcases mem_of_mem_insert h with rfl | h
        · exact .inl List.mem_cons_self
        · exact .inr h

/-- Entries are among the pairs that they are built from. -/
theorem mem_of_mem_ofList {pairs : List (String × α)} {p : String × α} (h : p ∈ ofList pairs) :
    p ∈ pairs :=
  (mem_of_mem_foldl h).resolve_right List.not_mem_nil

theorem lookup_foldl (pairs entries : List (String × α)) (k : String) :
    (pairs.foldl (fun entries (key, value) => insert key value entries) entries).lookup k =
      (pairs.reverse.lookup k).or (entries.lookup k) := by
  induction pairs generalizing entries with
  | nil => rfl
  | cons pair pairs ih =>
      obtain ⟨key, value⟩ := pair
      rw [List.foldl_cons, ih, lookup_insert, List.reverse_cons, List.lookup_append,
        Option.or_assoc, lookup_cons_eq]
      split <;> rfl

/-- **The last pair of a key is read.** -/
theorem lookup_ofList (pairs : List (String × α)) (k : String) :
    (ofList pairs).lookup k = pairs.reverse.lookup k := by
  rw [ofList, lookup_foldl]
  exact Option.or_none

/-- What is found under a key stands beside it. -/
theorem mem_of_lookup {κ : Type} [BEq κ] [LawfulBEq κ] {pairs : List (κ × α)} {k : κ} {v : α}
    (h : pairs.lookup k = some v) : (k, v) ∈ pairs := by
  obtain ⟨front, back, rfl, -⟩ := List.lookup_eq_some_iff.1 h
  exact List.mem_append_right _ List.mem_cons_self

section Last

variable {pairs : List (String × α)} {key : String}

theorem lookup_reverse_eq_some_iff {value : α} :
    pairs.reverse.lookup key = some value ↔
      ∃ front back, pairs = front ++ (key, value) :: back ∧ ∀ e ∈ back, e.1 ≠ key := by
  rw [List.lookup_eq_some_iff]
  constructor
  · rintro ⟨back, front, hpairs, hback⟩
    refine ⟨front.reverse, back.reverse, ?_, ?_⟩
    · rw [← List.reverse_reverse pairs, hpairs]
      simp
    · intro e he
      exact Ne.symm (by simpa using hback e (List.mem_reverse.1 he))
  · rintro ⟨front, back, rfl, hback⟩
    refine ⟨back.reverse, front.reverse, by simp, fun e he => ?_⟩
    simpa using (hback e (List.mem_reverse.1 he)).symm

theorem lookup_reverse_eq_none_iff :
    pairs.reverse.lookup key = none ↔ ∀ e ∈ pairs, e.1 ≠ key := by
  simp only [List.lookup_eq_none_iff, List.mem_reverse, bne_iff_ne, ne_comm]

/-- Every name of the pairs has an entry. -/
theorem exists_mem_ofList {e : String × α} (h : e ∈ pairs) :
    ∃ value, (e.1, value) ∈ ofList pairs := by
  cases hlookup : (ofList pairs).lookup e.1 with
  | none =>
      rw [lookup_ofList, lookup_reverse_eq_none_iff] at hlookup
      exact absurd rfl (hlookup e h)
  | some value => exact ⟨value, mem_of_lookup hlookup⟩

end Last

/-- A key that has only one value is read as it. -/
theorem lookup_of_unique {pairs : List (String × α)} {k : String} {v : α} (hmem : (k, v) ∈ pairs)
    (hunique : ∀ w, (k, w) ∈ pairs → w = v) : pairs.lookup k = some v := by
  cases h : pairs.lookup k with
  | none =>
      have := List.lookup_eq_none_iff.1 h _ hmem
      simp at this
  | some w => rw [hunique w (mem_of_lookup h)]

/-- A key without a value is not read. -/
theorem lookup_of_absent {pairs : List (String × α)} {k : String} (h : ∀ w, (k, w) ∉ pairs) :
    pairs.lookup k = none := by
  cases hlookup : pairs.lookup k with
  | none => rfl
  | some w => exact absurd (mem_of_lookup hlookup) (h w)

/-- A key that is not there yet is added. -/
theorem insert_perm {key : String} {entries : List (String × α)}
    (h : key ∉ entries.map Prod.fst) (value : α) :
    (insert key value entries).Perm ((key, value) :: entries) := by
  induction entries with
  | nil => exact .refl _
  | cons e rest ih =>
      obtain ⟨k, v⟩ := e
      rw [List.map_cons, List.mem_cons, not_or] at h
      unfold insert
      split
      next => exact .refl _
      next =>
        rw [if_neg h.1]
        exact ((ih h.2).cons _).trans (.swap ..)

theorem foldl_perm {pairs entries : List (String × α)}
    (h : ((entries ++ pairs).map Prod.fst).Nodup) :
    (pairs.foldl (fun entries (key, value) => insert key value entries) entries).Perm
      (entries ++ pairs) := by
  induction pairs generalizing entries with
  | nil => exact .of_eq (List.append_nil entries).symm
  | cons pair pairs ih =>
      obtain ⟨key, value⟩ := pair
      have hfront : (entries ++ (key, value) :: pairs).Perm ((key, value) :: entries ++ pairs) :=
        List.perm_middle
      have hnodup : (((key, value) :: entries ++ pairs).map Prod.fst).Nodup :=
        (hfront.map Prod.fst).nodup_iff.1 h
      have hkey : key ∉ entries.map Prod.fst := fun hmem =>
        (List.nodup_cons.1 hnodup).1 (by simp [hmem])
      have hinsert := (insert_perm hkey value).append_right pairs
      exact (ih ((hinsert.map Prod.fst).nodup_iff.2 hnodup)).trans (hinsert.trans hfront.symm)

/-- Pairs of different keys are put in order, and that is all. -/
theorem perm_ofList {pairs : List (String × α)} (h : (pairs.map Prod.fst).Nodup) :
    (ofList pairs).Perm pairs :=
  @foldl_perm _ _ [] h

/-- A function of the values, applied to each entry. -/
def mapValues (f : α → β) (entries : List (String × α)) : List (String × β) :=
  entries.map fun (key, value) => (key, f value)

theorem insert_map (f : α → β) (key : String) (value : α) (entries : List (String × α)) :
    insert key (f value) (mapValues f entries) = mapValues f (insert key value entries) := by
  induction entries with
  | nil => rfl
  | cons e rest ih =>
      obtain ⟨k, v⟩ := e
      simp only [mapValues, List.map_cons, insert] at ih ⊢
      split
      next => rfl
      next =>
        split
        next => rfl
        next => rw [ih, List.map_cons]

theorem foldl_map (f : α → β) (pairs entries : List (String × α)) :
    (mapValues f pairs).foldl (fun entries (key, value) => insert key value entries)
        (mapValues f entries) =
      mapValues f
        (pairs.foldl (fun entries (key, value) => insert key value entries) entries) := by
  induction pairs generalizing entries with
  | nil => rfl
  | cons pair pairs ih =>
      obtain ⟨key, value⟩ := pair
      rw [List.foldl_cons, ← ih, ← insert_map]
      rfl

/-- Building entries commutes with a function of the values. -/
theorem ofList_map (f : α → β) (pairs : List (String × α)) :
    ofList (mapValues f pairs) = mapValues f (ofList pairs) :=
  foldl_map f pairs []

/-! ### Rearranged pairs -/

/-- Pairs in another order, in which those of each key stand as before. -/
def Rearranged (pairs pairs' : List (String × α)) : Prop :=
  ∀ key, pairs.filter (·.1 = key) = pairs'.filter (·.1 = key)

section Rearranging

variable {pairs pairs' entries entries' : List (String × α)}

theorem Rearranged.symm (h : Rearranged pairs pairs') : Rearranged pairs' pairs :=
  fun key => (h key).symm

theorem Rearranged.cons (pair : String × α) (h : Rearranged pairs pairs') :
    Rearranged (pair :: pairs) (pair :: pairs') := by
  intro key
  rw [List.filter_cons, List.filter_cons, h key]

/-- Neighbours of different keys may change places. -/
theorem rearranged_swap {first second : String × α} (h : first.1 ≠ second.1)
    (pairs : List (String × α)) :
    Rearranged (first :: second :: pairs) (second :: first :: pairs) := by
  intro key
  by_cases hfirst : first.1 = key
  · have hsecond : second.1 ≠ key := fun heq => h (hfirst.trans heq.symm)
    simp [hfirst, hsecond]
  · simp [List.filter_cons, hfirst]

theorem Rearranged.mem (h : Rearranged pairs pairs') {pair : String × α} (hpair : pair ∈ pairs') :
    pair ∈ pairs := by
  have hfilter : pair ∈ pairs'.filter (·.1 = pair.1) := List.mem_filter.2 ⟨hpair, by simp⟩
  rw [← h pair.1] at hfilter
  exact (List.mem_filter.1 hfilter).1

theorem Rearranged.mapValues (h : Rearranged pairs pairs') (f : α → β) :
    Rearranged (mapValues f pairs) (mapValues f pairs') := by
  intro key
  simp only [Entries.mapValues, List.filter_map]
  exact congrArg (List.map _) (h key)

/-- Only the pairs of a key matter when it is read. -/
theorem lookup_filter (pairs : List (String × α)) (key : String) :
    (pairs.filter (·.1 = key)).lookup key = pairs.lookup key := by
  induction pairs with
  | nil => rfl
  | cons pair pairs ih =>
      obtain ⟨k, v⟩ := pair
      rw [List.filter_cons, lookup_cons_eq]
      split
      next h =>
        obtain rfl : k = key := by simpa using h
        rw [List.lookup_cons_self, if_pos rfl]
      next h => rw [ih, if_neg fun heq => h (by simp [heq])]

theorem lookup_of_mem_sorted (h : Sorted entries) {k : String} {v : α} (hmem : (k, v) ∈ entries) :
    entries.lookup k = some v := by
  induction entries with
  | nil => cases hmem
  | cons e rest ih =>
      obtain ⟨key, value⟩ := e
      obtain ⟨hbefore, hrest⟩ := List.pairwise_cons.1 h
      rw [lookup_cons_eq]
      rcases List.mem_cons.1 hmem with heq | hmem
      · cases heq
        exact if_pos rfl
      · rw [if_neg (ne_of_before (hbefore _ hmem)), ih hrest hmem]

/-- Sorted entries that are read alike are the same. -/
theorem eq_of_lookup_eq (h : Sorted entries) (h' : Sorted entries')
    (hlookup : ∀ k, entries.lookup k = entries'.lookup k) : entries = entries' := by
  have hmem : ∀ e, e ∈ entries ↔ e ∈ entries' := by
    rintro ⟨k, v⟩
    constructor
    · intro he
      exact mem_of_lookup ((hlookup k).symm.trans (lookup_of_mem_sorted h he))
    · intro he
      exact mem_of_lookup ((hlookup k).trans (lookup_of_mem_sorted h' he))
  let before (e f : String × α) : Prop := Before e.1 f.1
  have hantisymm : Std.Antisymm before := ⟨fun _ _ hef hfe => absurd hfe (not_before_of_before hef)⟩
  have hirrefl : Std.Irrefl before := ⟨fun _ he => not_before_of_before he he⟩
  exact List.Pairwise.eq_of_mem_iff h h' hmem

/-- **Rearranged pairs build the same entries.** -/
theorem ofList_of_rearranged (h : Rearranged pairs pairs') : ofList pairs = ofList pairs' := by
  refine eq_of_lookup_eq (sorted_ofList _) (sorted_ofList _) fun k => ?_
  rw [lookup_ofList, lookup_ofList, ← lookup_filter, ← lookup_filter pairs'.reverse,
    List.filter_reverse, List.filter_reverse, h k]

end Rearranging

end HubGateway.Entries
