/-
**Entries sorted by key.**

Objects, maps, query parameters, claims and captured headers are lists of entries in ascending
order of their keys, each key once.  Keys are ordered by code point, which is also the order of
their UTF-8 bytes.

Main definitions:

* `HubGateway.Entries.Before` — the order of keys;
* `HubGateway.Entries.insert` — set the value of a key;
* `HubGateway.Entries.ofList` — the entries of a list of pairs, the last of equal keys winning;
* `HubGateway.Entries.adjoin` — extend the text of a key after a comma;
* `HubGateway.Entries.Sorted` — ascending keys.

Main statements:

* `HubGateway.Entries.sorted_ofList` — entries built from any list of pairs are sorted;
* `HubGateway.Entries.ofList_of_sorted` — sorted entries are built from themselves;
* `HubGateway.Entries.lookup_insert` — reading a key after setting one.
-/

set_option relaxedAutoImplicit false
set_option autoImplicit false

namespace HubGateway.Entries

variable {α : Type}

/-- The order of keys: the one whose first different character is smaller comes first, and a key
comes before its continuations.  The instance is named so that every module means this order. -/
def Before (a b : String) : Prop := String.instLT.lt a b

instance (a b : String) : Decidable (Before a b) := String.decidableLT a b

/-- Ascending keys, each of them once. -/
def Sorted (entries : List (String × α)) : Prop :=
  entries.Pairwise fun e f => Before e.1 f.1

/-- Sets the value of `key`, replacing one that is there. -/
def insert (key : String) (value : α) : List (String × α) → List (String × α)
  | [] => [(key, value)]
  | (k, v) :: rest =>
    if Before key k then (key, value) :: (k, v) :: rest
    else if key = k then (key, value) :: rest
    else (k, v) :: insert key value rest

/-- The entries of a list of pairs; the last of equal keys wins. -/
def ofList (pairs : List (String × α)) : List (String × α) :=
  pairs.foldl (fun entries (key, value) => insert key value entries) []

/-- Adds `text` under `key`, after a comma if the key has a text already. -/
def adjoin (key text : String) (entries : List (String × String)) : List (String × String) :=
  match entries.lookup key with
  | some old => insert key (old ++ "," ++ text) entries
  | none => insert key text entries

/-! ### Order and look-up -/

theorem before_trans {a b c : String} (hab : Before a b) (hbc : Before b c) : Before a c :=
  String.lt_trans hab hbc

theorem before_of_not_before_of_ne {a b : String} (h : ¬ Before a b) (hne : a ≠ b) :
    Before b a :=
  Decidable.byContradiction fun h' =>
    hne (String.le_antisymm (String.not_lt.1 h') (String.not_lt.1 h))

/-- What stands in the entries after setting a key was set, or stood in them before. -/
theorem mem_of_mem_insert {key : String} {value : α} {entries : List (String × α)}
    {p : String × α} (h : p ∈ insert key value entries) : p = (key, value) ∨ p ∈ entries := by
  induction entries with
  | nil => exact .inl (List.mem_singleton.1 h)
  | cons e rest ih =>
      obtain ⟨k, v⟩ := e
      unfold insert at h
      split at h
      next => exact List.mem_cons.1 h
      next =>
        split at h
        next =>
          rcases List.mem_cons.1 h with rfl | h
          · exact .inl rfl
          · exact .inr (List.mem_cons_of_mem _ h)
        next =>
          rcases List.mem_cons.1 h with rfl | h
          · exact .inr List.mem_cons_self
          · exact (ih h).imp id (List.mem_cons_of_mem _)

/-- Setting a key keeps the order. -/
theorem sorted_insert {entries : List (String × α)} (h : Sorted entries) (key : String)
    (value : α) : Sorted (insert key value entries) := by
  induction entries with
  | nil => simp [insert, Sorted]
  | cons e rest ih =>
    obtain ⟨k, v⟩ := e
    obtain ⟨hk, hrest⟩ := List.pairwise_cons.1 h
    unfold insert
    split
    · rename_i hlt
      refine List.pairwise_cons.2 ⟨fun p hp => ?_, h⟩
      rcases List.mem_cons.1 hp with rfl | hp
      · exact hlt
      · exact before_trans hlt (hk p hp)
    · rename_i hnlt
      split
      · rename_i heq
        subst heq
        exact List.pairwise_cons.2 ⟨hk, hrest⟩
      · rename_i hne
        refine List.pairwise_cons.2 ⟨fun p hp => ?_, ih hrest⟩
        rcases mem_of_mem_insert hp with rfl | hp
        · exact before_of_not_before_of_ne hnlt hne
        · exact hk p hp

theorem sorted_foldl (pairs : List (String × α)) {entries : List (String × α)}
    (h : Sorted entries) :
    Sorted (pairs.foldl (fun entries (key, value) => insert key value entries) entries) := by
  induction pairs generalizing entries with
  | nil => exact h
  | cons p rest ih => exact ih (sorted_insert h p.1 p.2)

/-- Entries built from any list of pairs are sorted. -/
theorem sorted_ofList (pairs : List (String × α)) : Sorted (ofList pairs) :=
  sorted_foldl pairs List.Pairwise.nil

theorem not_before_of_before {a b : String} (h : Before a b) : ¬ Before b a :=
  String.lt_asymm h

theorem ne_of_before {a b : String} (h : Before a b) : b ≠ a := by
  rintro rfl
  exact String.lt_irrefl _ h

/-- A key behind all others is added at the end. -/
theorem insert_of_forall_before {key : String} {entries : List (String × α)}
    (h : ∀ e ∈ entries, Before e.1 key) (value : α) :
    insert key value entries = entries ++ [(key, value)] := by
  induction entries with
  | nil => rfl
  | cons e rest ih =>
    obtain ⟨hk, hrest⟩ := List.forall_mem_cons.1 h
    rw [insert, if_neg (not_before_of_before hk), if_neg (ne_of_before hk), ih hrest]
    rfl

theorem foldl_insert_of_sorted {pairs entries : List (String × α)}
    (h : Sorted (entries ++ pairs)) :
    pairs.foldl (fun entries (key, value) => insert key value entries) entries =
      entries ++ pairs := by
  induction pairs generalizing entries with
  | nil => exact (List.append_nil entries).symm
  | cons pair pairs ih =>
    obtain ⟨key, value⟩ := pair
    have hlast : ∀ e ∈ entries, Before e.1 key := fun e he =>
      (List.pairwise_append.1 h).2.2 e he _ List.mem_cons_self
    simp only [List.foldl_cons, insert_of_forall_before hlast]
    rw [ih (by simpa using h), List.append_assoc, List.singleton_append]

/-- Sorted entries are built from themselves. -/
theorem ofList_of_sorted {entries : List (String × α)} (h : Sorted entries) :
    ofList entries = entries :=
  foldl_insert_of_sorted h

/-- Reading a key where there is a first entry. -/
theorem lookup_cons_eq {κ : Type} [DecidableEq κ] [BEq κ] [LawfulBEq κ] (key k : κ) (value : α)
    (entries : List (κ × α)) :
    ((key, value) :: entries).lookup k = if k = key then some value else entries.lookup k := by
  by_cases h : k = key
  · rw [h, List.lookup_cons_self, if_pos rfl]
  · rw [List.lookup_cons, beq_eq_false_iff_ne.2 h, if_neg h]

/-- Reading a key after setting one. -/
theorem lookup_insert (key k : String) (value : α) (entries : List (String × α)) :
    (insert key value entries).lookup k = if k = key then some value else entries.lookup k := by
  induction entries with
  | nil =>
    rw [insert, lookup_cons_eq]
  | cons e rest ih =>
    obtain ⟨k', v⟩ := e
    unfold insert
    split
    · rw [lookup_cons_eq]
    · split
      · rename_i heq
        subst heq
        rw [lookup_cons_eq, lookup_cons_eq]
        by_cases h : k = key
        · rw [if_pos h, if_pos h]
        · rw [if_neg h, if_neg h, if_neg h]
      · rename_i hne
        rw [lookup_cons_eq, lookup_cons_eq, ih]
        by_cases h : k = k'
        · rw [if_pos h, if_pos h, if_neg fun hk => hne (hk.symm.trans h)]
        · rw [if_neg h, if_neg h]

end HubGateway.Entries
