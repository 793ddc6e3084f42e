/-
**Maps built from pairs, and what fits.**

A map is built from the pairs that stand in a text or on the wire.  The pairs may repeat a key, and
then the entries are fewer: what holds of all pairs holds of the entries, and the entries weigh no
more than the pairs and are not deeper.  Values that weigh less than `2 ^ 32` can be written.

Main definitions:

* `HubGateway.Value.Textual` — values without blobs and with no number but finite ones.

Main statements:

* `HubGateway.Value.ordered_map_ofList`, `depthEntries_ofList_le`, `weightEntries_ofList_le` — the
  map that pairs build;
* `HubGateway.Value.fits_of_weight` — **a light value can be written**;
* `HubGateway.Value.projected_of_textual` — a textual value is its own projection.
-/

import HubGateway.Proofs.Entries
import HubGateway.Proofs.MessagePack.Written
import HubGateway.Proofs.Value.Json

set_option relaxedAutoImplicit false
set_option autoImplicit false

namespace HubGateway.Value

section Iff

variable {entries : List (String × Value)}

theorem orderedEntries_iff : OrderedEntries entries ↔ ∀ e ∈ entries, e.2.Ordered := by
  induction entries with
  | nil => simp [OrderedEntries]
  | cons entry entries ih => rw [OrderedEntries, ih, List.forall_mem_cons]

theorem depthEntries_le_iff {n : Nat} :
    depthEntries entries ≤ n ↔ ∀ e ∈ entries, e.2.depth ≤ n := by
  induction entries with
  | nil => simp [depthEntries]
  | cons entry entries ih => rw [depthEntries, Nat.max_le, ih, List.forall_mem_cons]

end Iff

/-! ### Maps from pairs -/

section Pairs

variable {pairs entries : List (String × Value)}

/-- The map that pairs build is ordered if the values of the pairs are. -/
theorem ordered_map_ofList (h : OrderedEntries pairs) :
    (Value.map (Entries.ofList pairs)).Ordered := by
  refine ⟨Entries.sorted_ofList pairs, orderedEntries_iff.2 fun e he => ?_⟩
  exact orderedEntries_iff.1 h e (Entries.mem_of_mem_ofList he)

/-- The entries that pairs build are not deeper than these. -/
theorem depthEntries_ofList_le (pairs : List (String × Value)) :
    depthEntries (Entries.ofList pairs) ≤ depthEntries pairs :=
  depthEntries_le_iff.2 fun e he =>
    depthEntries_le_iff.1 (Nat.le_refl _) e (Entries.mem_of_mem_ofList he)

/-- Setting a key adds the weight of its entry at most. -/
theorem weightEntries_insert_le (key : String) (value : Value) (entries : List (String × Value)) :
    weightEntries (Entries.insert key value entries) ≤
      1 + (Utf8.encode key).length + value.weight + weightEntries entries := by
  induction entries with
  | nil => exact Nat.le_refl _
  | cons entry entries ih =>
      obtain ⟨k, v⟩ := entry
      unfold Entries.insert
      split
      next => exact Nat.le_refl _
      next =>
        split
        next =>
          simp only [weightEntries]
          omega
        next =>
          simp only [weightEntries]
          omega

theorem weightEntries_foldl_le (pairs : List (String × Value)) :
    weightEntries (pairs.foldl (fun entries (key, value) => Entries.insert key value entries)
      entries) ≤ weightEntries pairs + weightEntries entries := by
  induction pairs generalizing entries with
  | nil => exact Nat.le_add_left _ _
  | cons pair pairs ih =>
      obtain ⟨key, value⟩ := pair
      have hinsert := weightEntries_insert_le key value entries
      rw [List.foldl_cons, weightEntries]
      refine Nat.le_trans ih ?_
      show weightEntries pairs + weightEntries (Entries.insert key value entries) ≤ _
      omega

/-- The entries that pairs build weigh no more than these. -/
theorem weightEntries_ofList_le (pairs : List (String × Value)) :
    weightEntries (Entries.ofList pairs) ≤ weightEntries pairs :=
  weightEntries_foldl_le pairs

end Pairs

/-! ### What fits -/

theorem weight_pos (v : Value) : 0 < v.weight := by
  cases v <;> simp only [weight] <;> omega

theorem length_le_weightItems (items : List Value) : items.length ≤ weightItems items := by
  induction items with
  | nil => exact Nat.le_refl 0
  | cons item items ih =>
      have := item.weight_pos
      rw [List.length_cons, weightItems]
      omega

theorem length_le_weightEntries (entries : List (String × Value)) :
    entries.length ≤ weightEntries entries := by
  induction entries with
  | nil => exact Nat.le_refl 0
  | cons entry entries ih =>
      rw [List.length_cons, weightEntries]
      omega

theorem weightEntries_append (front back : List (String × Value)) :
    weightEntries (front ++ back) = weightEntries front + weightEntries back := by
  induction front with
  | nil => exact (Nat.zero_add _).symm
  | cons entry front ih =>
      rw [List.cons_append, weightEntries, weightEntries, ih]
      omega

/-- The value of an entry weighs no more than all entries. -/
theorem weight_le_of_mem {entries : List (String × Value)} {e : String × Value}
    (h : e ∈ entries) : e.2.weight ≤ weightEntries entries := by
  induction entries with
  | nil => cases h
  | cons entry entries ih =>
      rw [weightEntries]
      rcases List.mem_cons.1 h with rfl | h
      · omega
      · have := ih h
        omega

mutual

/-- **A value that weighs less than `2 ^ 32` can be written.** -/
theorem fits_of_weight (v : Value) (h : v.weight < 2 ^ 32) : v.Fits := by
  match v with
  | .null | .bool _ | .integer _ | .float _ => trivial
  | .string s =>
      rw [weight] at h
      exact Nat.lt_of_le_of_lt (Nat.le_add_left _ _) h
  | .bytes payload =>
      rw [weight] at h
      exact Nat.lt_of_le_of_lt (Nat.le_add_left _ _) h
  | .array items =>
      rw [weight] at h
      have := length_le_weightItems items
      exact ⟨by omega, fitsItems_of_weight items (by omega)⟩
  | .map entries =>
      rw [weight] at h
      have := length_le_weightEntries entries
      exact ⟨by omega, fitsEntries_of_weight entries (by omega)⟩

theorem fitsItems_of_weight (items : List Value) (h : weightItems items < 2 ^ 32) :
    FitsItems items := by
  match items with
  | [] => trivial
  | item :: items =>
      rw [weightItems] at h
      exact ⟨fits_of_weight item (by omega), fitsItems_of_weight items (by omega)⟩

theorem fitsEntries_of_weight (entries : List (String × Value))
    (h : weightEntries entries < 2 ^ 32) : FitsEntries entries := by
  match entries with
  | [] => trivial
  | (key, value) :: entries =>
      rw [weightEntries] at h
      exact ⟨by omega, fits_of_weight value (by omega), fitsEntries_of_weight entries (by omega)⟩

end

/-! ### Textual values -/

mutual

/-- There is no blob in the value, and no number in it but finite ones. -/
def Textual : Value → Prop
  | .float value => value.isFinite = true
  | .bytes _ => False
  | .array items => TextualItems items
  | .map entries => TextualEntries entries
  | _ => True

/-- All items of a sequence are textual. -/
def TextualItems : List Value → Prop
  | [] => True
  | item :: items => item.Textual ∧ TextualItems items

/-- The values of all entries of a map are textual. -/
def TextualEntries : List (String × Value) → Prop
  | [] => True
  | (_, value) :: entries => value.Textual ∧ TextualEntries entries

end

theorem textualItems_iff {items : List Value} : TextualItems items ↔ ∀ v ∈ items, v.Textual := by
  induction items with
  | nil => simp [TextualItems]
  | cons item items ih => rw [TextualItems, ih, List.forall_mem_cons]

theorem textualEntries_iff {entries : List (String × Value)} :
    TextualEntries entries ↔ ∀ e ∈ entries, e.2.Textual := by
  induction entries with
  | nil => simp [TextualEntries]
  | cons entry entries ih => rw [TextualEntries, ih, List.forall_mem_cons]

theorem textualEntries_ofList {pairs : List (String × Value)} (h : TextualEntries pairs) :
    TextualEntries (Entries.ofList pairs) :=
  textualEntries_iff.2 fun e he => textualEntries_iff.1 h e (Entries.mem_of_mem_ofList he)

mutual

/-- A textual value is its own projection. -/
theorem projected_of_textual (v : Value) (h : v.Textual) : v.projected = v := by
  match v with
  | .null | .bool _ | .integer _ | .string _ => rfl
  | .float x => exact if_pos h
  | .bytes _ => exact h.elim
  | .array items => exact congrArg Value.array (projectedItems_of_textual items h)
  | .map entries => exact congrArg Value.map (projectedEntries_of_textual entries h)

theorem projectedItems_of_textual (items : List Value) (h : TextualItems items) :
    projectedItems items = items := by
  match items with
  | [] => rfl
  | item :: items =>
      rw [projectedItems, projected_of_textual item h.1, projectedItems_of_textual items h.2]

theorem projectedEntries_of_textual (entries : List (String × Value))
    (h : TextualEntries entries) : projectedEntries entries = entries := by
  match entries with
  | [] => rfl
  | (key, value) :: entries =>
      rw [projectedEntries, projected_of_textual value h.1, projectedEntries_of_textual entries h.2]

end

end HubGateway.Value
