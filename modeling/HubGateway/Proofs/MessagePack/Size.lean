/-
**What bytes encode is no larger than they are.**

Every value takes a byte, a text or a blob one more for each of its bytes, and an item or entry what
its parts take; so a value weighs no more than any of its encodings.  A map that repeats a key holds
less than its pairs.  The containers of a value are among those of its encoding, so that the value
is not deeper than the encoding admits, even if a deeper entry has been overwritten.

Main statements:

* `HubGateway.MessagePack.Encodes.weight_le` — **a value weighs no more than its bytes**;
* `HubGateway.MessagePack.Encodes.depth_le` — **a value is not deeper than its encoding**;
* `HubGateway.MessagePack.Encodes.ordered` — the keys of what is encoded ascend.
-/

import HubGateway.Proofs.MessagePack.Grammar
import HubGateway.Proofs.Value.Pairs

set_option relaxedAutoImplicit false
set_option autoImplicit false

namespace HubGateway.MessagePack

open Value (weightItems weightEntries depthItems depthEntries)

/-- A string takes a byte more than its text. -/
theorem StringForm.length_lt {s : String} {p : List UInt8} (h : StringForm s p) :
    (Utf8.encode s).length < p.length := by
  cases h with
  | intro h =>
      have := h.length_pos
      rw [List.length_append]
      omega

mutual

/-- **A value weighs no more than its bytes.** -/
theorem Encodes.weight_le {containers : List (List Segment)} {v : Value} {p : List UInt8}
    (h : Encodes containers v p) : v.weight ≤ p.length := by
  match h with
  | .nil | .no | .yes => exact Nat.le_refl 1
  | .integer h => exact h.length_pos
  | .single _ => exact Nat.succ_le_succ (Nat.zero_le _)
  | .double _ => exact Nat.succ_le_succ (Nat.zero_le _)
  | .string h =>
      have := h.length_lt
      rw [Value.weight]
      omega
  | .blob h =>
      have := h.length_pos
      rw [Value.weight, List.length_append]
      omega
  | .extension h => exact Nat.le_trans h.length_pos (by simp)
  | .array h hbody =>
      have := h.length_pos
      have := hbody.weight_le
      rw [Value.weight, List.length_append]
      omega
  | @Encodes.map _ pairs _ _ h hbody =>
      have := h.length_pos
      have := hbody.weight_le
      have := Value.weightEntries_ofList_le pairs
      rw [Value.weight, List.length_append]
      omega

theorem EncodesItems.weight_le {index : Nat} {containers : List (List Segment)}
    {items : List Value} {p : List UInt8} (h : EncodesItems index containers items p) :
    weightItems items ≤ p.length := by
  match h with
  | .nil => exact Nat.le_refl 0
  | .cons h hitems =>
      have := h.weight_le
      have := hitems.weight_le
      rw [weightItems, List.length_append]
      omega

theorem EncodesPairs.weight_le {containers : List (List Segment)} {pairs : List (String × Value)}
    {p : List UInt8} (h : EncodesPairs containers pairs p) : weightEntries pairs ≤ p.length := by
  match h with
  | .nil => exact Nat.le_refl 0
  | .cons hkey h hpairs =>
      have := hkey.length_lt
      have := h.weight_le
      have := hpairs.weight_le
      rw [weightEntries, List.length_append, List.length_append]
      omega

end

mutual

/-- The keys of what is encoded ascend, at every level. -/
theorem Encodes.ordered {containers : List (List Segment)} {v : Value} {p : List UInt8}
    (h : Encodes containers v p) : v.Ordered := by
  match h with
  | .nil | .no | .yes | .integer _ | .single _ | .double _ | .string _ | .blob _ | .extension _ =>
      trivial
  | .array _ hbody => exact hbody.ordered
  | .map _ hbody => exact Value.ordered_map_ofList hbody.ordered

theorem EncodesItems.ordered {index : Nat} {containers : List (List Segment)}
    {items : List Value} {p : List UInt8} (h : EncodesItems index containers items p) :
    Value.OrderedItems items := by
  match h with
  | .nil => trivial
  | .cons h hitems => exact ⟨h.ordered, hitems.ordered⟩

theorem EncodesPairs.ordered {containers : List (List Segment)} {pairs : List (String × Value)}
    {p : List UInt8} (h : EncodesPairs containers pairs p) : Value.OrderedEntries pairs := by
  match h with
  | .nil => trivial
  | .cons _ h hpairs => exact ⟨h.ordered, hpairs.ordered⟩

end

mutual

/-- **A value is not deeper than its encoding.** -/
theorem Encodes.depth_le {containers : List (List Segment)} {v : Value} {p : List UInt8}
    {limit : Nat} (h : Encodes containers v p) (hwithin : Within limit containers) :
    v.depth ≤ limit := by
  match h with
  | .nil | .no | .yes | .integer _ | .single _ | .double _ | .string _ | .blob _ | .extension _ =>
      exact Nat.zero_le limit
  | .array _ hbody =>
      obtain ⟨hpos, hwithin⟩ := within_cons_nil_iff.1 hwithin
      obtain ⟨limit, rfl⟩ := Nat.exists_eq_succ_of_ne_zero hpos.ne'
      exact Nat.succ_le_succ (hbody.depth_le hwithin)
  | @Encodes.map _ pairs _ _ _ hbody =>
      obtain ⟨hpos, hwithin⟩ := within_cons_nil_iff.1 hwithin
      obtain ⟨limit, rfl⟩ := Nat.exists_eq_succ_of_ne_zero hpos.ne'
      exact Nat.succ_le_succ
        (Nat.le_trans (Value.depthEntries_ofList_le pairs) (hbody.depth_le hwithin))

theorem EncodesItems.depth_le {index : Nat} {containers : List (List Segment)}
    {items : List Value} {p : List UInt8} {limit : Nat}
    (h : EncodesItems index containers items p) (hwithin : Within (limit + 1) containers) :
    depthItems items ≤ limit := by
  match h with
  | .nil => exact Nat.zero_le limit
  | .cons h hitems =>
      obtain ⟨hinner, hothers⟩ := within_append_iff.1 hwithin
      exact max_le (h.depth_le (within_under_iff.1 hinner)) (hitems.depth_le hothers)

theorem EncodesPairs.depth_le {containers : List (List Segment)} {pairs : List (String × Value)}
    {p : List UInt8} {limit : Nat} (h : EncodesPairs containers pairs p)
    (hwithin : Within (limit + 1) containers) : depthEntries pairs ≤ limit := by
  match h with
  | .nil => exact Nat.zero_le limit
  | .cons _ h hpairs =>
      obtain ⟨hinner, hothers⟩ := within_append_iff.1 hwithin
      exact max_le (h.depth_le (within_under_iff.1 hinner)) (hpairs.depth_le hothers)

end

end HubGateway.MessagePack
