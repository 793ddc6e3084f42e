/-
**What is packed from a datum.**

A datum has many encodings: integers and lengths in any width, numbers in either precision that
holds them, and the pairs of a map in any order that keeps the pairs of each key in theirs.  The
value reader has 64 signed bits for an integer.  A datum whose integers they hold is read as its
value; one with a larger integer is encoded just as well, and refused.

Main definitions:

* `HubGateway.MessagePack.Packs` — `Packs d p` says that the bytes `p` encode the datum `d`.

Main statements:

* `HubGateway.MessagePack.Packs.encodes` — with signed integers, the bytes encode the value of the
  datum, and are nested as deep as the datum is;
* `HubGateway.MessagePack.Packs.outOfRange` — **with a larger integer, the reader refuses the
  bytes** for it.
-/

import HubGateway.Proofs.MessagePack.Acceptance
import HubGateway.Proofs.Value.Datum

set_option relaxedAutoImplicit false
set_option autoImplicit false

namespace HubGateway.MessagePack

open Datum (IsSignedItems IsSignedPairs valueItems valuePairs depthItems depthPairs)

mutual

/-- `Packs d p`: the bytes `p` encode the datum `d`. -/
inductive Packs : Datum → List UInt8 → Prop
  | null : Packs .null [0xC0]
  | no : Packs (.bool false) [0xC2]
  | yes : Packs (.bool true) [0xC3]
  | integer {i : Int} {wide : IsWide i} {p : List UInt8} (h : IntegerForm i p) :
      Packs (.integer i wide) p
  | single {number : List UInt8} {x : Binary64} {finite : x.isFinite = true}
      (h : number.length = 4) (hx : .ofBinary32 (bigEndian number).toUInt32 = x) :
      Packs (.float x finite) (0xCA :: number)
  | double {number : List UInt8} {x : Binary64} {finite : x.isFinite = true}
      (h : number.length = 8) (hx : ⟨(bigEndian number).toUInt64⟩ = x) :
      Packs (.float x finite) (0xCB :: number)
  | string {s : String} {p : List UInt8} (h : StringForm s p) : Packs (.string s) p
  | list {items : List Datum} {header body : List UInt8}
      (h : SizeForm.array.Writes items.length header) (hbody : PacksItems items body) :
      Packs (.list items) (header ++ body)
  /-- The pairs stand in any order, but those of one key keep theirs. -/
  | map {pairs pairs' : List (String × Datum)} {header body : List UInt8}
      (horder : Entries.Rearranged pairs pairs') (h : SizeForm.map.Writes pairs'.length header)
      (hbody : PacksPairs pairs' body) : Packs (.map pairs) (header ++ body)

/-- The bytes encode items one after the other. -/
inductive PacksItems : List Datum → List UInt8 → Prop
  | nil : PacksItems [] []
  | cons {item : Datum} {items : List Datum} {p q : List UInt8} (h : Packs item p)
      (hitems : PacksItems items q) : PacksItems (item :: items) (p ++ q)

/-- The bytes encode pairs of a key and a datum one after the other. -/
inductive PacksPairs : List (String × Datum) → List UInt8 → Prop
  | nil : PacksPairs [] []
  | cons {key : String} {item : Datum} {pairs : List (String × Datum)} {p q r : List UInt8}
      (hkey : StringForm key p) (h : Packs item q) (hpairs : PacksPairs pairs r) :
      PacksPairs ((key, item) :: pairs) (p ++ (q ++ r))

end

/-! ### Lower bounds -/

/-- Every datum takes a byte. -/
theorem Packs.length_pos {d : Datum} {p : List UInt8} (h : Packs d p) : 0 < p.length := by
  cases h with
  | null | no | yes | single | double => simp
  | integer h => exact h.length_pos
  | string h => exact h.length_pos
  | list h | map _ h =>
      have := h.length_pos
      simp only [List.length_append]
      omega

/-- The items of a list take a byte each. -/
theorem PacksItems.length_le {items : List Datum} {body : List UInt8}
    (h : PacksItems items body) : items.length ≤ body.length := by
  induction items generalizing body with
  | nil => exact Nat.zero_le _
  | cons item items ih =>
      cases h with
      | cons h hitems =>
          have := h.length_pos
          have := ih hitems
          simp only [List.length_cons, List.length_append]
          omega

/-- The pairs of a map take two bytes each. -/
theorem PacksPairs.length_le {pairs : List (String × Datum)} {body : List UInt8}
    (h : PacksPairs pairs body) : pairs.length * 2 ≤ body.length := by
  induction pairs generalizing body with
  | nil => simp
  | cons pair pairs ih =>
      cases h with
      | cons hkey h hpairs =>
          have := hkey.length_pos
          have := h.length_pos
          have := ih hpairs
          simp only [List.length_cons, List.length_append]
          omega

/-! ### Headers -/

/-- The header of a complete list is never refused. -/
theorem readArrayHeader_packed {items : List Datum} {header body : List UInt8}
    (h : SizeForm.array.Writes items.length header) (hbody : PacksItems items body)
    (rest : List UInt8) :
    readArrayHeader (header ++ (body ++ rest)) = (.ok items.length, body ++ rest) := by
  have hcount : items.length ≤ (body ++ rest).length := by
    have := hbody.length_le
    rw [List.length_append]
    omega
  exact readArrayHeader_eq_ok_iff.2 ⟨⟨header, h, rfl⟩, hcount⟩

/-- The header of a complete map is never refused. -/
theorem readMapHeader_packed {pairs : List (String × Datum)} {header body : List UInt8}
    (h : SizeForm.map.Writes pairs.length header) (hbody : PacksPairs pairs body)
    (rest : List UInt8) :
    readMapHeader (header ++ (body ++ rest)) = (.ok pairs.length, body ++ rest) := by
  have hcount : pairs.length * 2 ≤ (body ++ rest).length := by
    have := hbody.length_le
    rw [List.length_append]
    omega
  exact readMapHeader_eq_ok_iff.2 ⟨⟨header, h, rfl⟩, hcount⟩

/-! ### Signed integers -/

theorem encodes_ofInt {i : Int} {p : List UInt8} (h : IntegerForm i p) (wide : IsWide i)
    (hsigned : i < 0x8000000000000000) : Encodes [] (.ofInt i) p := by
  have hvalue : (Int64.ofInt i).toInt = i := Int64.toInt_ofInt_of_le wide.1 hsigned
  rw [Value.ofInt, if_pos hsigned]
  exact .integer (by rwa [hvalue])

mutual

/-- The bytes of a datum with signed integers encode its value, and are nested as deep. -/
theorem Packs.encodes {d : Datum} {p : List UInt8} (h : Packs d p) (hsigned : d.IsSigned) :
    ∃ containers, Encodes containers d.value p ∧ Within d.depth containers := by
  match h with
  | .null => exact ⟨[], .nil, within_nil⟩
  | .no => exact ⟨[], .no, within_nil⟩
  | .yes => exact ⟨[], .yes, within_nil⟩
  | @Packs.integer _ wide _ h => exact ⟨[], encodes_ofInt h wide hsigned, within_nil⟩
  | .single h rfl => exact ⟨[], .single h, within_nil⟩
  | .double h rfl => exact ⟨[], .double h, within_nil⟩
  | .string h => exact ⟨[], .string h, within_nil⟩
  | .list h hbody =>
      obtain ⟨containers, hencodes, hwithin⟩ := hbody.encodes hsigned 0
      rw [← Datum.length_valueItems] at h
      exact ⟨_, .array h hencodes, within_cons_nil_iff.2 ⟨Nat.succ_pos _, hwithin⟩⟩
  | .map horder h hbody =>
      have hsigned' := (Datum.isSignedPairs_of_rearranged horder).1 hsigned
      obtain ⟨containers, hencodes, hwithin⟩ := hbody.encodes hsigned'
      rw [← Datum.length_valuePairs] at h
      refine ⟨[] :: containers, ?_, ?_⟩
      · rw [Datum.value, Datum.ofList_valuePairs_of_rearranged horder]
        exact .map h hencodes
      · rw [Datum.depth, Datum.depthPairs_of_rearranged horder]
        exact within_cons_nil_iff.2 ⟨Nat.succ_pos _, hwithin⟩

theorem PacksItems.encodes {items : List Datum} {body : List UInt8} (h : PacksItems items body)
    (hsigned : IsSignedItems items) (index : Nat) :
    ∃ containers, EncodesItems index containers (valueItems items) body ∧
      Within (depthItems items + 1) containers := by
  match h with
  | .nil => exact ⟨[], .nil, within_nil⟩
  | .cons h hitems =>
      obtain ⟨inner, hencodes, hinner⟩ := h.encodes hsigned.1
      obtain ⟨others, hothers, hwithin⟩ := hitems.encodes hsigned.2 (index + 1)
      refine ⟨_, .cons hencodes hothers, within_append_iff.2 ⟨within_under_iff.2 ?_, ?_⟩⟩
      · exact within_mono (Nat.le_max_left ..) hinner
      · exact within_mono (Nat.succ_le_succ (Nat.le_max_right ..)) hwithin

theorem PacksPairs.encodes {pairs : List (String × Datum)} {body : List UInt8}
    (h : PacksPairs pairs body) (hsigned : IsSignedPairs pairs) :
    ∃ containers, EncodesPairs containers (valuePairs pairs) body ∧
      Within (depthPairs pairs + 1) containers := by
  match h with
  | .nil => exact ⟨[], .nil, within_nil⟩
  | .cons hkey h hpairs =>
      obtain ⟨inner, hencodes, hinner⟩ := h.encodes hsigned.1
      obtain ⟨others, hothers, hwithin⟩ := hpairs.encodes hsigned.2
      refine ⟨_, .cons hkey hencodes hothers, within_append_iff.2 ⟨within_under_iff.2 ?_, ?_⟩⟩
      · exact within_mono (Nat.le_max_left ..) hinner
      · exact within_mono (Nat.succ_le_succ (Nat.le_max_right ..)) hwithin

end

/-- A datum with signed integers that is not nested too deep is read as its value. -/
theorem Packs.read {d : Datum} {p : List UInt8} (h : Packs d p) (hsigned : d.IsSigned)
    (limit : Nat) {budget : Nat} (hdepth : d.depth ≤ budget) (rest : List UInt8) :
    readValueWithin limit budget (p ++ rest) = (.ok d.value, rest) := by
  obtain ⟨containers, hencodes, hwithin⟩ := h.encodes hsigned
  exact acceptsAll_readValueWithin limit budget hencodes (within_mono hdepth hwithin) rest

/-! ### Larger integers -/

/-- The outcome is the error for an integer that 64 signed bits do not hold, wherever it stands. -/
def OutOfRange {α : Type} (o : Outcome Failure α) : Prop :=
  ∃ path left, o = (.error ⟨path, .unreadable .int64 .outOfRange⟩, left)

/-- An integer that 64 signed bits do not hold is refused. -/
theorem readInt64_of_large {i : Int} {p : List UInt8} (h : IntegerForm i p)
    (hlarge : ¬ i < 0x8000000000000000) (rest : List UInt8) :
    readInt64 (p ++ rest) = (.error (.unreadable .int64 .outOfRange), rest) := by
  have htake : takeInteger (p ++ rest) = (.ok i, rest) := takeInteger_eq_ok_iff.2 ⟨p, h, rfl⟩
  have hin : ¬ (-0x8000000000000000 ≤ i ∧ i < 0x8000000000000000) := fun h => hlarge h.2
  rw [readInt64, takeIntegerIn, htake]
  simp only [if_neg hin]
  rfl

mutual

/-- **A datum with a larger integer is refused** for it, wherever the integer stands. -/
theorem Packs.outOfRange {d : Datum} {p : List UInt8} (h : Packs d p) (hlarge : ¬ d.IsSigned)
    (limit : Nat) {budget : Nat} (hdepth : d.depth ≤ budget) (rest : List UInt8) :
    OutOfRange (readValueWithin limit budget (p ++ rest)) := by
  match h with
  | .null | .no | .yes | .single _ _ | .double _ _ | .string _ => exact absurd trivial hlarge
  | .integer h =>
      rw [readValueWithin_scalar (by decide) (by decide) (h.beginsAs rest), readScalar,
        readInt64_of_large h hlarge rest]
      exact ⟨[], rest, rfl⟩
  | .list h hbody =>
      cases budget with
      | zero => exact absurd hdepth (Nat.not_succ_le_zero _)
      | succ budget =>
          rw [List.append_assoc, readValueWithin_array (h.beginsAs matches_array _), readArrayOf,
            readArrayHeader_packed h hbody]
          exact hbody.outOfRange hlarge limit (Nat.le_of_succ_le_succ hdepth) 0 [] rest
  | .map horder h hbody =>
      rw [Datum.depth, Datum.depthPairs_of_rearranged horder] at hdepth
      have hlarge' := fun hsigned => hlarge ((Datum.isSignedPairs_of_rearranged horder).2 hsigned)
      cases budget with
      | zero => exact absurd hdepth (Nat.not_succ_le_zero _)
      | succ budget =>
          rw [List.append_assoc, readValueWithin_map (h.beginsAs matches_map _), readMapOf,
            readMapHeader_packed h hbody]
          exact hbody.outOfRange hlarge' limit (Nat.le_of_succ_le_succ hdepth) 0 [] rest

theorem PacksItems.outOfRange {items : List Datum} {body : List UInt8} (h : PacksItems items body)
    (hlarge : ¬ IsSignedItems items) (limit : Nat) {budget : Nat}
    (hdepth : depthItems items ≤ budget) (index : Nat) (acc : List Value) (rest : List UInt8) :
    OutOfRange (readItems (readValueWithin limit budget) items.length index acc
      (body ++ rest)) := by
  match h with
  | .nil => exact absurd trivial hlarge
  | @PacksItems.cons item items p q h hitems =>
      obtain ⟨hitem, hothers⟩ := Nat.max_le.1 hdepth
      rw [List.length_cons, readItems, List.append_assoc]
      by_cases hsigned : item.IsSigned
      · rw [h.read hsigned limit hitem]
        exact hitems.outOfRange (fun h => hlarge ⟨hsigned, h⟩) limit hothers _ _ rest
      · obtain ⟨path, left, hread⟩ := h.outOfRange hsigned limit hitem (q ++ rest)
        rw [hread]
        exact ⟨_, left, rfl⟩

theorem PacksPairs.outOfRange {pairs : List (String × Datum)} {body : List UInt8}
    (h : PacksPairs pairs body) (hlarge : ¬ IsSignedPairs pairs) (limit : Nat) {budget : Nat}
    (hdepth : depthPairs pairs ≤ budget) (index : Nat) (entries : List (String × Value))
    (rest : List UInt8) :
    OutOfRange (readEntries (readValueWithin limit budget) pairs.length index entries
      (body ++ rest)) := by
  match h with
  | .nil => exact absurd trivial hlarge
  | @PacksPairs.cons key item pairs p q r hkey h hpairs =>
      obtain ⟨hitem, hothers⟩ := Nat.max_le.1 hdepth
      have hreadKey : readString (p ++ (q ++ (r ++ rest))) = (.ok key, q ++ (r ++ rest)) :=
        readString_eq_ok_iff.2 ⟨p, hkey, rfl⟩
      rw [List.length_cons, readEntries, List.append_assoc, List.append_assoc, hreadKey]
      by_cases hsigned : item.IsSigned
      · simp only [h.read hsigned limit hitem]
        exact hpairs.outOfRange (fun h => hlarge ⟨hsigned, h⟩) limit hothers _ _ rest
      · obtain ⟨path, left, hread⟩ := h.outOfRange hsigned limit hitem (r ++ rest)
        simp only [hread]
        exact ⟨_, left, rfl⟩

end

end HubGateway.MessagePack
