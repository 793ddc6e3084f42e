/-
**The tolerant reading agrees with the strict one.**

A value that stands alone is read by other rules than an argument in a frame: the markers lead to
other reads, counts are not compared with what is left, and more nesting is admitted.  Still, what
the strict reader accepts the tolerant one reads as the same value, with one exception: the strict
reader passes over an extension as null, where the tolerant one refuses it.

So an encoding is taken whole by the tolerant reader, or it is refused, and then it holds an
extension or nests deeper than that reader admits.  This goes by induction on the nesting, and a
loop over items or entries inherits it from the reader of the parts.  That an extension is always
refused goes by induction on where it stands.

Main definitions:

* `HubGateway.MessagePack.HoldsExtension` — an extension stands in an encoding, at any level;
* `HubGateway.MessagePack.TakesOrRefuses` — what a tolerant reader does with an encoding.

Main statements:

* `HubGateway.MessagePack.takeScalar_of_readScalar` — both readers agree on what is no container;
* `HubGateway.MessagePack.takesOrRefuses_readTolerant` — an encoding is taken whole or refused;
* `HubGateway.MessagePack.HoldsExtension.refused` — an extension is refused at any level;
* `HubGateway.MessagePack.ofBytes?_of_readField` — **the two readers agree up to extensions**.
-/

import HubGateway.MessagePack.Tolerant
import HubGateway.Proofs.MessagePack.Acceptance
import HubGateway.Proofs.Value.Visitor

set_option relaxedAutoImplicit false
set_option autoImplicit false

namespace HubGateway.MessagePack

/-! ### Where extensions stand -/

mutual

/-- The bytes are an extension, or a container with a part that holds one. -/
inductive HoldsExtension : List UInt8 → Prop
  | extension {header payload : List UInt8} {type : UInt8}
      (h : SizeForm.extension.Writes payload.length header) :
      HoldsExtension (header ++ type :: payload)
  | array {n : Nat} {header body : List UInt8} (h : SizeForm.array.Writes n header)
      (hbody : ItemsHoldExtension n body) : HoldsExtension (header ++ body)
  | map {n : Nat} {header body : List UInt8} (h : SizeForm.map.Writes n header)
      (hbody : PairsHoldExtension n body) : HoldsExtension (header ++ body)

/-- One of the `n` items that the bytes encode holds an extension. -/
inductive ItemsHoldExtension : Nat → List UInt8 → Prop
  | here {n : Nat} {p q : List UInt8} (h : HoldsExtension p) : ItemsHoldExtension (n + 1) (p ++ q)
  | there {n : Nat} {containers : List (List Segment)} {v : Value} {p q : List UInt8}
      (h : Encodes containers v p) (hothers : ItemsHoldExtension n q) :
      ItemsHoldExtension (n + 1) (p ++ q)

/-- The value of one of the `n` pairs that the bytes encode holds an extension. -/
inductive PairsHoldExtension : Nat → List UInt8 → Prop
  | here {n : Nat} {key : String} {p q r : List UInt8} (hkey : StringForm key p)
      (h : HoldsExtension q) : PairsHoldExtension (n + 1) (p ++ (q ++ r))
  | there {n : Nat} {containers : List (List Segment)} {key : String} {v : Value}
      {p q r : List UInt8} (hkey : StringForm key p) (h : Encodes containers v q)
      (hothers : PairsHoldExtension n r) : PairsHoldExtension (n + 1) (p ++ (q ++ r))

end

/-! ### What markers hand over -/

section Visits

variable {bytes rest : List UInt8}

/-- An integer that 64 signed bits hold is handed over as itself, whatever its marker. -/
theorem takeVisit_of_takeInteger {i : Int} (h : takeInteger bytes = (.ok i, rest))
    (hhigh : i < 0x8000000000000000) :
    ∃ visit, takeVisit bytes = some (visit, rest) ∧ visit.value = .integer (Int64.ofInt i) := by
  -- a natural number is handed over unsigned
  have hnatural : ∀ n : Nat, (n : Int) < 0x8000000000000000 →
      (Value.Visit.unsigned (UInt64.ofNat n)).value = .integer (Int64.ofInt n) := by
    intro n hn
    have hvalue := Value.value_unsigned (Int.natCast_nonneg n) (by omega)
    rwa [Int.toNat_natCast, Value.ofInt, if_pos hn] at hvalue
  cases bytes with
  | nil => cases h
  | cons first tail =>
      simp only [takeInteger, takeMarker] at h
      rw [takeVisit]
      cases hmarker : Marker.ofByte first <;> rw [hmarker] at h
      case fixPositive n =>
        cases h
        exact ⟨_, rfl, hnatural n hhigh⟩
      case fixNegative =>
        cases h
        exact ⟨_, rfl, rfl⟩
      case unsigned width =>
        obtain ⟨n, hn, rfl⟩ := Outcome.map_eq_ok_iff.1 h
        exact ⟨_, by rw [visitScalar, hn, accept], hnatural n hhigh⟩
      case signed width =>
        obtain ⟨n, hn, rfl⟩ := Outcome.map_eq_ok_iff.1 h
        exact ⟨_, by rw [visitScalar, hn, accept], rfl⟩
      all_goals cases h

theorem takeVisit_of_readBoolean {b : Bool} (h : readBoolean bytes = (.ok b, rest)) :
    takeVisit bytes = some (.boolean b, rest) := by
  cases bytes with
  | nil => cases h
  | cons first tail =>
      simp only [readBoolean, takeMarker] at h
      rw [takeVisit]
      cases hmarker : Marker.ofByte first <;> rw [hmarker] at h <;> cases h
      rfl

theorem takeVisit_of_readDouble {x : Binary64} (h : readDouble bytes = (.ok x, rest)) :
    takeVisit bytes = some (.double x, rest) := by
  cases bytes with
  | nil => cases h
  | cons first tail =>
      simp only [readDouble, takeMarker] at h
      rw [takeVisit]
      cases hmarker : Marker.ofByte first <;> rw [hmarker] at h
      case float32 =>
        obtain ⟨n, hn, rfl⟩ := Outcome.map_eq_ok_iff.1 h
        rw [visitScalar, hn, accept]
      case float64 =>
        obtain ⟨n, hn, rfl⟩ := Outcome.map_eq_ok_iff.1 h
        rw [visitScalar, hn, accept]
      all_goals cases h

/-- A payload that is taken by its size is what the size and the payload give one after the
other. -/
theorem takeSized_of_takePayload {size? : Marker → Option Size} {first : UInt8} {n : Nat}
    {payload left : List UInt8} {β : Type} (f : List UInt8 → β) (size : Size)
    (hsize : size? (Marker.ofByte first) = some size)
    (hlength : takeSize size? (first :: bytes) = (.ok n, left))
    (hpayload : takePayload n left = (.ok payload, rest)) :
    takeSized f size bytes = some (f payload, rest) := by
  simp only [takeSize, takeMarker, hsize] at hlength
  cases size with
  | given length =>
      cases hlength
      rw [takeSized, hpayload, accept]
  | behind width =>
      have hnumber : takeNumber width bytes = (.ok n, left) := hlength
      simp only [takeSized, hnumber, hpayload, accept]

/-- A payload is handed over as it stands, as a text where its marker is that of a string. -/
theorem takeVisit_of_readString {s : String} (h : readString bytes = (.ok s, rest)) :
    takeVisit bytes = some (.text s, rest) := by
  unfold readString at h
  split at h
  next => cases h
  next n left hlength =>
    split at h
    next => cases h
    next payload left hpayload =>
      split at h
      next text htext =>
        cases h
        have hvisit : visitText payload = .text s := by rw [visitText, htext]
        rw [← hvisit]
        cases bytes with
        | nil => cases hlength
        | cons first tail =>
            rw [takeVisit]
            have hsized := fun size hsize =>
              takeSized_of_takePayload visitText size hsize hlength hpayload
            simp only [takeStringLength, takeSize, takeMarker] at hlength
            cases hmarker : Marker.ofByte first <;> rw [hmarker] at hlength hsized
            case fixString => exact hsized _ rfl
            case string => exact hsized _ rfl
            all_goals cases hlength
      next => cases h

theorem takeVisit_of_readBlob {payload : List UInt8} (h : readBlob bytes = (.ok payload, rest)) :
    takeVisit bytes = some (.blob payload, rest) := by
  unfold readBlob at h
  split at h
  next => cases h
  next n left hlength =>
    cases bytes with
    | nil => cases hlength
    | cons first tail =>
        rw [takeVisit]
        have hsized := fun size hsize =>
          takeSized_of_takePayload Value.Visit.blob size hsize hlength h
        simp only [takeBlobLength, takeSize, takeMarker] at hlength
        cases hmarker : Marker.ofByte first <;> rw [hmarker] at hlength hsized
        case blob => exact hsized _ rfl
        all_goals cases hlength

/-- **What the strict reader reads is handed over**, containers and extensions excepted. -/
theorem takeVisit_of_readScalar {shape : Shape} {v : Value}
    (h : readScalar shape bytes = (.ok v, rest)) (hshape : shape ≠ .extension) :
    (takeVisit bytes).map (fun (visit, rest) => (visit.value, rest)) = some (v, rest) := by
  cases shape with
  | nil =>
      obtain ⟨_, hread, rfl⟩ := Outcome.map_eq_ok_iff.1 h
      cases readNil_eq_ok_iff.1 hread
      rfl
  | boolean =>
      obtain ⟨b, hread, rfl⟩ := Outcome.map_eq_ok_iff.1 h
      rw [takeVisit_of_readBoolean hread]
      rfl
  | integer =>
      obtain ⟨i, hread, rfl⟩ := Outcome.map_eq_ok_iff.1 h
      have htake := takeInteger_eq_ok_iff.2 (readInt64_eq_ok_iff.1 hread)
      obtain ⟨visit, hvisit, hvalue⟩ := takeVisit_of_takeInteger htake i.toInt_lt
      rw [Int64.ofInt_toInt] at hvalue
      simp only [hvisit, Option.map_some, hvalue]
  | float =>
      obtain ⟨x, hread, rfl⟩ := Outcome.map_eq_ok_iff.1 h
      rw [takeVisit_of_readDouble hread]
      rfl
  | string =>
      obtain ⟨s, hread, rfl⟩ := Outcome.map_eq_ok_iff.1 h
      rw [takeVisit_of_readString hread]
      rfl
  | blob =>
      obtain ⟨payload, hread, rfl⟩ := Outcome.map_eq_ok_iff.1 h
      rw [takeVisit_of_readBlob hread]
      rfl
  | extension => exact absurd rfl hshape
  | array | map | reserved => simp [readScalar] at h

/-- An extension hands nothing over. -/
theorem takeVisit_of_extension (h : BeginsAs .extension bytes) : takeVisit bytes = none := by
  obtain ⟨first, tail, rfl, hshape⟩ := h
  rw [takeVisit]
  cases hmarker : Marker.ofByte first <;> rw [hmarker] at hshape <;> first | rfl | cases hshape

theorem readTolerantKey_of_stringForm {key : String} {p : List UInt8} (h : StringForm key p)
    (rest : List UInt8) : readTolerantKey (p ++ rest) = some (key, rest) := by
  rw [readTolerantKey, takeVisit_of_readString (readString_eq_ok_iff.2 ⟨p, h, rfl⟩)]
  rfl

end Visits

section Dispatch

variable {depth : Nat} {p : List UInt8}

theorem readTolerant_scalar {shape : Shape} (harray : shape ≠ .array) (hmap : shape ≠ .map)
    (h : BeginsAs shape p) : readTolerant depth p =
      (takeVisit p).map fun (visit, rest) => (visit.value, rest) := by
  obtain ⟨first, tail, rfl, rfl⟩ := h
  rw [readTolerant.eq_def]
  cases hs : (Marker.ofByte first).shape <;> simp_all

theorem readTolerant_array {n : Nat} {header body : List UInt8}
    (h : SizeForm.array.Writes n header) :
    readTolerant (depth + 1) (header ++ body) =
      (readTolerantItems (readTolerant depth) n [] body).map fun (values, rest) =>
        ((Value.Visit.items values).value, rest) := by
  obtain ⟨first, tail, heq, hshape⟩ := h.beginsAs matches_array body
  have hcount : takeArrayCount (header ++ body) = (.ok n, body) :=
    (takeSize_eq_ok_iff matches_array).2 ⟨header, h, rfl⟩
  rw [heq] at hcount ⊢
  simp only [readTolerant, hshape, hcount]

theorem readTolerant_map {n : Nat} {header body : List UInt8} (h : SizeForm.map.Writes n header) :
    readTolerant (depth + 1) (header ++ body) =
      (readTolerantEntries (readTolerant depth) n [] body).map fun (pairs, rest) =>
        ((Value.Visit.entries pairs).value, rest) := by
  obtain ⟨first, tail, heq, hshape⟩ := h.beginsAs matches_map body
  have hcount : takeMapCount (header ++ body) = (.ok n, body) :=
    (takeSize_eq_ok_iff matches_map).2 ⟨header, h, rfl⟩
  rw [heq] at hcount ⊢
  simp only [readTolerant, hshape, hcount]

/-- Where no container may be nested any more, a container is refused. -/
theorem readTolerant_zero (h : BeginsAs .array p ∨ BeginsAs .map p) : readTolerant 0 p = none := by
  rcases h with ⟨first, tail, rfl, h⟩ | ⟨first, tail, rfl, h⟩ <;> simp only [readTolerant, h]

end Dispatch

/-! ### An encoding is taken whole or refused -/

/-- A reader takes an encoding whole, or it refuses it, for an extension or for its nesting. -/
def TakesOrRefuses (item : List UInt8 → Option (Value × List UInt8)) (budget : Nat) : Prop :=
  ∀ ⦃containers v p⦄, Encodes containers v p → ∀ rest,
    item (p ++ rest) = some (v, rest) ∨
      item (p ++ rest) = none ∧ (HoldsExtension p ∨ ¬ Within budget containers)

section Loops

variable {item : List UInt8 → Option (Value × List UInt8)} {budget : Nat}
  {containers : List (List Segment)} {body : List UInt8}

theorem TakesOrRefuses.items (hitem : TakesOrRefuses item budget) {index : Nat}
    {items : List Value} (h : EncodesItems index containers items body) (acc : List Value)
    (rest : List UInt8) :
    readTolerantItems item items.length acc (body ++ rest) = some (acc.reverse ++ items, rest) ∨
      readTolerantItems item items.length acc (body ++ rest) = none ∧
        (ItemsHoldExtension items.length body ∨ ¬ Within (budget + 1) containers) := by
  induction items generalizing index containers body acc with
  | nil =>
      cases h
      exact .inl (by simp [readTolerantItems])
  | cons v items ih =>
      cases h with
      | @cons _ inner others _ _ p q h hitems =>
          rw [List.length_cons, readTolerantItems, List.append_assoc]
          rcases hitem h (q ++ rest) with htake | ⟨hrefuse, hwhy⟩
          · rw [htake]
            rcases ih hitems (v :: acc) with hall | ⟨hrefuse, hwhy⟩
            · exact .inl (by simpa using hall)
            · refine .inr ⟨hrefuse, hwhy.imp (.there h) fun hdeep hwithin => ?_⟩
              exact hdeep (within_append_iff.1 hwithin).2
          · rw [hrefuse]
            refine .inr ⟨rfl, hwhy.imp .here fun hdeep hwithin => ?_⟩
            exact hdeep (within_under_iff.1 (within_append_iff.1 hwithin).1)

theorem TakesOrRefuses.entries (hitem : TakesOrRefuses item budget)
    {pairs : List (String × Value)} (h : EncodesPairs containers pairs body)
    (acc : List (String × Value)) (rest : List UInt8) :
    readTolerantEntries item pairs.length acc (body ++ rest) = some (acc.reverse ++ pairs, rest) ∨
      readTolerantEntries item pairs.length acc (body ++ rest) = none ∧
        (PairsHoldExtension pairs.length body ∨ ¬ Within (budget + 1) containers) := by
  induction pairs generalizing containers body acc with
  | nil =>
      cases h
      exact .inl (by simp [readTolerantEntries])
  | cons pair pairs ih =>
      cases h with
      | @cons inner others key v _ p q r hkey h hpairs =>
          rw [List.length_cons, readTolerantEntries, List.append_assoc,
            readTolerantKey_of_stringForm hkey]
          simp only [List.append_assoc]
          rcases hitem h (r ++ rest) with htake | ⟨hrefuse, hwhy⟩
          · rw [htake]
            rcases ih hpairs ((key, v) :: acc) with hall | ⟨hrefuse, hwhy⟩
            · exact .inl (by simpa using hall)
            · refine .inr ⟨hrefuse, hwhy.imp (.there hkey h) fun hdeep hwithin => ?_⟩
              exact hdeep (within_append_iff.1 hwithin).2
          · rw [hrefuse]
            refine .inr ⟨rfl, hwhy.imp (.here hkey) fun hdeep hwithin => ?_⟩
            exact hdeep (within_under_iff.1 (within_append_iff.1 hwithin).1)

end Loops

/-- What is encoded without a container is taken, unless it is an extension. -/
theorem readTolerant_of_scalar {depth : Nat} {v : Value} {p : List UInt8} (h : Encodes [] v p)
    (rest : List UInt8) :
    readTolerant depth (p ++ rest) = some (v, rest) ∨
      readTolerant depth (p ++ rest) = none ∧ HoldsExtension p := by
  obtain ⟨shape, harray, hmap, hbegin, hread⟩ := readScalar_of_encodes h rest
  rw [readTolerant_scalar harray hmap hbegin]
  by_cases hshape : shape = .extension
  · subst hshape
    obtain ⟨_, hskip, -⟩ := Outcome.map_eq_ok_iff.1 hread
    obtain ⟨header, type, payload, hheader, heq⟩ := skipExtension_eq_ok_iff.1 hskip
    rw [takeVisit_of_extension hbegin]
    exact .inr ⟨rfl, List.append_cancel_right heq ▸ .extension hheader⟩
  · exact .inl (takeVisit_of_readScalar hread hshape)

/-- **An encoding is taken whole or refused**, and refused only for an extension or its nesting. -/
theorem takesOrRefuses_readTolerant (depth : Nat) : TakesOrRefuses (readTolerant depth) depth := by
  induction depth with
  | zero =>
      intro containers v p h rest
      have hscalar := h
      cases h with
      | array h =>
          rw [List.append_assoc]
          refine .inr ⟨readTolerant_zero (.inl (h.beginsAs matches_array _)), .inr ?_⟩
          intro hwithin
          exact Nat.lt_irrefl 0 (within_cons_nil_iff.1 hwithin).1
      | map h =>
          rw [List.append_assoc]
          refine .inr ⟨readTolerant_zero (.inr (h.beginsAs matches_map _)), .inr ?_⟩
          intro hwithin
          exact Nat.lt_irrefl 0 (within_cons_nil_iff.1 hwithin).1
      | _ => exact (readTolerant_of_scalar hscalar rest).imp_right (And.imp_right .inl)
  | succ depth ih =>
      intro containers v p h rest
      have hscalar := h
      cases h with
      | array h hbody =>
          rw [List.append_assoc, readTolerant_array h]
          rcases ih.items hbody [] rest with hall | ⟨hrefuse, hwhy⟩
          · rw [hall]
            exact .inl rfl
          · rw [hrefuse]
            refine .inr ⟨rfl, hwhy.imp (.array h) fun hdeep hwithin => ?_⟩
            exact hdeep (within_cons_nil_iff.1 hwithin).2
      | map h hbody =>
          rw [List.append_assoc, readTolerant_map h]
          rcases ih.entries hbody [] rest with hall | ⟨hrefuse, hwhy⟩
          · rw [hall]
            exact .inl rfl
          · rw [hrefuse]
            refine .inr ⟨rfl, hwhy.imp (.map h) fun hdeep hwithin => ?_⟩
            exact hdeep (within_cons_nil_iff.1 hwithin).2
      | _ => exact (readTolerant_of_scalar hscalar rest).imp_right (And.imp_right .inl)

/-! ### Extensions are refused -/

mutual

/-- **An extension is refused**, at whatever level it stands. -/
theorem HoldsExtension.refused {p : List UInt8} (h : HoldsExtension p) (depth : Nat)
    (rest : List UInt8) : readTolerant depth (p ++ rest) = none := by
  match h with
  | .extension h =>
      rw [List.append_assoc]
      rw [readTolerant_scalar (by decide) (by decide) (h.beginsAs matches_extension _),
        takeVisit_of_extension (h.beginsAs matches_extension _), Option.map_none]
  | .array h hbody =>
      rw [List.append_assoc]
      cases depth with
      | zero => exact readTolerant_zero (.inl (h.beginsAs matches_array _))
      | succ depth => rw [readTolerant_array h, hbody.refused depth, Option.map_none]
  | .map h hbody =>
      rw [List.append_assoc]
      cases depth with
      | zero => exact readTolerant_zero (.inr (h.beginsAs matches_map _))
      | succ depth => rw [readTolerant_map h, hbody.refused depth, Option.map_none]

theorem ItemsHoldExtension.refused {n : Nat} {body : List UInt8} (h : ItemsHoldExtension n body)
    (depth : Nat) (acc : List Value) (rest : List UInt8) :
    readTolerantItems (readTolerant depth) n acc (body ++ rest) = none := by
  match h with
  | .here h => rw [readTolerantItems, List.append_assoc, h.refused depth]
  | @ItemsHoldExtension.there n _ v p q h hothers =>
      rw [readTolerantItems, List.append_assoc]
      rcases takesOrRefuses_readTolerant depth h (q ++ rest) with htake | ⟨hrefuse, -⟩
      · rw [htake]
        exact hothers.refused depth (v :: acc) rest
      · rw [hrefuse]

theorem PairsHoldExtension.refused {n : Nat} {body : List UInt8} (h : PairsHoldExtension n body)
    (depth : Nat) (acc : List (String × Value)) (rest : List UInt8) :
    readTolerantEntries (readTolerant depth) n acc (body ++ rest) = none := by
  match h with
  | .here hkey h =>
      rw [readTolerantEntries, List.append_assoc, readTolerantKey_of_stringForm hkey]
      simp only [List.append_assoc, h.refused depth]
  | @PairsHoldExtension.there n _ key v p q r hkey h hothers =>
      rw [readTolerantEntries, List.append_assoc, readTolerantKey_of_stringForm hkey]
      simp only [List.append_assoc]
      rcases takesOrRefuses_readTolerant depth h (r ++ rest) with htake | ⟨hrefuse, -⟩
      · rw [htake]
        exact hothers.refused depth ((key, v) :: acc) rest
      · rw [hrefuse]

end

/-! ### Both readers -/

/-- **The two readers agree up to extensions.**  What is read of a field, with a limit of no more
than the nesting that the tolerant reader admits, is the value of the same bytes standing alone,
whatever stands behind, unless the bytes that were consumed hold an extension; and then the bytes
are refused. -/
theorem ofBytes?_of_readField {limits : Limits} (hlimit : limits.maxDepth ≤ maxTolerantDepth)
    {field : String} {bytes rest : List UInt8} {v : Value}
    (h : readField limits field bytes = (.ok v, rest)) :
    ∃ p, bytes = p ++ rest ∧ (¬ HoldsExtension p → ofBytes? bytes = some v) ∧
      (HoldsExtension p → ofBytes? bytes = none) := by
  obtain ⟨containers, p, hp, hwithin, rfl⟩ := encodes_of_readField h
  refine ⟨p, rfl, fun hplain => ?_, fun hextension => ?_⟩
  · rcases takesOrRefuses_readTolerant maxTolerantDepth hp rest with htake | ⟨-, hwhy⟩
    · rw [ofBytes?, htake, Option.map_some]
    · rcases hwhy with hextension | hdeep
      · exact absurd hextension hplain
      · exact absurd (within_mono hlimit hwithin) hdeep
  · rw [ofBytes?, hextension.refused, Option.map_none]

/-- A wide integer, a number of single precision that a later pair overwrites and a string with its
length in a byte, and a byte behind them; and a list whose first item is an extension. -/
theorem ofBytes?_of_readField_overwritten :
    let p : List UInt8 := [0x92, 0xCF, 0, 0, 0, 0, 0, 0, 0, 1, 0x82, 0xA1, 0x6B, 0xCA, 0x3F, 0, 0,
      0, 0xA1, 0x6B, 0xD9, 0x01, 0x61]
    let v : Value := .array [.integer 1, .map [("k", .string "a")]]
    let q : List UInt8 := [0x92, 0xD4, 0x01, 0xFF, 0x05]
    (readField ⟨64⟩ "x" (p ++ [0x2A]) = (.ok v, [0x2A]) ∧ ¬ HoldsExtension p ∧
        ofBytes? (p ++ [0x2A]) = some v) ∧
      readField ⟨64⟩ "x" q = (.ok (.array [.null, .integer 5]), []) ∧ HoldsExtension q ∧
        ofBytes? q = none := by
  intro p v q
  have hread : readField ⟨64⟩ "x" (p ++ [0x2A]) = (.ok v, [0x2A]) := rfl
  have hread' : readField ⟨64⟩ "x" q = (.ok (.array [.null, .integer 5]), []) := rfl
  have hplain : ¬ HoldsExtension p := by
    intro hextension
    have htaken : (readTolerant 2 (p ++ [])).isSome = true := by decide +kernel
    rw [hextension.refused 2 []] at htaken
    cases htaken
  have hitems : ItemsHoldExtension 2 (q.drop 1) :=
    .here (@HoldsExtension.extension [0xD4] [0xFF] 0x01 (.short (by decide)))
  have hextension : HoldsExtension q := .array (.short (by decide)) hitems
  obtain ⟨p', hp', hagrees, -⟩ := ofBytes?_of_readField (by decide) hread
  obtain ⟨q', hq', -, hrefuses⟩ := ofBytes?_of_readField (by decide) hread'
  obtain rfl := List.append_cancel_right hp'
  rw [List.append_nil] at hq'
  obtain rfl := hq'
  exact ⟨⟨hread, hplain, hagrees hplain⟩, hread', hextension, hrefuses hextension⟩

end HubGateway.MessagePack
