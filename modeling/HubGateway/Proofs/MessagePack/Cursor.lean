/-
**What the reads of a cursor accept.**

Every read that succeeds has consumed bytes that the grammar allows for its result, and it succeeds
on all of them whatever stands behind.  There is one statement for each read, from which everything
else about successful reads follows; a container's header has the additional condition that the
rest of the input can hold as many parts.

Main definitions:

* `HubGateway.MessagePack.Marker.fits` — the meaning of a first byte by the grammar;
* `HubGateway.MessagePack.SizeForm.Matches` — a table of markers agrees with a form of sizes.

Main statements:

* `HubGateway.MessagePack.takeSize_eq_ok_iff`, `takeInteger_eq_ok_iff` — lengths, counts, integers;
* `HubGateway.MessagePack.readString_eq_ok_iff`, `readBlob_eq_ok_iff`, `readInt64_eq_ok_iff`,
  `readDouble_eq_ok_iff`, `skipExtension_eq_ok_iff` — values that are read whole;
* `HubGateway.MessagePack.readArrayHeader_eq_ok_iff`, `readMapHeader_eq_ok_iff` — headers.
-/

import HubGateway.MessagePack.Reader
import HubGateway.Proofs.MessagePack.Grammar
import HubGateway.Proofs.Text.Utf8

set_option relaxedAutoImplicit false
set_option autoImplicit false

namespace HubGateway.MessagePack

/-! ### Outcomes -/

section Outcomes

variable {ε ε' α β : Type} {error : ε → ε'} {value : α → β}

/-- A changed outcome is a success only if the outcome was. -/
theorem Outcome.map_eq_ok_iff {o : Outcome ε α} {b : β} {rest : List UInt8} :
    o.map error value = (.ok b, rest) ↔ ∃ a, o = (.ok a, rest) ∧ value a = b := by
  obtain ⟨result, left⟩ := o
  cases result with
  | error e => simp [Outcome.map]
  | ok a =>
      simp only [Outcome.map, Prod.mk.injEq, Except.ok.injEq]
      constructor
      · rintro ⟨hb, hrest⟩
        exact ⟨a, ⟨rfl, hrest⟩, hb⟩
      · rintro ⟨a', ⟨rfl, hrest⟩, hb⟩
        exact ⟨hb, hrest⟩

/-- A changed outcome is a failure only if the outcome was. -/
theorem Outcome.map_eq_error_iff {o : Outcome ε α} {e' : ε'} {rest : List UInt8} :
    o.map error value = (.error e', rest) ↔ ∃ e, o = (.error e, rest) ∧ error e = e' := by
  obtain ⟨result, left⟩ := o
  cases result with
  | ok a => simp [Outcome.map]
  | error e =>
      simp only [Outcome.map, Prod.mk.injEq, Except.error.injEq]
      constructor
      · rintro ⟨he, hrest⟩
        exact ⟨e, ⟨rfl, hrest⟩, he⟩
      · rintro ⟨e, ⟨rfl, hrest⟩, he⟩
        exact ⟨he, hrest⟩

theorem Outcome.map_ok (a : α) (rest : List UInt8) :
    Outcome.map error value (.ok a, rest) = (.ok (value a), rest) := rfl

end Outcomes

/-! ### First bytes -/

/-- Whether a form of sizes gives a first byte a meaning. -/
def SizeForm.lists (form : SizeForm) (first : UInt8) : Size → Bool
  | .given n => form.short.contains (first, n)
  | .behind width => form.long.contains (first, width)

/-- Whether a first byte has the meaning of a marker, by the grammar. -/
def Marker.fits (first : UInt8) : Marker → Bool
  | .fixPositive n => n < 0x80 && first == n.toUInt8
  | .fixNegative i => -0x20 ≤ i && i < 0 && first == (0xE0 + (i + 0x20).toNat).toUInt8
  | .fixMap n => SizeForm.map.lists first (.given n)
  | .fixArray n => SizeForm.array.lists first (.given n)
  | .fixString n => SizeForm.string.lists first (.given n)
  | .fixExtension n => SizeForm.extension.lists first (.given n)
  | .nil => first == 0xC0
  | .reserved => first == 0xC1
  | .boolean b => first == if b then 0xC3 else 0xC2
  | .blob width => SizeForm.blob.lists first (.behind width)
  | .extension width => SizeForm.extension.lists first (.behind width)
  | .float32 => first == 0xCA
  | .float64 => first == 0xCB
  | .unsigned width => unsignedWidths.contains (first, width)
  | .signed width => signedWidths.contains (first, width)
  | .string width => SizeForm.string.lists first (.behind width)
  | .array width => SizeForm.array.lists first (.behind width)
  | .map width => SizeForm.map.lists first (.behind width)

/-- Every first byte has the meaning that it is given. -/
theorem fits_ofByte (first : UInt8) : (Marker.ofByte first).fits first = true := by
  -- the only check of all first bytes one by one; all tables of markers are related through it
  revert first
  decide +kernel

theorem ofByte_positive {n : Nat} (h : n < 0x80) : Marker.ofByte n.toUInt8 = .fixPositive n := by
  have hn : n.toUInt8.toNat = n := by simp; omega
  simp only [Marker.ofByte, hn, if_pos h]

theorem ofByte_negative {n : Nat} (h : n < 0x20) :
    Marker.ofByte (0xE0 + n).toUInt8 = .fixNegative (n - 0x20) := by
  revert n
  decide

theorem ofByte_unsigned : ∀ e ∈ unsignedWidths, Marker.ofByte e.1 = .unsigned e.2 := by decide

theorem ofByte_signed : ∀ e ∈ signedWidths, Marker.ofByte e.1 = .signed e.2 := by decide

/-! ### Sizes -/

/-- A table of the sizes that markers tell says the same as a form of sizes, for one kind of
values. -/
structure SizeForm.Matches (form : SizeForm) (size? : Marker → Option Size) (shape : Shape) :
    Prop where
  short : ∀ e ∈ form.short, size? (.ofByte e.1) = some (.given e.2)
  long : ∀ e ∈ form.long, size? (.ofByte e.1) = some (.behind e.2)
  only : ∀ first marker size, marker.fits first → size? marker = some size → form.lists first size
  kind : ∀ marker, (size? marker).isSome → marker.shape = shape

theorem matches_string : SizeForm.string.Matches Marker.stringSize? .string where
  short := by decide
  long := by decide
  only first marker size h hsize := by
    cases marker <;> simp_all [Marker.stringSize?, Marker.fits]
  kind marker h := by cases marker <;> first | rfl | cases h

theorem matches_blob : SizeForm.blob.Matches Marker.blobSize? .blob where
  short := by decide
  long := by decide
  only first marker size h hsize := by
    cases marker <;> simp_all [Marker.blobSize?, Marker.fits]
  kind marker h := by cases marker <;> first | rfl | cases h

theorem matches_extension : SizeForm.extension.Matches Marker.extensionSize? .extension where
  short := by decide
  long := by decide
  only first marker size h hsize := by
    cases marker <;> simp_all [Marker.extensionSize?, Marker.fits]
  kind marker h := by cases marker <;> first | rfl | cases h

theorem matches_array : SizeForm.array.Matches Marker.arraySize? .array where
  short := by decide
  long := by decide
  only first marker size h hsize := by
    cases marker <;> simp_all [Marker.arraySize?, Marker.fits]
  kind marker h := by cases marker <;> first | rfl | cases h

theorem matches_map : SizeForm.map.Matches Marker.mapSize? .map where
  short := by decide
  long := by decide
  only first marker size h hsize := by
    cases marker <;> simp_all [Marker.mapSize?, Marker.fits]
  kind marker h := by cases marker <;> first | rfl | cases h

/-- A size is read exactly from the bytes that tell it. -/
theorem takeSize_eq_ok_iff {form : SizeForm} {size? : Marker → Option Size} {shape : Shape}
    (hform : form.Matches size? shape) {bytes rest : List UInt8} {n : Nat} :
    takeSize size? bytes = (.ok n, rest) ↔
      ∃ header, form.Writes n header ∧ bytes = header ++ rest := by
  constructor
  · intro h
    cases bytes with
    | nil => simp [takeSize, takeMarker] at h
    | cons first bytes =>
        simp only [takeSize, takeMarker] at h
        cases hsize : size? (.ofByte first) with
        | none => simp [hsize] at h
        | some size =>
            have honly := hform.only first _ size (fits_ofByte first) hsize
            rw [hsize] at h
            cases size with
            | given m =>
                simp only [Prod.mk.injEq, Except.ok.injEq] at h
                obtain ⟨rfl, rfl⟩ := h
                exact ⟨[first], .short (by simpa [SizeForm.lists] using honly), rfl⟩
            | behind width =>
                obtain ⟨number, rfl, rfl, rfl⟩ := takeNumber_eq_ok_iff.1 h
                exact ⟨first :: number, .long (by simpa [SizeForm.lists] using honly), rfl⟩
  · rintro ⟨header, hheader, rfl⟩
    cases hheader with
    | short h => simp [takeSize, takeMarker, hform.short _ h]
    | @long first number h =>
        simp only [takeSize, takeMarker, List.cons_append, hform.long _ h]
        exact takeNumber_eq_ok_iff.2 ⟨number, rfl, rfl, rfl⟩

/-! ### Integers -/

/-- An integer is read exactly from its ten forms. -/
theorem takeInteger_eq_ok_iff {bytes rest : List UInt8} {i : Int} :
    takeInteger bytes = (.ok i, rest) ↔ ∃ p, IntegerForm i p ∧ bytes = p ++ rest := by
  constructor
  · intro h
    cases bytes with
    | nil => simp [takeInteger, takeMarker] at h
    | cons first bytes =>
        have hfits := fits_ofByte first
        simp only [takeInteger, takeMarker] at h
        cases hmarker : Marker.ofByte first with
        | fixPositive n =>
            simp only [hmarker, Marker.fits, Prod.mk.injEq, Except.ok.injEq,
              Bool.and_eq_true, decide_eq_true_eq, beq_iff_eq] at h hfits
            obtain ⟨rfl, rfl⟩ := h
            exact ⟨[first], hfits.2 ▸ .positive hfits.1, rfl⟩
        | fixNegative m =>
            simp only [hmarker, Marker.fits, Prod.mk.injEq, Except.ok.injEq,
              Bool.and_eq_true, decide_eq_true_eq, beq_iff_eq] at h hfits
            obtain ⟨rfl, rfl⟩ := h
            obtain ⟨⟨hlow, hhigh⟩, hfirst⟩ := hfits
            -- the form counts from the least number that one byte holds
            have hform := IntegerForm.negative (n := (m + 0x20).toNat) (by omega)
            rw [Int.toNat_of_nonneg (by omega), add_sub_cancel_right, ← hfirst] at hform
            exact ⟨[first], hform, rfl⟩
        | unsigned width =>
            simp only [hmarker, Marker.fits, List.contains_iff_mem] at h hfits
            obtain ⟨n, hn, rfl⟩ := Outcome.map_eq_ok_iff.1 h
            obtain ⟨number, rfl, rfl, rfl⟩ := takeNumber_eq_ok_iff.1 hn
            exact ⟨first :: number, .unsigned hfits, rfl⟩
        | signed width =>
            simp only [hmarker, Marker.fits, List.contains_iff_mem] at h hfits
            obtain ⟨n, hn, rfl⟩ := Outcome.map_eq_ok_iff.1 h
            obtain ⟨number, rfl, rfl, rfl⟩ := takeNumber_eq_ok_iff.1 hn
            exact ⟨first :: number, .signed hfits, rfl⟩
        | _ => simp [hmarker] at h
  · rintro ⟨p, hp, rfl⟩
    cases hp with
    | positive h => simp [takeInteger, takeMarker, ofByte_positive h]
    | negative h =>
        simp only [takeInteger, takeMarker, List.singleton_append, ofByte_negative h]
    | @unsigned first number h =>
        simp only [takeInteger, takeMarker, List.cons_append, ofByte_unsigned _ h]
        exact Outcome.map_eq_ok_iff.2 ⟨_, takeNumber_eq_ok_iff.2 ⟨number, rfl, rfl, rfl⟩, rfl⟩
    | @signed first number h =>
        simp only [takeInteger, takeMarker, List.cons_append, ofByte_signed _ h]
        exact Outcome.map_eq_ok_iff.2 ⟨_, takeNumber_eq_ok_iff.2 ⟨number, rfl, rfl, rfl⟩, rfl⟩

/-- A bounded integer is read exactly from the forms of the integers within its bounds. -/
theorem takeIntegerIn_eq_ok_iff {low high : Int} {bytes rest : List UInt8} {i : Int} :
    takeIntegerIn low high bytes = (.ok i, rest) ↔
      (low ≤ i ∧ i < high) ∧ ∃ p, IntegerForm i p ∧ bytes = p ++ rest := by
  rw [← takeInteger_eq_ok_iff]
  unfold takeIntegerIn
  obtain ⟨result, left⟩ := takeInteger bytes
  cases result with
  | error fault => simp
  | ok j =>
      simp only [Prod.mk.injEq, Except.ok.injEq]
      constructor
      · intro h
        split at h
        next hj =>
          simp only [Prod.mk.injEq, Except.ok.injEq] at h
          obtain ⟨rfl, rfl⟩ := h
          exact ⟨hj, rfl, rfl⟩
        next => simp at h
      · rintro ⟨hj, rfl, rfl⟩
        rw [if_pos hj]

theorem readInt32_eq_ok_iff {bytes rest : List UInt8} {i : Int32} :
    readInt32 bytes = (.ok i, rest) ↔ ∃ p, IntegerForm i.toInt p ∧ bytes = p ++ rest := by
  have hlow := i.le_toInt
  have hhigh := i.toInt_lt
  unfold readInt32
  rw [Outcome.map_eq_ok_iff]
  simp only [takeIntegerIn_eq_ok_iff]
  constructor
  · rintro ⟨j, ⟨hj, hp⟩, rfl⟩
    rwa [Int32.toInt_ofInt_of_le (by omega) (by omega)]
  · rintro hp
    exact ⟨i.toInt, ⟨⟨by omega, by omega⟩, hp⟩, Int32.ofInt_toInt i⟩

theorem readInt64_eq_ok_iff {bytes rest : List UInt8} {i : Int64} :
    readInt64 bytes = (.ok i, rest) ↔ ∃ p, IntegerForm i.toInt p ∧ bytes = p ++ rest := by
  have hlow := i.le_toInt
  have hhigh := i.toInt_lt
  unfold readInt64
  rw [Outcome.map_eq_ok_iff]
  simp only [takeIntegerIn_eq_ok_iff]
  constructor
  · rintro ⟨j, ⟨hj, hp⟩, rfl⟩
    rwa [Int64.toInt_ofInt_of_le (by omega) (by omega)]
  · rintro hp
    exact ⟨i.toInt, ⟨⟨by omega, by omega⟩, hp⟩, Int64.ofInt_toInt i⟩

/-! ### Other scalars -/

/-- A marker that one byte alone fits begins with this byte. -/
theorem ofByte_eq_iff {marker : Marker} {byte : UInt8} (hbyte : Marker.ofByte byte = marker)
    (hfits : ∀ first, marker.fits first = (first == byte)) (first : UInt8) :
    Marker.ofByte first = marker ↔ first = byte := by
  constructor
  · intro h
    have hfirst := fits_ofByte first
    rw [h, hfits] at hfirst
    exact beq_iff_eq.1 hfirst
  · rintro rfl
    exact hbyte

theorem ofByte_eq_nil_iff (first : UInt8) : Marker.ofByte first = .nil ↔ first = 0xC0 :=
  ofByte_eq_iff (by decide) (fun _ => rfl) first

theorem ofByte_eq_boolean_iff (first : UInt8) (b : Bool) :
    Marker.ofByte first = .boolean b ↔ first = if b then 0xC3 else 0xC2 :=
  ofByte_eq_iff (by cases b <;> decide) (fun _ => rfl) first

theorem ofByte_eq_float32_iff (first : UInt8) : Marker.ofByte first = .float32 ↔ first = 0xCA :=
  ofByte_eq_iff (by decide) (fun _ => rfl) first

theorem ofByte_eq_float64_iff (first : UInt8) : Marker.ofByte first = .float64 ↔ first = 0xCB :=
  ofByte_eq_iff (by decide) (fun _ => rfl) first

theorem readNil_eq_ok_iff {bytes rest : List UInt8} :
    readNil bytes = (.ok (), rest) ↔ bytes = 0xC0 :: rest := by
  cases bytes with
  | nil => simp [readNil, takeMarker]
  | cons first bytes =>
      rw [List.cons.injEq, ← ofByte_eq_nil_iff]
      simp only [readNil, takeMarker]
      cases Marker.ofByte first <;> simp

theorem readBoolean_eq_ok_iff {bytes rest : List UInt8} {b : Bool} :
    readBoolean bytes = (.ok b, rest) ↔ bytes = (if b then 0xC3 else 0xC2) :: rest := by
  cases bytes with
  | nil => simp [readBoolean, takeMarker]
  | cons first bytes =>
      rw [List.cons.injEq, ← ofByte_eq_boolean_iff]
      simp only [readBoolean, takeMarker]
      cases Marker.ofByte first <;> simp

/-- A number is read from the bytes of either precision. -/
theorem readDouble_eq_ok_iff {bytes rest : List UInt8} {x : Binary64} :
    readDouble bytes = (.ok x, rest) ↔
      (∃ number, number.length = 4 ∧ x = .ofBinary32 (bigEndian number).toUInt32 ∧
        bytes = 0xCA :: number ++ rest) ∨
      ∃ number, number.length = 8 ∧ x = ⟨(bigEndian number).toUInt64⟩ ∧
        bytes = 0xCB :: number ++ rest := by
  cases bytes with
  | nil => simp [readDouble, takeMarker]
  | cons first bytes =>
      simp only [List.cons_append, List.cons.injEq, ← ofByte_eq_float32_iff,
        ← ofByte_eq_float64_iff]
      simp only [readDouble, takeMarker]
      cases Marker.ofByte first with
      | float32 =>
          simp only [Outcome.map_eq_ok_iff, takeNumber_eq_ok_iff, true_and]
          constructor
          · rintro ⟨n, ⟨number, hlen, rfl, rfl⟩, rfl⟩
            exact .inl ⟨number, hlen, rfl, rfl⟩
          · rintro (⟨number, hlen, rfl, rfl⟩ | ⟨number, _, _, h, _⟩)
            · exact ⟨_, ⟨number, hlen, rfl, rfl⟩, rfl⟩
            · cases h
      | float64 =>
          simp only [Outcome.map_eq_ok_iff, takeNumber_eq_ok_iff, true_and]
          constructor
          · rintro ⟨n, ⟨number, hlen, rfl, rfl⟩, rfl⟩
            exact .inr ⟨number, hlen, rfl, rfl⟩
          · rintro (⟨number, _, _, h, _⟩ | ⟨number, hlen, rfl, rfl⟩)
            · cases h
            · exact ⟨_, ⟨number, hlen, rfl, rfl⟩, rfl⟩
      | _ => simp

/-! ### Strings, blobs and extensions -/

theorem readString_eq_ok_iff {bytes rest : List UInt8} {s : String} :
    readString bytes = (.ok s, rest) ↔ ∃ p, StringForm s p ∧ bytes = p ++ rest := by
  constructor
  · intro h
    simp only [readString] at h
    split at h
    next => simp at h
    next length after hlength =>
      split at h
      next => simp at h
      next payload left hpayload =>
        split at h
        next text htext =>
          simp only [Prod.mk.injEq, Except.ok.injEq] at h
          obtain ⟨rfl, rfl⟩ := h
          obtain ⟨header, hheader, rfl⟩ := (takeSize_eq_ok_iff matches_string).1 hlength
          obtain ⟨rfl, rfl⟩ := takePayload_eq_ok_iff.1 hpayload
          cases Utf8.decode_eq_ok_iff.1 htext
          exact ⟨_, .intro hheader, (List.append_assoc ..).symm⟩
        next => simp at h
  · rintro ⟨p, ⟨hheader⟩, rfl⟩
    have hlength := (takeSize_eq_ok_iff matches_string).2
      ⟨_, hheader, List.append_assoc _ (Utf8.encode s) rest⟩
    have hpayload : takePayload (Utf8.encode s).length (Utf8.encode s ++ rest) =
        (.ok (Utf8.encode s), rest) := takePayload_eq_ok_iff.2 ⟨rfl, rfl⟩
    simp only [readString, takeStringLength, hlength, hpayload, Utf8.decode_encode]

theorem readBlob_eq_ok_iff {bytes payload rest : List UInt8} :
    readBlob bytes = (.ok payload, rest) ↔
      ∃ header, SizeForm.blob.Writes payload.length header ∧ bytes = header ++ payload ++ rest := by
  constructor
  · intro h
    simp only [readBlob] at h
    split at h
    next => simp at h
    next length after hlength =>
      obtain ⟨header, hheader, rfl⟩ := (takeSize_eq_ok_iff matches_blob).1 hlength
      obtain ⟨rfl, rfl⟩ := takePayload_eq_ok_iff.1 h
      exact ⟨header, hheader, (List.append_assoc ..).symm⟩
  · rintro ⟨header, hheader, rfl⟩
    have hlength := (takeSize_eq_ok_iff matches_blob).2
      ⟨header, hheader, List.append_assoc header payload rest⟩
    simp only [readBlob, takeBlobLength, hlength]
    exact takePayload_eq_ok_iff.2 ⟨rfl, rfl⟩

theorem skipExtension_eq_ok_iff {bytes rest : List UInt8} :
    skipExtension bytes = (.ok (), rest) ↔
      ∃ header type payload, SizeForm.extension.Writes payload.length header ∧
        bytes = header ++ type :: payload ++ rest := by
  constructor
  · intro h
    simp only [skipExtension, takeExtensionLength] at h
    cases hlength : takeSize Marker.extensionSize? bytes with
    | mk result after =>
      cases result with
      | error fault => simp [hlength] at h
      | ok length =>
          obtain ⟨header, hheader, rfl⟩ := (takeSize_eq_ok_iff matches_extension).1 hlength
          cases htype : takeNumber 1 after with
          | mk result left =>
            cases result with
            | error fault => simp [hlength, htype, Outcome.map] at h
            | ok n =>
                simp only [hlength, htype, Outcome.map_ok] at h
                obtain ⟨payload, hpayload, -⟩ := Outcome.map_eq_ok_iff.1 h
                obtain ⟨rfl, rfl⟩ := takePayload_eq_ok_iff.1 hpayload
                obtain ⟨number, hnumber, -, rfl⟩ := takeNumber_eq_ok_iff.1 htype
                obtain ⟨type, rfl⟩ := List.length_eq_one_iff.1 hnumber
                exact ⟨header, type, payload, hheader, by simp⟩
  · rintro ⟨header, type, payload, hheader, rfl⟩
    have hlength := (takeSize_eq_ok_iff matches_extension).2
      ⟨header, hheader, List.append_assoc header (type :: payload) rest⟩
    have htype : takeNumber 1 (type :: payload ++ rest) = (.ok type.toNat, payload ++ rest) :=
      takeNumber_eq_ok_iff.2 ⟨[type], rfl, by simp [bigEndian], rfl⟩
    simp only [skipExtension, takeExtensionLength, hlength, htype, Outcome.map_ok]
    exact Outcome.map_eq_ok_iff.2 ⟨payload, takePayload_eq_ok_iff.2 ⟨rfl, rfl⟩, rfl⟩

/-! ### Container headers -/

theorem checkCount_eq_ok_iff {container : Container} {least n : Nat} {o : Outcome Fault Nat}
    {rest : List UInt8} :
    checkCount container least o = (.ok n, rest) ↔ o = (.ok n, rest) ∧ n * least ≤ rest.length := by
  obtain ⟨result, left⟩ := o
  cases result with
  | error fault => simp [checkCount]
  | ok m =>
      simp only [checkCount, hasAtLeast_iff, Prod.mk.injEq, Except.ok.injEq]
      constructor
      · intro h
        split at h
        next hm =>
          simp only [Prod.mk.injEq, Except.ok.injEq] at h
          obtain ⟨rfl, rfl⟩ := h
          exact ⟨⟨rfl, rfl⟩, hm⟩
        next => simp at h
      · rintro ⟨⟨rfl, rfl⟩, hm⟩
        rw [if_pos hm]

theorem readArrayHeader_eq_ok_iff {bytes rest : List UInt8} {n : Nat} :
    readArrayHeader bytes = (.ok n, rest) ↔
      (∃ header, SizeForm.array.Writes n header ∧ bytes = header ++ rest) ∧ n ≤ rest.length := by
  rw [readArrayHeader, checkCount_eq_ok_iff, mul_one, takeArrayCount,
    takeSize_eq_ok_iff matches_array]

theorem readMapHeader_eq_ok_iff {bytes rest : List UInt8} {n : Nat} :
    readMapHeader bytes = (.ok n, rest) ↔
      (∃ header, SizeForm.map.Writes n header ∧ bytes = header ++ rest) ∧ n * 2 ≤ rest.length := by
  rw [readMapHeader, checkCount_eq_ok_iff, takeMapCount, takeSize_eq_ok_iff matches_map]

end HubGateway.MessagePack
