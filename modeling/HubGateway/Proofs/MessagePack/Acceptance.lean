/-
**The value reader accepts exactly the grammar.**

A value is read from some bytes if and only if they begin with an encoding of it whose containers
lie within the limit; the bytes behind the encoding are what is left.  One direction is the
soundness of the reader, the other its completeness, and both go by induction on the nesting that
is still allowed: a loop over items or entries inherits the property from the reader of the parts.

Everything that is said about encodings alone follows from the two directions: an encoding
determines its value, no encoding is the beginning of another one, and a beginning of an encoding
is refused.  An encoding that is nested too deep is refused at the first of its containers that lies
beyond the limit; in particular the comparison of a count with the length of the input refuses
nothing that is complete.

Main definitions:

* `HubGateway.MessagePack.AcceptsOnly`, `AcceptsAll` — soundness and completeness of a reader up to
  a nesting;
* `HubGateway.MessagePack.RefusesBeyond` — where a reader refuses what is nested deeper.

Main statements:

* `HubGateway.MessagePack.acceptsOnly_readValueWithin`, `acceptsAll_readValueWithin`,
  `refusesBeyond_readValueWithin` — the value reader has the three properties;
* `HubGateway.MessagePack.Encodes.unique` — encodings are unambiguous and prefix-free;
* `HubGateway.MessagePack.readField_accepts_grammar` — **the reader accepts exactly the grammar**.
-/

import HubGateway.Proofs.MessagePack.Cursor
import HubGateway.DecodeError

set_option relaxedAutoImplicit false
set_option autoImplicit false

namespace HubGateway.MessagePack

/-! ### The kind of a value by its first byte -/

/-- The first of the bytes begins a value of the kind. -/
def BeginsAs (shape : Shape) (p : List UInt8) : Prop :=
  ∃ first tail, p = first :: tail ∧ (Marker.ofByte first).shape = shape

theorem SizeForm.Writes.beginsAs {form : SizeForm} {size? : Marker → Option Size} {shape : Shape}
    (hform : form.Matches size? shape) {n : Nat} {header : List UInt8} (h : form.Writes n header)
    (body : List UInt8) : BeginsAs shape (header ++ body) := by
  cases h with
  | short h => exact ⟨_, _, rfl, hform.kind _ (by rw [hform.short _ h]; rfl)⟩
  | long h => exact ⟨_, _, rfl, hform.kind _ (by rw [hform.long _ h]; rfl)⟩

theorem IntegerForm.beginsAs {i : Int} {p : List UInt8} (h : IntegerForm i p)
    (rest : List UInt8) : BeginsAs .integer (p ++ rest) := by
  cases h with
  | positive h => exact ⟨_, _, rfl, by rw [ofByte_positive h]; rfl⟩
  | negative h => exact ⟨_, _, rfl, by rw [ofByte_negative h]; rfl⟩
  | unsigned h => exact ⟨_, _, rfl, by rw [ofByte_unsigned _ h]; rfl⟩
  | signed h => exact ⟨_, _, rfl, by rw [ofByte_signed _ h]; rfl⟩

theorem StringForm.beginsAs {s : String} {p : List UInt8} (h : StringForm s p)
    (rest : List UInt8) : BeginsAs .string (p ++ rest) := by
  cases h with
  | intro h =>
      rw [List.append_assoc]
      exact h.beginsAs matches_string _

/-- Bytes that are not empty begin a container, or something else. -/
theorem beginsAs_cases (first : UInt8) (tail : List UInt8) :
    BeginsAs .array (first :: tail) ∨ BeginsAs .map (first :: tail) ∨
      ∃ shape, shape ≠ .array ∧ shape ≠ .map ∧ BeginsAs shape (first :: tail) := by
  by_cases harray : (Marker.ofByte first).shape = .array
  · exact .inl ⟨first, tail, rfl, harray⟩
  by_cases hmap : (Marker.ofByte first).shape = .map
  · exact .inr (.inl ⟨first, tail, rfl, hmap⟩)
  exact .inr (.inr ⟨_, harray, hmap, first, tail, rfl, rfl⟩)

/-! ### The reader by the kind of the value -/

/-- What the reader does with a value of a kind that is no container. -/
def readScalar : Shape → List UInt8 → Outcome Failure Value
  | .nil, bytes => (readNil bytes).map .here fun _ => .null
  | .boolean, bytes => (readBoolean bytes).map .here .bool
  | .integer, bytes => (readInt64 bytes).map .here .integer
  | .float, bytes => (readDouble bytes).map .here .float
  | .string, bytes => (readString bytes).map .here .string
  | .blob, bytes => (readBlob bytes).map .here .bytes
  | .extension, bytes => (skipExtension bytes).map .here fun _ => .null
  | _, bytes => (.error (.here .reservedMarker), bytes)

theorem readValueWithin_nil (limit budget : Nat) :
    readValueWithin limit budget [] = (.error (.here .endOfInput), []) := by
  rw [readValueWithin.eq_def]

section Dispatch

variable {limit budget : Nat} {p : List UInt8}

theorem readValueWithin_scalar {shape : Shape} (harray : shape ≠ .array) (hmap : shape ≠ .map)
    (h : BeginsAs shape p) : readValueWithin limit budget p = readScalar shape p := by
  obtain ⟨first, tail, rfl, rfl⟩ := h
  rw [readValueWithin.eq_def]
  cases hs : (Marker.ofByte first).shape <;> simp_all [readScalar]

theorem readValueWithin_array (h : BeginsAs .array p) :
    readValueWithin limit (budget + 1) p = readArrayOf (readValueWithin limit budget) p := by
  obtain ⟨first, tail, rfl, h⟩ := h
  simp only [readValueWithin, h]

theorem readValueWithin_map (h : BeginsAs .map p) :
    readValueWithin limit (budget + 1) p = readMapOf (readValueWithin limit budget) p := by
  obtain ⟨first, tail, rfl, h⟩ := h
  simp only [readValueWithin, h]

/-- Where no container may be nested any more, a container is refused unread. -/
theorem readValueWithin_zero (h : BeginsAs .array p ∨ BeginsAs .map p) :
    readValueWithin limit 0 p = (.error (.here (.tooDeep limit)), p) := by
  rcases h with ⟨first, tail, rfl, h⟩ | ⟨first, tail, rfl, h⟩ <;> simp only [readValueWithin, h]

end Dispatch

/-! ### Soundness -/

/-- Whatever a reader accepts begins with an encoding whose containers lie within `budget`. -/
def AcceptsOnly (item : List UInt8 → Outcome Failure Value) (budget : Nat) : Prop :=
  ∀ ⦃bytes v rest⦄, item bytes = (.ok v, rest) →
    ∃ containers p, Encodes containers v p ∧ Within budget containers ∧ bytes = p ++ rest

section Soundness

variable {item : List UInt8 → Outcome Failure Value} {budget : Nat}

theorem AcceptsOnly.items (hitem : AcceptsOnly item budget) {count index : Nat}
    {acc : List Value} {bytes rest : List UInt8} {v : Value}
    (h : readItems item count index acc bytes = (.ok v, rest)) :
    ∃ items containers p, items.length = count ∧ EncodesItems index containers items p ∧
      Within (budget + 1) containers ∧ bytes = p ++ rest ∧ v = .array (acc.reverse ++ items) := by
  induction count generalizing index acc bytes with
  | zero =>
      simp only [readItems, Prod.mk.injEq, Except.ok.injEq] at h
      obtain ⟨rfl, rfl⟩ := h
      exact ⟨[], [], [], rfl, .nil, within_nil, rfl, by simp⟩
  | succ count ih =>
      rw [readItems] at h
      split at h
      next => simp at h
      next value after hvalue =>
        -- the first item took `p`, the others took `q`
        obtain ⟨inner, p, hp, hinner, rfl⟩ := hitem hvalue
        obtain ⟨items, others, q, rfl, hq, hothers, rfl, rfl⟩ := ih h
        exact ⟨value :: items, _, p ++ q, rfl, .cons hp hq,
          within_append_iff.2 ⟨within_under_iff.2 hinner, hothers⟩,
          (List.append_assoc ..).symm, by simp⟩

theorem AcceptsOnly.entries (hitem : AcceptsOnly item budget) {count index : Nat}
    {entries : List (String × Value)} {bytes rest : List UInt8} {v : Value}
    (h : readEntries item count index entries bytes = (.ok v, rest)) :
    ∃ pairs containers p, pairs.length = count ∧ EncodesPairs containers pairs p ∧
      Within (budget + 1) containers ∧ bytes = p ++ rest ∧
      v = .map (pairs.foldl (fun entries (key, value) => Entries.insert key value entries)
        entries) := by
  induction count generalizing index entries bytes with
  | zero =>
      simp only [readEntries, Prod.mk.injEq, Except.ok.injEq] at h
      obtain ⟨rfl, rfl⟩ := h
      exact ⟨[], [], [], rfl, .nil, within_nil, rfl, rfl⟩
  | succ count ih =>
      rw [readEntries] at h
      split at h
      next => simp at h
      next key after hkey =>
        obtain ⟨p, hp, rfl⟩ := readString_eq_ok_iff.1 hkey
        split at h
        next => simp at h
        next value left hvalue =>
          obtain ⟨inner, q, hq, hinner, rfl⟩ := hitem hvalue
          obtain ⟨pairs, others, r, rfl, hr, hothers, rfl, rfl⟩ := ih h
          exact ⟨(key, value) :: pairs, _, p ++ (q ++ r), rfl, .cons hp hq hr,
            within_append_iff.2 ⟨within_under_iff.2 hinner, hothers⟩, by simp, rfl⟩

theorem AcceptsOnly.array (hitem : AcceptsOnly item budget) {bytes rest : List UInt8} {v : Value}
    (h : readArrayOf item bytes = (.ok v, rest)) :
    ∃ containers p, Encodes containers v p ∧ Within (budget + 1) containers ∧
      bytes = p ++ rest := by
  unfold readArrayOf at h
  split at h
  next => simp at h
  next count after hcount =>
    obtain ⟨⟨header, hheader, rfl⟩, -⟩ := readArrayHeader_eq_ok_iff.1 hcount
    obtain ⟨items, containers, p, rfl, hp, hcontainers, rfl, rfl⟩ := hitem.items h
    exact ⟨_, header ++ p, .array hheader hp,
      within_cons_nil_iff.2 ⟨Nat.succ_pos _, hcontainers⟩, (List.append_assoc ..).symm⟩

theorem AcceptsOnly.map (hitem : AcceptsOnly item budget) {bytes rest : List UInt8} {v : Value}
    (h : readMapOf item bytes = (.ok v, rest)) :
    ∃ containers p, Encodes containers v p ∧ Within (budget + 1) containers ∧
      bytes = p ++ rest := by
  unfold readMapOf at h
  split at h
  next => simp at h
  next count after hcount =>
    obtain ⟨⟨header, hheader, rfl⟩, -⟩ := readMapHeader_eq_ok_iff.1 hcount
    obtain ⟨pairs, containers, p, rfl, hp, hcontainers, rfl, rfl⟩ := hitem.entries h
    exact ⟨_, header ++ p, .map hheader hp,
      within_cons_nil_iff.2 ⟨Nat.succ_pos _, hcontainers⟩, (List.append_assoc ..).symm⟩

end Soundness

/-- What is read as a scalar is encoded without a container. -/
theorem encodes_of_readScalar {shape : Shape} {bytes rest : List UInt8} {v : Value}
    (h : readScalar shape bytes = (.ok v, rest)) :
    ∃ p, Encodes [] v p ∧ bytes = p ++ rest := by
  cases shape with
  | nil =>
      obtain ⟨_, hread, rfl⟩ := Outcome.map_eq_ok_iff.1 h
      exact ⟨[0xC0], .nil, readNil_eq_ok_iff.1 hread⟩
  | boolean =>
      obtain ⟨b, hread, rfl⟩ := Outcome.map_eq_ok_iff.1 h
      cases b with
      | false => exact ⟨[0xC2], .no, readBoolean_eq_ok_iff.1 hread⟩
      | true => exact ⟨[0xC3], .yes, readBoolean_eq_ok_iff.1 hread⟩
  | integer =>
      obtain ⟨i, hread, rfl⟩ := Outcome.map_eq_ok_iff.1 h
      obtain ⟨p, hp, rfl⟩ := readInt64_eq_ok_iff.1 hread
      exact ⟨p, .integer hp, rfl⟩
  | float =>
      obtain ⟨x, hread, rfl⟩ := Outcome.map_eq_ok_iff.1 h
      rcases readDouble_eq_ok_iff.1 hread with ⟨number, hlen, rfl, rfl⟩ | ⟨number, hlen, rfl, rfl⟩
      · exact ⟨_, .single hlen, rfl⟩
      · exact ⟨_, .double hlen, rfl⟩
  | string =>
      obtain ⟨s, hread, rfl⟩ := Outcome.map_eq_ok_iff.1 h
      obtain ⟨p, hp, rfl⟩ := readString_eq_ok_iff.1 hread
      exact ⟨p, .string hp, rfl⟩
  | blob =>
      obtain ⟨payload, hread, rfl⟩ := Outcome.map_eq_ok_iff.1 h
      obtain ⟨header, hheader, rfl⟩ := readBlob_eq_ok_iff.1 hread
      exact ⟨_, .blob hheader, rfl⟩
  | extension =>
      obtain ⟨_, hread, rfl⟩ := Outcome.map_eq_ok_iff.1 h
      obtain ⟨header, type, payload, hheader, rfl⟩ := skipExtension_eq_ok_iff.1 hread
      exact ⟨_, .extension hheader, rfl⟩
  | array | map | reserved => simp [readScalar] at h

/-- **The value reader is sound.** -/
theorem acceptsOnly_readValueWithin (limit budget : Nat) :
    AcceptsOnly (readValueWithin limit budget) budget := by
  induction budget with
  | zero =>
      intro bytes v rest h
      cases bytes with
      | nil => simp [readValueWithin] at h
      | cons first tail =>
          rcases beginsAs_cases first tail with hbegin | hbegin | ⟨shape, harray, hmap, hbegin⟩
          · simp [readValueWithin_zero (.inl hbegin)] at h
          · simp [readValueWithin_zero (.inr hbegin)] at h
          · rw [readValueWithin_scalar harray hmap hbegin] at h
            obtain ⟨p, hp, hbytes⟩ := encodes_of_readScalar h
            exact ⟨[], p, hp, within_nil, hbytes⟩
  | succ budget ih =>
      intro bytes v rest h
      cases bytes with
      | nil => simp [readValueWithin] at h
      | cons first tail =>
          rcases beginsAs_cases first tail with hbegin | hbegin | ⟨shape, harray, hmap, hbegin⟩
          · exact ih.array (readValueWithin_array hbegin ▸ h)
          · exact ih.map (readValueWithin_map hbegin ▸ h)
          · rw [readValueWithin_scalar harray hmap hbegin] at h
            obtain ⟨p, hp, hbytes⟩ := encodes_of_readScalar h
            exact ⟨[], p, hp, within_nil, hbytes⟩

/-! ### Completeness -/

/-- A reader accepts every encoding whose containers lie within `budget`, whatever follows. -/
def AcceptsAll (item : List UInt8 → Outcome Failure Value) (budget : Nat) : Prop :=
  ∀ ⦃containers v p⦄, Encodes containers v p → Within budget containers →
    ∀ rest, item (p ++ rest) = (.ok v, rest)

/-- A reader refuses an encoding at the first container that lies beyond `budget`. -/
def RefusesBeyond (item : List UInt8 → Outcome Failure Value) (budget limit : Nat) : Prop :=
  ∀ ⦃containers v p path⦄, Encodes containers v p →
    containers.find? (budget ≤ ·.length) = some path →
    ∀ rest, ∃ left, item (p ++ rest) = (.error ⟨path, .tooDeep limit⟩, left)

/-- What is encoded without a container is read as a scalar. -/
theorem readScalar_of_encodes {v : Value} {p : List UInt8} (h : Encodes [] v p)
    (rest : List UInt8) :
    ∃ shape, shape ≠ .array ∧ shape ≠ .map ∧ BeginsAs shape (p ++ rest) ∧
      readScalar shape (p ++ rest) = (.ok v, rest) := by
  cases h with
  | nil =>
      have hread : readNil ([0xC0] ++ rest) = (.ok (), rest) := readNil_eq_ok_iff.2 rfl
      exact ⟨.nil, nofun, nofun, ⟨_, _, rfl, by decide⟩,
        by rw [readScalar, hread, Outcome.map_ok]⟩
  | no =>
      have hread : readBoolean ([0xC2] ++ rest) = (.ok false, rest) := readBoolean_eq_ok_iff.2 rfl
      exact ⟨.boolean, nofun, nofun, ⟨_, _, rfl, by decide⟩,
        by rw [readScalar, hread, Outcome.map_ok]⟩
  | yes =>
      have hread : readBoolean ([0xC3] ++ rest) = (.ok true, rest) := readBoolean_eq_ok_iff.2 rfl
      exact ⟨.boolean, nofun, nofun, ⟨_, _, rfl, by decide⟩,
        by rw [readScalar, hread, Outcome.map_ok]⟩
  | integer h =>
      exact ⟨.integer, nofun, nofun, h.beginsAs rest,
        Outcome.map_eq_ok_iff.2 ⟨_, readInt64_eq_ok_iff.2 ⟨p, h, rfl⟩, rfl⟩⟩
  | single hlen =>
      exact ⟨.float, nofun, nofun, ⟨_, _, rfl, by decide⟩,
        Outcome.map_eq_ok_iff.2 ⟨_, readDouble_eq_ok_iff.2 (.inl ⟨_, hlen, rfl, rfl⟩), rfl⟩⟩
  | double hlen =>
      exact ⟨.float, nofun, nofun, ⟨_, _, rfl, by decide⟩,
        Outcome.map_eq_ok_iff.2 ⟨_, readDouble_eq_ok_iff.2 (.inr ⟨_, hlen, rfl, rfl⟩), rfl⟩⟩
  | string h =>
      exact ⟨.string, nofun, nofun, h.beginsAs rest,
        Outcome.map_eq_ok_iff.2 ⟨_, readString_eq_ok_iff.2 ⟨p, h, rfl⟩, rfl⟩⟩
  | @blob header payload h =>
      refine ⟨.blob, nofun, nofun, ?_,
        Outcome.map_eq_ok_iff.2 ⟨_, readBlob_eq_ok_iff.2 ⟨header, h, rfl⟩, rfl⟩⟩
      rw [List.append_assoc]
      exact h.beginsAs matches_blob _
  | @extension header payload type h =>
      refine ⟨.extension, nofun, nofun, ?_, Outcome.map_eq_ok_iff.2
        ⟨(), skipExtension_eq_ok_iff.2 ⟨header, type, payload, h, rfl⟩, rfl⟩⟩
      rw [List.append_assoc]
      exact h.beginsAs matches_extension _

section Completeness

variable {item : List UInt8 → Outcome Failure Value} {budget limit : Nat}
  {containers : List (List Segment)} {pairs : List (String × Value)} {header body : List UInt8}

theorem AcceptsAll.items (hitem : AcceptsAll item budget) {index : Nat} {items : List Value}
    (h : EncodesItems index containers items body) (hwithin : Within (budget + 1) containers)
    (acc : List Value) (rest : List UInt8) :
    readItems item items.length index acc (body ++ rest) =
      (.ok (.array (acc.reverse ++ items)), rest) := by
  induction items generalizing index containers body acc with
  | nil =>
      cases h
      simp [readItems]
  | cons v items ih =>
      cases h with
      | cons h hitems =>
          obtain ⟨hinner, hothers⟩ := within_append_iff.1 hwithin
          rw [List.length_cons, readItems, List.append_assoc, hitem h (within_under_iff.1 hinner)]
          simp [ih hitems hothers]

theorem AcceptsAll.entries (hitem : AcceptsAll item budget)
    (h : EncodesPairs containers pairs body) (hwithin : Within (budget + 1) containers)
    (index : Nat) (entries : List (String × Value)) (rest : List UInt8) :
    readEntries item pairs.length index entries (body ++ rest) =
      (.ok (.map (pairs.foldl (fun entries (key, value) => Entries.insert key value entries)
        entries)), rest) := by
  induction pairs generalizing index containers body entries with
  | nil =>
      cases h
      simp [readEntries]
  | cons pair pairs ih =>
      cases h with
      | cons hkey h hpairs =>
          obtain ⟨hinner, hothers⟩ := within_append_iff.1 hwithin
          rw [List.length_cons, readEntries, List.append_assoc,
            readString_eq_ok_iff.2 ⟨_, hkey, rfl⟩]
          simp only [List.append_assoc]
          rw [hitem h (within_under_iff.1 hinner)]
          simp only [ih hpairs hothers, List.foldl_cons]

/-- The header of a complete array is never refused. -/
theorem readArrayOf_encoded {index : Nat} {items : List Value}
    (h : SizeForm.array.Writes items.length header)
    (hbody : EncodesItems index containers items body) (rest : List UInt8) :
    readArrayOf item (header ++ body ++ rest) =
      readItems item items.length 0 [] (body ++ rest) := by
  -- complete items take a byte each, so the count does not exceed what is left
  have hcount : items.length ≤ (body ++ rest).length := by
    have := hbody.length_le
    rw [List.length_append]
    omega
  have hread : readArrayHeader (header ++ body ++ rest) = (.ok items.length, body ++ rest) :=
    readArrayHeader_eq_ok_iff.2 ⟨⟨header, h, List.append_assoc ..⟩, hcount⟩
  rw [readArrayOf, hread]

/-- The header of a complete map is never refused. -/
theorem readMapOf_encoded (h : SizeForm.map.Writes pairs.length header)
    (hbody : EncodesPairs containers pairs body) (rest : List UInt8) :
    readMapOf item (header ++ body ++ rest) =
      readEntries item pairs.length 0 [] (body ++ rest) := by
  -- complete entries take two bytes each
  have hcount : pairs.length * 2 ≤ (body ++ rest).length := by
    have := hbody.length_le
    rw [List.length_append]
    omega
  have hread : readMapHeader (header ++ body ++ rest) = (.ok pairs.length, body ++ rest) :=
    readMapHeader_eq_ok_iff.2 ⟨⟨header, h, List.append_assoc ..⟩, hcount⟩
  rw [readMapOf, hread]

theorem RefusesBeyond.items (hall : AcceptsAll item budget)
    (hbeyond : RefusesBeyond item budget limit) {index : Nat} {items : List Value}
    {path : List Segment} (h : EncodesItems index containers items body)
    (hpath : containers.find? (budget + 1 ≤ ·.length) = some path) (acc : List Value)
    (rest : List UInt8) :
    ∃ left, readItems item items.length index acc (body ++ rest) =
      (.error ⟨path, .tooDeep limit⟩, left) := by
  induction items generalizing index containers body acc with
  | nil =>
      cases h
      simp at hpath
  | cons v items ih =>
      cases h with
      | @cons _ inner others _ _ p q h hitems =>
          rw [List.find?_append, find?_under] at hpath
          rw [List.length_cons, readItems, List.append_assoc]
          -- the first container beyond the budget lies in this item, or else in the others
          cases hfind : inner.find? (budget ≤ ·.length) with
          | none =>
              rw [hall h (find?_eq_none_iff_within.1 hfind)]
              rw [hfind] at hpath
              exact ih hitems hpath _
          | some deep =>
              obtain ⟨left, hleft⟩ := hbeyond h hfind (q ++ rest)
              rw [hfind] at hpath
              cases hpath
              exact ⟨left, by rw [hleft]; rfl⟩

theorem RefusesBeyond.entries (hall : AcceptsAll item budget)
    (hbeyond : RefusesBeyond item budget limit) {path : List Segment}
    (h : EncodesPairs containers pairs body)
    (hpath : containers.find? (budget + 1 ≤ ·.length) = some path) (index : Nat)
    (entries : List (String × Value)) (rest : List UInt8) :
    ∃ left, readEntries item pairs.length index entries (body ++ rest) =
      (.error ⟨path, .tooDeep limit⟩, left) := by
  induction pairs generalizing index containers body entries with
  | nil =>
      cases h
      simp at hpath
  | cons pair pairs ih =>
      cases h with
      | @cons inner others key v _ p q r hkey h hpairs =>
          rw [List.find?_append, find?_under] at hpath
          rw [List.length_cons, readEntries, List.append_assoc,
            readString_eq_ok_iff.2 ⟨_, hkey, rfl⟩]
          simp only [List.append_assoc]
          cases hfind : inner.find? (budget ≤ ·.length) with
          | none =>
              rw [hall h (find?_eq_none_iff_within.1 hfind)]
              rw [hfind] at hpath
              exact ih hpairs hpath _ _
          | some deep =>
              obtain ⟨left, hleft⟩ := hbeyond h hfind (r ++ rest)
              rw [hfind] at hpath
              cases hpath
              exact ⟨left, by rw [hleft]; rfl⟩

end Completeness

theorem readValueWithin_of_scalar {limit budget : Nat} {v : Value} {p : List UInt8}
    (h : Encodes [] v p) (rest : List UInt8) :
    readValueWithin limit budget (p ++ rest) = (.ok v, rest) := by
  obtain ⟨shape, harray, hmap, hbegin, hread⟩ := readScalar_of_encodes h rest
  rw [readValueWithin_scalar harray hmap hbegin, hread]

/-- **The value reader is complete.** -/
theorem acceptsAll_readValueWithin (limit budget : Nat) :
    AcceptsAll (readValueWithin limit budget) budget := by
  induction budget with
  | zero =>
      intro containers v p h hwithin rest
      have hscalar := h
      -- a container has itself, with nothing around it, among its containers
      cases h with
      | array | map => exact absurd (within_cons_nil_iff.1 hwithin).1 (Nat.lt_irrefl 0)
      | _ => exact readValueWithin_of_scalar hscalar rest
  | succ budget ih =>
      intro containers v p h hwithin rest
      have hscalar := h
      cases h with
      | array h hbody =>
          have hbegin := h.beginsAs matches_array
          rw [readValueWithin_array (by rw [List.append_assoc]; exact hbegin _),
            readArrayOf_encoded h hbody, ih.items hbody (within_cons_nil_iff.1 hwithin).2]
          rfl
      | map h hbody =>
          have hbegin := h.beginsAs matches_map
          rw [readValueWithin_map (by rw [List.append_assoc]; exact hbegin _),
            readMapOf_encoded h hbody, ih.entries hbody (within_cons_nil_iff.1 hwithin).2]
          rfl
      | _ => exact readValueWithin_of_scalar hscalar rest

/-- **The value reader refuses what is nested too deep where it becomes so.** -/
theorem refusesBeyond_readValueWithin (limit budget : Nat) :
    RefusesBeyond (readValueWithin limit budget) budget limit := by
  induction budget with
  | zero =>
      intro containers v p path h hpath rest
      cases h with
      | array h hbody =>
          have hbegin := h.beginsAs matches_array
          cases hpath
          exact ⟨_, readValueWithin_zero (.inl (by rw [List.append_assoc]; exact hbegin _))⟩
      | map h hbody =>
          have hbegin := h.beginsAs matches_map
          cases hpath
          exact ⟨_, readValueWithin_zero (.inr (by rw [List.append_assoc]; exact hbegin _))⟩
      | _ => cases hpath
  | succ budget ih =>
      intro containers v p path h hpath rest
      have hall := acceptsAll_readValueWithin limit budget
      cases h with
      | array h hbody =>
          have hbegin := h.beginsAs matches_array
          rw [readValueWithin_array (by rw [List.append_assoc]; exact hbegin _),
            readArrayOf_encoded h hbody]
          exact ih.items hall hbody (by simpa using hpath) [] rest
      | map h hbody =>
          have hbegin := h.beginsAs matches_map
          rw [readValueWithin_map (by rw [List.append_assoc]; exact hbegin _),
            readMapOf_encoded h hbody]
          exact ih.entries hall hbody (by simpa using hpath) 0 [] rest
      | _ => cases hpath

/-! ### Encodings alone -/

/-- **Encodings are unambiguous and prefix-free.** -/
theorem Encodes.unique {containers containers' : List (List Segment)} {v v' : Value}
    {p p' rest rest' : List UInt8} (h : Encodes containers v p) (h' : Encodes containers' v' p')
    (heq : p ++ rest = p' ++ rest') : v = v' ∧ p = p' := by
  -- one reader accepts both, and it gives one result
  obtain ⟨limit, hlimit⟩ := exists_within (containers ++ containers')
  obtain ⟨hwithin, hwithin'⟩ := within_append_iff.1 hlimit
  have hread := acceptsAll_readValueWithin limit limit h hwithin rest
  rw [heq, acceptsAll_readValueWithin limit limit h' hwithin' rest'] at hread
  simp only [Prod.mk.injEq, Except.ok.injEq] at hread
  obtain ⟨rfl, rfl⟩ := hread
  exact ⟨rfl, List.append_cancel_right heq⟩

/-- What ends within an encoding is refused. -/
theorem Encodes.refuses_strict_beginning {containers : List (List Segment)} {v : Value}
    {p beginning : List UInt8} (h : Encodes containers v p) (hbeginning : beginning <+: p)
    (hne : beginning ≠ p) (limit budget : Nat) :
    ∃ failure left, readValueWithin limit budget beginning = (.error failure, left) := by
  cases hread : readValueWithin limit budget beginning with
  | mk result left =>
    cases result with
    | error failure => exact ⟨failure, left, rfl⟩
    | ok v' =>
        -- what was accepted would be an encoding at the front of another one
        obtain ⟨containers', q, hq, -, rfl⟩ := acceptsOnly_readValueWithin limit budget hread
        obtain ⟨missing, hmissing⟩ := hbeginning
        have heq : q ++ (left ++ missing) = p ++ [] := by
          rw [← hmissing, List.append_nil, List.append_assoc]
        obtain ⟨-, rfl⟩ := hq.unique h heq
        have hlen := congrArg List.length hmissing
        simp only [List.length_append] at hlen
        have hleft : left = [] := List.eq_nil_of_length_eq_zero (by omega)
        exact absurd (by rw [hleft, List.append_nil]) hne

/-! ### Fields -/

section Fields

variable {limits : Limits} {containers : List (List Segment)} {v : Value} {p : List UInt8}

/-- A field is read from an encoding of its value that is not nested too deep. -/
theorem readField_of_within (h : Encodes containers v p)
    (hwithin : Within limits.maxDepth containers) (field : String) (rest : List UInt8) :
    readField limits field (p ++ rest) = (.ok v, rest) :=
  Outcome.map_eq_ok_iff.2 ⟨v, acceptsAll_readValueWithin _ _ h hwithin rest, rfl⟩

/-- What is read of a field is encoded at the front of its bytes, and not nested too deep. -/
theorem encodes_of_readField {field : String} {bytes rest : List UInt8}
    (h : readField limits field bytes = (.ok v, rest)) :
    ∃ containers p, Encodes containers v p ∧ Within limits.maxDepth containers ∧
      bytes = p ++ rest := by
  obtain ⟨_, hread, rfl⟩ := Outcome.map_eq_ok_iff.1 h
  exact acceptsOnly_readValueWithin _ _ hread

/-- The error of a field that is nested too deep names the first container that is. -/
theorem readField_of_beyond {path : List Segment} (h : Encodes containers v p)
    (hpath : containers.find? (limits.maxDepth ≤ ·.length) = some path) (field : String)
    (rest : List UInt8) :
    ∃ left, readField limits field (p ++ rest) =
      (.error ⟨fieldAt field path, .unread (.tooDeep limits.maxDepth)⟩, left) := by
  obtain ⟨left, hleft⟩ := refusesBeyond_readValueWithin limits.maxDepth _ h hpath rest
  exact ⟨left, by rw [readField, readValue, hleft]; rfl⟩

end Fields

/-- **The reader of a value accepts exactly the grammar**, up to the nesting limit.  The value and
its bytes are unique; what is encoded whole is refused for its nesting alone, at the first container
that lies too deep, and what ends within an encoding is always refused. -/
theorem readField_accepts_grammar (limits : Limits) (field : String) :
    (∀ bytes v rest, readField limits field bytes = (.ok v, rest) ↔
      ∃ containers p, Encodes containers v p ∧ Within limits.maxDepth containers ∧
        bytes = p ++ rest) ∧
    (∀ containers containers' v v' p p' rest rest', Encodes containers v p →
      Encodes containers' v' p' → p ++ rest = p' ++ rest' → v = v' ∧ p = p') ∧
    (∀ containers v p rest, Encodes containers v p →
      (Within limits.maxDepth containers ∧ readField limits field (p ++ rest) = (.ok v, rest)) ∨
      ∃ path left, containers.find? (limits.maxDepth ≤ ·.length) = some path ∧
        readField limits field (p ++ rest) =
          (.error ⟨fieldAt field path, .unread (.tooDeep limits.maxDepth)⟩, left)) ∧
    ∀ containers v p beginning, Encodes containers v p → beginning <+: p → beginning ≠ p →
      ∃ e left, readField limits field beginning = (.error e, left) := by
  refine ⟨fun bytes v rest => ⟨fun h => ?_, ?_⟩, fun _ _ _ _ _ _ _ _ => Encodes.unique,
    fun containers v p rest h => ?_, fun containers v p beginning h hbeginning hne => ?_⟩
  · obtain ⟨_, hread, rfl⟩ := Outcome.map_eq_ok_iff.1 h
    exact acceptsOnly_readValueWithin _ _ hread
  · rintro ⟨containers, p, h, hwithin, rfl⟩
    exact readField_of_within h hwithin field rest
  · cases hpath : containers.find? (limits.maxDepth ≤ ·.length) with
    | none =>
        have hwithin := find?_eq_none_iff_within.1 hpath
        exact .inl ⟨hwithin, readField_of_within h hwithin field rest⟩
    | some path =>
        obtain ⟨left, hleft⟩ := readField_of_beyond h hpath field rest
        exact .inr ⟨path, left, rfl, hleft⟩
  · obtain ⟨failure, left, hleft⟩ :=
      h.refuses_strict_beginning hbeginning hne limits.maxDepth limits.maxDepth
    exact ⟨_, left, by rw [readField, readValue, hleft]; rfl⟩

/-- A map whose first value, an array, is overwritten: two levels are read, and one is not. -/
theorem readField_accepts_overwritten_array :
    let p : List UInt8 := [0x82, 0xA1, 0x61, 0x91, 0x01, 0xA1, 0x61, 0xC0]
    Encodes [[], [.key "a"]] (.map [("a", .null)]) p ∧
      readField ⟨2⟩ "x" (p ++ [0x2A]) = (.ok (.map [("a", .null)]), [0x2A]) ∧
      (∃ left, readField ⟨1⟩ "x" p = (.error ⟨"x.a", .unread (.tooDeep 1)⟩, left)) ∧
      ∃ e left, readField ⟨2⟩ "x" (p.take 7) = (.error e, left) := by
  intro p
  have hone : IntegerForm (Int64.toInt 1) [0x01] :=
    (.positive (by decide) : IntegerForm (1 : Nat) [(1 : Nat).toUInt8])
  have hlength : SizeForm.string.Writes (Utf8.encode "a").length [0xA1] := .short (by decide)
  have hkey : StringForm "a" [0xA1, 0x61] := .intro hlength
  have hinner : Encodes [[]] (.array [.integer 1]) [0x91, 0x01] :=
    .array (.short (by decide)) (.cons (.integer hone) .nil)
  have hpairs : EncodesPairs [[.key "a"]] [("a", .array [.integer 1]), ("a", .null)] (p.drop 1) :=
    .cons hkey hinner (.cons hkey .nil .nil)
  have h : Encodes [[], [.key "a"]] (.map [("a", .null)]) p := .map (.short (by decide)) hpairs
  obtain ⟨haccepts, -, -, hbeginning⟩ := readField_accepts_grammar ⟨2⟩ "x"
  obtain ⟨-, -, hwhole, -⟩ := readField_accepts_grammar ⟨1⟩ "x"
  refine ⟨h, (haccepts _ _ _).2 ⟨_, p, h, by decide, rfl⟩, ?_, hbeginning _ _ p _ h ?_ ?_⟩
  · rcases hwhole _ _ p [] h with ⟨hwithin, -⟩ | ⟨path, left, hpath, hleft⟩
    · exact absurd hwithin (by decide)
    · cases hpath
      exact ⟨left, hleft⟩
  · exact List.take_prefix ..
  · decide

end HubGateway.MessagePack
