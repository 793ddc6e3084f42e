/-
**The names of fields in errors.**

A reader that is given the name of the field extends it by a step whenever it enters a part, and an
error carries the name that its part has by then.  The names do not take part in the reading: such a
reader fails where the reader without names fails, for the same cause and with the same bytes left,
and the steps that its error adds to the name are those of the path.

Main definitions:

* `HubGateway.MessagePack.readNamed` — a value, read with names at hand;
* `HubGateway.MessagePack.suffix` — what a path adds to the name of a field.

Main statements:

* `HubGateway.MessagePack.readNamed_eq` — **names do not take part in the reading**;
* `HubGateway.MessagePack.readField_faithful` — **what every error of a field says**.
-/

import HubGateway.Proofs.MessagePack.Failure

set_option relaxedAutoImplicit false
set_option autoImplicit false

namespace HubGateway.MessagePack

/-! ### Reading with names -/

/-- As `readItems`, with `item` given the name of each item. -/
def readNamedItems (item : String → List UInt8 → Outcome DecodeError Value) (field : String) :
    Nat → Nat → List Value → List UInt8 → Outcome DecodeError Value
  | 0, _, acc, bytes => (.ok (.array acc.reverse), bytes)
  | count + 1, index, acc, bytes =>
    match item s!"{field}[{index}]" bytes with
    | (.error e, rest) => (.error e, rest)
    | (.ok value, rest) => readNamedItems item field count (index + 1) (value :: acc) rest

/-- As `readEntries`, with `item` given the name of each value. -/
def readNamedEntries (item : String → List UInt8 → Outcome DecodeError Value) (field : String) :
    Nat → Nat → List (String × Value) → List UInt8 → Outcome DecodeError Value
  | 0, _, entries, bytes => (.ok (.map entries), bytes)
  | count + 1, index, entries, bytes =>
    match (readString bytes).named s!"{field}.keys[{index}]" with
    | (.error e, rest) => (.error e, rest)
    | (.ok key, rest) =>
      match item s!"{field}.{key}" rest with
      | (.error e, rest) => (.error e, rest)
      | (.ok value, rest) =>
        readNamedEntries item field count (index + 1) (Entries.insert key value entries) rest

/-- As `readValueWithin`, where each read is given the name of what it reads. -/
def readNamedWithin (limit : Nat) : Nat → String → List UInt8 → Outcome DecodeError Value
  | _, field, [] => (.error ⟨field, .unread .endOfInput⟩, [])
  | budget, field, b :: rest =>
    let bytes := b :: rest
    match (Marker.ofByte b).shape with
    | .nil => ((readNil bytes).named field).map id fun _ => .null
    | .boolean => ((readBoolean bytes).named field).map id .bool
    | .integer => ((readInt64 bytes).named field).map id .integer
    | .float => ((readDouble bytes).named field).map id .float
    | .string => ((readString bytes).named field).map id .string
    | .blob => ((readBlob bytes).named field).map id .bytes
    | .extension => ((skipExtension bytes).named field).map id fun _ => .null
    | .reserved => (.error ⟨field, .unread .reservedMarker⟩, bytes)
    | .array =>
      match budget with
      | 0 => (.error ⟨field, .unread (.tooDeep limit)⟩, bytes)
      | budget + 1 =>
        match (readArrayHeader bytes).named field with
        | (.error e, rest) => (.error e, rest)
        | (.ok count, rest) => readNamedItems (readNamedWithin limit budget) field count 0 [] rest
    | .map =>
      match budget with
      | 0 => (.error ⟨field, .unread (.tooDeep limit)⟩, bytes)
      | budget + 1 =>
        match (readMapHeader bytes).named field with
        | (.error e, rest) => (.error e, rest)
        | (.ok count, rest) => readNamedEntries (readNamedWithin limit budget) field count 0 [] rest

/-- The value of `field`, read with names at hand. -/
def readNamed (limits : Limits) (field : String) (bytes : List UInt8) : Outcome DecodeError Value :=
  readNamedWithin limits.maxDepth limits.maxDepth field bytes

/-! ### Names do not take part -/

/-- A reader with names is one without them, whose failures are named afterwards. -/
def NamesFailures (named : String → List UInt8 → Outcome DecodeError Value)
    (item : List UInt8 → Outcome Failure Value) : Prop :=
  ∀ field bytes, named field bytes = (item bytes).map (.ofFailure field) id

theorem append_render_item (field : String) (index : Nat) :
    s!"{field}[{index}]" = field ++ (Segment.item index).render := by
  simp only [Segment.render, String.append_assoc]
  rfl

theorem append_render_key (field key : String) :
    s!"{field}.{key}" = field ++ (Segment.key key).render := by
  simp only [Segment.render, String.append_assoc]
  rfl

theorem append_render_keyOf (field : String) (index : Nat) :
    s!"{field}.keys[{index}]" = field ++ (Segment.keyOf index).render := by
  simp only [Segment.render, String.append_assoc]
  rfl

theorem named_map {α β : Type} (o : Outcome Cause α) (field : String) (value : α → β) :
    (o.named field).map id value = (o.map .here value).map (.ofFailure field) id := by
  obtain ⟨_ | _, _⟩ := o <;> rfl

section Parts

variable {named : String → List UInt8 → Outcome DecodeError Value}
  {item : List UInt8 → Outcome Failure Value}

theorem NamesFailures.items (h : NamesFailures named item) (field : String) (count index : Nat)
    (acc : List Value) (bytes : List UInt8) :
    readNamedItems named field count index acc bytes =
      (readItems item count index acc bytes).map (.ofFailure field) id := by
  induction count generalizing index acc bytes with
  | zero => rfl
  | succ count ih =>
      rw [readNamedItems, readItems, h, append_render_item]
      obtain ⟨failure | value, rest⟩ := item bytes
      · rfl
      · exact ih ..

theorem NamesFailures.entries (h : NamesFailures named item) (field : String) (count index : Nat)
    (entries : List (String × Value)) (bytes : List UInt8) :
    readNamedEntries named field count index entries bytes =
      (readEntries item count index entries bytes).map (.ofFailure field) id := by
  induction count generalizing index entries bytes with
  | zero => rfl
  | succ count ih =>
      rw [readNamedEntries, readEntries, append_render_keyOf]
      obtain ⟨cause | key, rest⟩ := readString bytes
      · rfl
      dsimp only [Outcome.named, Outcome.map, id]
      rw [h, append_render_key]
      obtain ⟨failure | value, behind⟩ := item rest
      · rfl
      · exact ih ..

end Parts

/-- A value is read with names like the values one level further down. -/
theorem namesFailures_step {limit budget : Nat}
    (hinner : ∀ k, budget = k + 1 → NamesFailures (readNamedWithin limit k)
      (readValueWithin limit k)) :
    NamesFailures (readNamedWithin limit budget) (readValueWithin limit budget) := by
  intro field bytes
  rcases bytes with _ | ⟨first, tail⟩
  · rw [readNamedWithin.eq_def, readValueWithin_nil]
    rfl
  rw [readNamedWithin.eq_def, readValueWithin.eq_def]
  dsimp only
  cases (Marker.ofByte first).shape with
  | reserved => rfl
  | array =>
      cases budget with
      | zero => rfl
      | succ k =>
          dsimp only
          rw [readArrayOf]
          obtain ⟨cause | count, rest⟩ := readArrayHeader (first :: tail)
          · rfl
          · exact (hinner k rfl).items ..
  | map =>
      cases budget with
      | zero => rfl
      | succ k =>
          dsimp only
          rw [readMapOf]
          obtain ⟨cause | count, rest⟩ := readMapHeader (first :: tail)
          · rfl
          · exact (hinner k rfl).entries ..
  | _ => exact named_map ..

theorem namesFailures_readNamedWithin (limit budget : Nat) :
    NamesFailures (readNamedWithin limit budget) (readValueWithin limit budget) := by
  induction budget using Nat.strongRecOn with
  | ind budget ih => exact namesFailures_step fun k hk => ih k (by omega)

/-- **Names do not take part in the reading.** -/
theorem readNamed_eq (limits : Limits) (field : String) (bytes : List UInt8) :
    readNamed limits field bytes = readField limits field bytes :=
  namesFailures_readNamedWithin _ _ field bytes

/-! ### What errors say -/

/-- What a path adds to the name of a field. -/
def suffix (path : List Segment) : String := String.join (path.map Segment.render)

/-- The name of a part begins with the name of the whole. -/
theorem fieldAt_eq_append (root : String) (path : List Segment) :
    fieldAt root path = root ++ suffix path := by
  induction path generalizing root with
  | nil => simp [fieldAt, suffix]
  | cons segment path ih =>
      have hstep : fieldAt root (segment :: path) = fieldAt (root ++ segment.render) path := rfl
      rw [hstep, ih]
      simp [suffix, String.append_assoc]

/-- **Errors are faithful and do not influence the reading.**  Whether the name is extended on the
way or afterwards, under every name the same value is read, or the same part is not read for the
same cause; the bytes that are left are the same, and the name in the error is the given one,
extended by the path that leads to the part. -/
theorem readField_faithful (limits : Limits) (bytes : List UInt8) :
    (∀ field, readNamed limits field bytes = readField limits field bytes) ∧
      ((∃ v left, ∀ field, readField limits field bytes = (.ok v, left)) ∨
        ∃ path cause left, path.length ≤ limits.maxDepth ∧
          (∀ field, readField limits field bytes =
            (.error ⟨field ++ suffix path, .unread cause⟩, left)) ∧
          ∃ place there, there <:+ bytes ∧ LeadsTo limits.maxDepth bytes path place there ∧
            place.Fails limits.maxDepth there cause left) := by
  refine ⟨fun field => readNamed_eq limits field bytes, ?_⟩
  cases hread : readValue limits bytes with
  | mk result left =>
    cases result with
    | ok v => exact .inl ⟨v, left, fun field => by rw [readField, hread]; rfl⟩
    | error failure =>
        obtain ⟨path, cause⟩ := failure
        obtain ⟨place, there, hleads, hfails⟩ := readValueWithin_eq_error_iff.1 hread
        refine .inr ⟨path, cause, left, hleads.length_le, fun field => ?_, place, there,
          hleads.isSuffix, hleads, hfails⟩
        rw [readField, hread, Outcome.map, DecodeError.ofFailure, fieldAt_eq_append]

/-- A string of five bytes, the second item of an array under a key, of which one byte is there. -/
example : readField {} "value" [0x81, 0xA4, 0x75, 0x73, 0x65, 0x72, 0x92, 0x01, 0xD9, 0x05, 0x61] =
    (.error ⟨"value.user[1]", .unread (.shortPayload 5 1)⟩, [0x61]) := by rfl

end HubGateway.MessagePack
