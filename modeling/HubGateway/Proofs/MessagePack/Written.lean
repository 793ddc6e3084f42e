/-
**What is written is an encoding.**

The writer chooses for every number, length and count the narrowest form that holds it, and puts the
entries of a map in the order of their keys.  Its output therefore belongs to the grammar, and its
containers are those of the value.  A value can be written if its texts, blobs and containers are
shorter than `2 ^ 32`, which is as far as a length reaches.

Main definitions:

* `HubGateway.Value.Fits` — every length and count in a value is below `2 ^ 32`;
* `HubGateway.Value.containers` — the paths to the containers of a value, in the order in which
  they are written.

Main statements:

* `HubGateway.Value.within_containers_iff` — the paths are as long as the value is deep;
* `HubGateway.Value.find?_containers` — the first container beyond a limit lies just beyond it;
* `HubGateway.MessagePack.encodes_writeValue` — **what is written for a value encodes it**.
-/

import HubGateway.Proofs.MessagePack.Grammar

set_option relaxedAutoImplicit false
set_option autoImplicit false

namespace HubGateway

open MessagePack

/-! ### Values that can be written -/

namespace Value

mutual

/-- Every text, blob and container in a value is shorter than `2 ^ 32`. -/
def Fits : Value → Prop
  | .string value => (Utf8.encode value).length < 2 ^ 32
  | .bytes value => value.length < 2 ^ 32
  | .array items => items.length < 2 ^ 32 ∧ FitsItems items
  | .map entries => entries.length < 2 ^ 32 ∧ FitsEntries entries
  | _ => True

/-- All items of a sequence can be written. -/
def FitsItems : List Value → Prop
  | [] => True
  | item :: items => item.Fits ∧ FitsItems items

/-- The keys and values of all entries of a map can be written. -/
def FitsEntries : List (String × Value) → Prop
  | [] => True
  | (key, value) :: entries =>
    (Utf8.encode key).length < 2 ^ 32 ∧ value.Fits ∧ FitsEntries entries

end

mutual

/-- The paths to the containers of a value: a container before those in it, and the items and
entries in their order. -/
def containers : Value → List (List Segment)
  | .array items => [] :: containersItems 0 items
  | .map entries => [] :: containersEntries entries
  | _ => []

/-- The paths to the containers of items, the first of which has the given index. -/
def containersItems : Nat → List Value → List (List Segment)
  | _, [] => []
  | index, item :: items =>
    item.containers.map (.item index :: ·) ++ containersItems (index + 1) items

/-- The paths to the containers of the values of entries. -/
def containersEntries : List (String × Value) → List (List Segment)
  | [] => []
  | (key, value) :: entries =>
    value.containers.map (.key key :: ·) ++ containersEntries entries

end

/-! ### Containers and depth -/

mutual

/-- As many containers lie within one another as the value is deep. -/
theorem within_containers_iff (v : Value) (limit : Nat) :
    Within limit v.containers ↔ v.depth ≤ limit := by
  cases v with
  | array items =>
      -- the array itself needs one level, its items what is left of them
      rw [containers, depth, within_cons_nil_iff]
      cases limit with
      | zero => simp
      | succ limit => simp [within_containersItems_iff items limit 0]
  | map entries =>
      rw [containers, depth, within_cons_nil_iff]
      cases limit with
      | zero => simp
      | succ limit => simp [within_containersEntries_iff entries limit]
  | _ => simp [containers, depth, within_nil]

theorem within_containersItems_iff (items : List Value) (limit index : Nat) :
    Within (limit + 1) (containersItems index items) ↔ depthItems items ≤ limit := by
  cases items with
  | nil => simp [containersItems, depthItems, within_nil]
  | cons item items =>
      rw [containersItems, depthItems, within_append_iff, within_under_iff, max_le_iff,
        within_containers_iff item limit, within_containersItems_iff items limit]

theorem within_containersEntries_iff (entries : List (String × Value)) (limit : Nat) :
    Within (limit + 1) (containersEntries entries) ↔ depthEntries entries ≤ limit := by
  match entries with
  | [] => simp [containersEntries, depthEntries, within_nil]
  | (key, value) :: entries =>
      rw [containersEntries, depthEntries, within_append_iff, within_under_iff, max_le_iff,
        within_containers_iff value limit, within_containersEntries_iff entries limit]

end

mutual

/-- The first container with at least `limit` others around it has exactly `limit`, since those
around it come before it. -/
theorem find?_containers (v : Value) (limit : Nat) :
    v.containers.find? (limit ≤ ·.length) = v.containers.find? (·.length = limit) := by
  cases v with
  | array items =>
      cases limit with
      | zero => rfl
      | succ limit => simpa [containers] using find?_containersItems items limit 0
  | map entries =>
      cases limit with
      | zero => rfl
      | succ limit => simpa [containers] using find?_containersEntries entries limit
  | _ => rfl

theorem find?_containersItems (items : List Value) (limit index : Nat) :
    (containersItems index items).find? (limit + 1 ≤ ·.length) =
      (containersItems index items).find? (·.length = limit + 1) := by
  cases items with
  | nil => rfl
  | cons item items =>
      simp only [containersItems, List.find?_append, find?_under, find?_under_eq,
        find?_containers item limit, find?_containersItems items limit]

theorem find?_containersEntries (entries : List (String × Value)) (limit : Nat) :
    (containersEntries entries).find? (limit + 1 ≤ ·.length) =
      (containersEntries entries).find? (·.length = limit + 1) := by
  match entries with
  | [] => rfl
  | (key, value) :: entries =>
      simp only [containersEntries, List.find?_append, find?_under, find?_under_eq,
        find?_containers value limit, find?_containersEntries entries limit]

end

end Value

/-! ### Headers and integers -/

namespace MessagePack

theorem mem_consecutive {first count n : Nat} (h : n < count) :
    ((first + n).toUInt8, n) ∈ consecutive first count :=
  List.mem_map.2 ⟨n, List.mem_range.2 h, rfl⟩

/-- A size behind a first byte, in as many bytes as the form says. -/
theorem SizeForm.writes_behind {form : SizeForm} {first : UInt8} {width n : Nat}
    (h : (first, width) ∈ form.long) (hn : n < 256 ^ width) :
    form.Writes n (first :: numberBytes width n) := by
  have hwrites : form.Writes (bigEndian (numberBytes width n)) (first :: numberBytes width n) :=
    .long (by rwa [length_numberBytes])
  rwa [bigEndian_numberBytes hn] at hwrites

theorem writes_stringHeader {n : Nat} (h : n < 2 ^ 32) :
    SizeForm.string.Writes n (stringHeader n) := by
  unfold stringHeader
  split
  next hn => exact .short (mem_consecutive hn)
  split
  next hn => exact SizeForm.writes_behind (by decide) hn
  split
  next hn => exact SizeForm.writes_behind (by decide) hn
  next => exact SizeForm.writes_behind (by decide) h

theorem writes_blobHeader {n : Nat} (h : n < 2 ^ 32) : SizeForm.blob.Writes n (blobHeader n) := by
  unfold blobHeader
  split
  next hn => exact SizeForm.writes_behind (by decide) hn
  split
  next hn => exact SizeForm.writes_behind (by decide) hn
  next => exact SizeForm.writes_behind (by decide) h

theorem writes_arrayHeader {n : Nat} (h : n < 2 ^ 32) :
    SizeForm.array.Writes n (arrayHeader n) := by
  unfold arrayHeader
  split
  next hn => exact .short (mem_consecutive hn)
  split
  next hn => exact SizeForm.writes_behind (by decide) hn
  next => exact SizeForm.writes_behind (by decide) h

theorem writes_mapHeader {n : Nat} (h : n < 2 ^ 32) : SizeForm.map.Writes n (mapHeader n) := by
  unfold mapHeader
  split
  next hn => exact .short (mem_consecutive hn)
  split
  next hn => exact SizeForm.writes_behind (by decide) hn
  next => exact SizeForm.writes_behind (by decide) h

/-- An integer of at least zero behind a first byte. -/
theorem IntegerForm.of_unsigned {first : UInt8} {width n : Nat}
    (h : (first, width) ∈ unsignedWidths) (hn : n < 256 ^ width) :
    IntegerForm n (first :: numberBytes width n) := by
  have hform : IntegerForm (bigEndian (numberBytes width n)) (first :: numberBytes width n) :=
    .unsigned (by rwa [length_numberBytes])
  rwa [bigEndian_numberBytes hn] at hform

/-- An integer below zero in two's complement behind a first byte. -/
theorem IntegerForm.of_signed {first : UInt8} {width : Nat} {i : Int}
    (h : (first, width) ∈ signedWidths) (hneg : i < 0) (hlow : -(256 ^ width : Nat) ≤ 2 * i) :
    IntegerForm i (first :: numberBytes width (i + (256 ^ width : Nat)).toNat) := by
  have hpos : 0 ≤ i + (256 ^ width : Nat) := by omega
  obtain ⟨n, hn⟩ := Int.eq_ofNat_of_zero_le hpos
  have hlt : n < 256 ^ width := by omega
  have hvalue : twosComplement width n = i := by
    rw [twosComplement, Nat.pow_eq, if_neg (by omega)]
    omega
  have hform : IntegerForm (twosComplement (numberBytes width n).length
      (bigEndian (numberBytes width n))) (first :: numberBytes width n) :=
    .signed (by rwa [length_numberBytes])
  rw [length_numberBytes, bigEndian_numberBytes hlt, hvalue] at hform
  rwa [hn, Int.toNat_natCast]

theorem integerForm_writeNatural {n : Nat} (h : n < 2 ^ 64) :
    IntegerForm n (writeNatural n) := by
  unfold writeNatural
  split
  next hn => exact .positive hn
  split
  next hn => exact .of_unsigned (by decide) hn
  split
  next hn => exact .of_unsigned (by decide) hn
  split
  next hn => exact .of_unsigned (by decide) hn
  next => exact .of_unsigned (by decide) h

theorem integerForm_writeNegative {i : Int} (hneg : i < 0) (hlow : -2 ^ 63 ≤ i) :
    IntegerForm i (writeNegative i) := by
  unfold writeNegative
  split
  next hi =>
    -- one byte: the five lowest bits count from -32
    have hform := IntegerForm.negative (show (i + 0x20).toNat < 0x20 by omega)
    rwa [show ((i + 0x20).toNat : Int) - 0x20 = i by omega,
      show 0xE0 + (i + 0x20).toNat = (i + 0x100).toNat by omega] at hform
  split
  next hi => exact .of_signed (by decide) hneg (by omega)
  split
  next hi => exact .of_signed (by decide) hneg (by omega)
  split
  next hi => exact .of_signed (by decide) hneg (by omega)
  next => exact .of_signed (by decide) hneg (by omega)

/-- An integer is written in one of its forms. -/
theorem integerForm_writeInteger {i : Int} (hlow : -2 ^ 63 ≤ i) (hhigh : i < 2 ^ 64) :
    IntegerForm i (writeInteger i) := by
  unfold writeInteger
  split
  next hneg => exact integerForm_writeNegative hneg hlow
  next hpos =>
    have hform := integerForm_writeNatural (show i.toNat < 2 ^ 64 by omega)
    rwa [Int.toNat_of_nonneg (by omega)] at hform

/-! ### Values -/

theorem stringForm_writeString {s : String} (h : (Utf8.encode s).length < 2 ^ 32) :
    StringForm s (writeString s) :=
  .intro (writes_stringHeader h)

/-- A number is written with double precision. -/
theorem encodes_writeDouble (x : Binary64) : Encodes [] (.float x) (writeDouble x) := by
  have hform := Encodes.double (length_numberBytes 8 x.bits.toNat)
  rw [bigEndian_numberBytes (by simpa using x.bits.toNat_lt)] at hform
  simpa [writeDouble] using hform

mutual

/-- **What is written for a value encodes it**, with the containers of the value. -/
theorem encodes_writeValue (v : Value) (hfits : v.Fits) (hordered : v.Ordered) :
    Encodes v.containers v (writeValue v) := by
  match v with
  | .null => exact .nil
  | .bool false => exact .no
  | .bool true => exact .yes
  | .integer i =>
      have hlow := i.le_toInt
      have hhigh := i.toInt_lt
      exact .integer (integerForm_writeInteger (by omega) (by omega))
  | .float x => exact encodes_writeDouble x
  | .string s => exact .string (stringForm_writeString hfits)
  | .bytes payload => exact .blob (writes_blobHeader hfits)
  | .array items =>
      exact .array (writes_arrayHeader hfits.1)
        (encodesItems_writeItems items 0 hfits.2 hordered)
  | .map entries =>
      -- the keys ascend, so that no entry replaces another one
      have hmap := Encodes.map (writes_mapHeader hfits.1)
        (encodesPairs_writeEntries entries hfits.2 hordered.2)
      rwa [Entries.ofList_of_sorted hordered.1] at hmap

theorem encodesItems_writeItems (items : List Value) (index : Nat)
    (hfits : Value.FitsItems items) (hordered : Value.OrderedItems items) :
    EncodesItems index (Value.containersItems index items) items (writeItems items) := by
  match items with
  | [] => exact .nil
  | item :: items =>
      exact .cons (encodes_writeValue item hfits.1 hordered.1)
        (encodesItems_writeItems items (index + 1) hfits.2 hordered.2)

theorem encodesPairs_writeEntries (entries : List (String × Value))
    (hfits : Value.FitsEntries entries) (hordered : Value.OrderedEntries entries) :
    EncodesPairs (Value.containersEntries entries) entries (writeEntries entries) := by
  match entries with
  | [] => exact .nil
  | (key, value) :: entries =>
      have hpair := EncodesPairs.cons (stringForm_writeString hfits.1)
        (encodes_writeValue value hfits.2.1 hordered.1)
        (encodesPairs_writeEntries entries hfits.2.2 hordered.2)
      rwa [← List.append_assoc] at hpair

end

end MessagePack

end HubGateway
