/-
**The grammar of MessagePack values.**

What bytes encode a value is said here without reference to any reader: which first bytes there
are, what stands behind each of them, and how the parts of a container follow its header.  A value
has many encodings, since numbers, lengths and counts may be written wider than necessary and a
map may repeat its keys; where the containers of an encoding stand is therefore a property of the
bytes, not of the value.  A container is known by the path that leads to it, and as many containers
lie around it as its path has steps.

Main definitions:

* `HubGateway.MessagePack.SizeForm` — how a kind of value tells its length or count;
* `HubGateway.MessagePack.IntegerForm`, `StringForm` — the encodings of integers and strings;
* `HubGateway.MessagePack.Encodes` — **the grammar**: `Encodes containers v p` says that the bytes
  `p` encode the value `v`, and that `containers` lead to the containers of `p` in their order;
* `HubGateway.MessagePack.Within` — containers that are nested less deep than a limit.

Main statements:

* `HubGateway.MessagePack.Encodes.length_pos`, `EncodesItems.length_le`, `EncodesPairs.length_le` —
  every value takes a byte, so `n` items take at least `n` bytes and `n` entries at least `2 * n`.
-/

import HubGateway.Proofs.MessagePack.Number

set_option relaxedAutoImplicit false
set_option autoImplicit false

namespace HubGateway.MessagePack

/-! ### Lengths and counts -/

/-- How one kind of value tells its length or count. -/
structure SizeForm where
  /-- The first bytes that tell a size themselves, each with its size. -/
  short : List (UInt8 × Nat)
  /-- The first bytes behind which a size stands, each with the number of its bytes. -/
  long : List (UInt8 × Nat)

/-- The `count` bytes from `first` on, which tell the sizes from zero on. -/
def consecutive (first count : Nat) : List (UInt8 × Nat) :=
  (List.range count).map fun n => ((first + n).toUInt8, n)

namespace SizeForm

/-- The lengths of strings. -/
def string : SizeForm := ⟨consecutive 0xA0 0x20, [(0xD9, 1), (0xDA, 2), (0xDB, 4)]⟩

/-- The lengths of blobs. -/
def blob : SizeForm := ⟨[], [(0xC4, 1), (0xC5, 2), (0xC6, 4)]⟩

/-- The lengths of extensions, the type byte not counted. -/
def extension : SizeForm where
  short := [(0xD4, 1), (0xD5, 2), (0xD6, 4), (0xD7, 8), (0xD8, 16)]
  long := [(0xC7, 1), (0xC8, 2), (0xC9, 4)]

/-- The counts of arrays. -/
def array : SizeForm := ⟨consecutive 0x90 0x10, [(0xDC, 2), (0xDD, 4)]⟩

/-- The counts of maps. -/
def map : SizeForm := ⟨consecutive 0x80 0x10, [(0xDE, 2), (0xDF, 4)]⟩

/-- The bytes that tell a size in a form. -/
inductive Writes (form : SizeForm) : Nat → List UInt8 → Prop
  | short {first : UInt8} {n : Nat} (h : (first, n) ∈ form.short) : Writes form n [first]
  | long {first : UInt8} {number : List UInt8} (h : (first, number.length) ∈ form.long) :
      Writes form (bigEndian number) (first :: number)

theorem Writes.length_pos {form : SizeForm} {n : Nat} {header : List UInt8}
    (h : form.Writes n header) : 0 < header.length := by
  cases h <;> simp

end SizeForm

/-! ### Scalars -/

/-- The first bytes of integers of at least zero, with the width of the number behind them. -/
def unsignedWidths : List (UInt8 × Nat) := [(0xCC, 1), (0xCD, 2), (0xCE, 4), (0xCF, 8)]

/-- The first bytes of integers in two's complement, with the width of the number behind them. -/
def signedWidths : List (UInt8 × Nat) := [(0xD0, 1), (0xD1, 2), (0xD2, 4), (0xD3, 8)]

/-- The bytes that encode an integer, in any of the ten forms. -/
inductive IntegerForm : Int → List UInt8 → Prop
  | positive {n : Nat} (h : n < 0x80) : IntegerForm n [n.toUInt8]
  | negative {n : Nat} (h : n < 0x20) : IntegerForm (n - 0x20) [(0xE0 + n).toUInt8]
  | unsigned {first : UInt8} {number : List UInt8} (h : (first, number.length) ∈ unsignedWidths) :
      IntegerForm (bigEndian number) (first :: number)
  | signed {first : UInt8} {number : List UInt8} (h : (first, number.length) ∈ signedWidths) :
      IntegerForm (twosComplement number.length (bigEndian number)) (first :: number)

theorem IntegerForm.length_pos {i : Int} {p : List UInt8} (h : IntegerForm i p) :
    0 < p.length := by
  cases h <;> simp

/-- The bytes that encode a string: its length and its UTF-8 bytes. -/
inductive StringForm (s : String) : List UInt8 → Prop
  | intro {header : List UInt8} (h : SizeForm.string.Writes (Utf8.encode s).length header) :
      StringForm s (header ++ Utf8.encode s)

theorem StringForm.length_pos {s : String} {p : List UInt8} (h : StringForm s p) :
    0 < p.length := by
  cases h with
  | intro h =>
      have := h.length_pos
      simp only [List.length_append]
      omega

/-! ### Values -/

mutual

/-- `Encodes containers v p`: the bytes `p` encode the value `v`, and the paths `containers` lead to
the containers of `p`, in the order in which these begin. -/
inductive Encodes : List (List Segment) → Value → List UInt8 → Prop
  | nil : Encodes [] .null [0xC0]
  | no : Encodes [] (.bool false) [0xC2]
  | yes : Encodes [] (.bool true) [0xC3]
  | integer {i : Int64} {p : List UInt8} (h : IntegerForm i.toInt p) : Encodes [] (.integer i) p
  /-- A number of single precision is widened. -/
  | single {number : List UInt8} (h : number.length = 4) :
      Encodes [] (.float (.ofBinary32 (bigEndian number).toUInt32)) (0xCA :: number)
  | double {number : List UInt8} (h : number.length = 8) :
      Encodes [] (.float ⟨(bigEndian number).toUInt64⟩) (0xCB :: number)
  | string {s : String} {p : List UInt8} (h : StringForm s p) : Encodes [] (.string s) p
  | blob {header payload : List UInt8} (h : SizeForm.blob.Writes payload.length header) :
      Encodes [] (.bytes payload) (header ++ payload)
  /-- An extension of any type stands for null. -/
  | extension {header payload : List UInt8} {type : UInt8}
      (h : SizeForm.extension.Writes payload.length header) :
      Encodes [] .null (header ++ type :: payload)
  | array {containers : List (List Segment)} {items : List Value} {header body : List UInt8}
      (h : SizeForm.array.Writes items.length header)
      (hbody : EncodesItems 0 containers items body) :
      Encodes ([] :: containers) (.array items) (header ++ body)
  /-- The entries stand in any order, and the last of equal keys wins. -/
  | map {containers : List (List Segment)} {pairs : List (String × Value)}
      {header body : List UInt8} (h : SizeForm.map.Writes pairs.length header)
      (hbody : EncodesPairs containers pairs body) :
      Encodes ([] :: containers) (.map (Entries.ofList pairs)) (header ++ body)

/-- The bytes encode items one after the other, the first of which has the given index. -/
inductive EncodesItems : Nat → List (List Segment) → List Value → List UInt8 → Prop
  | nil {index : Nat} : EncodesItems index [] [] []
  | cons {index : Nat} {inner others : List (List Segment)} {v : Value} {items : List Value}
      {p q : List UInt8} (h : Encodes inner v p)
      (hitems : EncodesItems (index + 1) others items q) :
      EncodesItems index (inner.map (.item index :: ·) ++ others) (v :: items) (p ++ q)

/-- The bytes encode pairs of a key and a value one after the other; repeated keys are no
exception, and neither are the containers in their values. -/
inductive EncodesPairs : List (List Segment) → List (String × Value) → List UInt8 → Prop
  | nil : EncodesPairs [] [] []
  | cons {inner others : List (List Segment)} {key : String} {v : Value}
      {pairs : List (String × Value)} {p q r : List UInt8} (hkey : StringForm key p)
      (h : Encodes inner v q) (hpairs : EncodesPairs others pairs r) :
      EncodesPairs (inner.map (.key key :: ·) ++ others) ((key, v) :: pairs) (p ++ (q ++ r))

end

/-! ### Lower bounds -/

/-- Every value takes a byte. -/
theorem Encodes.length_pos {containers : List (List Segment)} {v : Value} {p : List UInt8}
    (h : Encodes containers v p) : 0 < p.length := by
  cases h with
  | nil | no | yes | single | double => simp
  | integer h => exact h.length_pos
  | string h => exact h.length_pos
  | blob h | extension h | array h | map h =>
      have := h.length_pos
      simp only [List.length_append]
      omega

/-- The items of an array take a byte each. -/
theorem EncodesItems.length_le {index : Nat} {containers : List (List Segment)}
    {items : List Value} {p : List UInt8} (h : EncodesItems index containers items p) :
    items.length ≤ p.length := by
  induction items generalizing index containers p with
  | nil => exact Nat.zero_le _
  | cons v items ih =>
      cases h with
      | cons h hitems =>
          have := h.length_pos
          have := ih hitems
          simp only [List.length_cons, List.length_append]
          omega

/-- The entries of a map take two bytes each. -/
theorem EncodesPairs.length_le {containers : List (List Segment)} {pairs : List (String × Value)}
    {p : List UInt8} (h : EncodesPairs containers pairs p) : pairs.length * 2 ≤ p.length := by
  induction pairs generalizing containers p with
  | nil => simp
  | cons pair pairs ih =>
      cases h with
      | cons hkey h hpairs =>
          have := hkey.length_pos
          have := h.length_pos
          have := ih hpairs
          simp only [List.length_cons, List.length_append]
          omega

/-! ### Nesting -/

/-- Less than `limit` containers lie around each of the containers. -/
def Within (limit : Nat) (containers : List (List Segment)) : Prop :=
  ∀ path ∈ containers, path.length < limit

instance (limit : Nat) (containers : List (List Segment)) : Decidable (Within limit containers) :=
  inferInstanceAs (Decidable (∀ path ∈ containers, path.length < limit))

section Nesting

variable {limit : Nat} {containers others : List (List Segment)} {segment : Segment}

theorem within_nil : Within limit [] := fun _ h => (List.not_mem_nil h).elim

theorem within_append_iff :
    Within limit (containers ++ others) ↔ Within limit containers ∧ Within limit others :=
  List.forall_mem_append

theorem within_mono {limit' : Nat} (hle : limit ≤ limit') (h : Within limit containers) :
    Within limit' containers := fun path hpath => Nat.lt_of_lt_of_le (h path hpath) hle

/-- Seen from the outside, each container has one more around it. -/
theorem within_under_iff :
    Within (limit + 1) (containers.map (segment :: ·)) ↔ Within limit containers := by
  simp [Within]

/-- Around a value itself there is no container. -/
theorem within_cons_nil_iff :
    Within limit ([] :: containers) ↔ 0 < limit ∧ Within limit containers :=
  List.forall_mem_cons

/-- The paths to finitely many containers are shorter than some limit. -/
theorem exists_within (containers : List (List Segment)) : ∃ limit, Within limit containers := by
  induction containers with
  | nil => exact ⟨0, within_nil⟩
  | cons path containers ih =>
      obtain ⟨limit, hlimit⟩ := ih
      refine ⟨max limit (path.length + 1), List.forall_mem_cons.2 ⟨by omega, fun q hq => ?_⟩⟩
      have := hlimit q hq
      omega

/-- A container with too many others around it is found unless all are within the limit. -/
theorem find?_eq_none_iff_within :
    containers.find? (limit ≤ ·.length) = none ↔ Within limit containers := by
  simp [Within, List.find?_eq_none]

/-- The first container with too many others around it, seen from the outside. -/
theorem find?_under :
    (containers.map (segment :: ·)).find? (limit + 1 ≤ ·.length) =
      (containers.find? (limit ≤ ·.length)).map (segment :: ·) := by
  simp [List.find?_map]

theorem find?_under_eq :
    (containers.map (segment :: ·)).find? (·.length = limit + 1) =
      (containers.find? (·.length = limit)).map (segment :: ·) := by
  simp [List.find?_map]

end Nesting

end HubGateway.MessagePack
