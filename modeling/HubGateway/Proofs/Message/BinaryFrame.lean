/-
**What is written as a binary frame is read back.**

The frame of an invocation is decoded to the invocation, whatever stands behind it, as long as no
argument is nested deeper than the limit.  Otherwise the error names the container with which the
nesting first goes beyond the limit.  The type number is that of invocations, and an empty
invocation id counts as none.

What stands in front of the arguments may be written in many ways, of which the encoder takes one.
Decoding gets as far as the arguments in any of them.

Main definitions:

* `HubGateway.Invocation.Fits` — an invocation whose lengths and counts can be written;
* `HubGateway.BinaryFrame.FrontForm` — the bytes in front of the arguments, written in any way;
* `HubGateway.BinaryFrame.plainFront` — the bytes in front of the arguments as they are encoded.

Main statements:

* `HubGateway.BinaryFrame.FrontForm.decode_eq` — decoding a frame gets as far as its arguments;
* `HubGateway.BinaryFrame.isFrame_encode` — what is written is a frame;
* `HubGateway.BinaryFrame.decode_encode_append` — **the round trip**, with its exact limit.
-/

import HubGateway.Proofs.Message.FrameFormat
import HubGateway.Proofs.MessagePack.Written

set_option relaxedAutoImplicit false
set_option autoImplicit false

namespace HubGateway

open MessagePack

/-- Every text, blob and container of the invocation is shorter than `2 ^ 32`. -/
structure Invocation.Fits (m : Invocation) : Prop where
  id : ∀ id ∈ m.invocationId, (Utf8.encode id).length < 2 ^ 32
  target : (Utf8.encode m.target).length < 2 ^ 32
  count : m.arguments.length < 2 ^ 32
  arguments : Value.FitsItems m.arguments

namespace BinaryFrame

/-! ### What stands in front of the arguments -/

theorem HeadersForm.length_le {headers : List (String × String)} {p : List UInt8}
    (h : HeadersForm headers p) : headers.length * 2 ≤ p.length := by
  induction h with
  | nil => simp
  | cons hkey hvalue h ih =>
      have := hkey.length_pos
      have := hvalue.length_pos
      simp only [List.length_cons, List.length_append]
      omega

theorem IdForm.length_pos {id : Option String} {p : List UInt8} (h : IdForm id p) :
    0 < p.length := by
  cases h with
  | none => exact Nat.one_pos
  | some h => exact h.length_pos

/-- The bytes of a frame of five parts up to its arguments, of which there are `n`. -/
inductive FrontForm (id : Option String) (target : String) (n : Nat) : List UInt8 → Prop
  | intro {headers : List (String × String)}
      {frame type count pairs idBytes targetBytes length : List UInt8}
      (hframe : SizeForm.array.Writes 5 frame) (htype : IntegerForm invocationType.toInt type)
      (hcount : SizeForm.map.Writes headers.length count) (hpairs : HeadersForm headers pairs)
      (hid : IdForm id idBytes) (htarget : StringForm target targetBytes)
      (hlength : SizeForm.array.Writes n length) :
      FrontForm id target n
        (frame ++ (type ++ (count ++ (pairs ++ (idBytes ++ (targetBytes ++ length))))))

section Front

variable {limits : Limits} {id : Option String} {target : String} {n : Nat}
  {front left : List UInt8}

/-- The arguments of a frame are reached, if the bytes behind may hold them. -/
theorem FrontForm.reaches (h : FrontForm id target n front) (hle : n ≤ left.length) :
    ∃ atArguments, Reaches limits (front ++ left) (.arguments id target) atArguments ∧
      BeginsArray n atArguments left := by
  cases h with
  | @intro headers frame type count pairs idBytes targetBytes length hframe htype hcount hpairs
      hid htarget hlength =>
      -- no count exceeds what is left: each part of the frame and each header takes its bytes
      have htypeLength := htype.length_pos
      have hcountLength := hcount.length_pos
      have hpairsLength := hpairs.length_le
      have hidLength := hid.length_pos
      have htargetLength := htarget.length_pos
      have hlengthLength := hlength.length_pos
      simp only [List.append_assoc]
      refine ⟨length ++ left, ?_, ⟨length, hlength, rfl⟩, hle⟩
      refine .arguments (.target (.invocationId (.headers (.messageType ⟨⟨frame, hframe, rfl⟩, ?_⟩)
        ⟨type, htype, rfl⟩) ⟨⟨count, hcount, rfl⟩, ?_⟩ ⟨pairs, hpairs, rfl⟩) ⟨idBytes, hid, rfl⟩)
        ⟨targetBytes, htarget, rfl⟩
      · simp only [List.length_append]
        omega
      · rw [List.length_append]
        omega

/-- **Decoding a frame gets as far as its arguments.** -/
theorem FrontForm.decode_eq (h : FrontForm id target n front) (hle : n ≤ left.length) :
    decode limits (front ++ left) =
      (readArguments limits n 0 [] left).map fun arguments =>
        some (.invocation ⟨invocationType, Message.keptText id, target, arguments⟩) := by
  obtain ⟨atArguments, hreaches, hcount⟩ := h.reaches hle
  rw [decode_of_reaches_arguments hreaches, readFromArguments, readArrayHeader_eq_ok_iff.2 hcount,
    Outcome.named_ok, Message.bind_nonEmpty]
  simp only
  cases readArguments limits n 0 [] left <;> rfl

end Front

/-! ### What is written -/

/-- What is written in front of `n` arguments: no headers, and all lengths in their shortest
forms. -/
def plainFront (id : Option String) (target : String) (n : Nat) : List UInt8 :=
  arrayHeader 5 ++ (writeInteger 1 ++ (mapHeader 0 ++ (writeId id ++ (writeString target ++
    arrayHeader n))))

theorem idForm_writeId {id : Option String}
    (h : ∀ text ∈ id, (Utf8.encode text).length < 2 ^ 32) : IdForm id (writeId id) := by
  cases id with
  | none => exact .none
  | some text => exact .some (stringForm_writeString (h text rfl))

theorem frontForm_plainFront {id : Option String} {target : String} {n : Nat}
    (hid : ∀ text ∈ id, (Utf8.encode text).length < 2 ^ 32)
    (htarget : (Utf8.encode target).length < 2 ^ 32) (hcount : n < 2 ^ 32) :
    FrontForm id target n (plainFront id target n) := by
  let headers : List (String × String) := []
  have hheaders : SizeForm.map.Writes headers.length (mapHeader 0) := writes_mapHeader (by decide)
  have htype : IntegerForm invocationType.toInt (writeInteger 1) :=
    integerForm_writeInteger (by decide) (by decide)
  have hfront := FrontForm.intro (writes_arrayHeader (by decide)) htype hheaders .nil
    (idForm_writeId hid) (stringForm_writeString htarget) (writes_arrayHeader hcount)
  simpa only [plainFront, List.nil_append] using hfront

theorem encode_eq (m : Invocation) :
    encode m = plainFront m.invocationId m.target m.arguments.length ++ writeItems m.arguments := by
  simp only [encode, plainFront, List.append_assoc]

section Written

variable {limits : Limits} {m : Invocation}

theorem writeItems_append (front back : List Value) :
    writeItems (front ++ back) = writeItems front ++ writeItems back := by
  induction front with
  | nil => rfl
  | cons v front ih => rw [List.cons_append, writeItems, writeItems, ih, List.append_assoc]

theorem length_le_writeItems {items : List Value} (hfits : Value.FitsItems items)
    (hordered : Value.OrderedItems items) (rest : List UInt8) :
    items.length ≤ (writeItems items ++ rest).length := by
  have := (encodesItems_writeItems items 0 hfits hordered).length_le
  rw [List.length_append]
  omega

/-- Each of the arguments is written as one of its encodings. -/
theorem encodes_of_mem_arguments (hfits : m.Fits) (hordered : Value.OrderedItems m.arguments)
    {v : Value} (hv : v ∈ m.arguments) : Encodes v.containers v (writeValue v) := by
  have hfits := hfits.arguments
  generalize m.arguments = items at hfits hordered hv
  induction items with
  | nil => cases hv
  | cons item items ih =>
      rcases List.mem_cons.1 hv with rfl | hv
      · exact encodes_writeValue v hfits.1 hordered.1
      · exact ih hfits.2 hordered.2 hv

/-- Values are there where they are written, unless one is nested too deep. -/
theorem beginsValues_writeItems {items : List Value}
    (hencodes : ∀ v ∈ items, Encodes v.containers v (writeValue v))
    (hdepth : ∀ v ∈ items, v.depth ≤ limits.maxDepth) (rest : List UInt8) :
    BeginsValues limits items (writeItems items ++ rest) rest := by
  induction items with
  | nil => exact .nil
  | cons v items ih =>
      obtain ⟨hv, hitems⟩ := List.forall_mem_cons.1 hencodes
      obtain ⟨hvdepth, hdepths⟩ := List.forall_mem_cons.1 hdepth
      have hwithin := (Value.within_containers_iff v _).2 hvdepth
      rw [writeItems, List.append_assoc]
      exact .cons ⟨_, ⟨_, hv, hwithin⟩, rfl⟩ (ih hitems hdepths)

/-- **What is written is a frame**, unless an argument is nested too deep. -/
theorem isFrame_encode (hfits : m.Fits) (hordered : Value.OrderedItems m.arguments)
    (hdepth : ∀ v ∈ m.arguments, v.depth ≤ limits.maxDepth) (rest : List UInt8) :
    IsFrame limits (encode m ++ rest)
      ⟨invocationType, Message.keptText m.invocationId, m.target, m.arguments⟩ rest := by
  have hfront := frontForm_plainFront hfits.id hfits.target hfits.count
  obtain ⟨atArguments, hreaches, hcount⟩ :=
    hfront.reaches (length_le_writeItems hfits.arguments hordered rest)
  have hvalues := beginsValues_writeItems
    (fun v => encodes_of_mem_arguments hfits hordered) hdepth rest
  rw [encode_eq, List.append_assoc]
  exact hreaches.isFrame hcount hvalues

/-- Among values of which one is nested too deep there is a first one, and in it a first container
that goes beyond the limit. -/
theorem exists_first_deep {items : List Value} (h : ∃ v ∈ items, limits.maxDepth < v.depth) :
    ∃ front v back path, items = front ++ v :: back ∧
      (∀ u ∈ front, u.depth ≤ limits.maxDepth) ∧
      v.containers.find? (limits.maxDepth ≤ ·.length) = some path := by
  have hfind : (items.find? fun v => limits.maxDepth < v.depth).isSome := by
    simpa only [List.find?_isSome, decide_eq_true_eq] using h
  obtain ⟨v, hv⟩ := Option.isSome_iff_exists.1 hfind
  obtain ⟨hdeep, front, back, hitems, hfront⟩ := List.find?_eq_some_iff_append.1 hv
  have hpath : ¬ Within limits.maxDepth v.containers := by
    rw [Value.within_containers_iff, Nat.not_le]
    exact of_decide_eq_true hdeep
  rw [← find?_eq_none_iff_within, ← ne_eq, Option.ne_none_iff_exists'] at hpath
  obtain ⟨path, hpath⟩ := hpath
  exact ⟨front, v, back, path, hitems, by simpa using hfront, hpath⟩

/-- The first argument that is nested too deep ends the decoding. -/
theorem decode_encode_of_deep (hfits : m.Fits) (hordered : Value.OrderedItems m.arguments)
    {front back : List Value} {v : Value} {path : List Segment}
    (harguments : m.arguments = front ++ v :: back)
    (hfront : ∀ u ∈ front, u.depth ≤ limits.maxDepth)
    (hpath : v.containers.find? (limits.maxDepth ≤ ·.length) = some path) (rest : List UInt8) :
    decode limits (encode m ++ rest) =
      .error ⟨fieldAt s!"arguments[{front.length}]" path, .unread (.tooDeep limits.maxDepth)⟩ := by
  have hform := frontForm_plainFront hfits.id hfits.target hfits.count
  have hle := length_le_writeItems hfits.arguments hordered rest
  have hencodes := fun u => encodes_of_mem_arguments (v := u) hfits hordered
  rw [encode_eq, List.append_assoc, hform.decode_eq hle]
  rw [harguments] at hencodes ⊢
  -- the arguments in front are read, and this one is not
  obtain ⟨hencodesFront, hencodesBack⟩ := List.forall_mem_append.1 hencodes
  have hbegins := beginsValues_writeItems hencodesFront hfront (writeItems (v :: back) ++ rest)
  obtain ⟨left, hleft⟩ := readField_of_beyond (hencodesBack v List.mem_cons_self) hpath
    s!"arguments[{front.length}]" (writeItems back ++ rest)
  rw [List.length_append, List.length_cons, writeItems_append, List.append_assoc,
    readArguments_of_begins hbegins, readArguments, Nat.zero_add, writeItems, List.append_assoc,
    hleft]
  rfl

end Written

/-! ### Frames -/

/-- **A binary frame is read back, up to the nesting limit.**  When an argument is nested deeper,
the error names the first container with as many others of its argument around it as the limit
allows in all. -/
theorem decode_encode_append (limits : Limits) {m : Invocation} (hfits : m.Fits)
    (hordered : Value.OrderedItems m.arguments) (rest : List UInt8) :
    ((∀ v ∈ m.arguments, v.depth ≤ limits.maxDepth) →
      decode limits (encode m ++ rest) = .ok (some (.invocation { m with
        messageType := invocationType, invocationId := Message.keptText m.invocationId }))) ∧
    ((∃ v ∈ m.arguments, limits.maxDepth < v.depth) →
      ∃ front v back path e, m.arguments = front ++ v :: back ∧
        (∀ u ∈ front, u.depth ≤ limits.maxDepth) ∧
        v.containers.find? (·.length = limits.maxDepth) = some path ∧
        decode limits (encode m ++ rest) = .error e ∧
        e.field = fieldAt s!"arguments[{front.length}]" path ∧
        e.cause.message = s!"nesting exceeds maximum depth of {limits.maxDepth}") := by
  constructor
  · intro hdepth
    exact decode_of_isFrame (isFrame_encode hfits hordered hdepth rest)
  · intro hdeep
    obtain ⟨front, v, back, path, harguments, hfront, hpath⟩ := exists_first_deep hdeep
    have herror := decode_encode_of_deep hfits hordered harguments hfront hpath rest
    rw [Value.find?_containers] at hpath
    exact ⟨front, v, back, path, _, harguments, hfront, hpath, herror, rfl, rfl⟩

/-- An argument of three levels is read with three, and refused at its second one with one.  An id
is kept, and an empty one is not. -/
theorem decode_encode_append_nested :
    let deep : Value := .array [.map [("k", .array [])], .null]
    let m : Invocation := ⟨7, some "a1", "send", [.float ⟨0x7FF8000000000001⟩, deep]⟩
    let blank : Invocation := { m with invocationId := some "" }
    m.Fits ∧ blank.Fits ∧ Value.OrderedItems m.arguments ∧
      decode ⟨3⟩ (encode m ++ [0x2A]) = .ok (some (.invocation { m with messageType := 1 })) ∧
      decode ⟨3⟩ (encode blank ++ [0x2A]) =
        .ok (some (.invocation { m with messageType := 1, invocationId := none })) ∧
      ∃ e, decode ⟨1⟩ (encode m ++ [0x2A]) = .error e ∧ e.field = "arguments[1][0]" ∧
        e.cause.message = "nesting exceeds maximum depth of 1" := by
  intro deep m blank
  have hkey : Value.FitsEntries [("k", .array [])] := ⟨by decide, ⟨by decide, trivial⟩, trivial⟩
  have harguments : Value.FitsItems m.arguments :=
    ⟨trivial, ⟨by decide, ⟨by decide, hkey⟩, trivial, trivial⟩, trivial⟩
  have hfits : m.Fits := ⟨by rintro _ ⟨⟩; decide, by decide, by decide, harguments⟩
  have hblank : blank.Fits := ⟨by rintro _ ⟨⟩; decide, by decide, by decide, harguments⟩
  have hordered : Value.OrderedItems m.arguments := by
    simp [m, deep, Value.OrderedItems, Value.Ordered, Value.OrderedEntries, Entries.Sorted]
  have hshallow : ∀ v ∈ m.arguments, v.depth ≤ 3 := by
    simp [m, deep, Value.depth, Value.depthItems, Value.depthEntries]
  have hdeep : ∃ v ∈ m.arguments, 1 < v.depth := ⟨deep, by simp [m], by decide⟩
  refine ⟨hfits, hblank, hordered, (decode_encode_append ⟨3⟩ hfits hordered [0x2A]).1 hshallow,
    (decode_encode_append ⟨3⟩ hblank hordered [0x2A]).1 hshallow, ?_⟩
  obtain ⟨front, v, back, path, e, harguments, -, hpath, he, hfield, hmessage⟩ :=
    (decode_encode_append ⟨1⟩ hfits hordered [0x2A]).2 hdeep
  refine ⟨e, he, ?_, hmessage⟩
  rcases front with - | ⟨first, - | ⟨second, more⟩⟩
  · cases harguments
    cases hpath
  · cases harguments
    cases hpath
    exact hfield
  · simp [m] at harguments

end BinaryFrame

end HubGateway
