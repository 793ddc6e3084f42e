/-
**What is decoded is in normal form.**

A body may spell a message in many ways: integers and floats in any width, names in any case, keys
twice, an empty text for none.  A decoder keeps nothing of this.  The message it gives carries the
type number of its kind and no empty optional text; the keys of its arguments ascend, and they are
not deeper than the decoder admits.  Hence writing the message and reading it again gives the same
message, however the first body spelled it.

Both ways around, lengths matter: a frame can be written if all lengths are below `2 ^ 32`, and what
is decoded from a body weighs less than the body.

Main definitions:

* `HubGateway.WireFormat.encode?` — the frame of a message, if the format has one for it;
* `HubGateway.WireFormat.IsNormal` — **the normal form**.

Main statements:

* `HubGateway.BinaryFrame.IsFrame.fits`, `HubGateway.TextFrame.fits_of_decode` — what is decoded can
  be written;
* `HubGateway.WireFormat.isNormal_of_decode` — what is decoded is in normal form;
* `HubGateway.WireFormat.decode_normal_form` — **and it is a fixed point of writing and reading**.
-/

import HubGateway.Message.WireFormat
import HubGateway.Proofs.Json.Size
import HubGateway.Proofs.Message.BinaryFrame
import HubGateway.Proofs.Message.Properties
import HubGateway.Proofs.MessagePack.Size

set_option relaxedAutoImplicit false
set_option autoImplicit false

namespace HubGateway

open MessagePack (Encodes EncodesPairs IntegerForm Limits SizeForm StringForm bigEndian)

/-! ### Binary frames -/

namespace BinaryFrame

section Lengths

variable {limits : Limits} {bytes rest : List UInt8}

theorem Begins.length_le {form : List UInt8 → Prop} (h : Begins form bytes rest) :
    rest.length ≤ bytes.length := by
  obtain ⟨p, -, rfl⟩ := h
  simp

/-- A string takes a byte more than its text. -/
theorem BeginsString.length_lt {s : String} (h : BeginsString s bytes rest) :
    (Utf8.encode s).length + rest.length < bytes.length := by
  obtain ⟨p, hp, rfl⟩ := h
  have := hp.length_lt
  rw [List.length_append]
  omega

/-- An id that is there is shorter than the bytes that begin with it. -/
theorem BeginsId.length_lt {id : String} (h : BeginsId (some id) bytes rest) :
    (Utf8.encode id).length < bytes.length := by
  obtain ⟨p, hp, rfl⟩ := h
  cases hp with
  | some hp =>
      have := hp.length_lt
      rw [List.length_append]
      omega

/-- Values that are there are ordered and not too deep, and weigh no more than their bytes. -/
theorem ValuesForm.regular {values : List Value} {p : List UInt8}
    (h : ValuesForm limits values p) :
    Value.OrderedItems values ∧ (∀ v ∈ values, v.depth ≤ limits.maxDepth) ∧
      Value.weightItems values ≤ p.length := by
  induction h with
  | nil => exact ⟨trivial, fun _ h => (List.not_mem_nil h).elim, Nat.zero_le _⟩
  | cons hvalue _ ih =>
      obtain ⟨hordered, hdepth, hweight⟩ := ih
      obtain ⟨containers, hp, hwithin⟩ := hvalue
      have := hp.weight_le
      refine ⟨⟨hp.ordered, hordered⟩, List.forall_mem_cons.2 ⟨hp.depth_le hwithin, hdepth⟩, ?_⟩
      rw [Value.weightItems, List.length_append]
      omega

theorem BeginsValues.regular {values : List Value} (h : BeginsValues limits values bytes rest) :
    Value.OrderedItems values ∧ (∀ v ∈ values, v.depth ≤ limits.maxDepth) ∧
      Value.weightItems values ≤ bytes.length := by
  obtain ⟨p, hp, rfl⟩ := h
  obtain ⟨hordered, hdepth, hweight⟩ := hp.regular
  refine ⟨hordered, hdepth, ?_⟩
  rw [List.length_append]
  omega

end Lengths

section Frames

variable {limits : Limits} {bytes rest : List UInt8} {i : Invocation}

/-- **The invocation of a frame can be written**, if the frame is shorter than `2 ^ 32`. -/
theorem IsFrame.fits (h : IsFrame limits bytes i rest) (hsize : bytes.length < 2 ^ 32) :
    i.Fits := by
  cases h with
  | @intro _ _ id target values _ _ _ _ _ _ _ _ hframe htype hheaders hpairs hid htarget
      harguments hvalues =>
      -- each element begins no further back than the one in front of it
      have := hframe.1.length_le
      have := htype.length_le
      have := hheaders.1.length_le
      have := hpairs.length_le
      have := hid.length_le
      have := htarget.length_lt
      have := harguments.1.length_le
      have := hvalues.regular.2.2
      have hcount := Nat.lt_of_le_of_lt harguments.2 (show _ < 2 ^ 32 by omega)
      have hstring : (Utf8.encode target).length < 2 ^ 32 := by omega
      have hweight : Value.weightItems values < 2 ^ 32 := by omega
      refine ⟨?_, hstring, hcount, Value.fitsItems_of_weight values hweight⟩
      intro text htext
      obtain ⟨rfl, -⟩ := Message.keptText_eq_some_iff.1 htext
      have := hid.length_lt
      omega

theorem IsFrame.regular (h : IsFrame limits bytes i rest) :
    i.messageType = invocationType ∧ i.invocationId ≠ some "" ∧
      Value.OrderedItems i.arguments ∧ ∀ v ∈ i.arguments, v.depth ≤ limits.maxDepth := by
  cases h with
  | intro _ _ _ _ _ _ _ hvalues =>
      exact ⟨rfl, Message.keptText_ne _, hvalues.regular.1, hvalues.regular.2.1⟩

/-- An invocation in normal form is read back from its frame. -/
theorem decode_encode_of_normal (htype : i.messageType = invocationType)
    (hid : i.invocationId ≠ some "") (hfits : i.Fits) (hordered : Value.OrderedItems i.arguments)
    (hdepth : ∀ v ∈ i.arguments, v.depth ≤ limits.maxDepth) :
    decode limits (encode i) = .ok (some (.invocation i)) := by
  have hread := decode_of_isFrame (isFrame_encode hfits hordered hdepth [])
  rwa [List.append_nil, Message.keptText_of_ne hid, ← htype] at hread

end Frames

end BinaryFrame

/-! ### Text frames -/

namespace TextFrame

section Objects

variable {bytes : List UInt8} {members : List (String × Json)} {known : String} {j : Json}

/-- All members of an object together weigh no more than its text. -/
theorem IsObject.weight_le (h : IsObject bytes members) :
    Value.weightEntries (Value.ofJsonMembers members) ≤ bytes.length := by
  obtain ⟨ds, before, p, after, hwrites, -, htrees, -, -, rfl⟩ := h
  rw [List.length_append, List.length_append]
  cases hwrites with
  | emptyObject =>
      cases htrees
      exact Nat.zero_le _
  | object hwrites =>
      have := hwrites.weight_le htrees
      rw [List.length_cons, List.length_append]
      omega

/-- What the members of an object mean is regular, and weighs less than its text. -/
theorem IsObject.regular {name : String} (h : IsObject bytes members) (hmem : (name, j) ∈ members) :
    (Value.ofJson j).Ordered ∧ (Value.ofJson j).depth < Json.maxNesting ∧
      (Value.ofJson j).Textual ∧ (Value.ofJson j).weight ≤ bytes.length := by
  have hweight := h.weight_le
  obtain ⟨ds, before, p, after, hwrites, hdepth, htrees, -, -, rfl⟩ := h
  obtain ⟨hordered, hdepths, htextual⟩ := Json.Document.regular_ofJsonMembers ds htrees
  have hmem : (name, Value.ofJson j) ∈ Value.ofJsonMembers members := by
    rw [Json.ofJsonMembers_eq]
    exact List.mem_map.2 ⟨_, hmem, rfl⟩
  have := Value.depthEntries_le_iff.1 hdepths _ hmem
  have hmember := Value.weight_le_of_mem hmem
  refine ⟨Value.orderedEntries_iff.1 hordered _ hmem, ?_,
    Value.textualEntries_iff.1 htextual _ hmem, ?_⟩
  · rw [Json.Document.depth] at hdepth
    simp only at *
    omega
  · exact Nat.le_trans hmember hweight

end Objects

section Decoded

variable {bytes : List UInt8} {m : Message}

/-- What is decoded comes from the values that an object gives. -/
theorem means_of_decode (h : decode bytes = some m) :
    ∃ members v, IsObject (record bytes) members ∧ GivesProperties members v ∧ Means v m := by
  by_cases hobject : ∃ members, IsObject (record bytes) members
  case neg =>
    rw [decode_of_not_isObject (isRecord_iff.2 rfl) hobject] at h
    cases h
  obtain ⟨members, hobject⟩ := hobject
  have hgives : GivesProperties members
      (.ofMembers (canonicalMembers (Entries.ofList members))) :=
    fun known hknown => givesProperty_lookup members hknown
  exact ⟨members, _, hobject, hgives,
    (decode_eq_some_iff_means (isRecord_iff.2 rfl) hobject hgives).1 h⟩

theorem length_record_le (bytes : List UInt8) : (record bytes).length ≤ bytes.length :=
  (List.takeWhile_sublist _).length_le

theorem OptionalText.ne_empty {j : Option Json} {text : Option String}
    (h : OptionalText j text) : text ≠ some "" := by
  cases h with
  | text hs => exact fun heq => hs (Option.some.inj heq)
  | _ => exact nofun

/-- What a text frame is decoded to is regular. -/
theorem regular_of_decode (h : decode bytes = some m) :
    m.HasOwnType ∧ m.optionalText ≠ some "" ∧ Value.OrderedItems m.arguments ∧
      (∀ v ∈ m.arguments, v.depth ≤ 125) ∧ ∀ v ∈ m.arguments, v.Textual := by
  obtain ⟨members, v, hobject, hgives, hm⟩ := means_of_decode h
  cases hm with
  | opened => exact ⟨rfl, nofun, trivial, nofun, nofun⟩
  | closed _ herror => exact ⟨rfl, herror.ne_empty, trivial, nofun, nofun⟩
  | @invocation id target arguments _ hid _ harguments =>
      refine ⟨rfl, hid.ne_empty, ?_⟩
      have hvalue := hgives "arguments" (by decide)
      generalize v "arguments" = j at harguments hvalue
      cases harguments with
      | missing | null => exact ⟨trivial, nofun, nofun⟩
      | @array items =>
          obtain ⟨name, hmem⟩ := hvalue.mem
          obtain ⟨hordered, hdepth, htextual, -⟩ := hobject.regular hmem
          rw [Value.ofJson, Value.ofJsonItems_eq] at hordered hdepth htextual
          have hdepth : Value.depthItems (items.map Value.ofJson) ≤ 125 := by
            rw [Value.depth, Json.maxNesting] at hdepth
            omega
          exact ⟨hordered, Value.depthItems_le_iff.1 hdepth, Value.textualItems_iff.1 htextual⟩

/-- **The invocation of a text frame can be written**, if the frame is shorter than `2 ^ 32`. -/
theorem fits_of_decode {i : Invocation} (h : decode bytes = some (.invocation i))
    (hsize : bytes.length < 2 ^ 32) : i.Fits := by
  obtain ⟨members, v, hobject, hgives, hm⟩ := means_of_decode h
  have hrecord := length_record_le bytes
  -- a text that a property gives is part of the record
  have hstring : ∀ {known s}, known ∈ knownNames → v known = some (.string s) →
      (Utf8.encode s).length < 2 ^ 32 := by
    intro known s hknown hs
    obtain ⟨name, hmem⟩ := (hs ▸ hgives known hknown).mem
    have hweight := (hobject.regular hmem).2.2.2
    rw [Value.ofJson, Value.weight] at hweight
    omega
  cases hm with
  | @invocation id target arguments _ hid htarget harguments =>
      have hweight : Value.weightItems arguments < 2 ^ 32 := by
        have hvalue := hgives "arguments" (by decide)
        generalize v "arguments" = j at harguments hvalue
        cases harguments with
        | missing | null => exact Nat.two_pow_pos 32
        | @array items =>
            obtain ⟨name, hmem⟩ := hvalue.mem
            have hweight := (hobject.regular hmem).2.2.2
            rw [Value.ofJson, Value.ofJsonItems_eq, Value.weight] at hweight
            omega
      refine ⟨fun text htext => ?_, hstring (by decide) htarget,
        Nat.lt_of_le_of_lt (Value.length_le_weightItems _) hweight,
        Value.fitsItems_of_weight _ hweight⟩
      cases htext
      generalize hj : v "invocationId" = j at hid
      cases hid with
      | text => exact hstring (by decide) hj

/-- A message in normal form is read back from its frame. -/
theorem decode_encode_of_normal (htype : m.HasOwnType) (htext : m.optionalText ≠ some "")
    (hordered : Value.OrderedItems m.arguments) (hdepth : ∀ v ∈ m.arguments, v.depth ≤ 125)
    (htextual : ∀ v ∈ m.arguments, v.Textual) (hfloats : Value.FloatsSurviveItems m.arguments) :
    decode (encode m) = some m := by
  have hprojected : m.projected = m := by
    cases m with
    | invocation m =>
        have harguments := Value.projectedItems_of_textual _ (Value.textualItems_iff.2 htextual)
        have hid : Message.keptText m.invocationId = m.invocationId := Message.keptText_of_ne htext
        simp only [Message.arguments] at harguments
        rw [Message.projected, hid, harguments]
    | openConnection => rfl
    | closeConnection m =>
        have herror : Message.keptText m.error = m.error := Message.keptText_of_ne htext
        rw [Message.projected, herror]
  have hread := decode_encode htype hordered hfloats hdepth []
  rwa [List.append_nil, hprojected] at hread

end Decoded

end TextFrame

/-! ### Both formats -/

namespace WireFormat

/-- The frame of a message; only invocations have a binary one. -/
def encode? : WireFormat → Message → Option (List UInt8)
  | .json, m => some (TextFrame.encode m)
  | .messagePack, .invocation i => some (BinaryFrame.encode i)
  | .messagePack, _ => none

/-- **The normal form** of what a format carries. -/
structure IsNormal (format : WireFormat) (limits : Limits) (m : Message) : Prop where
  /-- The type number is that of the kind. -/
  hasOwnType : m.HasOwnType
  /-- An empty optional text is none. -/
  optionalText : m.optionalText ≠ some ""
  /-- Only invocations travel in binary, and they are not nested too deep. -/
  binary : format = .messagePack →
    ∃ i, m = .invocation i ∧ ∀ v ∈ i.arguments, v.depth ≤ limits.maxDepth
  /-- No blob and no number that is not finite comes out of a text. -/
  textual : format = .json → ∀ v ∈ m.arguments, v.Textual

variable {format : WireFormat} {limits : Limits} {body : List UInt8} {m : Message}

/-- What is decoded is in normal form. -/
theorem isNormal_of_decode (h : format.decode limits body = .ok (some m)) :
    format.IsNormal limits m := by
  cases format with
  | json =>
      obtain ⟨htype, htext, -, -, htextual⟩ := TextFrame.regular_of_decode (Except.ok.inj h)
      exact ⟨htype, htext, nofun, fun _ => htextual⟩
  | messagePack =>
      obtain ⟨i, rest, hframe, rfl⟩ := BinaryFrame.decode_eq_some_iff.1 h
      obtain ⟨htype, htext, -, hdepth⟩ := hframe.regular
      exact ⟨htype, htext, fun _ => ⟨i, rfl, hdepth⟩, nofun⟩

/-- A decoded invocation that is not nested too deep is read back from its binary frame. -/
theorem decode_binary_of_decode {i : Invocation} (hsize : body.length < 2 ^ 32)
    (h : format.decode limits body = .ok (some (.invocation i)))
    (hdepth : ∀ v ∈ i.arguments, v.depth ≤ limits.maxDepth) :
    BinaryFrame.decode limits (BinaryFrame.encode i) = .ok (some (.invocation i)) := by
  have hnormal := isNormal_of_decode h
  cases format with
  | json =>
      have htext := Except.ok.inj h
      exact BinaryFrame.decode_encode_of_normal hnormal.hasOwnType hnormal.optionalText
        (TextFrame.fits_of_decode htext hsize) (TextFrame.regular_of_decode htext).2.2.1 hdepth
  | messagePack =>
      obtain ⟨i, rest, hframe, heq⟩ := BinaryFrame.decode_eq_some_iff.1 h
      cases heq
      exact BinaryFrame.decode_encode_of_normal hnormal.hasOwnType hnormal.optionalText
        (hframe.fits hsize) hframe.regular.2.2.1 hdepth

/-- **What is decoded is in normal form and a fixed point.**  Writing it in the format it came in
and reading it again with the same limits gives the same message, in text frames under the
assumption that its floats are read back from their own texts; and an invocation that came as text
and is not nested too deep also goes through a binary frame unchanged. -/
theorem decode_normal_form (hsize : body.length < 2 ^ 32)
    (h : format.decode limits body = .ok (some m)) :
    format.IsNormal limits m ∧
    ((format = .json → Value.FloatsSurviveItems m.arguments) →
      ∃ frame, format.encode? m = some frame ∧ format.decode limits frame = .ok (some m)) ∧
    ∀ i, m = .invocation i → (∀ v ∈ i.arguments, v.depth ≤ limits.maxDepth) →
      BinaryFrame.decode limits (BinaryFrame.encode i) = .ok (some m) := by
  have hnormal := isNormal_of_decode h
  refine ⟨hnormal, fun hfloats => ?_, ?_⟩
  · cases format with
    | json =>
        obtain ⟨htype, htext, hordered, hdepth, htextual⟩ :=
          TextFrame.regular_of_decode (Except.ok.inj h)
        exact ⟨_, rfl, congrArg Except.ok (TextFrame.decode_encode_of_normal htype htext hordered
          hdepth htextual (hfloats rfl))⟩
    | messagePack =>
        obtain ⟨i, rfl, hdepth⟩ := hnormal.binary rfl
        exact ⟨_, rfl, decode_binary_of_decode hsize h hdepth⟩
  · rintro i rfl hdepth
    exact decode_binary_of_decode hsize h hdepth

/-- An empty id and a blob in a text frame; and in a binary frame a count in two bytes, an id that
is not empty, a number of single precision and a key that is given twice. -/
theorem decode_normal_form_respelled :
    let half : Value := .float ⟨0x3FE0000000000000⟩
    let spelled : Invocation := ⟨invocationType, some "", "t", [.bytes [0x1E], half]⟩
    let i : Invocation := ⟨invocationType, none, "t", [.string "Hg==", half]⟩
    let frame : List UInt8 := [0xDC, 0x00, 0x05, 0xD0, 0x01, 0x80, 0xA1, 0x37, 0xA1, 0x74, 0x91,
      0x82, 0xA1, 0x6B, 0x90, 0xA1, 0x6B, 0xCA, 0x3F, 0x00, 0x00, 0x00, 0xC1]
    let j : Invocation := ⟨invocationType, some "7", "t", [.map [("k", half)]]⟩
    (json.decode ⟨0⟩ (TextFrame.encode (.invocation spelled)) = .ok (some (.invocation i)) ∧
      json.IsNormal ⟨0⟩ (.invocation i) ∧
      (∃ again, json.encode? (.invocation i) = some again ∧
        json.decode ⟨0⟩ again = .ok (some (.invocation i))) ∧
      BinaryFrame.decode ⟨0⟩ (BinaryFrame.encode i) = .ok (some (.invocation i))) ∧
    messagePack.decode ⟨2⟩ frame = .ok (some (.invocation j)) ∧
      messagePack.IsNormal ⟨2⟩ (.invocation j) ∧
      ∃ again, messagePack.encode? (.invocation j) = some again ∧
        messagePack.decode ⟨2⟩ again = .ok (some (.invocation j)) := by
  intro half spelled i frame j
  constructor
  · have hhalf : Json.Survives ⟨0x3FE0000000000000⟩ :=
      Json.survives_of_scanNumeral (by decide) (n := ⟨false, [0], [5], none⟩) (by decide +kernel)
        (by decide +kernel)
    have hread := @TextFrame.decode_encode (.invocation spelled) rfl ⟨trivial, trivial, trivial⟩
      ⟨trivial, hhalf, trivial⟩ (by simp [Message.arguments, spelled, half, Value.depth]) []
    rw [List.append_nil] at hread
    have hdecode : json.decode ⟨0⟩ (TextFrame.encode (.invocation spelled)) =
        .ok (some (.invocation i)) := congrArg Except.ok hread
    have hsize : (TextFrame.encode (.invocation spelled)).length < 2 ^ 32 := by decide +kernel
    obtain ⟨hnormal, hagain, hbinary⟩ := decode_normal_form hsize hdecode
    exact ⟨hdecode, hnormal, hagain fun _ => ⟨trivial, hhalf, trivial⟩,
      hbinary i rfl (by simp [i, half, Value.depth])⟩
  · have hkey : StringForm "k" [0xA1, 0x6B] := @StringForm.intro _ [0xA1] (.short (by decide))
    have hwide : Binary64.ofBinary32 (bigEndian [0x3F, 0x00, 0x00, 0x00]).toUInt32 =
        ⟨0x3FE0000000000000⟩ := by decide +kernel
    have hhalf := @Encodes.single [0x3F, 0x00, 0x00, 0x00] rfl
    rw [hwide] at hhalf
    have hempty : Encodes [[]] (.array []) [0x90] := .array (.short (by decide)) .nil
    have hpairs := EncodesPairs.cons hkey hempty (.cons hkey hhalf .nil)
    have hmap := @Encodes.map _ _ [0x82] _ (.short (by decide)) hpairs
    have hlast : Entries.ofList [("k", Value.array []), ("k", half)] = [("k", half)] := by
      simp [Entries.ofList, Entries.insert, Entries.Before]
    rw [hlast] at hmap
    have harray : BinaryFrame.BeginsArray 5 frame (frame.drop 3) :=
      ⟨⟨_, @SizeForm.Writes.long _ 0xDC [0x00, 0x05] (by decide), rfl⟩, by decide⟩
    have htype : BinaryFrame.BeginsInt32 invocationType (frame.drop 3) (frame.drop 5) :=
      ⟨_, @IntegerForm.signed 0xD0 [0x01] (by decide), rfl⟩
    have hid : BinaryFrame.BeginsId (some "7") (frame.drop 6) (frame.drop 8) :=
      ⟨_, .some (@StringForm.intro "7" [0xA1] (.short (by decide))), rfl⟩
    have hframe : BinaryFrame.IsFrame ⟨2⟩ frame j [0xC1] :=
      .intro harray htype ⟨⟨[0x80], .short (by decide), rfl⟩, by decide⟩ .nil hid
        ⟨_, @StringForm.intro "t" [0xA1] (.short (by decide)), rfl⟩
        ⟨⟨[0x91], .short (by decide), rfl⟩, by decide⟩ (.cons ⟨_, ⟨_, hmap, by decide⟩, rfl⟩ .nil)
    have hdecode : messagePack.decode ⟨2⟩ frame = .ok (some (.invocation j)) :=
      BinaryFrame.decode_of_isFrame hframe
    obtain ⟨hnormal, hagain, -⟩ := decode_normal_form (by decide) hdecode
    refine ⟨hdecode, hnormal, hagain ?_⟩
    intro hformat
    cases hformat

end WireFormat

end HubGateway
