/-
**A frame that is cut off is refused.**

A frame tells where it ends: the same bytes hold one invocation, and one rest stands behind it.
What is decoded does not change when more bytes come, so no beginning of a frame can be decoded
already, neither to the frame's invocation nor to another one nor to none.  A beginning of what is
refused is refused in the same way.  It follows that a frame that is written and then cut off
anywhere, be it in front of its first byte or deep in its arguments, is refused under every limit,
with the name of the element at which it breaks off.

Main statements:

* `HubGateway.BinaryFrame.IsFrame.unique` — a frame holds one invocation and has one end;
* `HubGateway.BinaryFrame.decode_of_isFrame_append` — a beginning of a frame is refused;
* `HubGateway.BinaryFrame.decode_cut_off` — **what is written and cut off is refused**.
-/

import HubGateway.Proofs.Message.BinaryFrame

set_option relaxedAutoImplicit false
set_option autoImplicit false

namespace HubGateway

open MessagePack

/-- A read has one result. -/
theorem MessagePack.Outcome.ok_unique {ε α : Type} {o : Outcome ε α} {a a' : α}
    {rest rest' : List UInt8} (h : o = (.ok a, rest)) (h' : o = (.ok a', rest')) :
    a = a' ∧ rest = rest' := by
  rw [h] at h'
  simpa using h'

namespace BinaryFrame

/-! ### A frame has one end -/

section Unique

variable {limits : Limits} {bytes rest rest' : List UInt8}

theorem BeginsArray.unique {n n' : Nat} (h : BeginsArray n bytes rest)
    (h' : BeginsArray n' bytes rest') : n = n' ∧ rest = rest' :=
  Outcome.ok_unique (readArrayHeader_eq_ok_iff.2 h) (readArrayHeader_eq_ok_iff.2 h')

theorem BeginsMap.unique {n n' : Nat} (h : BeginsMap n bytes rest)
    (h' : BeginsMap n' bytes rest') : n = n' ∧ rest = rest' :=
  Outcome.ok_unique (readMapHeader_eq_ok_iff.2 h) (readMapHeader_eq_ok_iff.2 h')

theorem BeginsInt32.unique {i i' : Int32} (h : BeginsInt32 i bytes rest)
    (h' : BeginsInt32 i' bytes rest') : i = i' ∧ rest = rest' :=
  Outcome.ok_unique (readInt32_eq_ok_iff.2 h) (readInt32_eq_ok_iff.2 h')

theorem BeginsString.unique {s s' : String} (h : BeginsString s bytes rest)
    (h' : BeginsString s' bytes rest') : s = s' ∧ rest = rest' :=
  Outcome.ok_unique (readString_eq_ok_iff.2 h) (readString_eq_ok_iff.2 h')

theorem BeginsId.unique {id id' : Option String} (h : BeginsId id bytes rest)
    (h' : BeginsId id' bytes rest') : id = id' ∧ rest = rest' :=
  Outcome.ok_unique (readOptionalString_eq_ok_iff.2 h) (readOptionalString_eq_ok_iff.2 h')

theorem BeginsValue.unique {v v' : Value} (h : BeginsValue limits v bytes rest)
    (h' : BeginsValue limits v' bytes rest') : v = v' ∧ rest = rest' :=
  Outcome.ok_unique (readValue_eq_ok_iff.2 h) (readValue_eq_ok_iff.2 h')

/-- As many headers end at the same place. -/
theorem BeginsHeaders.unique {headers headers' : List (String × String)}
    (h : BeginsHeaders headers bytes rest) (h' : BeginsHeaders headers' bytes rest')
    (hlength : headers.length = headers'.length) : rest = rest' := by
  -- both are what is left when so many headers are passed over
  have hskip := skipHeaders_of_begins h 0 0
  rw [hlength, skipHeaders_of_begins h' 0 0] at hskip
  simpa only [skipHeaders, Except.ok.injEq, eq_comm] using hskip

/-- As many values are the same and end at the same place. -/
theorem BeginsValues.unique {values values' : List Value}
    (h : BeginsValues limits values bytes rest) (h' : BeginsValues limits values' bytes rest')
    (hlength : values.length = values'.length) : values = values' ∧ rest = rest' := by
  obtain ⟨p, h, rfl⟩ := h
  obtain ⟨q, h', hbytes⟩ := h'
  induction h generalizing values' q with
  | nil =>
      cases h' with
      | nil => exact ⟨rfl, hbytes⟩
      | cons => simp at hlength
  | cons hvalue _ ih =>
      cases h' with
      | nil => simp at hlength
      | cons hvalue' h' =>
          rw [List.append_assoc, List.append_assoc] at hbytes
          obtain ⟨rfl, hbytes⟩ := BeginsValue.unique ⟨_, hvalue, rfl⟩ ⟨_, hvalue', hbytes⟩
          obtain ⟨rfl, rfl⟩ := ih (by simpa using hlength) _ h' hbytes
          exact ⟨rfl, rfl⟩

/-- **A frame holds one invocation and has one end.** -/
theorem IsFrame.unique {i i' : Invocation} (h : IsFrame limits bytes i rest)
    (h' : IsFrame limits bytes i' rest') : i = i' ∧ rest = rest' := by
  cases h with
  | intro hframe htype hheaders hpairs hid htarget harguments hvalues =>
  cases h' with
  | intro hframe' htype' hheaders' hpairs' hid' htarget' harguments' hvalues' =>
      -- each element begins where the one in front of it ends
      obtain ⟨-, rfl⟩ := hframe.unique hframe'
      obtain ⟨-, rfl⟩ := htype.unique htype'
      obtain ⟨hcount, rfl⟩ := hheaders.unique hheaders'
      obtain rfl := hpairs.unique hpairs' hcount
      obtain ⟨rfl, rfl⟩ := hid.unique hid'
      obtain ⟨rfl, rfl⟩ := htarget.unique htarget'
      obtain ⟨hcount, rfl⟩ := harguments.unique harguments'
      obtain ⟨rfl, rfl⟩ := hvalues.unique hvalues' hcount
      exact ⟨rfl, rfl⟩

end Unique

/-! ### Beginnings -/

section Beginnings

variable {limits : Limits} {bytes more : List UInt8}

/-- A beginning of what is refused is refused. -/
theorem decode_of_append_error {e : DecodeError} (h : decode limits (bytes ++ more) = .error e) :
    ∃ e', decode limits bytes = .error e' := by
  cases hdecode : decode limits bytes with
  | error e' => exact ⟨e', rfl⟩
  | ok result =>
      rw [decode_append_of_ok hdecode more] at h
      cases h

/-- **A beginning of a frame is refused**: the frame ends behind it. -/
theorem decode_of_isFrame_append {i : Invocation} {rest : List UInt8}
    (h : IsFrame limits (bytes ++ more) i rest) (hlength : rest.length < more.length) :
    ∃ e, decode limits bytes = .error e := by
  cases hdecode : decode limits bytes with
  | error e => exact ⟨e, rfl⟩
  | ok result =>
      have hwhole := decode_append_of_ok hdecode more
      rw [decode_of_isFrame h] at hwhole
      cases hwhole
      -- a frame within the beginning would be the same frame, and end too early
      obtain ⟨i', left, hframe, -⟩ := decode_eq_some_iff.1 hdecode
      obtain ⟨-, hrest⟩ := (hframe.append more).unique h
      rw [← hrest, List.length_append] at hlength
      omega

end Beginnings

/-- What is written and cut off gives an error under every limit. -/
theorem decode_of_encode_eq_append (limits : Limits) {m : Invocation} (hfits : m.Fits)
    (hordered : Value.OrderedItems m.arguments) {bytes more : List UInt8}
    (hmore : encode m = bytes ++ more) (hne : more ≠ []) :
    ∃ e, decode limits bytes = .error e := by
  by_cases hdepth : ∀ v ∈ m.arguments, v.depth ≤ limits.maxDepth
  · have hframe := isFrame_encode hfits hordered hdepth []
    rw [List.append_nil, hmore] at hframe
    exact decode_of_isFrame_append hframe (List.length_pos_iff.2 hne)
  · -- the whole is refused already
    simp only [not_forall, exists_prop, Nat.not_le] at hdepth
    obtain ⟨front, v, back, path, harguments, hfront, hpath⟩ := exists_first_deep hdepth
    have herror := decode_encode_of_deep hfits hordered harguments hfront hpath []
    rw [List.append_nil, hmore] at herror
    exact decode_of_append_error herror

/-- **What is written and cut off is refused**, wherever it is cut off, and the error names the
first element that is not there.  Unless an argument is nested too deep, it is the bytes cut off
alone that are missing. -/
theorem decode_cut_off (limits : Limits) {m : Invocation} (hfits : m.Fits)
    (hordered : Value.OrderedItems m.arguments) {bytes : List UInt8} (hbegins : bytes <+: encode m)
    (hne : bytes ≠ encode m) :
    (∃ e part, decode limits bytes = .error e ∧ BreaksAt limits bytes part ∧
      part.Names e.field) ∧
    ((∀ v ∈ m.arguments, v.depth ≤ limits.maxDepth) →
      ∃ more message, bytes ++ more = encode m ∧
        decode limits (bytes ++ more) = .ok (some message)) := by
  obtain ⟨more, hmore⟩ := hbegins
  have hnonempty : more ≠ [] := by
    rintro rfl
    exact hne (by rw [← hmore, List.append_nil])
  constructor
  · obtain ⟨e, he⟩ := decode_of_encode_eq_append limits hfits hordered hmore.symm hnonempty
    obtain ⟨part, hbreaks, hnames⟩ := breaksAt_of_decode he
    exact ⟨e, part, he, hbreaks, hnames⟩
  · intro hdepth
    have hframe := isFrame_encode hfits hordered hdepth []
    rw [List.append_nil, ← hmore] at hframe
    exact ⟨more, _, hmore, decode_of_isFrame hframe⟩

/-- The cut falls into the key of a map within an array, or in front of the first byte. -/
theorem decode_cut_off_nested :
    let m : Invocation := ⟨1, some "7", "send", [.array [.map [("k", .array [])], .null]]⟩
    let bytes : List UInt8 :=
      [0x95, 0x01, 0x80, 0xA1, 0x37, 0xA4, 0x73, 0x65, 0x6E, 0x64, 0x91, 0x92, 0x81, 0xA1]
    m.Fits ∧ Value.OrderedItems m.arguments ∧ bytes <+: encode m ∧ bytes ≠ encode m ∧
      (∃ e part, decode ⟨3⟩ bytes = .error e ∧ BreaksAt ⟨3⟩ bytes part ∧ part.Names e.field) ∧
      (∃ more message, bytes ++ more = encode m ∧ decode ⟨3⟩ (bytes ++ more) = .ok (some message)) ∧
      ∃ e part, decode ⟨0⟩ [] = .error e ∧ BreaksAt ⟨0⟩ [] part ∧ part.Names e.field := by
  intro m bytes
  have hkey : Value.FitsEntries [("k", .array [])] := ⟨by decide, ⟨by decide, trivial⟩, trivial⟩
  have hfits : m.Fits := ⟨by rintro _ ⟨⟩; decide, by decide, by decide,
    ⟨by decide, ⟨by decide, hkey⟩, trivial, trivial⟩, trivial⟩
  have hordered : Value.OrderedItems m.arguments := by
    simp [m, Value.OrderedItems, Value.Ordered, Value.OrderedEntries, Entries.Sorted]
  have hwhole : encode m = bytes ++ [0x6B, 0x90, 0xC0] := by decide +kernel
  have hbegins : bytes <+: encode m := ⟨_, hwhole.symm⟩
  have hne : bytes ≠ encode m := by
    rw [hwhole]
    decide
  have hempty : [] ≠ encode m := by
    rw [hwhole]
    decide
  have hdepth : ∀ v ∈ m.arguments, v.depth ≤ 3 := by
    simp [m, Value.depth, Value.depthItems, Value.depthEntries]
  obtain ⟨hrefused, hdecoded⟩ := decode_cut_off ⟨3⟩ hfits hordered hbegins hne
  exact ⟨hfits, hordered, hbegins, hne, hrefused, hdecoded hdepth,
    (decode_cut_off ⟨0⟩ hfits hordered List.nil_prefix hempty).1⟩

end BinaryFrame

end HubGateway
