/-
**Decoding amplifies nothing.**

A header tells how many items follow in up to four bytes, and a sender can write there what he
likes.  A header is refused unless the bytes behind it can hold what it announces, so that no count
that comes out of one is larger than what is still unread, whether or not the items are there.  What
is read whole is bounded by induction on its encoding: a value weighs no more than the bytes that
were consumed for it.

Of a frame this bounds all that an invocation carries: in binary its elements stand one behind the
other; in text the properties come from different members of one object, also where members repeat
a property in another case.

Main definitions:

* `HubGateway.Invocation.weight` — the weight of what an invocation carries.

Main statements:

* `HubGateway.BinaryFrame.IsFrame.weight_lt`, `HubGateway.TextFrame.weight_lt_of_decode` — an
  invocation weighs less than its frame;
* `HubGateway.WireFormat.decode_amplifies_nothing` — **what is decoded is smaller than its bytes**.
-/

import HubGateway.Proofs.Message.NormalForm

set_option relaxedAutoImplicit false
set_option autoImplicit false

namespace HubGateway

open MessagePack (Limits)

/-- The weight of what an invocation carries from its frame: its id or nothing, its target and its
arguments. -/
def Invocation.weight (m : Invocation) : Nat :=
  (m.invocationId.elim Value.null Value.string).weight + (Value.string m.target).weight +
    (Value.array m.arguments).weight

/-! ### Values and headers -/

namespace MessagePack

variable {bytes rest : List UInt8}

/-- **A value weighs no more than the bytes that are consumed for it.** -/
theorem weight_le_of_readField {limits : Limits} {field : String} {v : Value}
    (h : readField limits field bytes = (.ok v, rest)) :
    ∃ p, bytes = p ++ rest ∧ 1 ≤ p.length ∧ v.weight ≤ p.length := by
  obtain ⟨containers, p, hp, -, rfl⟩ := encodes_of_readField h
  exact ⟨p, rfl, hp.length_pos, hp.weight_le⟩

/-- No more items are announced than bytes are left. -/
theorem count_le_of_readArrayHeader {n : Nat} (h : readArrayHeader bytes = (.ok n, rest)) :
    n ≤ rest.length ∧ rest.length < bytes.length := by
  obtain ⟨⟨header, hheader, rfl⟩, hcount⟩ := readArrayHeader_eq_ok_iff.1 h
  have := hheader.length_pos
  rw [List.length_append]
  omega

/-- No more entries are announced than half the bytes that are left. -/
theorem count_le_of_readMapHeader {n : Nat} (h : readMapHeader bytes = (.ok n, rest)) :
    2 * n ≤ rest.length ∧ rest.length < bytes.length := by
  obtain ⟨⟨header, hheader, rfl⟩, hcount⟩ := readMapHeader_eq_ok_iff.1 h
  have := hheader.length_pos
  rw [List.length_append]
  omega

end MessagePack

/-! ### Binary frames -/

namespace BinaryFrame

section Elements

variable {bytes rest : List UInt8}

theorem BeginsArray.length_lt {n : Nat} (h : BeginsArray n bytes rest) :
    rest.length < bytes.length :=
  (MessagePack.count_le_of_readArrayHeader (MessagePack.readArrayHeader_eq_ok_iff.2 h)).2

/-- An id, or nil, takes as many bytes as it weighs, even if it counts as none. -/
theorem BeginsId.weight_le {id : Option String} (h : BeginsId id bytes rest) :
    ((Message.keptText id).elim Value.null Value.string).weight + rest.length ≤ bytes.length := by
  obtain ⟨p, hp, rfl⟩ := h
  rw [List.length_append]
  cases hp with
  | none => exact Nat.le_refl _
  | @some s p hp =>
      have := hp.length_lt
      by_cases hs : s = ""
      · subst hs
        exact Nat.add_le_add_right hp.length_pos _
      · rw [Message.keptText_some hs, Option.elim_some, Value.weight]
        omega

end Elements

/-- **The invocation of a frame weighs less than the frame.**  The headers of the frame and of the
list of arguments pay for the lists themselves. -/
theorem IsFrame.weight_lt {limits : Limits} {bytes rest : List UInt8} {i : Invocation}
    (h : IsFrame limits bytes i rest) : i.weight < bytes.length := by
  cases h with
  | intro hframe htype hheaders hpairs hid htarget harguments hvalues =>
      have := hframe.length_lt
      have := htype.length_le
      have := hheaders.1.length_le
      have := hpairs.length_le
      have := hid.weight_le
      have := htarget.length_lt
      have := harguments.length_lt
      have := hvalues.regular.2.2
      simp only [Invocation.weight, Value.weight] at *
      omega

end BinaryFrame

/-! ### Text frames -/

namespace TextFrame

/-- The least that a property adds to the weight of an object that gives it: its value and one. -/
def propertyWeight : Option Json → Nat
  | none => 0
  | some j => 1 + (Value.ofJson j).weight

/-- A member adds its property to the weight of the others. -/
theorem propertyWeight_add_le (front back : List (String × Json)) (name : String) (j : Json) :
    propertyWeight (some j) + Value.weightEntries (Value.ofJsonMembers (front ++ back)) ≤
      Value.weightEntries (Value.ofJsonMembers (front ++ (name, j) :: back)) := by
  simp only [Json.ofJsonMembers_eq, Entries.mapValues, List.map_append, List.map_cons,
    Value.weightEntries_append, Value.weightEntries, propertyWeight]
  omega

section Members

variable {members : List (String × Json)} {v : Properties}

/-- **Different properties come from different members**, so that all of them together weigh no
more than the object. -/
theorem sum_propertyWeight_le (known : List String) (hdistinct : known.Nodup)
    (hmember : ∀ k ∈ known, ∀ j, v k = some j → ∃ name, (name, j) ∈ members ∧
      canonicalName name = k) :
    (known.map fun k => propertyWeight (v k)).sum ≤
      Value.weightEntries (Value.ofJsonMembers members) := by
  induction known generalizing members with
  | nil => exact Nat.zero_le _
  | cons k known ih =>
      obtain ⟨hnew, hdistinct⟩ := List.nodup_cons.1 hdistinct
      obtain ⟨hfirst, hothers⟩ := List.forall_mem_cons.1 hmember
      rw [List.map_cons, List.sum_cons]
      generalize hj : v k = value at hfirst
      cases value with
      | none =>
          rw [propertyWeight, Nat.zero_add]
          exact ih hdistinct hothers
      | some j =>
          obtain ⟨name, hmem, hname⟩ := hfirst j rfl
          obtain ⟨front, back, rfl⟩ := List.append_of_mem hmem
          -- the member of `k` is taken out, and it is the member of no other property
          refine Nat.le_trans (Nat.add_le_add_left (ih hdistinct ?_) _)
            (propertyWeight_add_le front back name j)
          intro k' hk' j' hj'
          obtain ⟨name', hmem', hname'⟩ := hothers k' hk' j' hj'
          refine ⟨name', ?_, hname'⟩
          rw [List.mem_append, List.mem_cons] at hmem'
          rcases hmem' with hfront | heq | hback
          · exact List.mem_append_left _ hfront
          · obtain ⟨rfl, rfl⟩ := Prod.mk.inj heq
            exact absurd (hname.symm.trans hname' ▸ hk') hnew
          · exact List.mem_append_right _ hback

/-- The four properties of an invocation together weigh no more than the object that gives them. -/
theorem GivesProperties.weight_le (h : GivesProperties members v) :
    propertyWeight (v "type") + propertyWeight (v "invocationId") + propertyWeight (v "target") +
      propertyWeight (v "arguments") ≤ Value.weightEntries (Value.ofJsonMembers members) := by
  have hmember : ∀ k ∈ ["type", "invocationId", "target", "arguments"], ∀ j, v k = some j →
      ∃ name, (name, j) ∈ members ∧ canonicalName name = k := by
    intro k hk j hj
    have hknown : k ∈ knownNames :=
      (by decide : ["type", "invocationId", "target", "arguments"] ⊆ knownNames) hk
    have hgives := h k hknown
    rw [hj] at hgives
    cases hgives with
    | @present _ _ name _ hmembers hname =>
        exact ⟨name, hmembers ▸ List.mem_append_right _ List.mem_cons_self,
          (canonicalName_eq_iff hknown).2 hname⟩
  have hsum := sum_propertyWeight_le _ (by decide) hmember
  simpa only [List.map_cons, List.map_nil, List.sum_cons, List.sum_nil, Nat.add_zero,
    Nat.add_assoc] using hsum

theorem OptionalText.weight_le {j : Option Json} {text : Option String} (h : OptionalText j text) :
    (text.elim Value.null Value.string).weight ≤ 1 + propertyWeight j := by
  cases h with
  | missing | null => exact Nat.le_add_right 1 _
  | empty => exact Nat.le_add_right 1 _
  | text => exact Nat.le_trans (Nat.le_add_left _ 1) (Nat.le_add_left _ 1)

theorem ArgumentList.weight_le {j : Option Json} {arguments : List Value}
    (h : ArgumentList j arguments) : (Value.array arguments).weight ≤ 1 + propertyWeight j := by
  cases h with
  | missing | null => exact Nat.le_add_right 1 _
  | array =>
      rw [propertyWeight, Value.ofJson, Value.ofJsonItems_eq]
      omega

end Members

/-- **The invocation of a text frame weighs less than the frame.**  The type number pays for an id
or arguments that are not there. -/
theorem weight_lt_of_decode {bytes : List UInt8} {i : Invocation}
    (h : decode bytes = some (.invocation i)) : i.weight < bytes.length := by
  obtain ⟨members, v, hobject, hgives, hm⟩ := means_of_decode h
  have hrecord := length_record_le bytes
  have hmembers := hobject.weight_le
  have hproperties := hgives.weight_le
  cases hm with
  | @invocation id target arguments htype hid htarget harguments =>
      have := hid.weight_le
      have := harguments.weight_le
      have htypeWeight : propertyWeight (v "type") = 1 + 1 := congrArg propertyWeight htype
      have htargetWeight : propertyWeight (v "target") = 1 + (Value.string target).weight :=
        congrArg propertyWeight htarget
      simp only [Invocation.weight]
      omega

end TextFrame

/-! ### Both formats -/

/-- **Decoding amplifies nothing.**  A value weighs no more than the bytes consumed for it, of which
there is at least one; the id, the target and the arguments of an invocation together weigh less
than the body, in either format; and a count that comes out of a header, whatever the bytes behind
it are, is no more than these, or half of them for a map. -/
theorem WireFormat.decode_amplifies_nothing (limits : Limits) :
    (∀ field bytes v rest, MessagePack.readField limits field bytes = (.ok v, rest) →
      ∃ p, bytes = p ++ rest ∧ 1 ≤ p.length ∧ v.weight ≤ p.length) ∧
    (∀ (format : WireFormat) body i, format.decode limits body = .ok (some (.invocation i)) →
      i.weight < body.length) ∧
    (∀ bytes n rest, MessagePack.readArrayHeader bytes = (.ok n, rest) →
      n ≤ rest.length ∧ rest.length < bytes.length) ∧
    ∀ bytes n rest, MessagePack.readMapHeader bytes = (.ok n, rest) →
      2 * n ≤ rest.length ∧ rest.length < bytes.length := by
  refine ⟨fun _ _ _ _ => MessagePack.weight_le_of_readField, ?_,
    fun _ _ _ => MessagePack.count_le_of_readArrayHeader,
    fun _ _ _ => MessagePack.count_le_of_readMapHeader⟩
  intro format body i h
  cases format with
  | json => exact TextFrame.weight_lt_of_decode (Except.ok.inj h)
  | messagePack =>
      obtain ⟨i', rest, hframe, heq⟩ := BinaryFrame.decode_eq_some_iff.1 h
      cases heq
      exact hframe.weight_lt

/-- An array that weighs just as much as its bytes, an invocation in both formats, and the header of
an array with a reserved byte for its first item: what it announces is all that is left. -/
theorem WireFormat.decode_amplifies_nothing_tight :
    let bytes : List UInt8 := [0x92, 0xA1, 0x61, 0xC0, 0x2A]
    let v : Value := .array [.string "a", .null]
    let frame : List UInt8 := [0x95, 0x01, 0x80, 0xC0, 0xA1, 0x74, 0x91, 0xC0]
    let i : Invocation := ⟨invocationType, none, "t", [.null]⟩
    let text : List UInt8 := TextFrame.encode (.invocation i)
    let left : List UInt8 := [0xC1, 0xC0]
    let broken : List UInt8 := 0x92 :: left
    (MessagePack.readField ⟨1⟩ "x" bytes = (.ok v, [0x2A]) ∧ v.weight = 4 ∧
        ∃ p, bytes = p ++ [0x2A] ∧ 1 ≤ p.length ∧ v.weight ≤ p.length) ∧
      (messagePack.decode ⟨1⟩ frame = .ok (some (.invocation i)) ∧ i.weight < frame.length) ∧
      (json.decode ⟨1⟩ text = .ok (some (.invocation i)) ∧ i.weight < text.length) ∧
      MessagePack.readArrayHeader broken = (.ok 2, left) ∧
        (∃ e rest, MessagePack.readField ⟨1⟩ "x" broken = (.error e, rest)) ∧
        2 ≤ left.length ∧ left.length < broken.length := by
  intro bytes v frame i text left broken
  obtain ⟨hvalues, hinvocations, harrays, -⟩ := WireFormat.decode_amplifies_nothing ⟨1⟩
  have hread : MessagePack.readField ⟨1⟩ "x" bytes = (.ok v, [0x2A]) := rfl
  have hframe : messagePack.decode ⟨1⟩ frame = .ok (some (.invocation i)) := rfl
  have htext : json.decode ⟨1⟩ text = .ok (some (.invocation i)) := by
    have hwritten := @TextFrame.decode_encode (.invocation i) rfl ⟨trivial, trivial⟩
      ⟨trivial, trivial⟩ (by simp [Message.arguments, i, Value.depth]) []
    rw [List.append_nil] at hwritten
    exact congrArg Except.ok hwritten
  have hheader : MessagePack.readArrayHeader broken = (.ok 2, left) :=
    MessagePack.readArrayHeader_eq_ok_iff.2 ⟨⟨[0x92], .short (by decide), rfl⟩, by decide⟩
  exact ⟨⟨hread, rfl, hvalues _ _ _ _ hread⟩, ⟨hframe, hinvocations _ _ _ hframe⟩,
    ⟨htext, hinvocations _ _ _ htext⟩, hheader, ⟨_, _, rfl⟩, harrays _ _ _ hheader⟩

end HubGateway
