/-
**The nesting limit refuses what is nested too deep and changes nothing else.**

Two readers with different limits go the same way through the same bytes until one of them comes to
a container that it does not admit.  So what a limit does not refuse for its nesting is read alike
under every greater limit: the same value with the same bytes left, or the same error at the same
place, whatever else is wrong with the bytes in front of it or behind it.  A loop over items or
entries inherits this from the reader of the parts, and a frame from the reader of its arguments.

Main definitions:

* `HubGateway.MessagePack.Settles` — an outcome that is no refusal of a nesting;
* `HubGateway.MessagePack.Extends` — a reader that agrees with another one wherever that settles.

Main statements:

* `HubGateway.MessagePack.extends_readValueWithin` — a greater limit extends a smaller one;
* `HubGateway.BinaryFrame.decode_of_le` — and so for frames;
* `HubGateway.BinaryFrame.limit_refuses_nesting_only` — **the limit affects nothing but nesting**.
-/

import HubGateway.Proofs.Message.NormalForm

set_option relaxedAutoImplicit false
set_option autoImplicit false

namespace HubGateway

namespace MessagePack

/-! ### Outcomes that a greater limit does not change -/

/-- The outcome is a value, or a failure other than that of a container nested too deep. -/
def Settles (limit : Nat) (o : Outcome Failure Value) : Prop :=
  ∀ failure, o.1 = .error failure → failure.cause ≠ .tooDeep limit

/-- A reader gives the outcome of another one, under `limit`, wherever that settles. -/
def Extends (limit : Nat) (item item' : List UInt8 → Outcome Failure Value) : Prop :=
  ∀ bytes, Settles limit (item bytes) → item' bytes = item bytes

section Extends

variable {limit : Nat} {item item' : List UInt8 → Outcome Failure Value}

theorem settles_ok {v : Value} {rest : List UInt8} : Settles limit (.ok v, rest) := by
  intro failure h
  cases h

/-- A failure in a part has the cause of the failure of the whole. -/
theorem Settles.of_under {failure : Failure} {segment : Segment} {rest : List UInt8}
    (h : Settles limit (.error (failure.under segment), rest)) :
    Settles limit (.error failure, rest) := by
  intro f hf
  cases hf
  exact h (failure.under segment) rfl

theorem Extends.items (hitem : Extends limit item item') (count : Nat) {index : Nat}
    {acc : List Value} {bytes : List UInt8}
    (h : Settles limit (readItems item count index acc bytes)) :
    readItems item' count index acc bytes = readItems item count index acc bytes := by
  induction count generalizing index acc bytes with
  | zero => rfl
  | succ count ih =>
      rw [readItems, readItems]
      rw [readItems] at h
      cases hvalue : item bytes with
      | mk result rest =>
        rw [hvalue] at h
        cases result with
        | error failure =>
            rw [hitem bytes (by rw [hvalue]; exact h.of_under), hvalue]
        | ok value =>
            rw [hitem bytes (by rw [hvalue]; exact settles_ok), hvalue]
            exact ih h

theorem Extends.entries (hitem : Extends limit item item') (count : Nat) {index : Nat}
    {entries : List (String × Value)} {bytes : List UInt8}
    (h : Settles limit (readEntries item count index entries bytes)) :
    readEntries item' count index entries bytes = readEntries item count index entries bytes := by
  induction count generalizing index entries bytes with
  | zero => rfl
  | succ count ih =>
      rw [readEntries, readEntries]
      rw [readEntries] at h
      -- keys are read without regard to the limit
      generalize readString bytes = key at h ⊢
      rcases key with ⟨_ | key, left⟩
      · rfl
      simp only at h ⊢
      cases hvalue : item left with
      | mk result rest =>
        rw [hvalue] at h
        cases result with
        | error failure =>
            rw [hitem left (by rw [hvalue]; exact h.of_under), hvalue]
        | ok value =>
            rw [hitem left (by rw [hvalue]; exact settles_ok), hvalue]
            exact ih h

theorem Extends.array (hitem : Extends limit item item') {bytes : List UInt8}
    (h : Settles limit (readArrayOf item bytes)) :
    readArrayOf item' bytes = readArrayOf item bytes := by
  unfold readArrayOf at h ⊢
  generalize readArrayHeader bytes = header at h ⊢
  rcases header with ⟨_ | count, rest⟩
  · rfl
  · exact hitem.items count h

theorem Extends.map (hitem : Extends limit item item') {bytes : List UInt8}
    (h : Settles limit (readMapOf item bytes)) : readMapOf item' bytes = readMapOf item bytes := by
  unfold readMapOf at h ⊢
  generalize readMapHeader bytes = header at h ⊢
  rcases header with ⟨_ | count, rest⟩
  · rfl
  · exact hitem.entries count h

end Extends

/-- **A reader that admits more nesting extends one that admits less.** -/
theorem extends_readValueWithin (limit limit' : Nat) {budget budget' : Nat}
    (hle : budget ≤ budget') :
    Extends limit (readValueWithin limit budget) (readValueWithin limit' budget') := by
  induction budget generalizing budget' with
  | zero =>
      intro bytes h
      rcases bytes with _ | ⟨first, tail⟩
      · rw [readValueWithin_nil, readValueWithin_nil]
      rcases beginsAs_cases first tail with hbegin | hbegin | ⟨shape, harray, hmap, hbegin⟩
      · rw [readValueWithin_zero (.inl hbegin)] at h
        exact absurd rfl (h _ rfl)
      · rw [readValueWithin_zero (.inr hbegin)] at h
        exact absurd rfl (h _ rfl)
      · rw [readValueWithin_scalar harray hmap hbegin, readValueWithin_scalar harray hmap hbegin]
  | succ budget ih =>
      intro bytes h
      obtain ⟨budget', rfl⟩ := Nat.exists_eq_add_of_le' hle
      have hparts := ih (Nat.le_add_left budget budget')
      rcases bytes with _ | ⟨first, tail⟩
      · rw [readValueWithin_nil, readValueWithin_nil]
      rcases beginsAs_cases first tail with hbegin | hbegin | ⟨shape, harray, hmap, hbegin⟩
      · rw [readValueWithin_array hbegin] at h
        rw [← Nat.add_assoc, readValueWithin_array hbegin, readValueWithin_array hbegin]
        exact hparts.array h
      · rw [readValueWithin_map hbegin] at h
        rw [← Nat.add_assoc, readValueWithin_map hbegin, readValueWithin_map hbegin]
        exact hparts.map h
      · rw [readValueWithin_scalar harray hmap hbegin, readValueWithin_scalar harray hmap hbegin]

end MessagePack

/-! ### Fields and frames -/

/-- The result is something other than the error of a container nested too deep. -/
def SettlesField {α : Type} (limit : Nat) (result : Except DecodeError α) : Prop :=
  ∀ e, result = .error e → e.cause ≠ .unread (.tooDeep limit)

section Fields

variable {limits limits' : MessagePack.Limits} {field : String} {bytes : List UInt8}

/-- What a field is read as is read alike under a greater limit. -/
theorem readField_of_le (hle : limits.maxDepth ≤ limits'.maxDepth)
    (h : SettlesField limits.maxDepth (MessagePack.readField limits field bytes).1) :
    MessagePack.readField limits' field bytes = MessagePack.readField limits field bytes := by
  have hvalue : MessagePack.Settles limits.maxDepth (MessagePack.readValue limits bytes) := by
    intro failure hfailure hcause
    refine h (.ofFailure field failure) ?_ (congrArg DecodeError.Cause.unread hcause)
    unfold MessagePack.readField
    generalize MessagePack.readValue limits bytes = o at hfailure ⊢
    obtain ⟨result, rest⟩ := o
    cases hfailure
    rfl
  have hread :=
    MessagePack.extends_readValueWithin limits.maxDepth limits'.maxDepth hle bytes hvalue
  rw [MessagePack.readField, MessagePack.readField, MessagePack.readValue, hread]
  rfl

end Fields

namespace BinaryFrame

open MessagePack

theorem settlesField_of_map {α β : Type} {limit : Nat} {result : Except DecodeError α} {f : α → β}
    (h : SettlesField limit (result.map f)) : SettlesField limit result := by
  intro e he
  subst he
  exact h e rfl

section Frames

variable {limits limits' : Limits} (hle : limits.maxDepth ≤ limits'.maxDepth)

include hle

theorem readArguments_of_le (count : Nat) {index : Nat} {acc : List Value} {bytes : List UInt8}
    (h : SettlesField limits.maxDepth (readArguments limits count index acc bytes)) :
    readArguments limits' count index acc bytes = readArguments limits count index acc bytes := by
  induction count generalizing index acc bytes with
  | zero => rfl
  | succ count ih =>
      rw [readArguments] at h
      rw [readArguments, readArguments]
      have hfield : SettlesField limits.maxDepth
          (readField limits s!"arguments[{index}]" bytes).1 := by
        intro e he
        generalize readField limits s!"arguments[{index}]" bytes = value at h he
        rcases value with ⟨_ | _, rest⟩
        · cases he
          exact h _ rfl
        · cases he
      rw [readField_of_le hle hfield]
      generalize readField limits s!"arguments[{index}]" bytes = value at h ⊢
      rcases value with ⟨_ | value, rest⟩
      · rfl
      · exact ih h

theorem readFromArguments_of_le {id : Option String} {target : String} {bytes : List UInt8}
    (h : SettlesField limits.maxDepth (readFromArguments limits id target bytes)) :
    readFromArguments limits' id target bytes = readFromArguments limits id target bytes := by
  unfold readFromArguments at h ⊢
  generalize (readArrayHeader bytes).named "arguments" = header at h ⊢
  rcases header with ⟨_ | count, rest⟩
  · rfl
  have hall : SettlesField limits.maxDepth (readArguments limits count 0 [] rest) := by
    intro e he
    exact h e (by simp only [he])
  simp only [readArguments_of_le hle count hall]

/-- Only the arguments of an invocation are read with the limit. -/
theorem readInvocation_of_le {bytes : List UInt8}
    (h : SettlesField limits.maxDepth (readInvocation limits bytes)) :
    readInvocation limits' bytes = readInvocation limits bytes := by
  rw [readInvocation_eq] at h
  rw [readInvocation_eq, readInvocation_eq]
  generalize (readMapHeader bytes).named "headers" = header at h ⊢
  rcases header with ⟨_ | count, rest⟩
  · rfl
  simp only at h ⊢
  generalize skipHeaders count 0 rest = headers at h ⊢
  rcases headers with _ | rest
  · rfl
  simp only [readFromId] at h ⊢
  generalize (readOptionalString rest).named "invocationId" = id at h ⊢
  rcases id with ⟨_ | id, rest⟩
  · rfl
  simp only [readFromTarget] at h ⊢
  generalize (readString rest).named "target" = target at h ⊢
  rcases target with ⟨_ | target, rest⟩
  · rfl
  · exact readFromArguments_of_le hle h

/-- **A frame is decoded alike under a greater limit.** -/
theorem decode_of_le {bytes : List UInt8} (h : SettlesField limits.maxDepth (decode limits bytes)) :
    decode limits' bytes = decode limits bytes := by
  rw [decode_eq] at h
  rw [decode_eq, decode_eq]
  generalize (readArrayHeader bytes).named "frame" = header at h ⊢
  rcases header with ⟨_ | count, rest⟩
  · rfl
  simp only [readFromType] at h ⊢
  generalize (readInt32 rest).named "messageType" = messageType at h ⊢
  rcases messageType with ⟨_ | messageType, rest⟩
  · rfl
  by_cases htype : messageType = invocationType
  · simp only [if_pos htype] at h ⊢
    rw [readInvocation_of_le hle (settlesField_of_map h)]
  · simp only [if_neg htype]

end Frames

/-- **The limit affects nothing but nesting.**  What is read of a field under some limit, and what
a frame is decoded to, is the same under every greater limit, down to the bytes that are left and
to the error, unless it is the error of a container that is nested too deep.  What is read or
decoded is not nested deeper than its limit. -/
theorem limit_refuses_nesting_only {limits limits' : Limits}
    (hle : limits.maxDepth ≤ limits'.maxDepth) :
    (∀ field bytes, SettlesField limits.maxDepth (readField limits field bytes).1 →
      readField limits' field bytes = readField limits field bytes) ∧
    (∀ field bytes v rest, readField limits field bytes = (.ok v, rest) →
      v.depth ≤ limits.maxDepth) ∧
    (∀ bytes, SettlesField limits.maxDepth (decode limits bytes) →
      decode limits' bytes = decode limits bytes) ∧
    ∀ bytes m, decode limits bytes = .ok (some m) →
      ∃ i, m = .invocation i ∧ ∀ v ∈ i.arguments, v.depth ≤ limits.maxDepth := by
  refine ⟨fun field bytes => readField_of_le hle, ?_, fun bytes => decode_of_le hle, ?_⟩
  · intro field bytes v rest h
    obtain ⟨containers, p, hp, hwithin, -⟩ := encodes_of_readField h
    exact hp.depth_le hwithin
  · intro bytes m h
    obtain ⟨i, rest, hframe, rfl⟩ := decode_eq_some_iff.1 h
    exact ⟨i, rfl, hframe.regular.2.2.2⟩

/-- A reserved byte behind an array in an array: a limit of one stops in front of the inner array,
and every greater one finds the byte.  A frame whose argument is an empty array needs a limit of
one. -/
theorem limit_refuses_nesting_only_reserved :
    let bytes : List UInt8 := [0x92, 0x91, 0x01, 0xC1]
    let e : DecodeError := .ofFailure "x" ⟨[.item 1], .reservedMarker⟩
    let frame : List UInt8 := [0x95, 0x01, 0x80, 0xC0, 0xA0, 0x91, 0x90]
    let i : Invocation := ⟨invocationType, none, "", [.array []]⟩
    readField ⟨1⟩ "x" bytes =
        (.error (.ofFailure "x" ⟨[.item 0], .tooDeep 1⟩), [0x91, 0x01, 0xC1]) ∧
      (SettlesField 2 (readField ⟨2⟩ "x" bytes).1 ∧
        readField ⟨64⟩ "x" bytes = (.error e, [0xC1])) ∧
      decode ⟨0⟩ frame = .error ⟨s!"arguments[{0}]", .unread (.tooDeep 0)⟩ ∧
      SettlesField 1 (decode ⟨1⟩ frame) ∧ decode ⟨64⟩ frame = .ok (some (.invocation i)) := by
  intro bytes e frame i
  have hread : readField ⟨2⟩ "x" bytes = (.error e, [0xC1]) := rfl
  have hsettles : SettlesField 2 (readField ⟨2⟩ "x" bytes).1 := by
    rw [hread]
    rintro _ ⟨⟩
    exact nofun
  have hdecode : decode ⟨1⟩ frame = .ok (some (.invocation i)) := rfl
  have hframe : SettlesField 1 (decode ⟨1⟩ frame) := by
    rw [hdecode]
    exact nofun
  obtain ⟨hfield, -, -, -⟩ := @limit_refuses_nesting_only ⟨2⟩ ⟨64⟩ (by decide)
  obtain ⟨-, -, hframes, -⟩ := @limit_refuses_nesting_only ⟨1⟩ ⟨64⟩ (by decide)
  exact ⟨rfl, ⟨hsettles, (hfield "x" bytes hsettles).trans hread⟩, rfl, hframe,
    (hframes frame hframe).trans hdecode⟩

end BinaryFrame

end HubGateway
