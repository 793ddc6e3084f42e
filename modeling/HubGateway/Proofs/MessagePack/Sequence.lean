/-
**Reads one after the other.**

A cursor is the list of the bytes that are unread, and every read goes on where the one before it
stopped, even if that one failed half way: with its marker consumed, or the number behind it too.
Whatever reads are made, the cursor only goes forward.  It always stands at a position of the
original buffer, a read that succeeds moves it by a byte or more, and one that fails does not move
it back.

A read succeeds exactly on bytes that begin with what it reads, where a header also asks for enough
bytes behind it.  More bytes at the end of the buffer change neither.  So reads that all succeed
succeed on a longer buffer too, with the same results, and leave the additional bytes behind what
they left.

Main definitions:

* `HubGateway.MessagePack.LeavesEnd` — a reader that leaves an end of its bytes, even if it fails;
* `HubGateway.MessagePack.Call.Begins` — bytes that begin with what a call reads;
* `HubGateway.MessagePack.unread` — the bytes that are unread after calls.

Main statements:

* `HubGateway.MessagePack.leavesEnd_run`, `unread_isSuffix` — what one call leaves, and all of them;
* `HubGateway.MessagePack.Call.run_eq_ok_iff`, `run_cases` — when a call succeeds, and what comes of
  it otherwise;
* `HubGateway.MessagePack.runCalls_append` — calls that succeed do not see what stands behind;
* `HubGateway.MessagePack.calls_go_forward` — **the cursor only goes forward**.
-/

import HubGateway.Proofs.Message.FrameFormat
import HubGateway.Proofs.MessagePack.Failure

set_option relaxedAutoImplicit false
set_option autoImplicit false

namespace HubGateway.MessagePack

open BinaryFrame (BeginsArray BeginsMap BeginsInt32 BeginsString BeginsValue
  readOptionalString_eq_ok_iff readValue_eq_ok_iff)

/-! ### What a read leaves -/

/-- A reader leaves an end of its bytes, whether it succeeds or fails. -/
def LeavesEnd {ε α : Type} (read : List UInt8 → Outcome ε α) : Prop :=
  ∀ bytes, (read bytes).2 <:+ bytes

section Ends

variable {ε ε' α β : Type} {read : List UInt8 → Outcome ε α}

theorem LeavesEnd.of_eq (h : LeavesEnd read) {bytes rest : List UInt8} {result : Except ε α}
    (heq : read bytes = (result, rest)) : rest <:+ bytes := by
  have hend := h bytes
  rwa [heq] at hend

/-- A changed result leaves the same bytes. -/
theorem Outcome.map_left (error : ε → ε') (value : α → β) (o : Outcome ε α) :
    (o.map error value).2 = o.2 := by
  obtain ⟨_ | _, _⟩ := o <;> rfl

theorem LeavesEnd.map (h : LeavesEnd read) (error : ε → ε') (value : α → β) :
    LeavesEnd fun bytes => (read bytes).map error value := by
  intro bytes
  rw [Outcome.map_left]
  exact h bytes

end Ends

theorem leavesEnd_takeMarker : LeavesEnd takeMarker
  | [] => List.suffix_refl []
  | first :: rest => List.suffix_cons first rest

theorem leavesEnd_takeNumber (width : Nat) : LeavesEnd (takeNumber width) := by
  intro bytes
  unfold takeNumber
  split
  next => exact List.drop_suffix width bytes
  next => exact List.nil_suffix

theorem leavesEnd_takePayload (length : Nat) : LeavesEnd (takePayload length) := by
  intro bytes
  unfold takePayload
  split
  next => exact List.drop_suffix length bytes
  next => exact List.suffix_refl bytes

theorem leavesEnd_takeInteger : LeavesEnd takeInteger := by
  intro bytes
  unfold takeInteger
  split
  next fault rest h => exact leavesEnd_takeMarker.of_eq h
  next marker rest h =>
    have hrest := leavesEnd_takeMarker.of_eq h
    cases marker with
    | unsigned width => exact ((leavesEnd_takeNumber width).map _ _ rest).trans hrest
    | signed width => exact ((leavesEnd_takeNumber width).map _ _ rest).trans hrest
    | _ => exact hrest

theorem leavesEnd_takeIntegerIn (low high : Int) : LeavesEnd (takeIntegerIn low high) := by
  intro bytes
  unfold takeIntegerIn
  split
  next value rest h =>
    -- the integer is gone before its range is checked
    have hrest := leavesEnd_takeInteger.of_eq h
    split
    next => exact hrest
    next => exact hrest
  next fault rest h => exact leavesEnd_takeInteger.of_eq h

theorem leavesEnd_readInt32 : LeavesEnd readInt32 := (leavesEnd_takeIntegerIn _ _).map _ _

theorem leavesEnd_readInt64 : LeavesEnd readInt64 := (leavesEnd_takeIntegerIn _ _).map _ _

theorem leavesEnd_readBoolean : LeavesEnd readBoolean := by
  intro bytes
  unfold readBoolean
  split
  next value rest h => exact leavesEnd_takeMarker.of_eq h
  next marker rest _ h => exact leavesEnd_takeMarker.of_eq h
  next fault rest h => exact leavesEnd_takeMarker.of_eq h

theorem leavesEnd_readDouble : LeavesEnd readDouble := by
  intro bytes
  unfold readDouble
  split
  next rest h =>
    exact ((leavesEnd_takeNumber 4).map _ _ rest).trans (leavesEnd_takeMarker.of_eq h)
  next rest h =>
    exact ((leavesEnd_takeNumber 8).map _ _ rest).trans (leavesEnd_takeMarker.of_eq h)
  next marker rest _ _ h => exact leavesEnd_takeMarker.of_eq h
  next fault rest h => exact leavesEnd_takeMarker.of_eq h

theorem leavesEnd_readNil : LeavesEnd readNil := by
  intro bytes
  unfold readNil
  split
  next rest h => exact leavesEnd_takeMarker.of_eq h
  next marker rest _ h => exact leavesEnd_takeMarker.of_eq h
  next fault rest h => exact leavesEnd_takeMarker.of_eq h

theorem leavesEnd_takeSize (size? : Marker → Option Size) : LeavesEnd (takeSize size?) := by
  intro bytes
  unfold takeSize
  split
  next fault rest h => exact leavesEnd_takeMarker.of_eq h
  next marker rest h =>
    have hrest := leavesEnd_takeMarker.of_eq h
    split
    next => exact hrest
    next width _ => exact (leavesEnd_takeNumber width rest).trans hrest
    next => exact hrest

theorem leavesEnd_takeExtensionLength : LeavesEnd takeExtensionLength := by
  intro bytes
  unfold takeExtensionLength
  split
  next length rest h =>
    exact ((leavesEnd_takeNumber 1).map _ _ rest).trans ((leavesEnd_takeSize _).of_eq h)
  next fault rest h => exact (leavesEnd_takeSize _).of_eq h

theorem leavesEnd_readString : LeavesEnd readString := by
  intro bytes
  unfold readString
  split
  next fault rest h => exact (leavesEnd_takeSize _).of_eq h
  next length rest h =>
    have hrest := (leavesEnd_takeSize _).of_eq h
    split
    next cause left hpayload => exact ((leavesEnd_takePayload length).of_eq hpayload).trans hrest
    next payload left hpayload =>
      -- the payload is gone, whether it is a text or not
      have hleft := ((leavesEnd_takePayload length).of_eq hpayload).trans hrest
      split
      next => exact hleft
      next => exact hleft

theorem leavesEnd_readOptionalString : LeavesEnd readOptionalString := by
  intro bytes
  unfold readOptionalString
  split
  next rest h => exact leavesEnd_takeMarker.of_eq h
  next => exact leavesEnd_readString.map _ _ bytes

theorem leavesEnd_readBlob : LeavesEnd readBlob := by
  intro bytes
  unfold readBlob
  split
  next fault rest h => exact (leavesEnd_takeSize _).of_eq h
  next length rest h =>
    exact (leavesEnd_takePayload length rest).trans ((leavesEnd_takeSize _).of_eq h)

theorem leavesEnd_skipExtension : LeavesEnd skipExtension := by
  intro bytes
  unfold skipExtension
  split
  next fault rest h => exact leavesEnd_takeExtensionLength.of_eq h
  next length rest h =>
    exact ((leavesEnd_takePayload length).map _ _ rest).trans
      (leavesEnd_takeExtensionLength.of_eq h)

/-- A count is compared with what is left, and nothing is taken. -/
theorem checkCount_left (container : Container) (least : Nat) (o : Outcome Fault Nat) :
    (checkCount container least o).2 = o.2 := by
  obtain ⟨fault | count, rest⟩ := o
  · rfl
  · unfold checkCount
    dsimp only
    split <;> rfl

theorem leavesEnd_readArrayHeader : LeavesEnd readArrayHeader := by
  intro bytes
  rw [readArrayHeader, checkCount_left]
  exact leavesEnd_takeSize _ bytes

theorem leavesEnd_readMapHeader : LeavesEnd readMapHeader := by
  intro bytes
  rw [readMapHeader, checkCount_left]
  exact leavesEnd_takeSize _ bytes

/-! ### What the reading of a value leaves -/

theorem leavesEnd_readScalar (shape : Shape) : LeavesEnd (readScalar shape) := by
  cases shape with
  | nil => exact leavesEnd_readNil.map _ _
  | boolean => exact leavesEnd_readBoolean.map _ _
  | integer => exact leavesEnd_readInt64.map _ _
  | float => exact leavesEnd_readDouble.map _ _
  | string => exact leavesEnd_readString.map _ _
  | blob => exact leavesEnd_readBlob.map _ _
  | extension => exact leavesEnd_skipExtension.map _ _
  | array | map | reserved => exact List.suffix_refl

/-- The part of a value that is not read leaves an end of its bytes. -/
theorem Place.Fails.isSuffix {limit : Nat} {place : Place} {there left : List UInt8} {cause : Cause}
    (h : place.Fails limit there cause left) : left <:+ there := by
  cases h with
  | absent => exact List.suffix_refl []
  | scalar _ _ _ hread => exact (leavesEnd_readScalar _).of_eq hread
  | nested => exact List.suffix_refl there
  | arrayHeader _ hread => exact leavesEnd_readArrayHeader.of_eq hread
  | mapHeader _ hread => exact leavesEnd_readMapHeader.of_eq hread
  | key hread => exact leavesEnd_readString.of_eq hread

theorem leavesEnd_readValue (limits : Limits) : LeavesEnd (readValue limits) := by
  intro bytes
  cases hread : readValue limits bytes with
  | mk result left =>
    cases result with
    | ok v =>
        obtain ⟨p, -, rfl⟩ := readValue_eq_ok_iff.1 hread
        exact List.suffix_append p left
    | error failure =>
        -- the path of the failure leads to the part whose read has left these bytes
        obtain ⟨place, there, hleads, hfails⟩ := readValueWithin_eq_error_iff.1 hread
        exact hfails.isSuffix.trans hleads.isSuffix

/-- **What a call leaves is an end of what was there**, whether it succeeds or fails. -/
theorem leavesEnd_run (call : Call) : LeavesEnd call.run := by
  cases call with
  | int32 => exact leavesEnd_readInt32.map _ _
  | int64 => exact leavesEnd_readInt64.map _ _
  | boolean => exact leavesEnd_readBoolean.map _ _
  | double => exact leavesEnd_readDouble.map _ _
  | nil => exact leavesEnd_readNil.map _ _
  | string => exact leavesEnd_readString.map _ _
  | optionalString => exact leavesEnd_readOptionalString.map _ _
  | blob => exact leavesEnd_readBlob.map _ _
  | arrayHeader => exact leavesEnd_readArrayHeader.map _ _
  | mapHeader => exact leavesEnd_readMapHeader.map _ _
  | skipExtension => exact leavesEnd_skipExtension.map _ _
  | value limits => exact (leavesEnd_readValue limits).map _ _

/-! ### What a call takes -/

/-- The bytes begin with what a call reads, and `rest` is what stands behind it. -/
inductive Call.Begins : Call → Item → List UInt8 → List UInt8 → Prop
  | int32 {i : Int32} {bytes rest : List UInt8} (h : BeginsInt32 i bytes rest) :
      Begins .int32 (.integer i.toInt) bytes rest
  | int64 {i : Int64} {p rest : List UInt8} (h : IntegerForm i.toInt p) :
      Begins .int64 (.integer i.toInt) (p ++ rest) rest
  | boolean {b : Bool} {rest : List UInt8} :
      Begins .boolean (.boolean b) ((if b then 0xC3 else 0xC2) :: rest) rest
  /-- A number of single precision is widened. -/
  | single {number rest : List UInt8} (h : number.length = 4) :
      Begins .double (.double (.ofBinary32 (bigEndian number).toUInt32)) (0xCA :: number ++ rest)
        rest
  | double {number rest : List UInt8} (h : number.length = 8) :
      Begins .double (.double ⟨(bigEndian number).toUInt64⟩) (0xCB :: number ++ rest) rest
  | nil {rest : List UInt8} : Begins .nil .nothing (0xC0 :: rest) rest
  | string {s : String} {bytes rest : List UInt8} (h : BeginsString s bytes rest) :
      Begins .string (.string s) bytes rest
  | absent {rest : List UInt8} : Begins .optionalString .nothing (0xC0 :: rest) rest
  | present {s : String} {bytes rest : List UInt8} (h : BeginsString s bytes rest) :
      Begins .optionalString (.string s) bytes rest
  | blob {header payload rest : List UInt8} (h : SizeForm.blob.Writes payload.length header) :
      Begins .blob (.blob payload) (header ++ payload ++ rest) rest
  /-- What is left may hold the items. -/
  | arrayHeader {n : Nat} {bytes rest : List UInt8} (h : BeginsArray n bytes rest) :
      Begins .arrayHeader (.count n) bytes rest
  /-- What is left may hold the entries. -/
  | mapHeader {n : Nat} {bytes rest : List UInt8} (h : BeginsMap n bytes rest) :
      Begins .mapHeader (.count n) bytes rest
  | extension {header payload rest : List UInt8} {type : UInt8}
      (h : SizeForm.extension.Writes payload.length header) :
      Begins .skipExtension .nothing (header ++ type :: payload ++ rest) rest
  | value {limits : Limits} {v : Value} {bytes rest : List UInt8}
      (h : BeginsValue limits v bytes rest) : Begins (.value limits) (.value v) bytes rest

section Calls

variable {call : Call} {item : Item} {bytes rest : List UInt8}

theorem Call.begins_of_run (h : call.run bytes = (.ok item, rest)) :
    call.Begins item bytes rest := by
  cases call with
  | int32 =>
      obtain ⟨i, hread, rfl⟩ := Outcome.map_eq_ok_iff.1 h
      exact .int32 (readInt32_eq_ok_iff.1 hread)
  | int64 =>
      obtain ⟨i, hread, rfl⟩ := Outcome.map_eq_ok_iff.1 h
      obtain ⟨p, hp, rfl⟩ := readInt64_eq_ok_iff.1 hread
      exact .int64 hp
  | boolean =>
      obtain ⟨b, hread, rfl⟩ := Outcome.map_eq_ok_iff.1 h
      cases readBoolean_eq_ok_iff.1 hread
      exact .boolean
  | double =>
      obtain ⟨x, hread, rfl⟩ := Outcome.map_eq_ok_iff.1 h
      rcases readDouble_eq_ok_iff.1 hread with ⟨number, hlen, rfl, rfl⟩ | ⟨number, hlen, rfl, rfl⟩
      · exact .single hlen
      · exact .double hlen
  | nil =>
      obtain ⟨_, hread, rfl⟩ := Outcome.map_eq_ok_iff.1 h
      cases readNil_eq_ok_iff.1 hread
      exact .nil
  | string =>
      obtain ⟨s, hread, rfl⟩ := Outcome.map_eq_ok_iff.1 h
      exact .string (readString_eq_ok_iff.1 hread)
  | optionalString =>
      obtain ⟨id, hread, rfl⟩ := Outcome.map_eq_ok_iff.1 h
      obtain ⟨p, hp, rfl⟩ := readOptionalString_eq_ok_iff.1 hread
      cases hp with
      | none => exact .absent
      | some hs => exact .present ⟨p, hs, rfl⟩
  | blob =>
      obtain ⟨payload, hread, rfl⟩ := Outcome.map_eq_ok_iff.1 h
      obtain ⟨header, hheader, rfl⟩ := readBlob_eq_ok_iff.1 hread
      exact .blob hheader
  | arrayHeader =>
      obtain ⟨n, hread, rfl⟩ := Outcome.map_eq_ok_iff.1 h
      exact .arrayHeader (readArrayHeader_eq_ok_iff.1 hread)
  | mapHeader =>
      obtain ⟨n, hread, rfl⟩ := Outcome.map_eq_ok_iff.1 h
      exact .mapHeader (readMapHeader_eq_ok_iff.1 hread)
  | skipExtension =>
      obtain ⟨_, hread, rfl⟩ := Outcome.map_eq_ok_iff.1 h
      obtain ⟨header, type, payload, hheader, rfl⟩ := skipExtension_eq_ok_iff.1 hread
      exact .extension hheader
  | value limits =>
      obtain ⟨v, hread, rfl⟩ := Outcome.map_eq_ok_iff.1 h
      exact .value (readValue_eq_ok_iff.1 hread)

theorem Call.Begins.run (h : call.Begins item bytes rest) : call.run bytes = (.ok item, rest) := by
  cases h with
  | int32 h => exact Outcome.map_eq_ok_iff.2 ⟨_, readInt32_eq_ok_iff.2 h, rfl⟩
  | int64 h => exact Outcome.map_eq_ok_iff.2 ⟨_, readInt64_eq_ok_iff.2 ⟨_, h, rfl⟩, rfl⟩
  | boolean => exact Outcome.map_eq_ok_iff.2 ⟨_, readBoolean_eq_ok_iff.2 rfl, rfl⟩
  | single h =>
      exact Outcome.map_eq_ok_iff.2 ⟨_, readDouble_eq_ok_iff.2 (.inl ⟨_, h, rfl, rfl⟩), rfl⟩
  | double h =>
      exact Outcome.map_eq_ok_iff.2 ⟨_, readDouble_eq_ok_iff.2 (.inr ⟨_, h, rfl, rfl⟩), rfl⟩
  | nil => rfl
  | string h => exact Outcome.map_eq_ok_iff.2 ⟨_, readString_eq_ok_iff.2 h, rfl⟩
  | absent => rfl
  | present h =>
      obtain ⟨p, hp, rfl⟩ := h
      exact Outcome.map_eq_ok_iff.2
        ⟨some _, readOptionalString_eq_ok_iff.2 ⟨p, .some hp, rfl⟩, rfl⟩
  | blob h => exact Outcome.map_eq_ok_iff.2 ⟨_, readBlob_eq_ok_iff.2 ⟨_, h, rfl⟩, rfl⟩
  | arrayHeader h => exact Outcome.map_eq_ok_iff.2 ⟨_, readArrayHeader_eq_ok_iff.2 h, rfl⟩
  | mapHeader h => exact Outcome.map_eq_ok_iff.2 ⟨_, readMapHeader_eq_ok_iff.2 h, rfl⟩
  | extension h =>
      exact Outcome.map_eq_ok_iff.2 ⟨_, skipExtension_eq_ok_iff.2 ⟨_, _, _, h, rfl⟩, rfl⟩
  | value h => exact Outcome.map_eq_ok_iff.2 ⟨_, readValue_eq_ok_iff.2 h, rfl⟩

/-- **A call succeeds exactly on bytes that begin with what it reads.** -/
theorem Call.run_eq_ok_iff : call.run bytes = (.ok item, rest) ↔ call.Begins item bytes rest :=
  ⟨Call.begins_of_run, Call.Begins.run⟩

/-- What a call reads takes a byte or more. -/
theorem Call.Begins.length_lt (h : call.Begins item bytes rest) : rest.length < bytes.length := by
  have hfront : ∀ {p : List UInt8}, 0 < p.length → rest.length < (p ++ rest).length := by
    intro p hp
    rw [List.length_append]
    omega
  cases h with
  | int32 h =>
      obtain ⟨p, hp, rfl⟩ := h
      exact hfront hp.length_pos
  | int64 hp => exact hfront hp.length_pos
  | boolean | nil | absent => exact Nat.lt_succ_self _
  | single | double => exact hfront (Nat.succ_pos _)
  | string h | present h =>
      obtain ⟨p, hp, rfl⟩ := h
      exact hfront hp.length_pos
  | blob h | extension h =>
      refine hfront ?_
      have := h.length_pos
      rw [List.length_append]
      omega
  | arrayHeader h | mapHeader h =>
      obtain ⟨⟨header, hheader, rfl⟩, -⟩ := h
      exact hfront hheader.length_pos
  | value h =>
      obtain ⟨p, ⟨_, hp, -⟩, rfl⟩ := h
      exact hfront hp.length_pos

/-- What a call reads is there whatever more bytes stand behind. -/
theorem Call.Begins.append (h : call.Begins item bytes rest) (more : List UInt8) :
    call.Begins item (bytes ++ more) (rest ++ more) := by
  cases h with
  | int32 h => exact .int32 (h.append more)
  | int64 h =>
      rw [List.append_assoc]
      exact .int64 h
  | boolean => exact .boolean
  | single h =>
      rw [List.append_assoc]
      exact .single h
  | double h =>
      rw [List.append_assoc]
      exact .double h
  | nil => exact .nil
  | string h => exact .string (h.append more)
  | absent => exact .absent
  | present h => exact .present (h.append more)
  | blob h =>
      rw [List.append_assoc]
      exact .blob h
  | arrayHeader h => exact .arrayHeader (h.append more)
  | mapHeader h => exact .mapHeader (h.append more)
  | extension h =>
      rw [List.append_assoc]
      exact .extension h
  | value h => exact .value (h.append more)

/-- **What comes of one call**: it takes what it reads, or that is not there and it fails. -/
theorem Call.run_cases (call : Call) (bytes : List UInt8) :
    (∃ item rest, call.run bytes = (.ok item, rest) ∧ call.Begins item bytes rest ∧
      rest.length < bytes.length) ∨
    ∃ failure rest, call.run bytes = (.error failure, rest) ∧
      (∀ item left, ¬ call.Begins item bytes left) ∧ rest.length ≤ bytes.length := by
  cases hrun : call.run bytes with
  | mk result rest =>
    cases result with
    | ok item =>
        have hbegins := Call.run_eq_ok_iff.1 hrun
        exact .inl ⟨item, rest, rfl, hbegins, hbegins.length_lt⟩
    | error failure =>
        refine .inr ⟨failure, rest, rfl, fun item left hbegins => ?_,
          ((leavesEnd_run call).of_eq hrun).length_le⟩
        rw [hbegins.run] at hrun
        cases hrun

end Calls

/-! ### Calls one after the other -/

/-- The bytes that are unread after calls. -/
def unread (calls : List Call) (bytes : List UInt8) : List UInt8 :=
  calls.foldl (fun bytes call => (call.run bytes).2) bytes

/-- What comes of each call is what comes of it on the bytes that the calls before leave. -/
theorem getElem?_runCalls (calls : List Call) (bytes : List UInt8) (i : Nat) :
    (runCalls calls bytes)[i]? =
      calls[i]?.map fun call => call.run (unread (calls.take i) bytes) := by
  induction calls generalizing bytes i with
  | nil => rfl
  | cons call calls ih =>
      cases i with
      | zero => rfl
      | succ i => exact ih (call.run bytes).2 i

theorem unread_take_succ {calls : List Call} {i : Nat} {call : Call} (h : calls[i]? = some call)
    (bytes : List UInt8) :
    unread (calls.take (i + 1)) bytes = (call.run (unread (calls.take i) bytes)).2 := by
  rw [List.take_add_one, h, unread, List.foldl_append]
  rfl

/-- **What is unread is an end of the buffer**, whatever calls were made. -/
theorem unread_isSuffix (calls : List Call) (bytes : List UInt8) :
    unread calls bytes <:+ bytes := by
  induction calls generalizing bytes with
  | nil => exact List.suffix_refl bytes
  | cons call calls ih => exact (ih _).trans (leavesEnd_run call bytes)

/-- An end of the buffer begins at a position, and has the marker of the byte there. -/
theorem exists_position {bytes rest : List UInt8} (h : rest <:+ bytes) :
    ∃ position ≤ bytes.length, rest = bytes.drop position ∧
      rest.length = bytes.length - position ∧
      peekMarker rest = bytes[position]?.map .ofByte := by
  obtain ⟨front, rfl⟩ := h
  refine ⟨front.length, by simp, by simp, by simp, ?_⟩
  rw [List.getElem?_append_right (Nat.le_refl _), Nat.sub_self]
  cases rest with
  | nil => rfl
  | cons first rest => rfl

/-- **Calls that all succeed do not see what stands behind**, and leave it behind what they left. -/
theorem runCalls_append {calls : List Call} {bytes : List UInt8}
    (h : ∀ o ∈ runCalls calls bytes, ∃ item rest, o = (.ok item, rest)) (more : List UInt8) :
    runCalls calls (bytes ++ more) =
        (runCalls calls bytes).map (fun (result, rest) => (result, rest ++ more)) ∧
      unread calls (bytes ++ more) = unread calls bytes ++ more := by
  induction calls generalizing bytes with
  | nil => exact ⟨rfl, rfl⟩
  | cons call calls ih =>
      rw [runCalls] at h
      obtain ⟨⟨item, rest, hcall⟩, hcalls⟩ := List.forall_mem_cons.1 h
      have hmore := ((Call.run_eq_ok_iff.1 hcall).append more).run
      rw [hcall] at hcalls
      obtain ⟨hruns, hunread⟩ := ih hcalls
      constructor
      · simp only [runCalls, hcall, hmore, List.map_cons, hruns]
      · simp only [unread, List.foldl_cons, hcall, hmore]
        exact hunread

/-- A count that the bytes cannot hold is refused only until more of them come. -/
example : Call.arrayHeader.run [0x91] = (.error (.here (.shortContainer 1 0)), []) ∧
    Call.arrayHeader.run ([0x91] ++ [0xC0]) = (.ok (.count 1), [0xC0]) := ⟨rfl, rfl⟩

/-- **The cursor only goes forward.**  Before and after every call it stands at a position of the
buffer: the bytes that are unread, their number and their marker are those of the buffer from there
on.  If what a call reads is there, the call succeeds under every name of its field and takes a byte
or more, and otherwise it fails and gives no byte back.  If all calls succeed, then with more bytes
behind the buffer they give the same items, and leave what they left and these bytes behind it. -/
theorem calls_go_forward (calls : List Call) (bytes : List UInt8) :
    (∀ i, ∃ position ≤ bytes.length, unread (calls.take i) bytes = bytes.drop position ∧
      (unread (calls.take i) bytes).length = bytes.length - position ∧
      peekMarker (unread (calls.take i) bytes) = bytes[position]?.map .ofByte) ∧
    (∀ i call, calls[i]? = some call →
      let there := unread (calls.take i) bytes
      let left := unread (calls.take (i + 1)) bytes
      left <:+ there ∧
      ((∃ item, (runCalls calls bytes)[i]? = some (.ok item, left) ∧
          (∀ field, call.runAs field there = (.ok item, left)) ∧
          call.Begins item there left ∧ left.length < there.length) ∨
        ∃ failure, (runCalls calls bytes)[i]? = some (.error failure, left) ∧
          (∀ field, call.runAs field there = (.error (.ofFailure field failure), left)) ∧
          (∀ item rest, ¬ call.Begins item there rest) ∧ left.length ≤ there.length)) ∧
    ((∀ o ∈ runCalls calls bytes, ∃ item rest, o = (.ok item, rest)) → ∀ more,
      runCalls calls (bytes ++ more) =
          (runCalls calls bytes).map (fun (result, rest) => (result, rest ++ more)) ∧
        unread calls (bytes ++ more) = unread calls bytes ++ more) := by
  refine ⟨fun i => exists_position (unread_isSuffix _ _), ?_, fun h more => runCalls_append h more⟩
  intro i call hcall there left
  have hleft : left = (call.run there).2 := unread_take_succ hcall bytes
  have hith : (runCalls calls bytes)[i]? = some (call.run there) := by
    rw [getElem?_runCalls, hcall]
    rfl
  refine ⟨hleft ▸ leavesEnd_run call there, ?_⟩
  rcases call.run_cases there with
    ⟨item, rest, hrun, hbegins, hlt⟩ | ⟨failure, rest, hrun, habsent, hle⟩
  · obtain rfl : left = rest := by rw [hleft, hrun]
    refine .inl ⟨item, by rw [hith, hrun], fun field => ?_, hbegins, hlt⟩
    rw [Call.runAs, hrun]
    rfl
  · obtain rfl : left = rest := by rw [hleft, hrun]
    refine .inr ⟨failure, by rw [hith, hrun], fun field => ?_, habsent, hle⟩
    rw [Call.runAs, hrun]
    rfl

/-- A string that is cut off and an array in the place of an integer are lost as far as they were
read, and what stands behind is read.  A list of nil and an array is read with anything behind. -/
theorem calls_go_forward_resumed :
    let bytes : List UInt8 := [0xD9, 0x05, 0x92, 0xC0, 0x2A]
    let calls : List Call := [.string, .int32, .nil, .int64]
    let whole : List UInt8 := [0x92, 0xC0, 0x91, 0x2A]
    let wholeCalls : List Call := [.arrayHeader, .optionalString, .value ⟨1⟩]
    (∃ position ≤ 5, unread (calls.take 2) bytes = bytes.drop position ∧
      (unread (calls.take 2) bytes).length = 5 - position ∧
      peekMarker (unread (calls.take 2) bytes) = bytes[position]?.map .ofByte) ∧
    (calls[1]? = some Call.int32 ∧
      ∃ failure, (runCalls calls bytes)[1]? = some (Except.error failure, [0xC0, 0x2A])) ∧
    (calls[2]? = some Call.nil ∧
      ∃ item, (runCalls calls bytes)[2]? = some (Except.ok item, [0x2A])) ∧
    (∀ o ∈ runCalls wholeCalls whole, ∃ item rest, o = (.ok item, rest)) ∧
    ∀ more, runCalls wholeCalls (whole ++ more) = [(.ok (.count 2), [0xC0, 0x91, 0x2A] ++ more),
        (.ok .nothing, [0x91, 0x2A] ++ more), (.ok (.value (.array [.integer 42])), [] ++ more)] ∧
      unread wholeCalls (whole ++ more) = [] ++ more := by
  intro bytes calls whole wholeCalls
  obtain ⟨hstands, hcomes, -⟩ := calls_go_forward calls bytes
  obtain ⟨-, -, happend⟩ := calls_go_forward wholeCalls whole
  have hwhole : runCalls wholeCalls whole = [(.ok (.count 2), [0xC0, 0x91, 0x2A]),
      (.ok .nothing, [0x91, 0x2A]), (.ok (.value (.array [.integer 42])), [])] := rfl
  have hall : ∀ o ∈ runCalls wholeCalls whole, ∃ item rest, o = (.ok item, rest) := by
    rw [hwhole]
    simp
  refine ⟨hstands 2, ⟨rfl, ?_⟩, ⟨rfl, ?_⟩, hall, fun more => ?_⟩
  · obtain ⟨-, ⟨item, -, -, hbegins, -⟩ | ⟨failure, hfails, -⟩⟩ := hcomes 1 .int32 rfl
    · cases hbegins.run
    · exact ⟨failure, hfails⟩
  · obtain ⟨-, ⟨item, htakes, -⟩ | ⟨failure, -, -, habsent, -⟩⟩ := hcomes 2 .nil rfl
    · exact ⟨item, htakes⟩
    · exact absurd Call.Begins.nil (habsent .nothing [0x2A])
  · obtain ⟨hruns, hunread⟩ := happend hall more
    rw [hwhole] at hruns
    exact ⟨hruns, hunread⟩

end HubGateway.MessagePack
