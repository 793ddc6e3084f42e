/-
**The format of binary frames.**

A binary frame is a sequence of elements: the header of an array, a type number, a map of headers,
an id or nil, a target, and an array of values.  What it takes for bytes to begin with an element,
and what is then left of them, is said here by the grammar alone.  A frame is decoded if and only if
each element is there, whatever stands behind the last one.  A frame of another type is passed over,
whatever stands behind its type number.  All else is refused, and the error names the first element
that is not there: everything in front of it is, since elements are reached one after the other.

Main definitions:

* `HubGateway.BinaryFrame.IdForm`, `HeadersForm`, `ValuesForm` — the bytes of an element;
* `HubGateway.BinaryFrame.Begins`, `BeginsArray`, `BeginsMap`, `BeginsInt32`, `BeginsString`,
  `BeginsId`, `BeginsHeaders`, `BeginsValues` — bytes that begin with an element;
* `HubGateway.BinaryFrame.IsFrame`, `IsOtherFrame` — **the format**;
* `HubGateway.BinaryFrame.Part`, `Reaches` — how far the elements of a frame are there;
* `HubGateway.BinaryFrame.BreaksAt` — the first element of a frame that is not there.

Main statements:

* `HubGateway.BinaryFrame.isFrame_or_breaksAt` — every input is a frame, one of another type, or
  breaks off at some element;
* `HubGateway.BinaryFrame.decode_of_isFrame`, `decode_of_isOtherFrame`, `decode_of_breaksAt` — what
  is decoded in each case;
* `HubGateway.BinaryFrame.decode_accepts_frame_format` — **the decoder accepts exactly the format**.
-/

import HubGateway.Message.BinaryFrame
import HubGateway.Proofs.Message.Basic
import HubGateway.Proofs.MessagePack.Acceptance

set_option relaxedAutoImplicit false
set_option autoImplicit false

namespace HubGateway

open MessagePack

/-! ### Reads of one element -/

namespace MessagePack

theorem Outcome.named_ok {α : Type} (field : String) (a : α) (rest : List UInt8) :
    Outcome.named field (.ok a, rest) = (.ok a, rest) := rfl

/-- A read that gives nothing fails, under the name of its field. -/
theorem Outcome.named_of_not_ok {α : Type} {o : Outcome Cause α} (h : ∀ a rest, o ≠ (.ok a, rest))
    (field : String) :
    ∃ cause left, o.named field = (.error ⟨field, .unread cause⟩, left) := by
  obtain ⟨result, left⟩ := o
  cases result with
  | ok a => exact absurd rfl (h a left)
  | error cause => exact ⟨cause, left, rfl⟩

/-- A string is not mistaken for an absent one. -/
theorem readOptionalString_of_stringForm {s : String} {p : List UInt8} (h : StringForm s p)
    (rest : List UInt8) : readOptionalString (p ++ rest) = (.ok (some s), rest) := by
  have hread : readString (p ++ rest) = (.ok s, rest) := readString_eq_ok_iff.2 ⟨p, h, rfl⟩
  obtain ⟨first, tail, hbytes, hshape⟩ := h.beginsAs rest
  rw [hbytes] at hread ⊢
  rw [readOptionalString]
  split
  next heq =>
    simp only [takeMarker, Prod.mk.injEq, Except.ok.injEq] at heq
    rw [heq.1] at hshape
    cases hshape
  next => rw [hread, Outcome.map_ok]

/-- Where no value can be read, the field fails at the value or within it. -/
theorem readField_of_not_ok {limits : Limits} {bytes : List UInt8}
    (h : ∀ v rest, readValue limits bytes ≠ (.ok v, rest)) (field : String) :
    ∃ path cause left,
      readField limits field bytes = (.error ⟨fieldAt field path, cause⟩, left) := by
  unfold readField
  generalize readValue limits bytes = o at h ⊢
  obtain ⟨result, left⟩ := o
  cases result with
  | ok v => exact absurd rfl (h v left)
  | error failure => exact ⟨failure.path, _, left, rfl⟩

end MessagePack

namespace BinaryFrame

/-! ### Elements -/

/-- The bytes of an id, or nil. -/
inductive IdForm : Option String → List UInt8 → Prop
  | none : IdForm none [0xC0]
  | some {id : String} {p : List UInt8} (h : StringForm id p) : IdForm (some id) p

/-- The bytes of headers, a key and a value each. -/
inductive HeadersForm : List (String × String) → List UInt8 → Prop
  | nil : HeadersForm [] []
  | cons {key value : String} {headers : List (String × String)} {p q r : List UInt8}
      (hkey : StringForm key p) (hvalue : StringForm value q) (h : HeadersForm headers r) :
      HeadersForm ((key, value) :: headers) (p ++ (q ++ r))

/-- The bytes of a value that is not nested too deep. -/
def ValueForm (limits : Limits) (v : Value) (p : List UInt8) : Prop :=
  ∃ containers, Encodes containers v p ∧ Within limits.maxDepth containers

/-- The bytes of values, none of which is nested too deep. -/
inductive ValuesForm (limits : Limits) : List Value → List UInt8 → Prop
  | nil : ValuesForm limits [] []
  | cons {v : Value} {values : List Value} {p q : List UInt8} (h : ValueForm limits v p)
      (hvalues : ValuesForm limits values q) : ValuesForm limits (v :: values) (p ++ q)

/-- The bytes begin with something of a form, and `rest` is what is left behind it. -/
def Begins (form : List UInt8 → Prop) (bytes rest : List UInt8) : Prop :=
  ∃ p, form p ∧ bytes = p ++ rest

/-- The bytes begin with the header of an array of `n` items, and what is left may hold them. -/
def BeginsArray (n : Nat) (bytes rest : List UInt8) : Prop :=
  Begins (SizeForm.array.Writes n) bytes rest ∧ n ≤ rest.length

/-- The bytes begin with the header of a map of `n` entries, and what is left may hold them. -/
def BeginsMap (n : Nat) (bytes rest : List UInt8) : Prop :=
  Begins (SizeForm.map.Writes n) bytes rest ∧ n * 2 ≤ rest.length

/-- The bytes begin with an integer of 32 bits, in any width. -/
def BeginsInt32 (i : Int32) (bytes rest : List UInt8) : Prop :=
  Begins (IntegerForm i.toInt) bytes rest

/-- The bytes begin with a string. -/
def BeginsString (s : String) (bytes rest : List UInt8) : Prop :=
  Begins (StringForm s) bytes rest

/-- The bytes begin with nil or a string. -/
def BeginsId (id : Option String) (bytes rest : List UInt8) : Prop :=
  Begins (IdForm id) bytes rest

/-- The bytes begin with headers, each of them two strings. -/
def BeginsHeaders (headers : List (String × String)) (bytes rest : List UInt8) : Prop :=
  Begins (HeadersForm headers) bytes rest

/-- The bytes begin with a value that is not nested too deep. -/
def BeginsValue (limits : Limits) (v : Value) (bytes rest : List UInt8) : Prop :=
  Begins (ValueForm limits v) bytes rest

/-- The bytes begin with values, none of which is nested too deep. -/
def BeginsValues (limits : Limits) (values : List Value) (bytes rest : List UInt8) : Prop :=
  Begins (ValuesForm limits values) bytes rest

section Elements

variable {limits : Limits} {bytes middle left rest : List UInt8}

theorem BeginsHeaders.nil : BeginsHeaders [] bytes bytes := ⟨[], .nil, rfl⟩

theorem BeginsHeaders.cons {key value : String} {headers : List (String × String)}
    (hkey : BeginsString key bytes middle) (hvalue : BeginsString value middle left)
    (h : BeginsHeaders headers left rest) :
    BeginsHeaders ((key, value) :: headers) bytes rest := by
  obtain ⟨p, hp, rfl⟩ := hkey
  obtain ⟨q, hq, rfl⟩ := hvalue
  obtain ⟨r, hr, rfl⟩ := h
  exact ⟨p ++ (q ++ r), .cons hp hq hr, by simp only [List.append_assoc]⟩

theorem BeginsValues.nil : BeginsValues limits [] bytes bytes := ⟨[], .nil, rfl⟩

theorem BeginsValues.cons {v : Value} {values : List Value} (h : BeginsValue limits v bytes left)
    (hvalues : BeginsValues limits values left rest) :
    BeginsValues limits (v :: values) bytes rest := by
  obtain ⟨p, hp, rfl⟩ := h
  obtain ⟨q, hq, rfl⟩ := hvalues
  exact ⟨p ++ q, .cons hp hq, by simp only [List.append_assoc]⟩

/-- Nil or a string is read exactly from the bytes that begin with it. -/
theorem readOptionalString_eq_ok_iff {id : Option String} :
    readOptionalString bytes = (.ok id, rest) ↔ BeginsId id bytes rest := by
  constructor
  · intro h
    unfold readOptionalString at h
    split at h
    next left hmarker =>
      cases h
      cases bytes with
      | nil => cases hmarker
      | cons first bytes =>
          simp only [takeMarker, Prod.mk.injEq, Except.ok.injEq] at hmarker
          obtain ⟨hfirst, rfl⟩ := hmarker
          rw [(ofByte_eq_nil_iff first).1 hfirst]
          exact ⟨[0xC0], .none, rfl⟩
    next =>
      obtain ⟨s, hread, rfl⟩ := Outcome.map_eq_ok_iff.1 h
      obtain ⟨p, hp, hbytes⟩ := readString_eq_ok_iff.1 hread
      exact ⟨p, .some hp, hbytes⟩
  · rintro ⟨p, hp, rfl⟩
    cases hp with
    | none => rfl
    | some hp => exact readOptionalString_of_stringForm hp rest

/-- A value is read exactly from the bytes that begin with it. -/
theorem readValue_eq_ok_iff {v : Value} :
    readValue limits bytes = (.ok v, rest) ↔ BeginsValue limits v bytes rest := by
  constructor
  · intro h
    obtain ⟨containers, p, hp, hwithin, hbytes⟩ := acceptsOnly_readValueWithin _ _ h
    exact ⟨p, ⟨containers, hp, hwithin⟩, hbytes⟩
  · rintro ⟨p, ⟨containers, hp, hwithin⟩, rfl⟩
    exact acceptsAll_readValueWithin _ _ hp hwithin rest

end Elements

/-! ### The format -/

/-- **The bytes are a frame of an invocation**, and `rest` behind it.  The count of the frame itself
has to be possible and is not used, and neither are the headers. -/
inductive IsFrame (limits : Limits) (bytes : List UInt8) : Invocation → List UInt8 → Prop
  | intro {n : Nat} {headers : List (String × String)} {id : Option String} {target : String}
      {values : List Value} {atType atHeaders atPairs atId atTarget atArguments atValues rest :
        List UInt8}
      (hframe : BeginsArray n bytes atType)
      (htype : BeginsInt32 invocationType atType atHeaders)
      (hheaders : BeginsMap headers.length atHeaders atPairs)
      (hpairs : BeginsHeaders headers atPairs atId)
      (hid : BeginsId id atId atTarget)
      (htarget : BeginsString target atTarget atArguments)
      (harguments : BeginsArray values.length atArguments atValues)
      (hvalues : BeginsValues limits values atValues rest) :
      IsFrame limits bytes ⟨invocationType, Message.keptText id, target, values⟩ rest

/-- The bytes begin as a frame that has the number of another type. -/
def IsOtherFrame (bytes : List UInt8) : Prop :=
  ∃ n i left rest, BeginsArray n bytes left ∧ BeginsInt32 i left rest ∧ i ≠ invocationType

/-- An element of a frame, with what the elements in front of it have told. -/
inductive Part where
  | frame
  | messageType
  | headers
  | headerKey (index : Nat)
  | headerValue (index : Nat)
  | invocationId
  | target (id : Option String)
  | arguments (id : Option String) (target : String)
  | argument (index : Nat)

/-- All elements in front of a part are there, and `rest` is what is left behind them. -/
inductive Reaches (limits : Limits) (bytes : List UInt8) : Part → List UInt8 → Prop
  | frame : Reaches limits bytes .frame bytes
  | messageType {n : Nat} {rest : List UInt8} (h : BeginsArray n bytes rest) :
      Reaches limits bytes .messageType rest
  | headers {left rest : List UInt8} (hreaches : Reaches limits bytes .messageType left)
      (h : BeginsInt32 invocationType left rest) : Reaches limits bytes .headers rest
  | headerKey {n : Nat} {headers : List (String × String)} {left pairs rest : List UInt8}
      (hreaches : Reaches limits bytes .headers left) (h : BeginsMap n left pairs)
      (hpairs : BeginsHeaders headers pairs rest) (hcount : headers.length < n) :
      Reaches limits bytes (.headerKey headers.length) rest
  | headerValue {index : Nat} {key : String} {left rest : List UInt8}
      (hreaches : Reaches limits bytes (.headerKey index) left) (h : BeginsString key left rest) :
      Reaches limits bytes (.headerValue index) rest
  | invocationId {headers : List (String × String)} {left pairs rest : List UInt8}
      (hreaches : Reaches limits bytes .headers left) (h : BeginsMap headers.length left pairs)
      (hpairs : BeginsHeaders headers pairs rest) : Reaches limits bytes .invocationId rest
  | target {id : Option String} {left rest : List UInt8}
      (hreaches : Reaches limits bytes .invocationId left) (h : BeginsId id left rest) :
      Reaches limits bytes (.target id) rest
  | arguments {id : Option String} {target : String} {left rest : List UInt8}
      (hreaches : Reaches limits bytes (.target id) left) (h : BeginsString target left rest) :
      Reaches limits bytes (.arguments id target) rest
  | argument {id : Option String} {target : String} {n : Nat} {values : List Value}
      {left items rest : List UInt8} (hreaches : Reaches limits bytes (.arguments id target) left)
      (h : BeginsArray n left items) (hvalues : BeginsValues limits values items rest)
      (hcount : values.length < n) : Reaches limits bytes (.argument values.length) rest

/-- The bytes begin with the element of a part. -/
def Part.Readable (limits : Limits) : Part → List UInt8 → Prop
  | .frame, bytes | .arguments _ _, bytes => ∃ n rest, BeginsArray n bytes rest
  | .messageType, bytes => ∃ i rest, BeginsInt32 i bytes rest
  | .headers, bytes => ∃ n rest, BeginsMap n bytes rest
  | .headerKey _, bytes | .headerValue _, bytes | .target _, bytes =>
    ∃ s rest, BeginsString s bytes rest
  | .invocationId, bytes => ∃ id rest, BeginsId id bytes rest
  | .argument _, bytes => ∃ v rest, BeginsValue limits v bytes rest

/-- The names of the field of a part; an argument is named by a path that begins with it. -/
def Part.Names : Part → String → Prop
  | .frame, field => field = "frame"
  | .messageType, field => field = "messageType"
  | .headers, field => field = "headers"
  | .headerKey index, field => field = s!"headers[{index}].Key"
  | .headerValue index, field => field = s!"headers[{index}].Value"
  | .invocationId, field => field = "invocationId"
  | .target _, field => field = "target"
  | .arguments _ _, field => field = "arguments"
  | .argument index, field => ∃ path, field = fieldAt s!"arguments[{index}]" path

/-- The first element that is not there: those in front of it are. -/
def BreaksAt (limits : Limits) (bytes : List UInt8) (part : Part) : Prop :=
  ∃ rest, Reaches limits bytes part rest ∧ ¬ part.Readable limits rest

/-- Values behind all other elements make a frame. -/
theorem Reaches.isFrame {limits : Limits} {bytes left items rest : List UInt8} {id : Option String}
    {target : String} {values : List Value} (h : Reaches limits bytes (.arguments id target) left)
    (harguments : BeginsArray values.length left items)
    (hvalues : BeginsValues limits values items rest) :
    IsFrame limits bytes ⟨invocationType, Message.keptText id, target, values⟩ rest := by
  -- the elements are reached one after the other
  cases h with
  | arguments h htarget =>
  cases h with
  | target h hid =>
  cases h with
  | invocationId h hheaders hpairs =>
  cases h with
  | headers h htype =>
  cases h with
  | messageType hframe =>
      exact .intro hframe htype hheaders hpairs hid htarget harguments hvalues

/-! ### One of three -/

/-- Headers are there up to their number, or one of them has no key, or no value. -/
theorem beginsHeaders_cases (n : Nat) (bytes : List UInt8) :
    (∃ headers rest, headers.length = n ∧ BeginsHeaders headers bytes rest) ∨
      ∃ headers left, headers.length < n ∧ BeginsHeaders headers bytes left ∧
        ((¬ ∃ s rest, BeginsString s left rest) ∨
          ∃ key middle, BeginsString key left middle ∧ ¬ ∃ s rest, BeginsString s middle rest) := by
  induction n generalizing bytes with
  | zero => exact .inl ⟨[], bytes, rfl, .nil⟩
  | succ n ih =>
      by_cases hkey : ∃ s rest, BeginsString s bytes rest
      case neg => exact .inr ⟨[], bytes, Nat.succ_pos n, .nil, .inl hkey⟩
      obtain ⟨key, middle, hkey⟩ := hkey
      by_cases hvalue : ∃ s rest, BeginsString s middle rest
      case neg => exact .inr ⟨[], bytes, Nat.succ_pos n, .nil, .inr ⟨key, middle, hkey, hvalue⟩⟩
      obtain ⟨value, left, hvalue⟩ := hvalue
      -- the first header is there, the others decide
      rcases ih left with ⟨headers, rest, rfl, h⟩ | ⟨headers, rest, hlt, h, hbreaks⟩
      · exact .inl ⟨(key, value) :: headers, rest, rfl, .cons hkey hvalue h⟩
      · exact .inr
          ⟨(key, value) :: headers, rest, Nat.succ_lt_succ hlt, .cons hkey hvalue h, hbreaks⟩

/-- Values are there up to their number, or one of them is not. -/
theorem beginsValues_cases (limits : Limits) (n : Nat) (bytes : List UInt8) :
    (∃ values rest, values.length = n ∧ BeginsValues limits values bytes rest) ∨
      ∃ values left, values.length < n ∧ BeginsValues limits values bytes left ∧
        ¬ ∃ v rest, BeginsValue limits v left rest := by
  induction n generalizing bytes with
  | zero => exact .inl ⟨[], bytes, rfl, .nil⟩
  | succ n ih =>
      by_cases hvalue : ∃ v rest, BeginsValue limits v bytes rest
      case neg => exact .inr ⟨[], bytes, Nat.succ_pos n, .nil, hvalue⟩
      obtain ⟨v, left, hvalue⟩ := hvalue
      rcases ih left with ⟨values, rest, rfl, h⟩ | ⟨values, rest, hlt, h, hbreaks⟩
      · exact .inl ⟨v :: values, rest, rfl, .cons hvalue h⟩
      · exact .inr ⟨v :: values, rest, Nat.succ_lt_succ hlt, .cons hvalue h, hbreaks⟩

/-- **Every input is a frame, one of another type, or breaks off at some element.** -/
theorem isFrame_or_breaksAt (limits : Limits) (bytes : List UInt8) :
    (∃ i rest, IsFrame limits bytes i rest) ∨ IsOtherFrame bytes ∨
      ∃ part, BreaksAt limits bytes part := by
  -- in the order of the elements, each of which is there from here on
  have hstart : Reaches limits bytes .frame bytes := .frame
  by_cases hframe : Part.frame.Readable limits bytes
  case neg => exact .inr (.inr ⟨_, bytes, hstart, hframe⟩)
  obtain ⟨n, atType, hframe⟩ := hframe
  have hreachesType : Reaches limits bytes .messageType atType := .messageType hframe
  by_cases htype : Part.messageType.Readable limits atType
  case neg => exact .inr (.inr ⟨_, atType, hreachesType, htype⟩)
  obtain ⟨i, atHeaders, htype⟩ := htype
  by_cases hi : i = invocationType
  case neg => exact .inr (.inl ⟨n, i, atType, atHeaders, hframe, htype, hi⟩)
  subst hi
  have hreachesHeaders : Reaches limits bytes .headers atHeaders := .headers hreachesType htype
  by_cases hheaders : Part.headers.Readable limits atHeaders
  case neg => exact .inr (.inr ⟨_, atHeaders, hreachesHeaders, hheaders⟩)
  obtain ⟨count, atPairs, hheaders⟩ := hheaders
  rcases beginsHeaders_cases count atPairs with
    ⟨headers, atId, rfl, hpairs⟩ | ⟨headers, left, hlt, hpairs, hkey | ⟨key, middle, hkey, hvalue⟩⟩
  case inr.inl =>
    have hreachesKey := Reaches.headerKey hreachesHeaders hheaders hpairs hlt
    exact .inr (.inr ⟨_, left, hreachesKey, hkey⟩)
  case inr.inr =>
    have hreachesKey := Reaches.headerKey hreachesHeaders hheaders hpairs hlt
    exact .inr (.inr ⟨_, middle, .headerValue hreachesKey hkey, hvalue⟩)
  have hreachesId := Reaches.invocationId hreachesHeaders hheaders hpairs
  by_cases hid : Part.invocationId.Readable limits atId
  case neg => exact .inr (.inr ⟨_, atId, hreachesId, hid⟩)
  obtain ⟨id, atTarget, hid⟩ := hid
  have hreachesTarget := Reaches.target hreachesId hid
  by_cases htarget : (Part.target id).Readable limits atTarget
  case neg => exact .inr (.inr ⟨_, atTarget, hreachesTarget, htarget⟩)
  obtain ⟨target, atArguments, htarget⟩ := htarget
  have hreachesArguments := Reaches.arguments hreachesTarget htarget
  by_cases harguments : (Part.arguments id target).Readable limits atArguments
  case neg => exact .inr (.inr ⟨_, atArguments, hreachesArguments, harguments⟩)
  obtain ⟨count, atValues, harguments⟩ := harguments
  rcases beginsValues_cases limits count atValues with
    ⟨values, rest, rfl, hvalues⟩ | ⟨values, left, hlt, hvalues, hvalue⟩
  · exact .inl ⟨_, rest, hreachesArguments.isFrame harguments hvalues⟩
  · exact .inr (.inr ⟨_, left, .argument hreachesArguments harguments hvalues hlt, hvalue⟩)

/-! ### Decoding what is there -/

/-- What follows the target of an invocation. -/
def readFromArguments (limits : Limits) (id : Option String) (target : String)
    (bytes : List UInt8) : Except DecodeError Invocation :=
  match (readArrayHeader bytes).named "arguments" with
  | (.error e, _) => .error e
  | (.ok count, rest) =>
    match readArguments limits count 0 [] rest with
    | .error e => .error e
    | .ok arguments => .ok ⟨invocationType, id.bind nonEmpty, target, arguments⟩

/-- What follows the id of an invocation. -/
def readFromTarget (limits : Limits) (id : Option String) (bytes : List UInt8) :
    Except DecodeError Invocation :=
  match (readString bytes).named "target" with
  | (.error e, _) => .error e
  | (.ok target, rest) => readFromArguments limits id target rest

/-- What follows the headers of an invocation. -/
def readFromId (limits : Limits) (bytes : List UInt8) : Except DecodeError Invocation :=
  match (readOptionalString bytes).named "invocationId" with
  | (.error e, _) => .error e
  | (.ok id, rest) => readFromTarget limits id rest

/-- What follows the header of a frame. -/
def readFromType (limits : Limits) (bytes : List UInt8) : Except DecodeError (Option Message) :=
  match (readInt32 bytes).named "messageType" with
  | (.error e, _) => .error e
  | (.ok messageType, rest) =>
    if messageType = invocationType then
      (readInvocation limits rest).map fun m => some (.invocation m)
    else .ok none

/-- A frame is read header first. -/
theorem decode_eq (limits : Limits) (bytes : List UInt8) :
    decode limits bytes =
      match (readArrayHeader bytes).named "frame" with
      | (.error e, _) => .error e
      | (.ok _, rest) => readFromType limits rest := rfl

/-- An invocation is read headers first. -/
theorem readInvocation_eq (limits : Limits) (bytes : List UInt8) :
    readInvocation limits bytes =
      match (readMapHeader bytes).named "headers" with
      | (.error e, _) => .error e
      | (.ok count, rest) =>
        match skipHeaders count 0 rest with
        | .error e => .error e
        | .ok rest => readFromId limits rest := rfl

section Decoding

variable {limits : Limits} {bytes rest : List UInt8}

/-- Headers that are there are passed over. -/
theorem skipHeaders_of_begins {headers : List (String × String)}
    (h : BeginsHeaders headers bytes rest) (more index : Nat) :
    skipHeaders (headers.length + more) index bytes =
      skipHeaders more (index + headers.length) rest := by
  obtain ⟨p, h, rfl⟩ := h
  induction h generalizing index with
  | nil => simp
  | @cons key value headers p q r hkey hvalue _ ih =>
      have hreadKey : readString (p ++ (q ++ (r ++ rest))) = (.ok key, q ++ (r ++ rest)) :=
        readString_eq_ok_iff.2 ⟨p, hkey, rfl⟩
      have hreadValue : readString (q ++ (r ++ rest)) = (.ok value, r ++ rest) :=
        readString_eq_ok_iff.2 ⟨q, hvalue, rfl⟩
      rw [List.length_cons, Nat.add_right_comm, skipHeaders, List.append_assoc, List.append_assoc,
        hreadKey]
      simp only [Outcome.named_ok, hreadValue, ih]
      rw [Nat.add_assoc, Nat.add_comm 1]

/-- Values that are there are kept, the last one first. -/
theorem readArguments_of_begins {values : List Value} (h : BeginsValues limits values bytes rest)
    (more index : Nat) (acc : List Value) :
    readArguments limits (values.length + more) index acc bytes =
      readArguments limits more (index + values.length) (values.reverse ++ acc) rest := by
  obtain ⟨p, h, rfl⟩ := h
  induction h generalizing index acc with
  | nil => simp
  | @cons v values p q hvalue _ ih =>
      have hread : readValue limits (p ++ (q ++ rest)) = (.ok v, q ++ rest) :=
        readValue_eq_ok_iff.2 ⟨p, hvalue, rfl⟩
      rw [List.length_cons, Nat.add_right_comm, readArguments, readField, List.append_assoc, hread,
        Outcome.map_ok]
      simp only [id, ih, List.reverse_cons, List.append_assoc, List.singleton_append]
      rw [Nat.add_assoc, Nat.add_comm 1]

/-- Behind the header of a frame its type number is read. -/
theorem decode_of_reaches_messageType (h : Reaches limits bytes .messageType rest) :
    decode limits bytes = readFromType limits rest := by
  cases h with
  | messageType h => rw [decode_eq, readArrayHeader_eq_ok_iff.2 h, Outcome.named_ok]

/-- Behind the type number of an invocation the invocation is read. -/
theorem decode_of_reaches_headers (h : Reaches limits bytes .headers rest) :
    decode limits bytes =
      (readInvocation limits rest).map fun m => some (.invocation m) := by
  cases h with
  | headers hreaches h =>
      rw [decode_of_reaches_messageType hreaches, readFromType, readInt32_eq_ok_iff.2 h,
        Outcome.named_ok]
      exact if_pos rfl

theorem decode_of_reaches_invocationId (h : Reaches limits bytes .invocationId rest) :
    decode limits bytes = (readFromId limits rest).map fun m => some (.invocation m) := by
  cases h with
  | invocationId hreaches h hpairs =>
      rw [decode_of_reaches_headers hreaches, readInvocation_eq, readMapHeader_eq_ok_iff.2 h,
        Outcome.named_ok]
      have hall := skipHeaders_of_begins hpairs 0 0
      simp only [Nat.add_zero, skipHeaders] at hall
      simp only [hall]

theorem decode_of_reaches_target {id : Option String} (h : Reaches limits bytes (.target id) rest) :
    decode limits bytes = (readFromTarget limits id rest).map fun m => some (.invocation m) := by
  cases h with
  | target hreaches h =>
      rw [decode_of_reaches_invocationId hreaches, readFromId, readOptionalString_eq_ok_iff.2 h,
        Outcome.named_ok]

theorem decode_of_reaches_arguments {id : Option String} {target : String}
    (h : Reaches limits bytes (.arguments id target) rest) :
    decode limits bytes =
      (readFromArguments limits id target rest).map fun m => some (.invocation m) := by
  cases h with
  | arguments hreaches h =>
      rw [decode_of_reaches_target hreaches, readFromTarget, readString_eq_ok_iff.2 h,
        Outcome.named_ok]

/-- **A frame is decoded**, whatever stands behind it. -/
theorem decode_of_isFrame {i : Invocation} (h : IsFrame limits bytes i rest) :
    decode limits bytes = .ok (some (.invocation i)) := by
  cases h with
  | intro hframe htype hheaders hpairs hid htarget harguments hvalues =>
      have hreaches : Reaches limits bytes (.arguments _ _) _ :=
        .arguments (.target (.invocationId (.headers (.messageType hframe) htype)
          hheaders hpairs) hid) htarget
      have hall := readArguments_of_begins hvalues 0 0 []
      simp only [Nat.add_zero, List.append_nil, readArguments, List.reverse_reverse] at hall
      rw [decode_of_reaches_arguments hreaches, readFromArguments,
        readArrayHeader_eq_ok_iff.2 harguments, Outcome.named_ok]
      simp only [hall, Message.bind_nonEmpty]
      rfl

/-- **A frame of another type is passed over**, whatever stands behind its type number. -/
theorem decode_of_isOtherFrame (limits : Limits) (h : IsOtherFrame bytes) :
    decode limits bytes = .ok none := by
  obtain ⟨n, i, left, rest, hframe, htype, hi⟩ := h
  rw [decode_of_reaches_messageType (.messageType hframe), readFromType,
    readInt32_eq_ok_iff.2 htype, Outcome.named_ok]
  exact if_neg hi

/-- A missing key or value of a header is named by the header's index. -/
theorem skipHeaders_of_break {part : Part} {index : Nat} (more : Nat)
    (h : (part = .headerKey index ∧ ¬ ∃ s rest, BeginsString s bytes rest) ∨
      (part = .headerValue index ∧ ∃ key middle, BeginsString key bytes middle ∧
        ¬ ∃ s rest, BeginsString s middle rest)) :
    ∃ e, skipHeaders (more + 1) index bytes = .error e ∧ part.Names e.field := by
  rcases h with ⟨rfl, hkey⟩ | ⟨rfl, key, middle, hkey, hvalue⟩
  · obtain ⟨cause, left, heq⟩ := Outcome.named_of_not_ok
      (fun s rest hread => hkey ⟨s, rest, readString_eq_ok_iff.1 hread⟩) s!"headers[{index}].Key"
    exact ⟨⟨_, .unread cause⟩, by rw [skipHeaders, heq], rfl⟩
  · obtain ⟨cause, left, heq⟩ := Outcome.named_of_not_ok
      (fun s rest hread => hvalue ⟨s, rest, readString_eq_ok_iff.1 hread⟩)
      s!"headers[{index}].Value"
    refine ⟨⟨_, .unread cause⟩, ?_, rfl⟩
    rw [skipHeaders, readString_eq_ok_iff.2 hkey, Outcome.named_ok]
    simp only [heq]

/-- Where headers break off, so does the frame. -/
theorem decode_of_skipHeaders {headers : List (String × String)} {n : Nat}
    {left pairs : List UInt8} {part : Part} (hreaches : Reaches limits bytes .headers left)
    (hmap : BeginsMap n left pairs) (hpairs : BeginsHeaders headers pairs rest)
    (hcount : headers.length < n)
    (hbreak : ∀ more, ∃ e, skipHeaders (more + 1) headers.length rest = .error e ∧
      part.Names e.field) :
    ∃ e, decode limits bytes = .error e ∧ part.Names e.field := by
  obtain ⟨more, rfl⟩ := Nat.exists_eq_add_of_lt hcount
  obtain ⟨e, he, hnames⟩ := hbreak more
  refine ⟨e, ?_, hnames⟩
  rw [decode_of_reaches_headers hreaches, readInvocation_eq, readMapHeader_eq_ok_iff.2 hmap,
    Outcome.named_ok]
  simp only [Nat.add_assoc, skipHeaders_of_begins hpairs, Nat.zero_add, he]
  rfl

/-- **The error names the first element that is not there.** -/
theorem decode_of_breaksAt {part : Part} (h : BreaksAt limits bytes part) :
    ∃ e, decode limits bytes = .error e ∧ part.Names e.field := by
  obtain ⟨rest, hreaches, hunreadable⟩ := h
  cases hreaches with
  | frame =>
      obtain ⟨cause, left, heq⟩ := Outcome.named_of_not_ok
        (fun n left hread => hunreadable ⟨n, left, readArrayHeader_eq_ok_iff.1 hread⟩) "frame"
      exact ⟨⟨_, .unread cause⟩, by rw [decode_eq, heq], rfl⟩
  | messageType h =>
      obtain ⟨cause, left, heq⟩ := Outcome.named_of_not_ok
        (fun i left hread => hunreadable ⟨i, left, readInt32_eq_ok_iff.1 hread⟩) "messageType"
      refine ⟨⟨_, .unread cause⟩, ?_, rfl⟩
      rw [decode_of_reaches_messageType (.messageType h), readFromType, heq]
  | headers hbefore h =>
      obtain ⟨cause, left, heq⟩ := Outcome.named_of_not_ok
        (fun n left hread => hunreadable ⟨n, left, readMapHeader_eq_ok_iff.1 hread⟩) "headers"
      refine ⟨⟨_, .unread cause⟩, ?_, rfl⟩
      rw [decode_of_reaches_headers (.headers hbefore h), readInvocation_eq, heq]
      rfl
  | headerKey hbefore h hpairs hcount =>
      exact decode_of_skipHeaders hbefore h hpairs hcount fun more =>
        skipHeaders_of_break more (.inl ⟨rfl, hunreadable⟩)
  | headerValue hbefore hkey =>
      cases hbefore with
      | headerKey hbefore h hpairs hcount =>
          exact decode_of_skipHeaders hbefore h hpairs hcount fun more =>
            skipHeaders_of_break more (.inr ⟨rfl, _, _, hkey, hunreadable⟩)
  | invocationId hbefore h hpairs =>
      obtain ⟨cause, left, heq⟩ := Outcome.named_of_not_ok
        (fun id left hread => hunreadable ⟨id, left, readOptionalString_eq_ok_iff.1 hread⟩)
        "invocationId"
      refine ⟨⟨_, .unread cause⟩, ?_, rfl⟩
      rw [decode_of_reaches_invocationId (.invocationId hbefore h hpairs), readFromId, heq]
      rfl
  | target hbefore h =>
      obtain ⟨cause, left, heq⟩ := Outcome.named_of_not_ok
        (fun s left hread => hunreadable ⟨s, left, readString_eq_ok_iff.1 hread⟩) "target"
      refine ⟨⟨_, .unread cause⟩, ?_, rfl⟩
      rw [decode_of_reaches_target (.target hbefore h), readFromTarget, heq]
      rfl
  | arguments hbefore h =>
      obtain ⟨cause, left, heq⟩ := Outcome.named_of_not_ok
        (fun n left hread => hunreadable ⟨n, left, readArrayHeader_eq_ok_iff.1 hread⟩) "arguments"
      refine ⟨⟨_, .unread cause⟩, ?_, rfl⟩
      rw [decode_of_reaches_arguments (.arguments hbefore h), readFromArguments, heq]
      rfl
  | @argument id target n values left items _ hbefore h hvalues hcount =>
      obtain ⟨more, rfl⟩ := Nat.exists_eq_add_of_lt hcount
      obtain ⟨path, cause, after, heq⟩ := readField_of_not_ok
        (fun v left hread => hunreadable ⟨v, left, readValue_eq_ok_iff.1 hread⟩)
        s!"arguments[{values.length}]"
      have hall : readArguments limits (values.length + (more + 1)) 0 [] items =
          .error ⟨fieldAt s!"arguments[{values.length}]" path, cause⟩ := by
        rw [readArguments_of_begins hvalues, readArguments, Nat.zero_add, heq]
      refine ⟨⟨_, cause⟩, ?_, path, rfl⟩
      rw [decode_of_reaches_arguments hbefore, readFromArguments, readArrayHeader_eq_ok_iff.2 h,
        Outcome.named_ok]
      simp only [Nat.add_assoc, hall]
      rfl

end Decoding

/-! ### What stands behind a frame -/

section Append

variable {bytes rest : List UInt8} (more : List UInt8)

/-- What the bytes begin with is there whatever more bytes stand behind. -/
theorem Begins.append {form : List UInt8 → Prop} (h : Begins form bytes rest) :
    Begins form (bytes ++ more) (rest ++ more) := by
  obtain ⟨p, hp, rfl⟩ := h
  exact ⟨p, hp, List.append_assoc ..⟩

theorem BeginsArray.append {n : Nat} (h : BeginsArray n bytes rest) :
    BeginsArray n (bytes ++ more) (rest ++ more) := by
  obtain ⟨hheader, hle⟩ := h
  exact ⟨hheader.append more, by rw [List.length_append]; omega⟩

theorem BeginsMap.append {n : Nat} (h : BeginsMap n bytes rest) :
    BeginsMap n (bytes ++ more) (rest ++ more) := by
  obtain ⟨hheader, hle⟩ := h
  exact ⟨hheader.append more, by rw [List.length_append]; omega⟩

/-- Bytes behind a frame are behind it. -/
theorem IsFrame.append {limits : Limits} {i : Invocation} (h : IsFrame limits bytes i rest) :
    IsFrame limits (bytes ++ more) i (rest ++ more) := by
  cases h with
  | intro hframe htype hheaders hpairs hid htarget harguments hvalues =>
      exact .intro (hframe.append more) (htype.append more) (hheaders.append more)
        (hpairs.append more) (hid.append more) (htarget.append more) (harguments.append more)
        (hvalues.append more)

theorem IsOtherFrame.append (h : IsOtherFrame bytes) : IsOtherFrame (bytes ++ more) := by
  obtain ⟨n, i, left, rest, hframe, htype, hi⟩ := h
  exact ⟨n, i, left ++ more, rest ++ more, hframe.append more, htype.append more, hi⟩

end Append

/-! ### The decoder -/

section Accepts

variable {limits : Limits} {bytes : List UInt8}

/-- Only a frame gives a message, and the message is the frame's. -/
theorem decode_eq_some_iff {m : Message} :
    decode limits bytes = .ok (some m) ↔
      ∃ i rest, IsFrame limits bytes i rest ∧ m = .invocation i := by
  constructor
  · intro h
    rcases isFrame_or_breaksAt limits bytes with ⟨i, rest, hframe⟩ | hother | ⟨part, hbreaks⟩
    · rw [decode_of_isFrame hframe] at h
      cases h
      exact ⟨i, rest, hframe, rfl⟩
    · rw [decode_of_isOtherFrame limits hother] at h
      cases h
    · obtain ⟨e, he, -⟩ := decode_of_breaksAt hbreaks
      rw [he] at h
      cases h
  · rintro ⟨i, rest, hframe, rfl⟩
    exact decode_of_isFrame hframe

/-- Only a frame of another type gives no message. -/
theorem decode_eq_none_iff : decode limits bytes = .ok none ↔ IsOtherFrame bytes := by
  constructor
  · intro h
    rcases isFrame_or_breaksAt limits bytes with ⟨i, rest, hframe⟩ | hother | ⟨part, hbreaks⟩
    · rw [decode_of_isFrame hframe] at h
      cases h
    · exact hother
    · obtain ⟨e, he, -⟩ := decode_of_breaksAt hbreaks
      rw [he] at h
      cases h
  · exact decode_of_isOtherFrame limits

/-- An error has the name of the element at which the frame breaks off. -/
theorem breaksAt_of_decode {e : DecodeError} (h : decode limits bytes = .error e) :
    ∃ part, BreaksAt limits bytes part ∧ part.Names e.field := by
  rcases isFrame_or_breaksAt limits bytes with ⟨i, rest, hframe⟩ | hother | ⟨part, hbreaks⟩
  · rw [decode_of_isFrame hframe] at h
    cases h
  · rw [decode_of_isOtherFrame limits hother] at h
    cases h
  · obtain ⟨e', he', hnames⟩ := decode_of_breaksAt hbreaks
    rw [he'] at h
    cases h
    exact ⟨part, hbreaks, hnames⟩

/-- What is decoded does not depend on what stands behind it. -/
theorem decode_append_of_ok {result : Option Message} (h : decode limits bytes = .ok result)
    (more : List UInt8) : decode limits (bytes ++ more) = .ok result := by
  cases result with
  | none => exact decode_eq_none_iff.2 ((decode_eq_none_iff.1 h).append more)
  | some m =>
      obtain ⟨i, rest, hframe, rfl⟩ := decode_eq_some_iff.1 h
      exact decode_of_isFrame (hframe.append more)

end Accepts

/-- **The decoder accepts exactly the format of frames.**  It gives an invocation for the frames of
that invocation and no message for frames of another type, and otherwise an error that names the
first element that is not there.  More bytes behind what is decoded change nothing. -/
theorem decode_accepts_frame_format (limits : Limits) (bytes : List UInt8) :
    (∀ m, decode limits bytes = .ok (some m) ↔
      ∃ i rest, IsFrame limits bytes i rest ∧ m = .invocation i) ∧
    (decode limits bytes = .ok none ↔ IsOtherFrame bytes) ∧
    (∀ e, decode limits bytes = .error e →
      ∃ part, BreaksAt limits bytes part ∧ part.Names e.field) ∧
    (∀ part, BreaksAt limits bytes part →
      ∃ e, decode limits bytes = .error e ∧ part.Names e.field) ∧
    ∀ result, decode limits bytes = .ok result →
      ∀ more, decode limits (bytes ++ more) = .ok result := by
  refine ⟨fun m => decode_eq_some_iff, decode_eq_none_iff, fun e => breaksAt_of_decode,
    fun part => decode_of_breaksAt, ?_⟩
  intro result h more
  exact decode_append_of_ok h more

end BinaryFrame

end HubGateway
