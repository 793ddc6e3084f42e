/-
**The two wire formats agree.**

Whatever text frame and whatever binary frame a call is sent in, both are decoded to one invocation,
as long as 64 signed bits hold every integer and every numeral is read as the number nearest to it.
An integer from `2 ^ 63` on becomes a number in a text frame, while a binary frame with one is
refused.

Main definitions:

* `HubGateway.TextFrame.plainText` — a call as it is written without any freedom of its format.

Main statements:

* `HubGateway.TextFrame.frames_plainText`, `HubGateway.BinaryFrame.frames_plainFront` — a call that
  is written plainly is among its frames;
* `HubGateway.SentCall.decodings_agree` — **the decoders agree on signed integers, and on these
  only**.
-/

import HubGateway.Proofs.Json.Short
import HubGateway.Proofs.Message.SentCall

set_option relaxedAutoImplicit false
set_option autoImplicit false

namespace HubGateway

open Json (Document)

/-! ### Plain texts -/

namespace TextFrame

open Json (Numeral Writes WritesMember IsBlank DenotesItems)
open Utf8 (encodeChars)

/-- The numeral of the type number of invocations. -/
def invocationNumeral : Numeral :=
  ⟨invocationType.toInt < 0, Json.decimalDigits invocationType.toInt.natAbs, [], none⟩

/-- The members of a call in declared order. -/
def declaredMembers (c : SentCall) (docs : List Document) : List (String × Document) :=
  ("type", .number invocationNumeral) :: c.id.toList.map (fun id => ("invocationId", .string id))
    ++ [("target", .string c.target), ("arguments", .array docs)]

/-- The plain text of a call whose arguments have the given texts. -/
def plainText (c : SentCall) (texts : List (List Char)) : List Char :=
  Json.renderObject (Json.renderMember "type" (Json.renderInt invocationType.toInt)
    :: Message.renderOptional "invocationId" c.id
    ++ [Json.renderMember "target" (Json.quote c.target),
      Json.renderMember "arguments" (Json.renderArray texts)])

section Declared

variable {c : SentCall} {docs : List Document} {texts : List (List Char)} {name : String}
  {d : Document}

theorem mem_declaredMembers :
    (name, d) ∈ declaredMembers c docs ↔
      name = "type" ∧ d = .number invocationNumeral ∨
      name = "invocationId" ∧ (∃ id, c.id = some id ∧ d = .string id) ∨
      name = "target" ∧ d = .string c.target ∨ name = "arguments" ∧ d = .array docs := by
  cases hc : c.id <;> simp [declaredMembers, hc]

theorem mem_invocationNames_of_declared (h : (name, d) ∈ declaredMembers c docs) :
    name ∈ invocationNames ∧ canonicalName name = name := by
  have hnames : name ∈ invocationNames := by
    rcases mem_declaredMembers.1 h with ⟨rfl, -⟩ | ⟨rfl, -⟩ | ⟨rfl, -⟩ | ⟨rfl, -⟩ <;> decide
  have hknown : ∀ n ∈ invocationNames, n ∈ knownNames := by decide
  exact ⟨hnames, canonicalName_of_known (hknown _ hnames)⟩

/-- A member in declared order gives its property, if it is the only one of its name. -/
theorem given_declared (hmem : (name, d) ∈ declaredMembers c docs)
    (hunique : ∀ e, (name, e) ∈ declaredMembers c docs → e = d) :
    Given (declaredMembers c docs) name d := by
  refine ⟨⟨name, (mem_invocationNames_of_declared hmem).2, hmem⟩, ?_⟩
  intro n e he hn
  rw [(mem_invocationNames_of_declared he).2] at hn
  subst hn
  exact hunique e he

theorem givesId_declared : GivesId (declaredMembers c docs) c.id := by
  obtain ⟨id, target, data⟩ := c
  cases id with
  | none =>
      refine .missing fun n e he hn => ?_
      rw [(mem_invocationNames_of_declared he).2] at hn
      subst hn
      simp [mem_declaredMembers] at he
  | some id =>
      exact .text (given_declared (by simp [mem_declaredMembers]) (by simp [mem_declaredMembers]))

theorem gives_declared (h : DenotesItems c.data docs) : Gives (declaredMembers c docs) c docs where
  type := ⟨_, Json.isInteger_decimalDigits _,
    given_declared (by simp [mem_declaredMembers, invocationNumeral])
      (by simp [mem_declaredMembers, invocationNumeral])⟩
  id := givesId_declared
  target := given_declared (by simp [mem_declaredMembers]) (by simp [mem_declaredMembers])
  arguments := given_declared (by simp [mem_declaredMembers]) (by simp [mem_declaredMembers])
  denotes := h
  others n e he hn := by
    obtain ⟨hnames, hname⟩ := mem_invocationNames_of_declared he
    rw [hname] at hn
    exact absurd hnames hn

theorem writes_plainText
    (h : List.Forall₂ (fun d text => Writes d (encodeChars text)) docs texts) :
    Writes (.object (declaredMembers c docs)) (encodeChars (plainText c texts)) := by
  have hid : List.Forall₂ (fun member text => WritesMember member (encodeChars text))
      (c.id.toList.map fun id => ("invocationId", Document.string id))
      (Message.renderOptional "invocationId" c.id) := by
    cases c.id with
    | none => exact .nil
    | some id =>
        exact .cons (Json.writesMember_renderMember _ (.string (Json.stringForm_quote id))) .nil
  have htype := Json.writesMember_renderMember "type"
    (.number (Json.numeralForm_renderInt invocationType.toInt))
  have htarget := Json.writesMember_renderMember "target"
    (.string (Json.stringForm_quote c.target))
  have harguments := Json.writesMember_renderMember "arguments" (Json.writes_renderArray h)
  refine Json.writes_renderObject (List.rel_append ?_ ?_)
  · exact .cons htype hid
  · exact .cons htarget (.cons harguments .nil)

/-- **The plain text of a call is one of its frames**, with a separator behind it. -/
theorem frames_plainText (hdenotes : DenotesItems c.data docs)
    (hwrites : List.Forall₂ (fun d text => Writes d (encodeChars text)) docs texts) :
    Frames c docs (encodeChars (plainText c texts) ++ [separator]) := by
  have hrest : ∀ b ∈ [separator].head?, b = separator := by simp
  have hframe := Frames.intro Json.isBlank_nil (writes_plainText hwrites) Json.isBlank_nil
    (gives_declared hdenotes) hrest
  rwa [List.nil_append, List.append_nil] at hframe

end Declared

end TextFrame

/-! ### Plain binary frames -/

open MessagePack

namespace BinaryFrame

/-- **A call whose front is written plainly is one of its frames**, whatever stands behind it. -/
theorem frames_plainFront {c : SentCall} {items : List UInt8}
    (hid : ∀ text ∈ c.id, (Utf8.encode text).length < 2 ^ 32)
    (htarget : (Utf8.encode c.target).length < 2 ^ 32) (hcount : c.data.length < 2 ^ 32)
    (hitems : PacksItems c.data items) (rest : List UInt8) :
    Frames c (plainFront c.id c.target c.data.length ++ (items ++ rest)) :=
  .intro (frontForm_plainFront hid htarget hcount) hitems rest

end BinaryFrame

/-! ### Both formats -/

/-- **The decoders agree on signed integers, and on these only.**  Whatever text frame and whatever
binary frame a call is sent in, both are decoded to the same invocation; but a binary frame with an
integer from `2 ^ 63` on is refused, while the text frame has the nearest number in its place. -/
theorem SentCall.decodings_agree (limits : Limits) {c : SentCall}
    {docs : List Document} {text binary : List UInt8} (htext : TextFrame.Frames c docs text)
    (hexact : Document.ExactItems docs) (hbinary : BinaryFrame.Frames c binary)
    (hdepth : ∀ d ∈ c.data, d.depth ≤ min limits.maxDepth 125) :
    TextFrame.decode text = some (.invocation c.invocation) ∧
      ((∀ d ∈ c.data, d.IsSigned) →
        BinaryFrame.decode limits binary = .ok (some (.invocation c.invocation))) ∧
      ((∃ d ∈ c.data, ¬ d.IsSigned) → ∃ e, BinaryFrame.decode limits binary = .error e ∧
        e.cause = .unread (.unreadable .int64 .outOfRange)) := by
  obtain ⟨hbinaryDepth, htextDepth⟩ := Nat.le_min.1 (Datum.depthItems_le_iff.2 hdepth)
  refine ⟨TextFrame.decode_frames htext hexact htextDepth, ?_, ?_⟩
  · intro hsigned
    exact BinaryFrame.decode_frames hbinary (Datum.isSignedItems_iff.2 hsigned) hbinaryDepth
  · rintro ⟨d, hd, hlarge⟩
    have hlarge' := fun hsigned => hlarge (Datum.isSignedItems_iff.1 hsigned d hd)
    exact BinaryFrame.decode_frames_outOfRange hbinary hlarge' hbinaryDepth

/-- A call with an id and a map: a key of it is given twice, in two orders, and its numbers are in
short and in wide forms. -/
theorem SentCall.decodings_agree_repeated :
    let text := Utf8.encode
      ("\x7b\"type\":1,\"invocationId\":\"7\",\"target\":\"t\"," ++
        "\"arguments\":[\x7b\"b\":5e-1,\"a\":1,\"a\":null\x7d]\x7d\x1e")
    let binary : List UInt8 := [0x95, 0x01, 0x80, 0xA1, 0x37, 0xA1, 0x74, 0x91, 0x83,
      0xA1, 0x61, 0xD3, 0, 0, 0, 0, 0, 0, 0, 1, 0xA1, 0x61, 0xC0, 0xA1, 0x62, 0xCA, 0x3F, 0, 0, 0]
    let m : Invocation :=
      ⟨invocationType, some "7", "t", [.map [("a", .null), ("b", .float ⟨0x3FE0000000000000⟩)]]⟩
    TextFrame.decode text = some (.invocation m) ∧
      BinaryFrame.decode ⟨1⟩ binary = .ok (some (.invocation m)) := by
  intro text binary m
  let one : Datum := .integer 1 (by decide)
  let half : Datum := .float ⟨0x3FE0000000000000⟩ (by decide)
  let c : SentCall := ⟨some "7", "t", [.map [("a", one), ("b", half), ("a", .null)]]⟩
  have hlt : (1 : Int) < 0x8000000000000000 := by decide
  have hsigned : ∀ d ∈ c.data, d.IsSigned :=
    List.forall_mem_singleton.2 ⟨hlt, trivial, trivial, trivial⟩
  have hdepth : ∀ d ∈ c.data, d.depth ≤ min 1 125 := List.forall_mem_singleton.2 (by decide)
  -- the pairs of "a" keep their order in both formats, and "b" stands before or behind them
  have hne : "a" ≠ "b" := by decide
  have hfront : Entries.Rearranged [("a", one), ("b", half), ("a", .null)] _ :=
    Entries.rearranged_swap hne _
  have hback : Entries.Rearranged [("a", one), ("b", half), ("a", .null)] _ :=
    .cons _ (Entries.rearranged_swap hne.symm _)
  -- the text frame
  let n : Json.Numeral := ⟨false, [5], [], some ⟨true, [1]⟩⟩
  have hnumber : Json.scanNumeral (Utf8.encode "5e-1") = some (n, []) := by decide +kernel
  obtain ⟨p, hform, hp⟩ := Json.form_of_scanNumeral hnumber
  rw [List.append_nil] at hp
  have hn : ¬ n.IsWideInteger := fun ⟨_, h, _⟩ => nomatch h.exponent
  have hnearest : n.nearest = ⟨0x3FE0000000000000⟩ := by decide +kernel
  have hnull : Json.Writes .null (Utf8.encodeChars Json.renderNull) := .null
  have hwrites := Json.writes_renderObject
    (.cons (Json.writesMember_renderMember "b" (.number (hp ▸ hform)))
      (.cons (Json.writesMember_renderMember "a" (.number (Json.numeralForm_renderInt 1)))
        (.cons (Json.writesMember_renderMember "a" hnull) .nil)))
  have hdenotes := Json.Denotes.map hfront
    (.cons (.float hn hnearest)
      (.cons (.integer (Json.isInteger_decimalDigits 1)) (.cons .null .nil)))
  have htext := TextFrame.frames_plainText (c := c) (.cons hdenotes .nil) (.cons hwrites .nil)
  have hbytes : Utf8.encodeChars (TextFrame.plainText c [Json.renderObject
      [Json.renderMember "b" "5e-1".toList, Json.renderMember "a" (Json.renderInt 1),
        Json.renderMember "a" Json.renderNull]]) ++ [TextFrame.separator] = text := by
    decide +kernel
  rw [hbytes] at htext
  have hexact : Document.ExactItems [.object [("b", .number n), ("a", .number _), ("a", .null)]] :=
    ⟨⟨Json.Numeral.readsNearest_of_short (by decide) (by decide) (by simp [n]; decide),
      fun h => absurd ⟨_, Json.isInteger_decimalDigits 1, by decide⟩ h, trivial, trivial⟩, trivial⟩
  -- the binary frame
  have ha : StringForm "a" [0xA1, 0x61] := stringForm_writeString (by decide)
  have hb : StringForm "b" [0xA1, 0x62] := stringForm_writeString (by decide)
  have hwide : IntegerForm (twosComplement 8 (bigEndian [0, 0, 0, 0, 0, 0, 0, 1]))
      [0xD3, 0, 0, 0, 0, 0, 0, 0, 1] := .signed (by decide)
  have hvalue : twosComplement 8 (bigEndian [0, 0, 0, 0, 0, 0, 0, 1]) = 1 := by decide
  rw [hvalue] at hwide
  have hone : Packs one [0xD3, 0, 0, 0, 0, 0, 0, 0, 1] := .integer hwide
  have hhalf : Packs half [0xCA, 0x3F, 0, 0, 0] := .single rfl (by decide +kernel)
  have hpairs : PacksPairs [("a", one), ("a", .null), ("b", half)] (binary.drop 9) :=
    .cons ha hone (.cons ha .null (.cons hb hhalf .nil))
  have hitem : Packs (.map [("a", one), ("b", half), ("a", .null)]) (binary.drop 8) :=
    .map hback (.short (by decide)) hpairs
  have hbinary := BinaryFrame.frames_plainFront (c := c) (by rintro _ ⟨⟩; decide) (by decide)
    (by decide) (.cons hitem .nil) []
  have hframe : BinaryFrame.plainFront c.id c.target c.data.length ++
      (binary.drop 8 ++ [] ++ []) = binary := by decide +kernel
  rw [hframe] at hbinary
  obtain ⟨hread, hagree, -⟩ := decodings_agree ⟨1⟩ htext hexact hbinary hdepth
  exact ⟨hread, hagree hsigned⟩

/-- The integer `2 ^ 63`, which both formats can write: a number in the text frame, and an error in
the binary one. -/
theorem SentCall.decodings_differ :
    let c : SentCall := ⟨none, "t", [.integer 0x8000000000000000 (by decide)]⟩
    let text := Utf8.encode
      "\x7b\"type\":1,\"target\":\"t\",\"arguments\":[9223372036854775808]\x7d\x1e"
    let binary : List UInt8 :=
      [0x95, 0x01, 0x80, 0xC0, 0xA1, 0x74, 0x91, 0xCF, 0x80, 0, 0, 0, 0, 0, 0, 0]
    (∃ docs, TextFrame.Frames c docs text) ∧ BinaryFrame.Frames c binary ∧
      TextFrame.decode text =
        some (.invocation (.new "t" [.float ⟨0x43E0000000000000⟩])) ∧
      ∃ e, BinaryFrame.decode ⟨64⟩ binary = .error e ∧ e.field = "arguments[0]" ∧
        e.cause.message = "as Int64: out of range integral type conversion attempted" := by
  intro c text binary
  -- the text frame
  have hwrites := Json.Writes.number (Json.numeralForm_renderInt 0x8000000000000000)
  have hdenotes : Json.Denotes (.integer 0x8000000000000000 (by decide)) _ :=
    .integer (Json.isInteger_decimalDigits 0x8000000000000000)
  have htext := TextFrame.frames_plainText (c := c) (.cons hdenotes .nil) (.cons hwrites .nil)
  have hbytes : Utf8.encodeChars (TextFrame.plainText c [Json.renderInt 0x8000000000000000]) ++
      [TextFrame.separator] = text := by decide +kernel
  rw [hbytes] at htext
  have hexact : Document.ExactItems [.number _] :=
    ⟨fun h => absurd ⟨_, Json.isInteger_decimalDigits 0x8000000000000000, by decide⟩ h, trivial⟩
  have hread := TextFrame.decode_frames htext hexact (by decide)
  have hvalue : Value.ofInt 0x8000000000000000 = .float ⟨0x43E0000000000000⟩ :=
    congrArg Value.float (by decide +kernel : Binary64.ofInt 0x8000000000000000 = _)
  -- the binary frame
  have hform : IntegerForm (bigEndian [0x80, 0, 0, 0, 0, 0, 0, 0])
      [0xCF, 0x80, 0, 0, 0, 0, 0, 0, 0] := .unsigned (by decide)
  have hmagnitude : bigEndian [0x80, 0, 0, 0, 0, 0, 0, 0] = 0x8000000000000000 := by decide
  rw [hmagnitude] at hform
  have hinteger : Packs (.integer 0x8000000000000000 (by decide)) (binary.drop 7) := .integer hform
  have hbinary := BinaryFrame.frames_plainFront (c := c) (fun _ h => nomatch h) (by decide)
    (by decide) (.cons hinteger .nil) []
  have hframe : BinaryFrame.plainFront c.id c.target c.data.length ++
      (binary.drop 7 ++ [] ++ []) = binary := by decide +kernel
  rw [hframe] at hbinary
  refine ⟨⟨_, htext⟩, hbinary, ?_, ⟨_, rfl, rfl, rfl⟩⟩
  rw [hread, ← hvalue]
  rfl

end HubGateway
