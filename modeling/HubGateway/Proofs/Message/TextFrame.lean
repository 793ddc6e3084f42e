/-
**What is written as a text frame is read back.**

A frame is the text of a message and a separator.  No text holds a separator, whatever the message
says, so that the record in front of the first one is the whole text, whatever stands behind it.

A message is read back as far as a text can carry it: an empty text in place of an optional one
counts as absent, and the arguments are projected on what a tree keeps of them.

Main definitions:

* `HubGateway.Message.projected` — what a text frame keeps of a message;
* `HubGateway.TextFrame.IsRecord` — what stands in front of the first separator of a frame.

Main statements:

* `HubGateway.TextFrame.property_of_unique` — the property that a member gives;
* `HubGateway.TextFrame.decode_encode` — a frame is decoded to the projection of its message;
* `HubGateway.TextFrame.decode_encode_projected` — **the round trip**, with the separator.
-/

import HubGateway.Message.TextFrame
import HubGateway.Proofs.Entries
import HubGateway.Proofs.Message.Basic
import HubGateway.Proofs.Text.Pieces
import HubGateway.Proofs.Value.Visitor

set_option relaxedAutoImplicit false
set_option autoImplicit false

namespace HubGateway

open Utf8 (encodeChars)
open Json (Document Writes WritesMember Printable)

/-! ### Messages -/

namespace Message

/-- What a text frame keeps of a message. -/
def projected : Message → Message
  | .invocation m => .invocation { m with
      invocationId := keptText m.invocationId
      arguments := Value.projectedItems m.arguments }
  | .openConnection messageType => .openConnection messageType
  | .closeConnection m => .closeConnection { m with error := keptText m.error }

end Message

/-! ### Properties -/

namespace Properties

/-- A type number as a tree. -/
def typeTree (messageType : Int32) : Json :=
  .number (.integer messageType.toInt
    ⟨Int.le_trans (by decide) messageType.le_toInt,
      Int.lt_trans messageType.toInt_lt (by decide)⟩)

theorem asInt32?_typeTree (messageType : Int32) :
    asInt32? (typeTree messageType) = messageType := by
  have hlow := messageType.le_toInt
  have hhigh := messageType.toInt_lt
  rw [typeTree, asInt32?, if_pos (by omega), Int32.ofInt_toInt]

variable {p : Properties}

theorem messageType_of_typeTree {messageType : Int32} (h : p "type" = some (typeTree messageType))
    (default : Int32) : p.messageType default = some messageType := by
  rw [Properties.messageType, h]
  exact asInt32?_typeTree messageType

/-- An optional text that is given as a string, or not at all. -/
theorem optionalText_of_map {name : String} {text : Option String}
    (h : p name = text.map Json.string) : p.optionalText name = some (Message.keptText text) := by
  rw [optionalText, h, ← Message.bind_nonEmpty]
  cases text <;> rfl

end Properties

namespace TextFrame

/-- The properties of an invocation. -/
theorem ofProperties_invocation {p : Properties} {id : Option String} {target : String}
    {items : List Json} (htype : p "type" = some (Properties.typeTree invocationType))
    (hid : p.optionalText "invocationId" = some id) (htarget : p "target" = some (.string target))
    (harguments : p "arguments" = some (.array items)) :
    ofProperties p =
      some (.invocation ⟨invocationType, id, target, Value.readTreeItems items⟩) := by
  have hinvocation : Invocation.ofProperties p =
      some ⟨invocationType, id, target, Value.readTreeItems items⟩ := by
    simp only [Invocation.ofProperties, Properties.messageType_of_typeTree htype, hid,
      Properties.text, htarget, Properties.argumentList, harguments, Option.bind_eq_bind,
      Option.bind_some]
    rfl
  simp only [ofProperties, htype, Properties.asInt32?_typeTree, hinvocation, Option.bind_eq_bind,
    Option.bind_some]
  rfl

/-! ### Names -/

theorem canonicalName_of_known {name : String} (h : name ∈ knownNames) :
    canonicalName name = name := by
  simp only [knownNames, List.mem_cons, List.not_mem_nil, or_false] at h
  rcases h with rfl | rfl | rfl | rfl | rfl <;> decide +kernel

/-- **The property that a member gives**, if no other member of its name up to case gives another
value. -/
theorem property_of_unique {members : List (String × Json)} {name known : String} {j : Json}
    (hmem : (name, j) ∈ members) (hname : canonicalName name = known)
    (hunique : ∀ n w, (n, w) ∈ members → canonicalName n = known → w = j) :
    Properties.ofMembers (canonicalMembers (Entries.ofList members)) known = some j := by
  have hfound : ∃ w, (Entries.ofList members).lookup name = some w := by
    rw [Entries.lookup_ofList]
    cases h : members.reverse.lookup name with
    | none =>
        have := List.lookup_eq_none_iff.1 h _ (List.mem_reverse.2 hmem)
        simp at this
    | some w => exact ⟨w, rfl⟩
  obtain ⟨w, hw⟩ := hfound
  have hmemList := Entries.mem_of_lookup hw
  have hw := hunique name w (Entries.mem_of_mem_ofList hmemList) hname
  subst hw
  rw [Properties.ofMembers, canonicalMembers, Entries.lookup_ofList]
  refine Entries.lookup_of_unique ?_ ?_
  · exact List.mem_reverse.2 (List.mem_map.2 ⟨_, hmemList, congrArg (·, w) hname⟩)
  · intro v hv
    obtain ⟨⟨n, u⟩, hn, heq⟩ := List.mem_map.1 (List.mem_reverse.1 hv)
    cases heq
    exact hunique n v (Entries.mem_of_mem_ofList hn) rfl

/-- A property that no member gives. -/
theorem property_of_absent {members : List (String × Json)} {known : String}
    (h : ∀ n w, (n, w) ∈ members → canonicalName n ≠ known) :
    Properties.ofMembers (canonicalMembers (Entries.ofList members)) known = none := by
  rw [Properties.ofMembers, canonicalMembers, Entries.lookup_ofList]
  refine Entries.lookup_of_absent ?_
  intro v hv
  obtain ⟨⟨n, u⟩, hn, heq⟩ := List.mem_map.1 (List.mem_reverse.1 hv)
  cases heq
  exact h n v (Entries.mem_of_mem_ofList hn) rfl

/-! ### Records -/

/-- The bytes in front of the first byte `0x1E`, or all bytes if it is not among them. -/
def IsRecord (bytes p : List UInt8) : Prop := Text.IsFront 0x1E bytes p

/-- Only the record of a frame is read. -/
theorem isRecord_iff {bytes p : List UInt8} : IsRecord bytes p ↔ record bytes = p :=
  Text.takeWhile_eq_iff.symm

theorem printable_renderOptional (name : String) (text : Option String) :
    ∀ member ∈ Message.renderOptional name text, Printable member := by
  cases text with
  | none => exact fun _ h => nomatch h
  | some text =>
      exact List.forall_mem_singleton.2
        (Json.printable_renderMember name (Json.printable_quote text))

theorem printable_renderJson (m : Message) : Printable m.renderJson := by
  have htype : ∀ messageType : Int32,
      Printable (Json.renderMember "type" (Json.renderInt messageType.toInt)) := fun messageType =>
    Json.printable_renderMember _ (Json.printable_renderInt _)
  refine Json.printable_renderObject ?_
  cases m with
  | invocation m =>
      refine List.forall_mem_append.2
        ⟨List.forall_mem_cons.2 ⟨htype _, printable_renderOptional _ _⟩, ?_⟩
      refine List.forall_mem_cons.2
        ⟨Json.printable_renderMember _ (Json.printable_quote _), List.forall_mem_singleton.2 ?_⟩
      exact Json.printable_renderMember _
        (Json.printable_renderArray (Value.printable_renderJsonItems m.arguments))
  | openConnection messageType => exact List.forall_mem_singleton.2 (htype _)
  | closeConnection m =>
      exact List.forall_mem_cons.2 ⟨htype _, printable_renderOptional _ _⟩

/-- No text of a message holds a separator. -/
theorem separator_not_mem (m : Message) : separator ∉ encodeChars m.renderJson := by
  intro h
  exact absurd ((printable_renderJson m).bytes _ h) (by decide)

/-! ### Texts of messages -/

/-- A text that may be absent, as members. -/
def optionalMember (name : String) : Option String → List (String × Json)
  | none => []
  | some text => [(name, .string text)]

/-- The members of a message. -/
def members : Message → List (String × Json)
  | .invocation m =>
    ("type", Properties.typeTree m.messageType) :: optionalMember "invocationId" m.invocationId
      ++ [("target", .string m.target), ("arguments", .array (Value.toJsonItems m.arguments))]
  | .openConnection messageType => [("type", Properties.typeTree messageType)]
  | .closeConnection m =>
    ("type", Properties.typeTree m.messageType) :: optionalMember "error" m.error

/-- The written members are texts of members, in which no more than `depth` containers are nested.
-/
def AreTexts (texts : List (List Char)) (members : List (String × Json)) (depth : Nat) : Prop :=
  ∃ ms : List (String × Document),
    List.Forall₂ (fun member text => WritesMember member (encodeChars text)) ms texts ∧
      Document.treeMembers? ms = some members ∧ Document.depthMembers ms ≤ depth

namespace AreTexts

variable {texts : List (List Char)} {members : List (String × Json)} {depth : Nat}

theorem nil : AreTexts [] [] depth := ⟨[], .nil, rfl, Nat.zero_le _⟩

theorem cons {d : Document} {text : List Char} {j : Json} (name : String)
    (h : Writes d (encodeChars text)) (htree : d.tree? = some j) (hdepth : d.depth ≤ depth)
    (hrest : AreTexts texts members depth) :
    AreTexts (Json.renderMember name text :: texts) ((name, j) :: members) depth := by
  obtain ⟨ms, hwrites, htrees, hdepths⟩ := hrest
  refine ⟨(name, d) :: ms, .cons (Json.writesMember_renderMember name h) hwrites, ?_, ?_⟩
  · simp only [Document.treeMembers?, htree, htrees, Option.map_some]
  · exact max_le hdepth hdepths

theorem string (name text : String) (hrest : AreTexts texts members depth) :
    AreTexts (Json.renderMember name (Json.quote text) :: texts)
      ((name, .string text) :: members) depth :=
  hrest.cons name (.string (Json.stringForm_quote text)) rfl (Nat.zero_le _)

theorem optional (name : String) (text : Option String) (hrest : AreTexts texts members depth) :
    AreTexts (Message.renderOptional name text ++ texts) (optionalMember name text ++ members)
      depth := by
  cases text with
  | none => exact hrest
  | some text => exact hrest.string name text

theorem messageType (name : String) (messageType : Int32)
    (hrest : AreTexts texts members depth) :
    AreTexts (Json.renderMember name (Json.renderInt messageType.toInt) :: texts)
      ((name, Properties.typeTree messageType) :: members) depth := by
  refine hrest.cons name (.number (Json.numeralForm_renderInt _)) ?_ (Nat.zero_le _)
  rw [Document.tree?, Json.toNumber?_decimalDigits]
  rfl

end AreTexts

/-- What is written for a message are texts of its members. -/
theorem areTexts_renderMembers {m : Message} (hordered : Value.OrderedItems m.arguments)
    (hfloats : Value.FloatsSurviveItems m.arguments) :
    AreTexts m.renderMembers (members m) (Value.depthItems m.arguments + 1) := by
  cases m with
  | invocation m =>
      obtain ⟨ds, hwrites, htrees, hdepths⟩ :=
        Value.writes_renderJsonItems m.arguments hordered hfloats
      have htree : (Document.array ds).tree? = some (.array (Value.toJsonItems m.arguments)) := by
        rw [Document.tree?, htrees]
        rfl
      have hnil : AreTexts [] [] (Value.depthItems m.arguments + 1) := .nil
      have harguments := hnil.cons "arguments" (Json.writes_renderArray hwrites) htree
        (by rw [Document.depth, hdepths])
      exact ((harguments.string "target" m.target).optional "invocationId"
        m.invocationId).messageType "type" m.messageType
  | openConnection messageType => exact AreTexts.nil.messageType "type" messageType
  | closeConnection m =>
      have hnil : AreTexts [] [] (Value.depthItems (Message.closeConnection m).arguments + 1) :=
        .nil
      have hmembers := (hnil.optional "error" m.error).messageType "type" m.messageType
      rw [List.append_nil, List.append_nil] at hmembers
      exact hmembers

/-- The text of a message is parsed to the tree of its members. -/
theorem parse_renderJson {m : Message} (hordered : Value.OrderedItems m.arguments)
    (hfloats : Value.FloatsSurviveItems m.arguments) (hdepth : ∀ v ∈ m.arguments, v.depth ≤ 125) :
    Json.parse (encodeChars m.renderJson) = some (.object (Entries.ofList (members m))) := by
  obtain ⟨ms, hwrites, htrees, hdepths⟩ := areTexts_renderMembers hordered hfloats
  have harguments : Value.depthItems m.arguments ≤ 125 := Value.depthItems_le_iff.2 hdepth
  have hparse := Json.parse_of_writes (Json.writes_renderObject hwrites)
    (by rw [Document.depth, Json.maxNesting]; omega) Json.isBlank_nil Json.isBlank_nil
  rw [List.nil_append, List.append_nil, Document.tree?, htrees] at hparse
  exact hparse

/-! ### Frames -/

theorem known_of_mem_members {m : Message} : ∀ member ∈ members m, member.1 ∈ knownNames := by
  have hoptional : ∀ {name : String} {text : Option String}, name ∈ knownNames →
      ∀ member ∈ optionalMember name text, member.1 ∈ knownNames := by
    intro name text hname member hmember
    cases text with
    | none => cases hmember
    | some text =>
        rw [List.mem_singleton.1 hmember]
        exact hname
  have htype : "type" ∈ knownNames := by decide
  cases m with
  | invocation m =>
      refine List.forall_mem_append.2
        ⟨List.forall_mem_cons.2 ⟨htype, hoptional (by decide)⟩, ?_⟩
      have htarget : "target" ∈ knownNames := by decide
      have harguments : "arguments" ∈ knownNames := by decide
      exact List.forall_mem_cons.2 ⟨htarget, List.forall_mem_singleton.2 harguments⟩
  | openConnection messageType => exact List.forall_mem_singleton.2 htype
  | closeConnection m => exact List.forall_mem_cons.2 ⟨htype, hoptional (by decide)⟩

/-- The properties of a message, as its members give them. -/
theorem property_members (m : Message) (name : String) (j : Json) (hmem : (name, j) ∈ members m)
    (hunique : ∀ w, (name, w) ∈ members m → w = j) :
    Properties.ofMembers (canonicalMembers (Entries.ofList (members m))) name = some j := by
  refine property_of_unique hmem (canonicalName_of_known (known_of_mem_members _ hmem)) ?_
  intro n w hn hname
  rw [canonicalName_of_known (known_of_mem_members _ hn)] at hname
  subst hname
  exact hunique w hn

@[simp] theorem mem_optionalMember {name n : String} {text : Option String} {w : Json} :
    (n, w) ∈ optionalMember name text ↔ n = name ∧ text.map Json.string = some w := by
  cases text <;> simp [optionalMember, eq_comm]

theorem property_optional (m : Message) (name : String) (text : Option String)
    (h : ∀ w, (name, w) ∈ members m ↔ text.map Json.string = some w) :
    Properties.ofMembers (canonicalMembers (Entries.ofList (members m))) name =
      text.map Json.string := by
  cases htext : text.map Json.string with
  | none =>
      refine property_of_absent ?_
      intro n w hn hname
      rw [canonicalName_of_known (known_of_mem_members _ hn)] at hname
      subst hname
      rw [h, htext] at hn
      cases hn
  | some j =>
      refine property_members m name j ((h j).2 htext) ?_
      intro w hw
      rw [h, htext] at hw
      exact (Option.some.inj hw).symm

theorem ofProperties_members_invocation (m : Invocation) (htype : m.messageType = invocationType)
    (hordered : Value.OrderedItems m.arguments) :
    ofProperties (.ofMembers (canonicalMembers (Entries.ofList (members (.invocation m))))) =
      some (Message.invocation m).projected := by
  have htype' := property_members (.invocation m) "type" (Properties.typeTree m.messageType)
    (by simp [members]) (by simp [members])
  have hid := property_optional (.invocation m) "invocationId" m.invocationId (by simp [members])
  have htarget := property_members (.invocation m) "target" (.string m.target)
    (by simp [members]) (by simp [members])
  have harguments := property_members (.invocation m) "arguments"
    (.array (Value.toJsonItems m.arguments)) (by simp [members]) (by simp [members])
  rw [htype] at htype'
  rw [ofProperties_invocation htype' (Properties.optionalText_of_map hid) htarget harguments,
    Value.readTreeItems_toJsonItems hordered, ← htype]
  rfl

theorem ofProperties_members_openConnection :
    ofProperties (.ofMembers (canonicalMembers (Entries.ofList (members .opened)))) =
      some .opened := by
  have htype := property_members .opened "type" (Properties.typeTree openConnectionType)
    (by simp [members, Message.opened]) (by simp [members, Message.opened])
  have hopen := Properties.messageType_of_typeTree htype openConnectionType
  simp only [ofProperties, htype, Properties.asInt32?_typeTree, Message.openOfProperties, hopen,
    Option.bind_eq_bind, Option.bind_some]
  rfl

theorem ofProperties_members_closeConnection (m : CloseConnection)
    (htype : m.messageType = closeConnectionType) :
    ofProperties (.ofMembers (canonicalMembers (Entries.ofList (members (.closeConnection m))))) =
      some (Message.closeConnection m).projected := by
  have htype' := property_members (.closeConnection m) "type" (Properties.typeTree m.messageType)
    (by simp [members]) (by simp [members])
  have herror := property_optional (.closeConnection m) "error" m.error (by simp [members])
  rw [htype] at htype'
  have hclose := Properties.messageType_of_typeTree htype' closeConnectionType
  simp only [ofProperties, htype', Properties.asInt32?_typeTree, CloseConnection.ofProperties,
    hclose, Properties.optionalText_of_map herror, Option.bind_eq_bind, Option.bind_some]
  rw [Message.projected, htype]
  rfl

/-- The properties of a message are read back from its members. -/
theorem ofProperties_members {m : Message} (htype : m.HasOwnType)
    (hordered : Value.OrderedItems m.arguments) :
    ofProperties (.ofMembers (canonicalMembers (Entries.ofList (members m)))) =
      some m.projected := by
  cases m with
  | invocation m => exact ofProperties_members_invocation m htype hordered
  | openConnection messageType =>
      obtain rfl : messageType = openConnectionType := htype
      exact ofProperties_members_openConnection
  | closeConnection m => exact ofProperties_members_closeConnection m htype

/-- A frame is decoded to the projection of its message, whatever stands behind it. -/
theorem decode_encode {m : Message} (htype : m.HasOwnType)
    (hordered : Value.OrderedItems m.arguments) (hfloats : Value.FloatsSurviveItems m.arguments)
    (hdepth : ∀ v ∈ m.arguments, v.depth ≤ 125) (rest : List UInt8) :
    decode (encode m ++ rest) = some m.projected := by
  have hrecord : record (encode m ++ rest) = encodeChars m.renderJson := by
    rw [encode, List.append_assoc]
    exact isRecord_iff.1 (.cut (separator_not_mem m) rest)
  rw [decode, hrecord, parse_renderJson hordered hfloats hdepth]
  exact ofProperties_members htype hordered

/-- **A text frame is read back.**  It holds one separator, at its end; what is decoded, whatever
stands behind it, is the projection of its message. -/
theorem decode_encode_projected (m : Message) :
    (∃ front, encode m = front ++ [separator] ∧ separator ∉ front) ∧
    (m.HasOwnType → Value.OrderedItems m.arguments → Value.FloatsSurviveItems m.arguments →
      (∀ v ∈ m.arguments, v.depth ≤ 125) →
        ∀ rest, decode (encode m ++ rest) = some m.projected) :=
  ⟨⟨_, rfl, separator_not_mem m⟩, decode_encode⟩

/-- A target, an id, a key and a text with separators in them are read back, next to members that
are named like those of the frame. -/
theorem decode_encode_projected_separators :
    let mark := String.ofList [Char.ofNat 0x1E]
    let options : Value :=
      .map [(mark, .string mark), ("Type", .float ⟨0x3FB999999999999A⟩), ("target", .bytes [0x1E])]
    let m : Message :=
      .invocation ⟨invocationType, some mark, mark, [options, .float ⟨0x7FF0000000000000⟩]⟩
    (∃ front, encode m = front ++ [separator] ∧ separator ∉ front) ∧
      decode (encode m ++ [0x1E, 0x7B]) = some (.invocation ⟨invocationType, some mark, mark,
        [.map [(mark, .string mark), ("Type", .float ⟨0x3FB999999999999A⟩),
          ("target", .string "Hg==")], .null]⟩) := by
  intro mark options m
  have hkeys : ([mark, "Type", "target"].Pairwise Entries.Before) := by decide +kernel
  have hordered : Value.OrderedItems m.arguments :=
    ⟨⟨List.pairwise_map.1 hkeys, trivial, trivial, trivial, trivial⟩, trivial, trivial⟩
  have htenth : Json.Survives ⟨0x3FB999999999999A⟩ :=
    Json.survives_of_scanNumeral (by decide) (n := ⟨false, [0], [1], none⟩) (by decide +kernel)
      (by decide +kernel)
  have hinfinite : Json.Survives ⟨0x7FF0000000000000⟩ := Json.survives_of_not_finite (by decide)
  have hfloats : Value.FloatsSurviveItems m.arguments :=
    ⟨⟨trivial, htenth, trivial, trivial⟩, hinfinite, trivial⟩
  have hdepth : ∀ v ∈ m.arguments, v.depth ≤ 125 := by
    simp [m, options, Message.arguments, Value.depth, Value.depthEntries]
  obtain ⟨hframe, hread⟩ := decode_encode_projected m
  exact ⟨hframe, hread rfl hordered hfloats hdepth _⟩

end TextFrame

end HubGateway
