/-
**One call in two wire formats.**

A sender writes a call as a text frame or as a binary one, in any of the many ways that each format
allows: members in any order and case, blanks, escapes, numerals; integers and lengths in any width,
headers, whatever behind the frame.  What both are to be decoded to is said by the call.

Main definitions:

* `HubGateway.SentCall` — an invocation as its sender means it;
* `HubGateway.SentCall.invocation` — what it is to be decoded to;
* `HubGateway.TextFrame.Frames`, `HubGateway.BinaryFrame.Frames` — the frames of a call.

Main statements:

* `HubGateway.TextFrame.decode_frames` — **a text frame is decoded to the invocation of its call**;
* `HubGateway.BinaryFrame.decode_frames` — **so is a binary frame**, if 64 signed bits hold all
  integers;
* `HubGateway.BinaryFrame.decode_frames_outOfRange` — otherwise it is refused for that.
-/

import HubGateway.Proofs.Json.Bytes
import HubGateway.Proofs.Json.Denotation
import HubGateway.Proofs.Json.Size
import HubGateway.Proofs.Message.BinaryFrame
import HubGateway.Proofs.Message.TextFrame
import HubGateway.Proofs.MessagePack.Packing

set_option relaxedAutoImplicit false
set_option autoImplicit false

namespace HubGateway

open Json (Document)

/-- An invocation as its sender means it. -/
structure SentCall where
  id : Option String
  target : String
  data : List Datum

/-- What a call is to be decoded to. -/
def SentCall.invocation (c : SentCall) : Invocation :=
  ⟨invocationType, Message.keptText c.id, c.target, Datum.valueItems c.data⟩

/-! ### Trees of members -/

namespace Json.Document

/-- Members that all mean trees have these as their trees. -/
theorem exists_treeMembers {members : List (String × Document)}
    (h : ∀ name d, (name, d) ∈ members → ∃ j, d.tree? = some j) :
    ∃ trees, treeMembers? members = some trees ∧
      ∀ name j, (name, j) ∈ trees ↔ ∃ d, (name, d) ∈ members ∧ d.tree? = some j := by
  induction members with
  | nil => exact ⟨[], rfl, by simp⟩
  | cons member members ih =>
      obtain ⟨name, d⟩ := member
      obtain ⟨j, hj⟩ := h name d List.mem_cons_self
      obtain ⟨trees, htrees, hmem⟩ := ih fun n e he => h n e (List.mem_cons_of_mem _ he)
      refine ⟨(name, j) :: trees, ?_, ?_⟩
      · simp only [treeMembers?, hj, htrees, Option.map_some]
      · intro n w
        rw [List.mem_cons, hmem]
        constructor
        · rintro (heq | ⟨e, he, hw⟩)
          · cases heq
            exact ⟨d, List.mem_cons_self, hj⟩
          · exact ⟨e, List.mem_cons_of_mem _ he, hw⟩
        · rintro ⟨e, he, hw⟩
          rcases List.mem_cons.1 he with heq | he
          · cases heq
            left
            rw [Option.some.inj (hj.symm.trans hw)]
          · exact .inr ⟨e, he, hw⟩

theorem depthMembers_le {members : List (String × Document)} {n : Nat}
    (h : ∀ name d, (name, d) ∈ members → d.depth ≤ n) : depthMembers members ≤ n := by
  induction members with
  | nil => exact Nat.zero_le _
  | cons member members ih =>
      obtain ⟨name, d⟩ := member
      exact max_le (h name d List.mem_cons_self)
        (ih fun n e he => h n e (List.mem_cons_of_mem _ he))

end Json.Document

/-! ### Text frames -/

namespace TextFrame

open Json (Numeral Writes IsBlank IsPlain DenotesItems)

/-- The properties of an invocation. -/
def invocationNames : List String := ["type", "invocationId", "target", "arguments"]

/-- Some member has the name up to case, and all that have it are the document. -/
structure Given (members : List (String × Document)) (known : String) (d : Document) : Prop where
  present : ∃ name, canonicalName name = known ∧ (name, d) ∈ members
  unique : ∀ name e, (name, e) ∈ members → canonicalName name = known → e = d

/-- No member has the name up to case. -/
def Missing (members : List (String × Document)) (known : String) : Prop :=
  ∀ name d, (name, d) ∈ members → canonicalName name ≠ known

/-- The members give an id, or none. -/
inductive GivesId (members : List (String × Document)) : Option String → Prop
  | missing (h : Missing members "invocationId") : GivesId members none
  | null (h : Given members "invocationId" .null) : GivesId members none
  | text {id : String} (h : Given members "invocationId" (.string id)) : GivesId members (some id)

/-- The members give a call, whose arguments are the documents `docs`.  Further members may say
anything that means something and is not nested too deep. -/
structure Gives (members : List (String × Document)) (c : SentCall) (docs : List Document) :
    Prop where
  type : ∃ n : Numeral, n.IsInteger invocationType.toInt ∧ Given members "type" (.number n)
  id : GivesId members c.id
  target : Given members "target" (.string c.target)
  arguments : Given members "arguments" (.array docs)
  denotes : DenotesItems c.data docs
  others : ∀ name d, (name, d) ∈ members → canonicalName name ∉ invocationNames →
    (∃ j, d.tree? = some j) ∧ d.depth < Json.maxNesting

/-- The bytes are a text frame of a call: an object that gives it, with blanks around, and nothing
or a separator and whatever behind that. -/
inductive Frames (c : SentCall) (docs : List Document) : List UInt8 → Prop
  | intro {members : List (String × Document)} {before p after rest : List UInt8}
      (hbefore : IsBlank before) (h : Writes (.object members) p) (hafter : IsBlank after)
      (hgives : Gives members c docs) (hrest : ∀ b ∈ rest.head?, b = separator) :
      Frames c docs (before ++ (p ++ after) ++ rest)

section Members

variable {members : List (String × Document)} {c : SentCall} {docs : List Document}
  {trees : List (String × Json)} {known : String} {d : Document}

/-- What is given by the documents of members is given by their trees. -/
theorem Given.property (h : Given members known d) {j : Json} (hj : d.tree? = some j)
    (hmem : ∀ name j, (name, j) ∈ trees ↔ ∃ d, (name, d) ∈ members ∧ d.tree? = some j) :
    Properties.ofMembers (canonicalMembers (Entries.ofList trees)) known = some j := by
  obtain ⟨name, hname, hpresent⟩ := h.present
  refine property_of_unique ((hmem name j).2 ⟨d, hpresent, hj⟩) hname ?_
  intro n w hw hn
  obtain ⟨e, he, hwtree⟩ := (hmem n w).1 hw
  rw [h.unique n e he hn, hj] at hwtree
  exact (Option.some.inj hwtree).symm

theorem Missing.property (h : Missing members known)
    (hmem : ∀ name j, (name, j) ∈ trees ↔ ∃ d, (name, d) ∈ members ∧ d.tree? = some j) :
    Properties.ofMembers (canonicalMembers (Entries.ofList trees)) known = none := by
  refine property_of_absent ?_
  intro n w hw
  obtain ⟨e, he, -⟩ := (hmem n w).1 hw
  exact h n e he

/-- An id is read from its member, or from none. -/
theorem GivesId.optionalText {id : Option String} (h : GivesId members id)
    (hmem : ∀ name j, (name, j) ∈ trees ↔ ∃ d, (name, d) ∈ members ∧ d.tree? = some j) :
    Properties.optionalText (.ofMembers (canonicalMembers (Entries.ofList trees)))
      "invocationId" = some (Message.keptText id) := by
  rw [← Message.bind_nonEmpty]
  unfold Properties.optionalText
  cases h with
  | missing h =>
      rw [h.property hmem]
      rfl
  | null h =>
      rw [h.property rfl hmem]
      rfl
  | text h =>
      rw [h.property rfl hmem]
      rfl

theorem GivesId.meaning {id : Option String} (h : GivesId members id) {name : String}
    (hd : (name, d) ∈ members) (hname : canonicalName name = "invocationId") :
    (∃ j, d.tree? = some j) ∧ d.depth = 0 := by
  cases h with
  | missing h => exact absurd hname (h name d hd)
  | null h =>
      rw [h.unique name d hd hname]
      exact ⟨⟨_, rfl⟩, rfl⟩
  | text h =>
      rw [h.unique name d hd hname]
      exact ⟨⟨_, rfl⟩, rfl⟩

/-- All members mean something and are not nested too deep. -/
theorem Gives.meaning (h : Gives members c docs) {treesOf : List Json}
    (hdocs : Document.treeItems? docs = some treesOf)
    (hdepth : Document.depthItems docs ≤ 125) (name : String) (d : Document)
    (hd : (name, d) ∈ members) : (∃ j, d.tree? = some j) ∧ d.depth < Json.maxNesting := by
  have hshallow : 0 < Json.maxNesting := by decide
  by_cases hname : canonicalName name ∈ invocationNames
  · simp only [invocationNames, List.mem_cons, List.not_mem_nil, or_false] at hname
    rcases hname with hname | hname | hname | hname
    · obtain ⟨n, hn, htype⟩ := h.type
      rw [htype.unique name d hd hname]
      exact ⟨⟨_, by rw [Document.tree?, hn.toNumber? (by decide)]; rfl⟩, hshallow⟩
    · obtain ⟨hmeaning, hdepth⟩ := h.id.meaning hd hname
      exact ⟨hmeaning, by rwa [hdepth]⟩
    · rw [h.target.unique name d hd hname]
      exact ⟨⟨_, rfl⟩, hshallow⟩
    · rw [h.arguments.unique name d hd hname]
      refine ⟨⟨.array treesOf, by rw [Document.tree?, hdocs]; rfl⟩, ?_⟩
      rw [Document.depth, Json.maxNesting]
      omega
  · exact h.others name d hd hname

end Members

/-- The record of a frame is its text. -/
theorem record_of_plain {front rest : List UInt8} (h : IsPlain front)
    (hrest : ∀ b ∈ rest.head?, b = separator) : record (front ++ rest) = front := by
  have hfront : separator ∉ front := fun hmem => absurd (h separator hmem) (by decide)
  rw [← isRecord_iff]
  cases rest with
  | nil =>
      rw [List.append_nil]
      exact .whole hfront
  | cons b rest =>
      rw [hrest b rfl]
      exact .cut hfront rest

/-- **A text frame is decoded to the invocation of its call.** -/
theorem decode_frames {c : SentCall} {docs : List Document} {bytes : List UInt8}
    (h : Frames c docs bytes) (hexact : Document.ExactItems docs)
    (hdepth : Datum.depthItems c.data ≤ 125) :
    decode bytes = some (.invocation c.invocation) := by
  cases h with
  | @intro members before p after rest hbefore h hafter hgives hrest =>
      obtain ⟨treesOf, hdocs, hvalues⟩ := hgives.denotes.trees hexact
      have hordered := (Document.regular_ofJsonItems docs hdocs).1
      have hdocsDepth := Nat.le_trans hgives.denotes.depth_le hdepth
      have hmembers := hgives.meaning hdocs hdocsDepth
      obtain ⟨trees, htrees, hmem⟩ :=
        Document.exists_treeMembers fun name d hd => (hmembers name d hd).1
      have hplain : IsPlain (before ++ (p ++ after)) := Json.isPlain_append_iff.2
        ⟨hbefore.isPlain, Json.isPlain_append_iff.2 ⟨h.isPlain, hafter.isPlain⟩⟩
      have hnesting : (Document.object members).depth ≤ Json.maxNesting :=
        Nat.succ_le_succ (Document.depthMembers_le (n := Json.maxNesting - 1)
          fun name d hd => Nat.le_sub_one_of_lt (hmembers name d hd).2)
      have hparse := Json.parse_of_writes h hnesting hbefore hafter
      rw [Document.tree?, htrees] at hparse
      rw [decode, record_of_plain hplain hrest, hparse]
      -- each property is given by its member
      obtain ⟨n, hn, htype⟩ := hgives.type
      have htypeTree : (Document.number n).tree? = some (Properties.typeTree invocationType) := by
        rw [Document.tree?, hn.toNumber? (by decide)]
        rfl
      have harguments : (Document.array docs).tree? = some (.array treesOf) := by
        rw [Document.tree?, hdocs]
        rfl
      have hinvocation := ofProperties_invocation (htype.property htypeTree hmem)
        (hgives.id.optionalText hmem) (hgives.target.property rfl hmem)
        (hgives.arguments.property harguments hmem)
      rw [Value.readTreeItems_of_ordered _ hordered, hvalues] at hinvocation
      exact hinvocation

end TextFrame

/-! ### Binary frames -/

namespace BinaryFrame

open MessagePack

/-- The bytes are a binary frame of a call, with any headers and whatever behind it. -/
inductive Frames (c : SentCall) : List UInt8 → Prop
  | intro {front items : List UInt8} (hfront : FrontForm c.id c.target c.data.length front)
      (hitems : PacksItems c.data items) (rest : List UInt8) : Frames c (front ++ (items ++ rest))

/-- Decoding a frame gets as far as its arguments. -/
theorem decode_frames_eq (limits : Limits) {c : SentCall} {bytes : List UInt8}
    (h : Frames c bytes) :
    ∃ items rest, PacksItems c.data items ∧ decode limits bytes =
      (readArguments limits c.data.length 0 [] (items ++ rest)).map fun arguments =>
        some (.invocation ⟨invocationType, Message.keptText c.id, c.target, arguments⟩) := by
  obtain ⟨hfront, hitems, rest⟩ := h
  have hle := hitems.length_le
  exact ⟨_, rest, hitems, hfront.decode_eq (by rw [List.length_append]; omega)⟩

section Arguments

variable {limits : Limits} {items : List Datum} {body : List UInt8}

/-- Arguments with signed integers are read as their values. -/
theorem readArguments_of_packs (h : PacksItems items body) (hsigned : Datum.IsSignedItems items)
    (hdepth : Datum.depthItems items ≤ limits.maxDepth) (index : Nat) (acc : List Value)
    (rest : List UInt8) :
    readArguments limits items.length index acc (body ++ rest) =
      .ok (acc.reverse ++ Datum.valueItems items) := by
  induction items generalizing index acc body with
  | nil => rw [List.length_nil, readArguments, Datum.valueItems, List.append_nil]
  | cons item items ih =>
      cases h with
      | @cons _ _ p q h hitems =>
          obtain ⟨hitem, hothers⟩ := Nat.max_le.1 hdepth
          rw [List.length_cons, readArguments, List.append_assoc, readField, readValue,
            h.read hsigned.1 _ hitem, Outcome.map_ok]
          simp [ih hitems hsigned.2 hothers, Datum.valueItems]

/-- One larger integer in one argument is enough for all to be refused. -/
theorem readArguments_outOfRange (h : PacksItems items body)
    (hlarge : ¬ Datum.IsSignedItems items) (hdepth : Datum.depthItems items ≤ limits.maxDepth)
    (index : Nat) (acc : List Value) (rest : List UInt8) :
    ∃ e, readArguments limits items.length index acc (body ++ rest) = .error e ∧
      e.cause = .unread (.unreadable .int64 .outOfRange) := by
  induction items generalizing index acc body with
  | nil => exact absurd trivial hlarge
  | cons item items ih =>
      cases h with
      | @cons _ _ p q h hitems =>
          obtain ⟨hitem, hothers⟩ := Nat.max_le.1 hdepth
          rw [List.length_cons, readArguments, List.append_assoc, readField, readValue]
          by_cases hsigned : item.IsSigned
          · rw [h.read hsigned _ hitem]
            exact ih hitems (fun hitems => hlarge ⟨hsigned, hitems⟩) hothers _ _
          · obtain ⟨path, left, hread⟩ := h.outOfRange hsigned limits.maxDepth hitem (q ++ rest)
            rw [hread]
            exact ⟨_, rfl, rfl⟩

end Arguments

section Frames

variable {limits : Limits} {c : SentCall} {bytes : List UInt8}

/-- **A binary frame is decoded to the invocation of its call**, if all integers are signed. -/
theorem decode_frames (h : Frames c bytes) (hsigned : Datum.IsSignedItems c.data)
    (hdepth : Datum.depthItems c.data ≤ limits.maxDepth) :
    decode limits bytes = .ok (some (.invocation c.invocation)) := by
  obtain ⟨items, rest, hitems, hdecode⟩ := decode_frames_eq limits h
  rw [hdecode, readArguments_of_packs hitems hsigned hdepth]
  rfl

/-- A binary frame with a larger integer is refused for it. -/
theorem decode_frames_outOfRange (h : Frames c bytes) (hlarge : ¬ Datum.IsSignedItems c.data)
    (hdepth : Datum.depthItems c.data ≤ limits.maxDepth) :
    ∃ e, decode limits bytes = .error e ∧
      e.cause = .unread (.unreadable .int64 .outOfRange) := by
  obtain ⟨items, rest, hitems, hdecode⟩ := decode_frames_eq limits h
  obtain ⟨e, he, hcause⟩ := readArguments_outOfRange hitems hlarge hdepth 0 [] rest
  rw [hdecode, he]
  exact ⟨e, rfl, hcause⟩

end Frames

end BinaryFrame

end HubGateway
