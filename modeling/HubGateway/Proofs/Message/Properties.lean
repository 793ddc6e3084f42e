/-
**A text frame is read by its properties.**

A frame is read up to its first separator.  What stands in front of that is read only if it is the
text of an object, and then only for five values: those that the object gives to the known
properties.  Of the members whose name is that of a property up to the case of ASCII letters, the
one with the greatest name counts, and of members with this very name the last.  In the code the
first rule comes from the order in which members are put under their canonical names, which is that
of the sorted names, and the second from sorting them.

Where a frame is cut and what message the values mean is said here without reference to the reader.

Main definitions:

* `HubGateway.TextFrame.IsObject` — the text of an object, with its members as they stand;
* `HubGateway.TextFrame.GivesProperty`, `GivesProperties` — the values that members give;
* `HubGateway.TextFrame.Means` — **the message that values mean**.

Main statements:

* `HubGateway.TextFrame.givesProperty_lookup`, `GivesProperty.unique` — the value of a property is
  the one that is looked up, and there is no other;
* `HubGateway.TextFrame.ofProperties_eq_some_iff` — what the reader makes of values is what they
  mean;
* `HubGateway.TextFrame.decode_by_properties` — **a frame means what its properties mean**, whatever
  their order and spelling and whatever stands beside them.
-/

import HubGateway.Proofs.Json.Size
import HubGateway.Proofs.Json.Soundness
import HubGateway.Proofs.Message.TextFrame

set_option relaxedAutoImplicit false
set_option autoImplicit false

namespace HubGateway.TextFrame

open Json (Document Writes IsBlank)

/-! ### Names up to case -/

/-- A member is bound to a property exactly if its name is the property's up to case. -/
theorem canonicalName_eq_iff {known name : String} (hknown : known ∈ knownNames) :
    canonicalName name = known ↔ Text.sameAscii known name = true := by
  have hdistinct : ∀ k ∈ knownNames, ∀ l ∈ knownNames, Text.sameAscii k l = true → k = l := by
    decide +kernel
  unfold canonicalName
  cases hfind : knownNames.find? fun known => Text.sameAscii known name with
  | none =>
      have hnone := List.find?_eq_none.1 hfind
      constructor
      · rintro rfl
        exact beq_self_eq_true _
      · intro hsame
        exact absurd hsame (hnone known hknown)
  | some first =>
      have hfirst : Text.sameAscii first name = true := by simpa using List.find?_some hfind
      constructor
      · rintro rfl
        exact hfirst
      · intro hsame
        refine hdistinct _ (List.mem_of_find?_eq_some hfind) _ hknown ?_
        simp only [Text.sameAscii, beq_iff_eq] at hfirst hsame ⊢
        rw [hfirst, hsame]

/-! ### The values of properties -/

/-- **The value that members give to a property**: that of the member with the greatest name among
those that are the property's name up to case, and of members with this name the last one's. -/
inductive GivesProperty (members : List (String × Json)) (known : String) : Option Json → Prop
  | absent (h : ∀ e ∈ members, Text.sameAscii known e.1 = false) : GivesProperty members known none
  | present {front back : List (String × Json)} {name : String} {j : Json}
      (hmembers : members = front ++ (name, j) :: back)
      (hname : Text.sameAscii known name = true) (hlast : ∀ e ∈ back, e.1 ≠ name)
      (hgreatest : ∀ e ∈ members, Text.sameAscii known e.1 = true → e.1 ≠ name →
        Utf8.encode e.1 < Utf8.encode name) :
      GivesProperty members known (some j)

/-- The values that members give to the known properties. -/
def GivesProperties (members : List (String × Json)) (v : Properties) : Prop :=
  ∀ known ∈ ["type", "invocationId", "target", "arguments", "error"],
    GivesProperty members known (v known)

section Properties

variable {members members' : List (String × Json)} {known : String}

/-- The value of a property is that of a member. -/
theorem GivesProperty.mem {j : Json} (h : GivesProperty members known (some j)) :
    ∃ name, (name, j) ∈ members := by
  cases h with
  | @present _ _ name _ hmembers =>
      exact ⟨name, hmembers ▸ List.mem_append_right _ List.mem_cons_self⟩

/-- Members give a property only one value. -/
theorem GivesProperty.unique {v w : Option Json} (hv : GivesProperty members known v)
    (hw : GivesProperty members known w) : v = w := by
  cases hv with
  | absent habsent =>
      cases hw with
      | absent => rfl
      | present hmembers hname =>
          have hmem := hmembers ▸ List.mem_append_right _ List.mem_cons_self
          rw [habsent _ hmem] at hname
          cases hname
  | present hmembers hname hlast hgreatest =>
      have hmem := hmembers ▸ List.mem_append_right _ List.mem_cons_self
      cases hw with
      | absent habsent =>
          rw [habsent _ hmem] at hname
          cases hname
      | @present _ _ name _ hmembers' hname' hlast' hgreatest' =>
          have hmem' := hmembers' ▸ List.mem_append_right _ List.mem_cons_self
          -- each of the two names would be the greater one
          obtain rfl : _ = name := by
            by_contra hne
            exact List.lt_asymm (hgreatest' _ hmem hname hne)
              (hgreatest _ hmem' hname' (Ne.symm hne))
          have hfirst := Entries.lookup_reverse_eq_some_iff.2 ⟨_, _, hmembers, hlast⟩
          have hsecond := Entries.lookup_reverse_eq_some_iff.2 ⟨_, _, hmembers', hlast'⟩
          exact hfirst.symm.trans hsecond

/-- **The value of a property is the one that is looked up** among the canonical members. -/
theorem givesProperty_lookup (members : List (String × Json)) (hknown : known ∈ knownNames) :
    GivesProperty members known
      (Properties.ofMembers (canonicalMembers (Entries.ofList members)) known) := by
  rw [Properties.ofMembers, canonicalMembers, Entries.lookup_ofList]
  generalize hvalue : List.lookup known _ = value
  cases value with
  | none =>
      rw [Entries.lookup_reverse_eq_none_iff] at hvalue
      refine .absent fun e he => ?_
      obtain ⟨w, hw⟩ := Entries.exists_mem_ofList he
      have hne := hvalue _ (List.mem_map_of_mem hw)
      rwa [ne_eq, canonicalName_eq_iff hknown, Bool.not_eq_true] at hne
  | some j =>
      obtain ⟨front, back, hsplit, hback⟩ := Entries.lookup_reverse_eq_some_iff.1 hvalue
      obtain ⟨front, others, hentries, rfl, hothers⟩ := List.map_eq_append_iff.1 hsplit
      obtain ⟨⟨name, value⟩, back, rfl, hmember, rfl⟩ := List.map_eq_cons_iff.1 hothers
      obtain ⟨hcanonical, rfl⟩ := Prod.mk.inj hmember
      have hsorted := Entries.sorted_ofList members
      have hlookup := Entries.lookup_of_mem_sorted hsorted
        (hentries ▸ List.mem_append_right _ List.mem_cons_self)
      rw [Entries.lookup_ofList] at hlookup
      obtain ⟨before, after, hmembers, hlast⟩ := Entries.lookup_reverse_eq_some_iff.1 hlookup
      refine .present hmembers ((canonicalName_eq_iff hknown).1 hcanonical) hlast ?_
      intro e he hsame hne
      rw [Utf8.encode_lt_encode_iff]
      -- entries with a smaller name stand in front, and none behind is bound to the property
      obtain ⟨w, hw⟩ := Entries.exists_mem_ofList he
      rw [hentries, List.mem_append, List.mem_cons] at hw
      rw [hentries] at hsorted
      rcases hw with hfront | heq | hbehind
      · exact (List.pairwise_append.1 hsorted).2.2 _ hfront _ List.mem_cons_self
      · exact absurd (Prod.mk.inj heq).1 hne
      · exact absurd ((canonicalName_eq_iff hknown).2 hsame)
          (hback _ (List.mem_map_of_mem hbehind))

/-- The order of members does not matter if no name is repeated. -/
theorem GivesProperty.perm {v : Option Json} (h : GivesProperty members known v)
    (hperm : members.Perm members') (hnodup : (members.map Prod.fst).Nodup) :
    GivesProperty members' known v := by
  cases h with
  | absent habsent => exact .absent fun e he => habsent e (hperm.mem_iff.2 he)
  | @present _ _ name j hmembers hname _ hgreatest =>
      have hmem := hmembers ▸ List.mem_append_right _ List.mem_cons_self
      obtain ⟨front, back, rfl⟩ := List.append_of_mem (hperm.mem_iff.1 hmem)
      have hnodup := (hperm.map Prod.fst).nodup_iff.1 hnodup
      rw [List.map_append, List.map_cons] at hnodup
      have hback := (List.nodup_cons.1 hnodup.of_append_right).1
      refine .present rfl hname ?_ fun e he => hgreatest e (hperm.mem_iff.2 he)
      intro e he heq
      exact hback (List.mem_map.2 ⟨e, he, heq⟩)

end Properties

/-! ### What values mean -/

/-- An optional text: it may be missing or null, and the empty one counts as none. -/
inductive OptionalText : Option Json → Option String → Prop
  | missing : OptionalText none none
  | null : OptionalText (some .null) none
  | empty : OptionalText (some (.string "")) none
  | text {s : String} (h : s ≠ "") : OptionalText (some (.string s)) (some s)

/-- A list of arguments: it may be missing or null. -/
inductive ArgumentList : Option Json → List Value → Prop
  | missing : ArgumentList none []
  | null : ArgumentList (some .null) []
  | array {items : List Json} : ArgumentList (some (.array items)) (items.map Value.ofJson)

/-- **The message that the values of properties mean**, if they mean one.  The type number decides
which of the other properties are looked at. -/
inductive Means (v : Properties) : Message → Prop
  | invocation {id : Option String} {target : String} {arguments : List Value}
      (htype : v "type" = some (Properties.typeTree 1))
      (hid : OptionalText (v "invocationId") id) (htarget : v "target" = some (.string target))
      (harguments : ArgumentList (v "arguments") arguments) :
      Means v (.invocation ⟨1, id, target, arguments⟩)
  | opened (htype : v "type" = some (Properties.typeTree 10)) : Means v (.openConnection 10)
  | closed {error : Option String} (htype : v "type" = some (Properties.typeTree 11))
      (herror : OptionalText (v "error") error) : Means v (.closeConnection ⟨11, error⟩)

section Meaning

variable {v w : Properties}

theorem asInt32?_eq_some_iff {j : Json} {i : Int32} :
    Properties.asInt32? j = some i ↔ j = Properties.typeTree i := by
  constructor
  · intro h
    unfold Properties.asInt32? at h
    split at h
    next value inRange =>
      split at h
      next hrange =>
        cases h
        have hvalue : (Int32.ofInt value).toInt = value :=
          Int32.toInt_ofInt_of_le (by simpa using hrange.1) (by simpa using hrange.2)
        simp only [Properties.typeTree, hvalue]
      next => cases h
    next => cases h
  · rintro rfl
    exact Properties.asInt32?_typeTree i

theorem optionalText_eq_some_iff {name : String} {text : Option String} :
    v.optionalText name = some text ↔ OptionalText (v name) text := by
  unfold Properties.optionalText
  generalize v name = j
  constructor
  · intro h
    split at h
    next => cases h; exact .missing
    next => cases h; exact .null
    next s =>
      cases h
      by_cases hs : s = ""
      · subst hs
        exact .empty
      · rw [nonEmpty, if_neg hs]
        exact .text hs
    next => cases h
  · intro h
    cases h with
    | text hs => simp [nonEmpty, hs]
    | _ => rfl

/-- A list of arguments is read as the values of its trees, if these are ordered. -/
theorem argumentList_eq_some_iff {name : String} {arguments : List Value}
    (hordered : ∀ j, v name = some j → (Value.ofJson j).Ordered) :
    v.argumentList name = some arguments ↔ ArgumentList (v name) arguments := by
  have hread : ∀ items, v name = some (.array items) →
      Value.readTreeItems items = items.map Value.ofJson := by
    intro items hitems
    rw [Value.readTreeItems_of_ordered items (hordered _ hitems), Value.ofJsonItems_eq]
  unfold Properties.argumentList
  generalize v name = j at hread ⊢
  constructor
  · intro h
    split at h
    next => cases h; exact .missing
    next => cases h; exact .null
    next items =>
      cases h
      rw [hread items rfl]
      exact .array
    next => cases h
  · intro h
    cases h with
    | @array items => rw [← hread items rfl]
    | _ => rfl

/-- **What the reader makes of values is what they mean**, if the tree of the arguments is
ordered. -/
theorem ofProperties_eq_some_iff {m : Message}
    (hordered : ∀ j, v "arguments" = some j → (Value.ofJson j).Ordered) :
    ofProperties v = some m ↔ Means v m := by
  constructor
  · intro h
    simp only [ofProperties, Option.bind_eq_bind, Option.bind_eq_some_iff] at h
    obtain ⟨j, hj, i, hi, h⟩ := h
    rw [asInt32?_eq_some_iff] at hi
    subst hi
    have htype := Properties.messageType_of_typeTree hj
    split at h
    next hi =>
      subst hi
      obtain ⟨message, hmessage, rfl⟩ := Option.map_eq_some_iff.1 h
      simp only [Invocation.ofProperties, htype, Properties.text, Option.bind_eq_bind,
        Option.bind_some, Option.bind_eq_some_iff] at hmessage
      obtain ⟨id, hid, target, htarget, arguments, harguments, hmessage⟩ := hmessage
      cases hmessage
      have htarget : v "target" = some (.string target) := by
        split at htarget
        next heq => rwa [Option.some.inj htarget] at heq
        next => cases htarget
      exact .invocation hj (optionalText_eq_some_iff.1 hid) htarget
        ((argumentList_eq_some_iff hordered).1 harguments)
    next =>
      split at h
      next hi =>
        subst hi
        rw [Message.openOfProperties, htype] at h
        cases h
        exact .opened hj
      next =>
        split at h
        next hi =>
          subst hi
          obtain ⟨message, hmessage, rfl⟩ := Option.map_eq_some_iff.1 h
          simp only [CloseConnection.ofProperties, htype, Option.bind_eq_bind, Option.bind_some,
            Option.bind_eq_some_iff] at hmessage
          obtain ⟨error, herror, hmessage⟩ := hmessage
          cases hmessage
          exact .closed hj (optionalText_eq_some_iff.1 herror)
        next => cases h
  · intro h
    cases h with
    | invocation htype hid htarget harguments =>
        simp only [ofProperties, htype, Properties.asInt32?_typeTree, Invocation.ofProperties,
          Properties.messageType_of_typeTree htype, optionalText_eq_some_iff.2 hid,
          Properties.text, htarget, (argumentList_eq_some_iff hordered).2 harguments,
          Option.bind_eq_bind, Option.bind_some]
        rfl
    | opened htype =>
        simp only [ofProperties, htype, Properties.asInt32?_typeTree, Option.bind_eq_bind,
          Option.bind_some, Message.openOfProperties, Properties.messageType_of_typeTree htype]
        rfl
    | closed htype herror =>
        simp only [ofProperties, htype, Properties.asInt32?_typeTree, Option.bind_eq_bind,
          Option.bind_some, CloseConnection.ofProperties,
          Properties.messageType_of_typeTree htype, optionalText_eq_some_iff.2 herror]
        rfl

/-- Only the values of the known properties have a meaning. -/
theorem Means.congr {m : Message} (h : Means v m) (heq : ∀ known ∈ knownNames, v known = w known) :
    Means w m := by
  cases h with
  | invocation htype hid htarget harguments =>
      rw [heq _ (by decide)] at htype hid htarget harguments
      exact .invocation htype hid htarget harguments
  | opened htype =>
      rw [heq _ (by decide)] at htype
      exact .opened htype
  | closed htype herror =>
      rw [heq _ (by decide)] at htype herror
      exact .closed htype herror

end Meaning

/-! ### Frames -/

/-- The bytes are the text of an object with the given members, as they stand, blanks around it; at
most `Json.maxNesting` containers are nested in it. -/
def IsObject (bytes : List UInt8) (members : List (String × Json)) : Prop :=
  ∃ ds before p after, Writes (.object ds) p ∧ (Document.object ds).depth ≤ Json.maxNesting ∧
    Document.treeMembers? ds = some members ∧ IsBlank before ∧ IsBlank after ∧
    bytes = before ++ (p ++ after)

/-- The texts of objects are what can be parsed as objects. -/
theorem parse_eq_object_iff {bytes : List UInt8} {entries : List (String × Json)} :
    Json.parse bytes = some (.object entries) ↔
      ∃ members, IsObject bytes members ∧ entries = Entries.ofList members := by
  rw [Json.parse_eq_some_iff]
  constructor
  · rintro ⟨d, before, p, after, hwrites, hdepth, htree, hbefore, hafter, hbytes⟩
    cases d with
    | object ds =>
        rw [Document.tree?] at htree
        obtain ⟨members, hmembers, hentries⟩ := Option.map_eq_some_iff.1 htree
        cases hentries
        exact ⟨members, ⟨ds, before, p, after, hwrites, hdepth, hmembers, hbefore, hafter, hbytes⟩,
          rfl⟩
    | number n =>
        obtain ⟨_, -, hj⟩ := Option.map_eq_some_iff.1 htree
        cases hj
    | array ds =>
        rw [Document.tree?] at htree
        obtain ⟨_, -, hj⟩ := Option.map_eq_some_iff.1 htree
        cases hj
    | null | bool | string => cases htree
  · rintro ⟨members, hobject, rfl⟩
    obtain ⟨ds, before, p, after, hwrites, hdepth, hmembers, hbefore, hafter, hbytes⟩ := hobject
    refine ⟨.object ds, before, p, after, hwrites, hdepth, ?_, hbefore, hafter, hbytes⟩
    rw [Document.tree?, hmembers]
    rfl

/-- The trees of the members of an object are ordered. -/
theorem IsObject.ordered {bytes : List UInt8} {members : List (String × Json)} {name : String}
    {j : Json} (h : IsObject bytes members) (hmem : (name, j) ∈ members) :
    (Value.ofJson j).Ordered := by
  obtain ⟨ds, -, -, -, -, -, htrees, -, -, -⟩ := h
  have hordered := (Document.regular_ofJsonMembers ds htrees).1
  rw [Json.ofJsonMembers_eq] at hordered
  exact Value.orderedEntries_iff.1 hordered _ (List.mem_map_of_mem hmem)

/-- Written members are the text of an object. -/
theorem isObject_of_areTexts {texts : List (List Char)} {members : List (String × Json)}
    {depth : Nat} {bytes : List UInt8} (h : AreTexts texts members depth)
    (hdepth : depth < Json.maxNesting)
    (hbytes : Utf8.encodeChars (Json.renderObject texts) = bytes) : IsObject bytes members := by
  subst hbytes
  obtain ⟨ds, hwrites, htrees, hdepths⟩ := h
  refine ⟨ds, [], _, [], Json.writes_renderObject hwrites, ?_, htrees, Json.isBlank_nil,
    Json.isBlank_nil, ?_⟩
  · rw [Document.depth]
    omega
  · rw [List.nil_append, List.append_nil]

section Frames

variable {bytes bytes' p p' : List UInt8} {members members' : List (String × Json)}

theorem decode_of_isObject (hp : IsRecord bytes p) (h : IsObject p members) :
    decode bytes = ofProperties (.ofMembers (canonicalMembers (Entries.ofList members))) := by
  rw [decode, isRecord_iff.1 hp, parse_eq_object_iff.2 ⟨members, h, rfl⟩]

/-- What is not the text of an object is no message. -/
theorem decode_of_not_isObject (hp : IsRecord bytes p) (h : ¬ ∃ members, IsObject p members) :
    decode bytes = none := by
  unfold decode
  rw [isRecord_iff.1 hp]
  split
  next entries hparse =>
    obtain ⟨members, hmembers, -⟩ := parse_eq_object_iff.1 hparse
    exact absurd ⟨members, hmembers⟩ h
  next => rfl

/-- An object means what the values mean that its members give. -/
theorem decode_eq_some_iff_means (hp : IsRecord bytes p) (h : IsObject p members) {v : Properties}
    (hv : GivesProperties members v) {m : Message} : decode bytes = some m ↔ Means v m := by
  have hlookup : ∀ known ∈ knownNames,
      v known = Properties.ofMembers (canonicalMembers (Entries.ofList members)) known :=
    fun known hknown => (hv known hknown).unique (givesProperty_lookup members hknown)
  have hordered : ∀ j, Properties.ofMembers (canonicalMembers (Entries.ofList members))
      "arguments" = some j → (Value.ofJson j).Ordered := by
    intro j hj
    have hgives := givesProperty_lookup members (show "arguments" ∈ knownNames by decide)
    obtain ⟨name, hmem⟩ := (hj ▸ hgives).mem
    exact h.ordered hmem
  rw [decode_of_isObject hp h, ofProperties_eq_some_iff hordered]
  constructor
  · intro hm
    exact hm.congr fun known hknown => (hlookup known hknown).symm
  · intro hm
    exact hm.congr hlookup

/-- Objects that give the same values mean the same. -/
theorem decode_congr (hp : IsRecord bytes p) (h : IsObject p members) (hp' : IsRecord bytes' p')
    (h' : IsObject p' members') {v : Properties} (hv : GivesProperties members v)
    (hv' : GivesProperties members' v) : decode bytes = decode bytes' :=
  Option.ext fun _ =>
    (decode_eq_some_iff_means hp h hv).trans (decode_eq_some_iff_means hp' h' hv').symm

end Frames

/-- **A frame means what its properties mean.**  Only what stands in front of the first separator is
read.  What is not the text of an object is no message.  An object gives each property one value,
and its message, if there is one, is the one that these values mean.  Two objects that give the same
values have the same message, whatever else they hold and whatever stands behind them; in particular
the order of members does not matter as long as no name is written twice. -/
theorem decode_by_properties (bytes : List UInt8) :
    (∃ p, IsRecord bytes p) ∧ ∀ p, IsRecord bytes p →
      ((¬ ∃ members, IsObject p members) → decode bytes = none) ∧
      ∀ members, IsObject p members →
        (∃ v, GivesProperties members v) ∧
        (∀ v, GivesProperties members v → ∀ m, decode bytes = some m ↔ Means v m) ∧
        ∀ bytes' p' members', IsRecord bytes' p' → IsObject p' members' →
          (∀ v, GivesProperties members v → GivesProperties members' v →
            decode bytes = decode bytes') ∧
          (members.Perm members' → (members.map Prod.fst).Nodup →
            decode bytes = decode bytes') := by
  refine ⟨⟨_, isRecord_iff.2 rfl⟩, fun p hp => ⟨decode_of_not_isObject hp, fun members h => ?_⟩⟩
  have hgives : GivesProperties members
      (.ofMembers (canonicalMembers (Entries.ofList members))) :=
    fun known hknown => givesProperty_lookup members hknown
  refine ⟨⟨_, hgives⟩, fun v hv m => decode_eq_some_iff_means hp h hv, ?_⟩
  intro bytes' p' members' hp' h'
  refine ⟨fun v hv hv' => decode_congr hp h hp' h' hv hv', fun hperm hnodup => ?_⟩
  exact decode_congr hp h hp' h' hgives fun known hknown =>
    (hgives known hknown).perm hperm hnodup

/-- Properties given twice, in two spellings and with one name, in front of another message; the
same properties given once, in two orders; and a separator in front of everything. -/
theorem decode_by_properties_repeated :
    let repeated := Utf8.encode
      "\x7b\"TARGET\":\"z\",\"type\":1,\"Type\":10,\"target\":\"b\",\"target\":\"a\"\x7d"
    let front := Utf8.encode "\x7b\"type\":1,\"target\":\"a\"\x7d"
    let back := Utf8.encode "\x7b\"target\":\"a\",\"type\":1\x7d"
    let opened := Utf8.encode "\x7b\"type\":10\x7d"
    IsRecord (repeated ++ 0x1E :: opened) repeated ∧
      decode (repeated ++ 0x1E :: opened) = some (.invocation (.new "a" [])) ∧
      decode front = decode (repeated ++ 0x1E :: opened) ∧ decode back = decode front ∧
      decode (0x1E :: opened) = none := by
  intro repeated front back opened
  let one := Properties.typeTree 1
  let a : Json := .string "a"
  let v : Properties := .ofMembers [("type", one), ("target", a)]
  let many : List (String × Json) := [("TARGET", .string "z"), ("type", one),
    ("Type", Properties.typeTree 10), ("target", .string "b"), ("target", a)]
  -- where the frames are cut, and the members of each record as they stand
  have hrecord : IsRecord (repeated ++ 0x1E :: opened) repeated := .cut (by decide +kernel) opened
  have hrecordFront : IsRecord front front := .whole (by decide +kernel)
  have hrecordBack : IsRecord back back := .whole (by decide +kernel)
  have hrecordNone : IsRecord (0x1E :: opened) [] := .cut List.not_mem_nil opened
  have hnil : AreTexts [] [] 0 := .nil
  have htexts := ((hnil.string "target" "a").string "target" "b").messageType "Type" 10
  have hmany : IsObject repeated many :=
    isObject_of_areTexts ((htexts.messageType "type" 1).string "TARGET" "z") (by decide)
      (by decide +kernel)
  have hfront : IsObject front [("type", one), ("target", a)] :=
    isObject_of_areTexts ((hnil.string "target" "a").messageType "type" 1) (by decide)
      (by decide +kernel)
  have hback : IsObject back [("target", a), ("type", one)] :=
    isObject_of_areTexts ((hnil.messageType "type" 1).string "target" "a") (by decide)
      (by decide +kernel)
  have hnone : ¬ ∃ members, IsObject [] members := by
    rintro ⟨members, hmembers⟩
    cases parse_eq_object_iff.2 ⟨members, hmembers, rfl⟩
  -- the values that the members give
  have hgives : GivesProperties [("type", one), ("target", a)] v := by
    intro known hknown
    simp only [List.mem_cons, List.not_mem_nil, or_false] at hknown
    rcases hknown with rfl | rfl | rfl | rfl | rfl
    · exact @GivesProperty.present _ _ [] [("target", a)] "type" one rfl (by decide +kernel)
        (by decide +kernel) (by decide +kernel)
    · exact .absent (by decide +kernel)
    · exact @GivesProperty.present _ _ [("type", one)] [] "target" a rfl (by decide +kernel)
        (by decide +kernel) (by decide +kernel)
    · exact .absent (by decide +kernel)
    · exact .absent (by decide +kernel)
  have hgivesMany : GivesProperties many v := by
    intro known hknown
    simp only [List.mem_cons, List.not_mem_nil, or_false] at hknown
    rcases hknown with rfl | rfl | rfl | rfl | rfl
    · exact @GivesProperty.present _ _ (many.take 1) (many.drop 2) "type" one rfl
        (by decide +kernel) (by decide +kernel) (by decide +kernel)
    · exact .absent (by decide +kernel)
    · exact @GivesProperty.present _ _ (many.take 4) [] "target" a rfl (by decide +kernel)
        (by decide +kernel) (by decide +kernel)
    · exact .absent (by decide +kernel)
    · exact .absent (by decide +kernel)
  have hmeans : Means v (.invocation (.new "a" [])) := .invocation rfl .missing rfl .missing
  obtain ⟨-, hread⟩ := decode_by_properties (repeated ++ 0x1E :: opened)
  obtain ⟨-, hmany'⟩ := hread repeated hrecord
  obtain ⟨-, hmessage, hsame⟩ := hmany' many hmany
  obtain ⟨-, hreadFront⟩ := decode_by_properties front
  obtain ⟨-, -, hsameFront⟩ := (hreadFront front hrecordFront).2 _ hfront
  have hnone' := ((decode_by_properties (0x1E :: opened)).2 [] hrecordNone).1 hnone
  refine ⟨hrecord, (hmessage v hgivesMany _).2 hmeans, ?_, ?_, hnone'⟩
  · exact ((hsame front front _ hrecordFront hfront).1 v hgivesMany hgives).symm
  · exact ((hsameFront back back _ hrecordBack hback).2 (.swap _ _ []) (by decide +kernel)).symm

end HubGateway.TextFrame
