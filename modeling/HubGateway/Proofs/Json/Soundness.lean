/-
**The reader accepts nothing but the grammar.**

What the reader of trees takes from its input, behind blanks, is a text of a document that means the
tree, and no more containers are nested in the document than the reader admits.  With the other
direction, that every such text is read, the documents that can be parsed are known without the
reader: they are the texts of the grammar, with blanks around them, that nest at most `maxNesting`
containers and all of whose numerals mean numbers.

As there, the readers of items and members are described for any reader of values that has the
property one level further down.

Main definitions:

* `HubGateway.Json.TakesTrees` — a reader of values takes only texts up to a nesting limit.

Main statements:

* `HubGateway.Json.takesTrees_read` — **the reader is sound**;
* `HubGateway.Json.parse_eq_some_iff` — what can be parsed, and as which tree.
-/

import HubGateway.Proofs.Json.Acceptance
import HubGateway.Proofs.Json.Spelling

set_option relaxedAutoImplicit false
set_option autoImplicit false

namespace HubGateway.Json

/-! ### Blanks and literals -/

theorem isBlank_append {before after : List UInt8} (hbefore : IsBlank before)
    (hafter : IsBlank after) : IsBlank (before ++ after) :=
  List.forall_mem_append.2 ⟨hbefore, hafter⟩

/-- What is dropped are blanks. -/
theorem eq_append_dropBlanks (bytes : List UInt8) :
    ∃ before, IsBlank before ∧ bytes = before ++ dropBlanks bytes := by
  induction bytes with
  | nil => exact ⟨[], isBlank_nil, rfl⟩
  | cons b bytes ih =>
      by_cases hb : isBlankByte b = true
      · obtain ⟨before, hbefore, heq⟩ := ih
        refine ⟨b :: before, List.forall_mem_cons.2 ⟨(isBlankByte_iff b).1 hb, hbefore⟩, ?_⟩
        rw [dropBlanks, if_pos hb, List.cons_append, ← heq]
      · refine ⟨[], isBlank_nil, ?_⟩
        rw [dropBlanks, if_neg hb, List.nil_append]

/-- Blanks that are dropped, and what is found behind them. -/
theorem exists_blanks {bytes left : List UInt8} (h : dropBlanks bytes = left) :
    ∃ before, IsBlank before ∧ bytes = before ++ left := by
  obtain ⟨before, hbefore, heq⟩ := eq_append_dropBlanks bytes
  exact ⟨before, hbefore, h ▸ heq⟩

theorem eq_append_of_afterWord {word bytes rest : List UInt8}
    (h : afterWord word bytes = some rest) : bytes = word ++ rest := by
  induction word generalizing bytes with
  | nil =>
      cases h
      rfl
  | cons w word ih =>
      cases bytes with
      | nil => cases h
      | cons b bytes =>
          rw [afterWord] at h
          split at h
          next hwb => rw [hwb, ih h, List.cons_append]
          next => cases h

/-- A literal is read from its word alone. -/
theorem eq_of_read_literal {word left rest : List UInt8} {literal j : Json}
    (h : (afterWord word left).map (fun rest => (literal, rest)) = some (j, rest)) :
    j = literal ∧ left = word ++ rest := by
  obtain ⟨behind, hword, hj⟩ := Option.map_eq_some_iff.1 h
  cases hj
  exact ⟨rfl, eq_append_of_afterWord hword⟩

/-! ### One level of the reader -/

/-- A reader of values takes only texts up to a nesting limit, after blanks. -/
def TakesTrees (value : List UInt8 → Option (Json × List UInt8)) (depth : Nat) : Prop :=
  ∀ {bytes rest : List UInt8} {j : Json}, value bytes = some (j, rest) →
    ∃ d before p, Writes d p ∧ d.depth ≤ depth ∧ d.tree? = some j ∧ IsBlank before ∧
      bytes = before ++ (p ++ rest)

section Containers

variable {value : List UInt8 → Option (Json × List UInt8)} {depth fuel : Nat}
  {bytes rest : List UInt8}

theorem TakesTrees.items (hvalue : TakesTrees value depth) {acc items : List Json}
    (h : readItems value fuel acc bytes = some (items, rest)) :
    ∃ ds p js, WritesItems ds p ∧ Document.depthItems ds ≤ depth ∧
      Document.treeItems? ds = some js ∧ items = acc.reverse ++ js ∧
      bytes = p ++ 0x5D :: rest := by
  induction fuel generalizing acc bytes with
  | zero => cases h
  | succ fuel ih =>
      rw [readItems] at h
      split at h
      next => cases h
      next j left hread =>
        obtain ⟨d, before, p, hwrites, hdepth, htree, hbefore, rfl⟩ := hvalue hread
        split at h
        next left' hcomma =>
          obtain ⟨after, hafter, rfl⟩ := exists_blanks hcomma
          obtain ⟨ds, q, js, hitems, hdepths, htrees, rfl, rfl⟩ := ih h
          refine ⟨d :: ds, _, j :: js, .cons hbefore hwrites hafter hitems, ?_, ?_, ?_, ?_⟩
          · exact max_le hdepth hdepths
          · rw [Document.treeItems?, htree, htrees]
            rfl
          · simp
          · simp
        next left' hbracket =>
          obtain ⟨after, hafter, rfl⟩ := exists_blanks hbracket
          cases h
          refine ⟨[d], _, [j], .last hbefore hwrites hafter, ?_, ?_, ?_, ?_⟩
          · exact max_le hdepth (Nat.zero_le _)
          · rw [Document.treeItems?, htree]
            rfl
          · simp
          · simp
        next => cases h

/-- Blanks in front of items are in front of the first one. -/
theorem WritesItems.append_blanks {before p : List UInt8} {items : List Document}
    (hbefore : IsBlank before) (h : WritesItems items p) : WritesItems items (before ++ p) := by
  cases h with
  | last hfirst h hafter =>
      rw [← List.append_assoc]
      exact .last (isBlank_append hbefore hfirst) h hafter
  | cons hfirst h hafter hitems =>
      rw [← List.append_assoc]
      exact .cons (isBlank_append hbefore hfirst) h hafter hitems

/-- What is read as an array is the text of one, its opening bracket apart. -/
theorem TakesTrees.array (hvalue : TakesTrees value depth) {items : List Json}
    (h : readArray value fuel bytes = some (items, rest)) :
    ∃ ds p, Writes (.array ds) (0x5B :: p) ∧ Document.depthItems ds ≤ depth ∧
      Document.treeItems? ds = some items ∧ bytes = p ++ rest := by
  unfold readArray at h
  split at h
  next left hbracket =>
    obtain ⟨between, hbetween, rfl⟩ := exists_blanks hbracket
    cases h
    exact ⟨[], _, .emptyArray hbetween, Nat.zero_le _, rfl, by simp⟩
  next =>
    obtain ⟨before, hbefore, heq⟩ := eq_append_dropBlanks bytes
    obtain ⟨ds, p, js, hitems, hdepth, htrees, rfl, hbytes⟩ := hvalue.items h
    refine ⟨ds, _, .array (hitems.append_blanks hbefore), hdepth, htrees, ?_⟩
    rw [heq, hbytes]
    simp

/-- What is read as a member, up to the blanks behind its value. -/
theorem TakesTrees.member (hvalue : TakesTrees value depth) {name : String} {j : Json}
    (h : readMember piecesText? (fun _ => value) bytes = some ((name, j), rest)) :
    ∃ d p, d.depth ≤ depth ∧ d.tree? = some j ∧ bytes = p ++ rest ∧
      ∀ {after}, IsBlank after → WritesMember (name, d) (p ++ after) := by
  unfold readMember at h
  split at h
  next atName hquote =>
    obtain ⟨before, hbefore, rfl⟩ := exists_blanks hquote
    split at h
    next => cases h
    next pieces atColon hscan =>
      split at h
      next => cases h
      next key htext =>
        obtain ⟨p, hp, rfl⟩ := charsForm_of_scanString hscan htext
        split at h
        next atValue hcolon =>
          obtain ⟨between, hbetween, rfl⟩ := exists_blanks hcolon
          split at h
          next => cases h
          next tree left hread =>
            cases h
            obtain ⟨d, right, q, hwrites, hdepth, htree, hright, rfl⟩ := hvalue hread
            refine ⟨d, before ++ ((0x22 :: (p ++ [0x22])) ++ (between ++ 0x3A :: (right ++ q))),
              hdepth, htree, by simp, ?_⟩
            intro after hafter
            have hmember := WritesMember.intro hbefore (.intro hp) hbetween hright hwrites hafter
            simpa only [List.append_assoc, List.cons_append] using hmember
        next => cases h
  next => cases h

theorem TakesTrees.members (hvalue : TakesTrees value depth)
    {acc members : List (String × Json)}
    (h : readMembers (readMember piecesText? fun _ => value) fuel acc bytes =
      some (members, rest)) :
    ∃ ds p js, WritesMembers ds p ∧ Document.depthMembers ds ≤ depth ∧
      Document.treeMembers? ds = some js ∧ members = acc.reverse ++ js ∧
      bytes = p ++ 0x7D :: rest := by
  induction fuel generalizing acc bytes with
  | zero => cases h
  | succ fuel ih =>
      rw [readMembers] at h
      split at h
      next => cases h
      next member left hread =>
        obtain ⟨name, j⟩ := member
        obtain ⟨d, p, hdepth, htree, rfl, hmember⟩ := hvalue.member hread
        split at h
        next behind hcomma =>
          obtain ⟨after, hafter, rfl⟩ := exists_blanks hcomma
          obtain ⟨ds, q, js, hmembers, hdepths, htrees, rfl, rfl⟩ := ih h
          refine ⟨(name, d) :: ds, _, (name, j) :: js, .cons (hmember hafter) hmembers,
            ?_, ?_, ?_, ?_⟩
          · exact max_le hdepth hdepths
          · rw [Document.treeMembers?, htree, htrees]
            rfl
          · simp
          · simp
        next behind hbrace =>
          obtain ⟨after, hafter, rfl⟩ := exists_blanks hbrace
          cases h
          refine ⟨[(name, d)], _, [(name, j)], .last (hmember hafter), ?_, ?_, ?_, ?_⟩
          · exact max_le hdepth (Nat.zero_le _)
          · rw [Document.treeMembers?, htree]
            rfl
          · simp
          · simp
        next => cases h

/-- Blanks in front of members are in front of the first one. -/
theorem WritesMembers.append_blanks {before p : List UInt8} {members : List (String × Document)}
    (hbefore : IsBlank before) (h : WritesMembers members p) :
    WritesMembers members (before ++ p) := by
  have hmember : ∀ {member p}, WritesMember member p → WritesMember member (before ++ p) := by
    rintro member p ⟨hfirst, hname, hleft, hright, h, hafter⟩
    rw [← List.append_assoc]
    exact .intro (isBlank_append hbefore hfirst) hname hleft hright h hafter
  cases h with
  | last h => exact .last (hmember h)
  | cons h hmembers =>
      rw [← List.append_assoc]
      exact .cons (hmember h) hmembers

/-- What is read as an object is the text of one, its opening brace apart. -/
theorem TakesTrees.object (hvalue : TakesTrees value depth) {members : List (String × Json)}
    (h : readObject (readMember piecesText? fun _ => value) fuel bytes = some (members, rest)) :
    ∃ ds p, Writes (.object ds) (0x7B :: p) ∧ Document.depthMembers ds ≤ depth ∧
      Document.treeMembers? ds = some members ∧ bytes = p ++ rest := by
  unfold readObject at h
  split at h
  next left hbrace =>
    obtain ⟨between, hbetween, rfl⟩ := exists_blanks hbrace
    cases h
    exact ⟨[], _, .emptyObject hbetween, Nat.zero_le _, rfl, by simp⟩
  next =>
    obtain ⟨before, hbefore, heq⟩ := eq_append_dropBlanks bytes
    obtain ⟨ds, p, js, hmembers, hdepth, htrees, rfl, hbytes⟩ := hvalue.members h
    refine ⟨ds, _, .object (hmembers.append_blanks hbefore), hdepth, htrees, ?_⟩
    rw [heq, hbytes]
    simp

end Containers

/-! ### All levels -/

/-- A reader takes only texts if the reader one level further down does. -/
theorem takesTrees_step {fuel depth : Nat}
    (hinner : ∀ k, depth = k + 1 → TakesTrees (read tree fuel k) k) :
    TakesTrees (read tree fuel depth) depth := by
  intro bytes rest j h
  obtain ⟨before, hbefore, heq⟩ := eq_append_dropBlanks bytes
  suffices hsuffices : ∃ d p, Writes d p ∧ d.depth ≤ depth ∧ d.tree? = some j ∧
      dropBlanks bytes = p ++ rest by
    obtain ⟨d, p, hwrites, hdepth, htree, hp⟩ := hsuffices
    exact ⟨d, before, p, hwrites, hdepth, htree, hbefore, hp ▸ heq⟩
  rw [read.eq_def] at h
  simp only at h
  -- by the first byte of a value
  split at h
  next left hfirst =>
    obtain ⟨rfl, rfl⟩ := eq_of_read_literal h
    exact ⟨.null, _, .null, Nat.zero_le _, rfl, hfirst⟩
  next left hfirst =>
    obtain ⟨rfl, rfl⟩ := eq_of_read_literal h
    exact ⟨.bool true, _, .yes, Nat.zero_le _, rfl, hfirst⟩
  next left hfirst =>
    obtain ⟨rfl, rfl⟩ := eq_of_read_literal h
    exact ⟨.bool false, _, .no, Nat.zero_le _, rfl, hfirst⟩
  next left hfirst =>
    split at h
    next => cases h
    next pieces behind hscan =>
      obtain ⟨_, htree, hj⟩ := Option.map_eq_some_iff.1 h
      obtain ⟨s, htext, rfl⟩ := Option.map_eq_some_iff.1 htree
      cases hj
      obtain ⟨p, hp, rfl⟩ := charsForm_of_scanString hscan htext
      exact ⟨.string s, _, .string (.intro hp), Nat.zero_le _, rfl, by simp [hfirst]⟩
  next left hfirst =>
    split at h
    next => cases h
    next k =>
      obtain ⟨⟨items, behind⟩, hread, hj⟩ := Option.map_eq_some_iff.1 h
      cases hj
      obtain ⟨ds, p, hwrites, hdepth, htrees, rfl⟩ := TakesTrees.array (hinner k rfl) hread
      refine ⟨.array ds, _, hwrites, Nat.succ_le_succ hdepth, ?_, hfirst⟩
      rw [Document.tree?, htrees]
      rfl
  next left hfirst =>
    split at h
    next => cases h
    next k =>
      obtain ⟨⟨members, behind⟩, hread, hj⟩ := Option.map_eq_some_iff.1 h
      cases hj
      obtain ⟨ds, p, hwrites, hdepth, htrees, rfl⟩ := TakesTrees.object (hinner k rfl) hread
      refine ⟨.object ds, _, hwrites, Nat.succ_le_succ hdepth, ?_, hfirst⟩
      rw [Document.tree?, htrees]
      rfl
  next =>
    split at h
    next => cases h
    next n behind hscan =>
      obtain ⟨_, hnumber, hj⟩ := Option.map_eq_some_iff.1 h
      cases hj
      obtain ⟨p, hp, hbytes⟩ := form_of_scanNumeral hscan
      exact ⟨.number n, p, .number hp, Nat.zero_le _, hnumber, hbytes⟩

/-- **The reader takes only texts** that are not nested too deep. -/
theorem takesTrees_read (fuel depth : Nat) : TakesTrees (read tree fuel depth) depth := by
  induction depth with
  | zero => exact takesTrees_step fun k hk => absurd hk.symm (Nat.succ_ne_zero k)
  | succ depth ih =>
      refine takesTrees_step fun k hk => ?_
      cases hk
      exact ih

/-- **What can be parsed, and as which tree**: the texts of documents that mean a tree and are not
nested too deep, with blanks around them. -/
theorem parse_eq_some_iff {bytes : List UInt8} {j : Json} :
    parse bytes = some j ↔ ∃ d before p after, Writes d p ∧ d.depth ≤ maxNesting ∧
      d.tree? = some j ∧ IsBlank before ∧ IsBlank after ∧ bytes = before ++ (p ++ after) := by
  constructor
  · intro h
    unfold parse readDocument atEnd at h
    split at h
    next tree rest hread =>
      split at h
      next hempty =>
        cases h
        obtain ⟨d, before, p, hwrites, hdepth, htree, hbefore, hbytes⟩ :=
          takesTrees_read _ _ hread
        obtain ⟨after, hafter, hrest⟩ := eq_append_dropBlanks rest
        rw [List.isEmpty_iff.1 hempty, List.append_nil] at hrest
        exact ⟨d, before, p, after, hwrites, hdepth, htree, hbefore, hafter, hrest ▸ hbytes⟩
      next => cases h
    next => cases h
  · rintro ⟨d, before, p, after, hwrites, hdepth, htree, hbefore, hafter, rfl⟩
    rw [parse_of_writes hwrites hdepth hbefore hafter, htree]

end HubGateway.Json
