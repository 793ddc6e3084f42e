/-
**The reader accepts the grammar.**

A text of a document is read as the tree that the document means, whatever stands behind it, as long
as no more containers are nested in it than the reader admits.  If one of its numerals means no
number, it is refused.  What stands behind a text must not go on with a numeral, since a numeral
ends only where something else begins.

The reader of trees is structured by its nesting limit.  The readers of items and members are
therefore described for any reader of values that has the property one level further down.

Main definitions:

* `HubGateway.Json.ReadsTrees` — a reader of values reads every text up to a nesting limit.

Main statements:

* `HubGateway.Json.readsTrees_read` — **the reader is complete**;
* `HubGateway.Json.parse_of_writes` — a whole document is read as its tree.
-/

import HubGateway.Proofs.Json.Grammar

set_option relaxedAutoImplicit false
set_option autoImplicit false

namespace HubGateway.Json

/-! ### Blanks -/

theorem isBlankByte_iff (b : UInt8) : isBlankByte b = true ↔ b ∈ blanks := by
  simp [isBlankByte, blanks, or_assoc]

theorem dropBlanks_append {before : List UInt8} (h : IsBlank before) (rest : List UInt8) :
    dropBlanks (before ++ rest) = dropBlanks rest := by
  induction before with
  | nil => rfl
  | cons b before ih =>
      obtain ⟨hb, hbefore⟩ := List.forall_mem_cons.1 h
      rw [List.cons_append, dropBlanks, if_pos ((isBlankByte_iff b).2 hb), ih hbefore]

theorem dropBlanks_cons {b : UInt8} (h : b ∉ blanks) (rest : List UInt8) :
    dropBlanks (b :: rest) = b :: rest := by
  rw [dropBlanks, if_neg (mt (isBlankByte_iff b).1 h)]

theorem dropBlanks_isBlank {bytes : List UInt8} (h : IsBlank bytes) : dropBlanks bytes = [] := by
  have := dropBlanks_append h []
  rwa [List.append_nil] at this

/-- Reading passes over blanks. -/
theorem read_dropBlanks {κ α : Type} (r : Reading κ α) (fuel depth : Nat) {before : List UInt8}
    (h : IsBlank before) (bytes : List UInt8) :
    read r fuel depth (before ++ bytes) = read r fuel depth bytes := by
  rw [read.eq_def, read.eq_def r fuel depth bytes]
  simp only [dropBlanks_append h]

theorem endsNumeral_nil : EndsNumeral [] := by simp [EndsNumeral]

theorem endsNumeral_cons {b : UInt8} (h : continuesNumeral b = false) (rest : List UInt8) :
    EndsNumeral (b :: rest) := by
  rintro _ ⟨⟩
  exact h

/-- Blanks end a numeral in front of them. -/
theorem endsNumeral_append {after rest : List UInt8} (hafter : IsBlank after)
    (hrest : EndsNumeral rest) : EndsNumeral (after ++ rest) := by
  cases after with
  | nil => exact hrest
  | cons b after =>
      have hall : ∀ b ∈ blanks, continuesNumeral b = false := by decide +kernel
      exact endsNumeral_cons (hall b (hafter b List.mem_cons_self)) _

/-! ### One level of the reader -/

/-- A reader of values reads every text up to a nesting limit, after blanks. -/
def ReadsTrees (value : List UInt8 → Option (Json × List UInt8)) (depth fuel : Nat) : Prop :=
  ∀ {d : Document} {before p rest : List UInt8}, Writes d p → d.depth ≤ depth → p.length ≤ fuel →
    IsBlank before → EndsNumeral rest →
    value (before ++ (p ++ rest)) = d.tree?.map fun tree => (tree, rest)

section Containers

variable {value : List UInt8 → Option (Json × List UInt8)} {depth fuel : Nat}

theorem ReadsTrees.items (hvalue : ReadsTrees value depth fuel) {items : List Document}
    {p : List UInt8} (h : WritesItems items p) (hdepth : Document.depthItems items ≤ depth)
    (hfuel : p.length ≤ fuel) {count : Nat} (hcount : items.length ≤ count) (acc : List Json)
    (rest : List UInt8) :
    readItems value count acc (p ++ 0x5D :: rest) =
      (Document.treeItems? items).map fun trees => (acc.reverse ++ trees, rest) := by
  induction items generalizing p count acc with
  | nil => cases h
  | cons d items ih =>
      obtain ⟨count, rfl⟩ := Nat.exists_eq_add_of_le' (Nat.le_trans (Nat.le_add_left 1 _) hcount)
      have hcount := Nat.le_of_succ_le_succ hcount
      rw [Document.depthItems, max_le_iff] at hdepth
      rw [readItems, Document.treeItems?]
      cases h with
      | @last _ before q after hbefore h hafter =>
          simp only [List.length_append] at hfuel
          have hbracket : EndsNumeral (0x5D :: rest) := endsNumeral_cons (by decide) _
          have hread := hvalue h hdepth.1 (by omega) hbefore (endsNumeral_append hafter hbracket)
          simp only [List.append_assoc]
          rw [hread]
          cases d.tree? with
          | none => rfl
          | some tree =>
              simp only [Option.map_some, dropBlanks_append hafter, Document.treeItems?]
              rw [dropBlanks_cons (by decide)]
              simp
      | @cons _ _ before q after r hbefore h hafter hitems =>
          simp only [List.length_append, List.length_cons] at hfuel
          have hcomma : EndsNumeral (0x2C :: (r ++ 0x5D :: rest)) := endsNumeral_cons (by decide) _
          have hread := hvalue h hdepth.1 (by omega) hbefore (endsNumeral_append hafter hcomma)
          simp only [List.append_assoc, List.cons_append]
          rw [hread]
          cases d.tree? with
          | none => rfl
          | some tree =>
              simp only [Option.map_some, dropBlanks_append hafter]
              rw [dropBlanks_cons (by decide)]
              simp only [ih hitems hdepth.2 (by omega) hcount]
              cases Document.treeItems? items <;> simp

/-- Items begin with blanks and a byte that is no closing bracket. -/
theorem WritesItems.begins {items : List Document} {p : List UInt8} (h : WritesItems items p) :
    ∃ before q, p = before ++ q ∧ IsBlank before ∧ WritesItems items q ∧
      ∃ b tail, q = b :: tail ∧ Opens b := by
  cases h with
  | @last _ before p after hbefore h hafter =>
      obtain ⟨b, tail, rfl, hb⟩ := h.begins
      exact ⟨before, _, rfl, hbefore, .last isBlank_nil h hafter, b, _, rfl, hb⟩
  | @cons _ _ before p after q hbefore h hafter hitems =>
      obtain ⟨b, tail, rfl, hb⟩ := h.begins
      exact ⟨before, _, rfl, hbefore, .cons isBlank_nil h hafter hitems, b, _, rfl, hb⟩

/-- An array with items is read item by item. -/
theorem ReadsTrees.array (hvalue : ReadsTrees value depth fuel) {items : List Document}
    {p : List UInt8} (h : WritesItems items p) (hdepth : Document.depthItems items ≤ depth)
    (hfuel : p.length ≤ fuel) (rest : List UInt8) :
    readArray value fuel (p ++ 0x5D :: rest) =
      (Document.treeItems? items).map fun trees => (trees, rest) := by
  obtain ⟨before, q, rfl, hbefore, hq, b, tail, rfl, hb⟩ := h.begins
  simp only [List.length_append] at hfuel
  have hcount : items.length ≤ fuel := hq.length_le.trans (by omega)
  have hitems := hvalue.items hq hdepth (by omega) hcount [] rest
  rw [readArray, List.append_assoc, dropBlanks_append hbefore, List.cons_append,
    dropBlanks_cons hb.1]
  split
  next heq => exact absurd (List.cons.inj heq).1 hb.2.1
  next => exact hitems

/-- A member is read up to the blanks behind its value. -/
theorem ReadsTrees.member (hvalue : ReadsTrees value depth fuel) {name : String} {d : Document}
    {p : List UInt8} (h : WritesMember (name, d) p) (hdepth : d.depth ≤ depth)
    (hfuel : p.length ≤ fuel) :
    ∃ after, IsBlank after ∧ ∀ {b : UInt8} {rest : List UInt8}, continuesNumeral b = false →
      readMember piecesText? (fun _ => value) (p ++ b :: rest) =
        d.tree?.map fun tree => ((name, tree), after ++ b :: rest) := by
  cases h with
  | @intro _ _ before key left right p after hbefore hname hleft hright h hafter =>
      refine ⟨after, hafter, fun {b rest} hb => ?_⟩
      cases hname with
      | @intro q hname =>
          simp only [List.length_append, List.length_cons] at hfuel
          obtain ⟨pieces, hscan, htext⟩ := scanString_append hname
            (left ++ 0x3A :: (right ++ (p ++ (after ++ b :: rest))))
          have hread := hvalue h hdepth (by omega) hright
            (endsNumeral_append hafter (endsNumeral_cons hb rest))
          simp only [readMember, List.append_assoc, List.cons_append, List.nil_append,
            dropBlanks_append hbefore]
          rw [dropBlanks_cons (by decide)]
          simp only [hscan, htext, dropBlanks_append hleft]
          rw [dropBlanks_cons (by decide)]
          simp only [hread]
          cases d.tree? <;> rfl

theorem ReadsTrees.members (hvalue : ReadsTrees value depth fuel)
    {members : List (String × Document)} {p : List UInt8} (h : WritesMembers members p)
    (hdepth : Document.depthMembers members ≤ depth) (hfuel : p.length ≤ fuel) {count : Nat}
    (hcount : members.length ≤ count) (acc : List (String × Json)) (rest : List UInt8) :
    readMembers (readMember piecesText? fun _ => value) count acc (p ++ 0x7D :: rest) =
      (Document.treeMembers? members).map fun trees => (acc.reverse ++ trees, rest) := by
  induction members generalizing p count acc with
  | nil => cases h
  | cons member members ih =>
      obtain ⟨name, d⟩ := member
      obtain ⟨count, rfl⟩ := Nat.exists_eq_add_of_le' (Nat.le_trans (Nat.le_add_left 1 _) hcount)
      have hcount := Nat.le_of_succ_le_succ hcount
      rw [Document.depthMembers, max_le_iff] at hdepth
      rw [readMembers, Document.treeMembers?]
      cases h with
      | last h =>
          obtain ⟨after, hafter, hread⟩ := hvalue.member h hdepth.1 hfuel
          rw [hread (by decide)]
          cases d.tree? with
          | none => rfl
          | some tree =>
              simp only [Option.map_some, dropBlanks_append hafter, Document.treeMembers?]
              rw [dropBlanks_cons (by decide)]
              simp
      | @cons _ _ q r h hmembers =>
          simp only [List.length_append, List.length_cons] at hfuel
          obtain ⟨after, hafter, hread⟩ := hvalue.member h hdepth.1 (by omega)
          simp only [List.append_assoc, List.cons_append]
          rw [hread (by decide)]
          cases d.tree? with
          | none => rfl
          | some tree =>
              simp only [Option.map_some, dropBlanks_append hafter]
              rw [dropBlanks_cons (by decide)]
              simp only [ih hmembers hdepth.2 (by omega) hcount]
              cases Document.treeMembers? members <;> simp

/-- Members begin with blanks and a quote. -/
theorem WritesMembers.begins {members : List (String × Document)} {p : List UInt8}
    (h : WritesMembers members p) :
    ∃ before q, p = before ++ q ∧ IsBlank before ∧ WritesMembers members q ∧
      ∃ tail, q = 0x22 :: tail := by
  have hmember : ∀ {member p}, WritesMember member p → ∃ before q, p = before ++ q ∧
      IsBlank before ∧ WritesMember member q ∧ ∃ tail, q = 0x22 :: tail := by
    rintro member p ⟨hbefore, hname, hleft, hright, h, hafter⟩
    have hwhole := WritesMember.intro isBlank_nil hname hleft hright h hafter
    cases hname with
    | intro => exact ⟨_, _, rfl, hbefore, hwhole, _, rfl⟩
  cases h with
  | last h =>
      obtain ⟨before, q, rfl, hbefore, hq, htail⟩ := hmember h
      exact ⟨before, q, rfl, hbefore, .last hq, htail⟩
  | cons h hmembers =>
      obtain ⟨before, q, rfl, hbefore, hq, tail, rfl⟩ := hmember h
      exact ⟨before, _, List.append_assoc .., hbefore, .cons hq hmembers, _, rfl⟩

/-- An object with members is read member by member. -/
theorem ReadsTrees.object (hvalue : ReadsTrees value depth fuel)
    {members : List (String × Document)} {p : List UInt8} (h : WritesMembers members p)
    (hdepth : Document.depthMembers members ≤ depth) (hfuel : p.length ≤ fuel)
    (rest : List UInt8) :
    readObject (readMember piecesText? fun _ => value) fuel (p ++ 0x7D :: rest) =
      (Document.treeMembers? members).map fun trees => (trees, rest) := by
  obtain ⟨before, q, rfl, hbefore, hq, tail, rfl⟩ := h.begins
  simp only [List.length_append] at hfuel
  have hcount : members.length ≤ fuel := hq.length_le.trans (by omega)
  have hmembers := hvalue.members hq hdepth (by omega) hcount [] rest
  rw [readObject, List.append_assoc, dropBlanks_append hbefore, List.cons_append,
    dropBlanks_cons (by decide)]
  exact hmembers

end Containers

/-! ### All levels -/

section Levels

variable {fuel depth : Nat} {rest : List UInt8}

/-- What begins as a numeral is read by the scanner of numerals. -/
theorem read_cons_numeral {b : UInt8} (hb : b = 0x2D ∨ isDigit b = true) (bytes : List UInt8) :
    read tree fuel depth (b :: bytes) =
      (scanNumeral (b :: bytes)).bind fun (n, rest) =>
        (n.toNumber?.map .number).map fun j => (j, rest) := by
  have hother : ∀ {c : UInt8} {left : List UInt8}, b :: bytes = c :: left →
      c ∉ [0x6E, 0x74, 0x66, 0x22, 0x5B, 0x7B] := by
    rintro c left ⟨⟩ hmem
    have hall : ∀ c ∈ [0x6E, 0x74, 0x66, 0x22, 0x5B, 0x7B], ¬ (c = 0x2D ∨ isDigit c = true) := by
      decide +kernel
    exact hall b hmem hb
  rw [read.eq_def]
  simp only [dropBlanks_cons (opens_of_numeral hb).1]
  split
  next heq => exact absurd (by decide) (hother heq)
  next heq => exact absurd (by decide) (hother heq)
  next heq => exact absurd (by decide) (hother heq)
  next heq => exact absurd (by decide) (hother heq)
  next heq => exact absurd (by decide) (hother heq)
  next heq => exact absurd (by decide) (hother heq)
  next =>
    cases scanNumeral (b :: bytes) with
    | none => rfl
    | some scanned => rfl

theorem read_numeral {n : Numeral} {p : List UInt8} (h : NumeralForm n p)
    (hrest : EndsNumeral rest) :
    read tree fuel depth (p ++ rest) = (n.toNumber?.map .number).map fun j => (j, rest) := by
  obtain ⟨b, tail, rfl, hb⟩ := h.begins
  have hscan := scanNumeral_append h hrest
  rw [List.cons_append] at hscan ⊢
  rw [read_cons_numeral hb, hscan, Option.bind_some]

theorem read_string {s : String} {p : List UInt8} (h : StringForm s p) :
    read tree fuel depth (p ++ rest) = some (.string s, rest) := by
  cases h with
  | @intro q h =>
      obtain ⟨pieces, hscan, htext⟩ := scanString_append h rest
      rw [read.eq_def, List.cons_append, List.append_assoc, List.singleton_append]
      simp only [dropBlanks_cons (show 0x22 ∉ blanks by decide), hscan]
      simp only [tree, htext]
      rfl

theorem read_bracket (bytes : List UInt8) :
    read tree fuel (depth + 1) (0x5B :: bytes) =
      (readArray (read tree fuel depth) fuel bytes).map
        fun (items, rest) => (.array items, rest) := rfl

theorem read_brace (bytes : List UInt8) :
    read tree fuel (depth + 1) (0x7B :: bytes) =
      (readObject (readMember piecesText? fun _ => read tree fuel depth) fuel bytes).map
        fun (members, rest) => (.object (Entries.ofList members), rest) := rfl

theorem readArray_empty (value : List UInt8 → Option (Json × List UInt8)) {between : List UInt8}
    (h : IsBlank between) : readArray value fuel (between ++ 0x5D :: rest) = some ([], rest) := by
  rw [readArray, dropBlanks_append h, dropBlanks_cons (by decide)]
  rfl

theorem readObject_empty (member : List UInt8 → Option ((String × Json) × List UInt8))
    {between : List UInt8} (h : IsBlank between) :
    readObject member fuel (between ++ 0x7D :: rest) = some ([], rest) := by
  rw [readObject, dropBlanks_append h, dropBlanks_cons (by decide)]
  rfl

/-- A reader reads every text if the reader one level further down does. -/
theorem readsTrees_step
    (hinner : ∀ k, depth = k + 1 → ReadsTrees (read tree fuel k) k fuel) :
    ReadsTrees (read tree fuel depth) depth fuel := by
  intro d before p rest h hdepth hfuel hbefore hrest
  rw [read_dropBlanks tree fuel depth hbefore]
  -- a container needs a level of its own
  have hlevel : ∀ {n : Nat}, n + 1 ≤ depth → ∃ k, depth = k + 1 ∧ n ≤ k := fun {n} hn =>
    ⟨depth - 1, by omega, by omega⟩
  cases h with
  | null => rw [read.eq_def]; rfl
  | yes => rw [read.eq_def]; rfl
  | no => rw [read.eq_def]; rfl
  | number h => exact read_numeral h hrest
  | string h => exact read_string h
  | emptyArray h =>
      obtain ⟨k, rfl, -⟩ := hlevel hdepth
      rw [List.cons_append, List.append_assoc, List.singleton_append, read_bracket,
        readArray_empty _ h]
      rfl
  | @array items q h =>
      obtain ⟨k, rfl, hk⟩ := hlevel hdepth
      simp only [List.length_cons, List.length_append] at hfuel
      rw [List.cons_append, List.append_assoc, List.singleton_append, read_bracket,
        ReadsTrees.array (hinner k rfl) h hk (by omega) rest, Document.tree?]
      cases Document.treeItems? items <;> rfl
  | emptyObject h =>
      obtain ⟨k, rfl, -⟩ := hlevel hdepth
      rw [List.cons_append, List.append_assoc, List.singleton_append, read_brace,
        readObject_empty _ h]
      rfl
  | @object members q h =>
      obtain ⟨k, rfl, hk⟩ := hlevel hdepth
      simp only [List.length_cons, List.length_append] at hfuel
      rw [List.cons_append, List.append_assoc, List.singleton_append, read_brace,
        ReadsTrees.object (hinner k rfl) h hk (by omega) rest, Document.tree?]
      cases Document.treeMembers? members <;> rfl

/-- **The reader reads every text** that is not nested too deep. -/
theorem readsTrees_read (fuel depth : Nat) : ReadsTrees (read tree fuel depth) depth fuel := by
  induction depth with
  | zero => exact readsTrees_step fun k hk => absurd hk.symm (Nat.succ_ne_zero k)
  | succ depth ih =>
      refine readsTrees_step fun k hk => ?_
      cases hk
      exact ih

end Levels

/-- **A whole document is read as its tree**, whatever blanks stand around it. -/
theorem parse_of_writes {d : Document} {before p after : List UInt8} (h : Writes d p)
    (hdepth : d.depth ≤ maxNesting) (hbefore : IsBlank before) (hafter : IsBlank after) :
    parse (before ++ (p ++ after)) = d.tree? := by
  have hends : EndsNumeral after := by
    rw [← List.append_nil after]
    exact endsNumeral_append hafter endsNumeral_nil
  have hread := readsTrees_read (before ++ (p ++ after)).length maxNesting h hdepth
    (by simp only [List.length_append]; omega) hbefore hends
  rw [parse, readDocument, hread]
  cases d.tree? with
  | none => rfl
  | some tree =>
      simp only [Option.map_some, atEnd, dropBlanks_isBlank hafter]
      rfl

end HubGateway.Json
