/-
**The grammar of JSON texts.**

Which bytes are the text of a document is said here without reference to any reader.  A document
keeps what its text says before anything is decided about it: numerals as they are written, and the
members of an object as they stand, a name possibly repeated.  Blanks may stand between all tokens.

What a document means as a tree is a second step.  A numeral may mean no number, and then the
document means nothing; of members with one name the last counts.

Main definitions:

* `HubGateway.Json.Document` — what a text says;
* `HubGateway.Json.Document.tree?` — the tree that a document means;
* `HubGateway.Json.Writes` — **the grammar**: `Writes d p` says that the bytes `p` are a text of the
  document `d`, with no blanks around it.

Main statements:

* `HubGateway.Json.Writes.begins` — the first byte of a text is no blank and no closing bracket;
* `HubGateway.Json.WritesItems.length_le`, `WritesMembers.length_le` — every item and member takes
  a byte.
-/

import HubGateway.Proofs.Json.Numeral
import HubGateway.Proofs.Json.Quoted

set_option relaxedAutoImplicit false
set_option autoImplicit false

namespace HubGateway.Json

/-! ### Documents -/

/-- What a JSON text says. -/
inductive Document where
  | null
  | bool (value : Bool)
  | number (numeral : Numeral)
  | string (text : String)
  | array (items : List Document)
  | object (members : List (String × Document))

namespace Document

mutual

/-- How many containers are nested in a document. -/
def depth : Document → Nat
  | .array items => depthItems items + 1
  | .object members => depthMembers members + 1
  | _ => 0

/-- The greatest depth of the items of an array. -/
def depthItems : List Document → Nat
  | [] => 0
  | item :: items => max item.depth (depthItems items)

/-- The greatest depth of the members of an object. -/
def depthMembers : List (String × Document) → Nat
  | [] => 0
  | (_, value) :: members => max value.depth (depthMembers members)

end

mutual

/-- The tree that a document means, if all its numerals mean numbers. -/
def tree? : Document → Option Json
  | .null => some .null
  | .bool value => some (.bool value)
  | .number numeral => numeral.toNumber?.map .number
  | .string text => some (.string text)
  | .array items => (treeItems? items).map .array
  | .object members => (treeMembers? members).map fun members => .object (Entries.ofList members)

/-- The trees of the items of an array. -/
def treeItems? : List Document → Option (List Json)
  | [] => some []
  | item :: items =>
    match item.tree? with
    | none => none
    | some tree => (treeItems? items).map (tree :: ·)

/-- The trees of the members of an object, as they stand. -/
def treeMembers? : List (String × Document) → Option (List (String × Json))
  | [] => some []
  | (name, value) :: members =>
    match value.tree? with
    | none => none
    | some tree => (treeMembers? members).map ((name, tree) :: ·)

end

end Document

/-! ### Texts -/

/-- The bytes that may stand between tokens: space, tab, line feed and carriage return. -/
def blanks : List UInt8 := [0x20, 0x09, 0x0A, 0x0D]

/-- Nothing but blanks. -/
def IsBlank (bytes : List UInt8) : Prop := ∀ b ∈ bytes, b ∈ blanks

theorem isBlank_nil : IsBlank [] := fun _ h => (List.not_mem_nil h).elim

mutual

/-- `Writes d p`: the bytes `p` are a text of the document `d`, without blanks around it. -/
inductive Writes : Document → List UInt8 → Prop
  | null : Writes .null [0x6E, 0x75, 0x6C, 0x6C]
  | yes : Writes (.bool true) [0x74, 0x72, 0x75, 0x65]
  | no : Writes (.bool false) [0x66, 0x61, 0x6C, 0x73, 0x65]
  | number {n : Numeral} {p : List UInt8} (h : NumeralForm n p) : Writes (.number n) p
  | string {s : String} {p : List UInt8} (h : StringForm s p) : Writes (.string s) p
  | emptyArray {between : List UInt8} (h : IsBlank between) :
      Writes (.array []) (0x5B :: (between ++ [0x5D]))
  | array {items : List Document} {p : List UInt8} (h : WritesItems items p) :
      Writes (.array items) (0x5B :: (p ++ [0x5D]))
  | emptyObject {between : List UInt8} (h : IsBlank between) :
      Writes (.object []) (0x7B :: (between ++ [0x7D]))
  | object {members : List (String × Document)} {p : List UInt8} (h : WritesMembers members p) :
      Writes (.object members) (0x7B :: (p ++ [0x7D]))

/-- The bytes are texts of items, with commas between them and blanks around each. -/
inductive WritesItems : List Document → List UInt8 → Prop
  | last {d : Document} {before p after : List UInt8} (hbefore : IsBlank before) (h : Writes d p)
      (hafter : IsBlank after) : WritesItems [d] (before ++ (p ++ after))
  | cons {d : Document} {items : List Document} {before p after q : List UInt8}
      (hbefore : IsBlank before) (h : Writes d p) (hafter : IsBlank after)
      (hitems : WritesItems items q) :
      WritesItems (d :: items) (before ++ (p ++ (after ++ 0x2C :: q)))

/-- The bytes are texts of members, with commas between them and blanks around each token. -/
inductive WritesMembers : List (String × Document) → List UInt8 → Prop
  | last {member : String × Document} {p : List UInt8} (h : WritesMember member p) :
      WritesMembers [member] p
  | cons {member : String × Document} {members : List (String × Document)} {p q : List UInt8}
      (h : WritesMember member p) (hmembers : WritesMembers members q) :
      WritesMembers (member :: members) (p ++ 0x2C :: q)

/-- The bytes are the text of a member: a name in quotes, a colon and a value. -/
inductive WritesMember : String × Document → List UInt8 → Prop
  | intro {name : String} {d : Document} {before key left right p after : List UInt8}
      (hbefore : IsBlank before) (hname : StringForm name key) (hleft : IsBlank left)
      (hright : IsBlank right) (h : Writes d p) (hafter : IsBlank after) :
      WritesMember (name, d) (before ++ (key ++ (left ++ 0x3A :: (right ++ (p ++ after)))))

end

/-! ### First bytes -/

/-- The bytes that neither are blank nor close a container. -/
def Opens (b : UInt8) : Prop := b ∉ blanks ∧ b ≠ 0x5D ∧ b ≠ 0x7D

instance (b : UInt8) : Decidable (Opens b) :=
  inferInstanceAs (Decidable (b ∉ blanks ∧ b ≠ 0x5D ∧ b ≠ 0x7D))

theorem NumeralForm.begins {n : Numeral} {p : List UInt8} (h : NumeralForm n p) :
    ∃ b tail, p = b :: tail ∧ (b = 0x2D ∨ isDigit b = true) := by
  obtain ⟨negative, whole, fraction, exponent⟩ := n
  cases h with
  | intro hwhole =>
      obtain ⟨d, digits, rfl⟩ := List.exists_cons_of_ne_nil hwhole.ne_nil
      cases negative with
      | true => exact ⟨_, _, rfl, .inl rfl⟩
      | false => exact ⟨_, _, rfl, .inr (isDigit_digitByte (hwhole.lt_ten d List.mem_cons_self))⟩

theorem opens_of_numeral {b : UInt8} (h : b = 0x2D ∨ isDigit b = true) : Opens b := by
  rcases h with rfl | h
  · decide
  · rw [isDigit_iff] at h
    simp only [Opens, blanks, List.mem_cons, List.not_mem_nil, or_false, not_or, ne_eq,
      ← UInt8.toNat_inj, UInt8.reduceToNat]
    omega

/-- The first byte of a text is no blank and no closing bracket. -/
theorem Writes.begins {d : Document} {p : List UInt8} (h : Writes d p) :
    ∃ b tail, p = b :: tail ∧ Opens b := by
  cases h with
  | number h =>
      obtain ⟨b, tail, rfl, hb⟩ := h.begins
      exact ⟨b, tail, rfl, opens_of_numeral hb⟩
  | string h =>
      cases h with
      | intro => exact ⟨_, _, rfl, by decide⟩
  | _ => exact ⟨_, _, rfl, by decide⟩

/-! ### Lengths -/

theorem Writes.length_pos {d : Document} {p : List UInt8} (h : Writes d p) : 0 < p.length := by
  obtain ⟨b, tail, rfl, -⟩ := h.begins
  exact Nat.succ_pos _

/-- The items of an array take a byte each. -/
theorem WritesItems.length_le {items : List Document} {p : List UInt8} (h : WritesItems items p) :
    items.length ≤ p.length := by
  induction items generalizing p with
  | nil => exact Nat.zero_le _
  | cons d items ih =>
      cases h with
      | last hbefore h hafter =>
          have := h.length_pos
          simp only [List.length_cons, List.length_nil, List.length_append]
          omega
      | cons hbefore h hafter hitems =>
          have := ih hitems
          simp only [List.length_cons, List.length_append]
          omega

/-- The members of an object take a byte each. -/
theorem WritesMembers.length_le {members : List (String × Document)} {p : List UInt8}
    (h : WritesMembers members p) : members.length ≤ p.length := by
  induction members generalizing p with
  | nil => exact Nat.zero_le _
  | cons member members ih =>
      cases h with
      | last h =>
          cases h with
          | intro hbefore hname hleft hright h hafter =>
              simp only [List.length_cons, List.length_nil, List.length_append]
              omega
      | cons h hmembers =>
          have := ih hmembers
          simp only [List.length_cons, List.length_append]
          omega

end HubGateway.Json
