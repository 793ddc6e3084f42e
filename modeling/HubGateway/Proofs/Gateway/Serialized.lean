/-
**Contexts are written in two ways with one result.**

A context declares its properties in a fixed order.  Each is a member of the text of the context if
it is present, and is left out if it is not.  The text is written without building a tree of the
context, but it is the compact text of an object with these members in the order in which they are
declared.  The tree of the context has the same members, in the order of their names.

Main definitions:

* `HubGateway.Context.properties` — what a context declares, present or not;
* `HubGateway.Context.present` — those that are present, as members.

Main statements:

* `HubGateway.Context.members_eq_present` — the members are the properties that are present;
* `HubGateway.Context.renderJson_eq_render` — the text is that of the members, as declared;
* `HubGateway.Context.perm_members` — the tree has the same members;
* `HubGateway.Context.direct_texts` — **what is written directly is the compact text of the tree**.
-/

import HubGateway.Gateway.Context
import HubGateway.Proofs.Entries
import HubGateway.Proofs.Value.Json

set_option relaxedAutoImplicit false
set_option autoImplicit false

namespace HubGateway

open Utf8 (encode encodeChars)

/-! ### Written members -/

namespace Json

theorem renderMembers_eq (members : List (String × Json)) :
    renderMembers members = members.map fun (name, value) => renderMember name value.render := by
  induction members with
  | nil => rfl
  | cons member members ih => rw [renderMembers, ih, List.map_cons]

theorem renderMembers_append (members members' : List (String × Json)) :
    renderMembers (members ++ members') = renderMembers members ++ renderMembers members' := by
  simp only [renderMembers_eq, List.map_append]

/-- A member that may be absent, written. -/
theorem renderMembers_toList (member : Option (String × Json)) :
    renderMembers member.toList =
      (member.map fun (name, value) => renderMember name value.render).toList := by
  cases member <;> rfl

/-- The bytes of a compact text. -/
theorem encode_text (j : Json) : encode j.text = encodeChars j.render := by
  rw [text, encode, String.toList_ofList]

end Json

theorem Message.renderOptional_eq (name : String) (text : Option String) :
    Message.renderOptional name text =
      Json.renderMembers (text.map fun text => (name, Json.string text)).toList := by
  cases text <;> rfl

namespace Context

/-! ### Properties -/

/-- What a context declares, in order, each property with its tree if it is present. -/
def properties (c : Context) : List (String × Option Json) :=
  [("connectionId", some (.string c.connectionId)),
    ("hub", some (.string c.hub)),
    ("category", some (.string c.category.label)),
    ("event", some (.string c.event)),
    ("userId", c.userId.map .string),
    ("query", c.query.map fun table => .object (tableMembers table)),
    ("claims", c.claims.map fun table => .object (tableMembers table)),
    ("headers", some (.object (tableMembers c.headers))),
    ("arguments", c.arguments.map fun values => .array (values.map Value.toJson)),
    ("invocationId", c.invocationId.map .string),
    ("error", c.error.map .string)]

/-- The properties that are present, as members. -/
def present (properties : List (String × Option Json)) : List (String × Json) :=
  properties.flatMap fun (name, value) => (value.map fun j => (name, j)).toList

theorem members_eq_present (c : Context) : c.members = present c.properties := by
  simp [members, present, properties, Value.toJsonItems_eq_map]
  rfl

theorem mem_present_iff {properties : List (String × Option Json)} {name : String} {j : Json} :
    (name, j) ∈ present properties ↔ (name, some j) ∈ properties := by
  simp [present]

theorem names_present_sublist (properties : List (String × Option Json)) :
    ((present properties).map Prod.fst).Sublist (properties.map Prod.fst) := by
  induction properties with
  | nil => exact .slnil
  | cons property properties ih =>
      obtain ⟨name, value⟩ := property
      cases value with
      | none => exact ih.cons name
      | some j => exact ih.cons_cons name

theorem nodup_names_members (c : Context) : (c.members.map Prod.fst).Nodup := by
  rw [members_eq_present]
  have hnames : c.properties.map Prod.fst = ["connectionId", "hub", "category", "event", "userId",
      "query", "claims", "headers", "arguments", "invocationId", "error"] := rfl
  refine (names_present_sublist c.properties).nodup ?_
  rw [hnames]
  decide

theorem renderTable_eq_render (table : Parameters.Table) :
    renderTable table = (Json.object (tableMembers table)).render := by
  rw [renderTable, Json.render, Json.renderMembers_eq, tableMembers, List.map_map]
  rfl

theorem renderJson_eq_render (c : Context) : c.renderJson = (Json.object c.members).render := by
  simp only [renderJson, members, Json.render, renderTable_eq_render, Message.renderOptional_eq,
    Json.renderMembers_append, Json.renderMembers_toList, Json.renderMembers, Option.map_map]
  rfl

/-- **The tree has the members of the text**, in the order of their names. -/
theorem perm_members (c : Context) : (Entries.ofList c.members).Perm c.members :=
  Entries.perm_ofList c.nodup_names_members

/-- **What is written directly is the compact text of the tree.**  For a value the bytes are the
same.  For a context they are those of an object whose members are the properties that are present,
as declared and each once, and these are the members of the tree. -/
theorem direct_texts :
    (∀ v : Value, encodeChars v.renderJson = encode v.toJson.text) ∧
      ∀ c : Context, ∃ written tree : List (String × Json),
        encodeChars c.renderJson = encode (Json.object written).text ∧
          c.toJson = .object tree ∧ Entries.Sorted tree ∧ tree.Perm written ∧
          (written.map Prod.fst).Nodup ∧
          (written.map Prod.fst).Sublist (c.properties.map Prod.fst) ∧
          ∀ name j, (name, j) ∈ written ↔ (name, some j) ∈ c.properties := by
  constructor
  · intro v
    rw [Value.renderJson_eq_render, Json.encode_text]
  · intro c
    refine ⟨c.members, Entries.ofList c.members, ?_, rfl, Entries.sorted_ofList _, c.perm_members,
      c.nodup_names_members, ?_, ?_⟩
    · rw [renderJson_eq_render, Json.encode_text]
    · rw [members_eq_present]
      exact names_present_sublist c.properties
    · intro name j
      rw [members_eq_present]
      exact mem_present_iff

end Context

end HubGateway
