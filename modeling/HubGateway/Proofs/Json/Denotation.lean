/-
**What a JSON document denotes.**

A numeral with neither fraction nor exponent is an integer, unless it is negative zero.  An integer
of 64 bits denotes itself, and every other numeral the double-precision number nearest to it; the
members of an object may stand in any order, as long as those of one name keep theirs.  All this is
said without reference to the reader.

The reader of numerals rounds more than once, so that it misses the nearest number now and then.
Documents in which it does not are exact; an exact document is read as what it denotes.

Main definitions:

* `HubGateway.Json.Numeral.nearest` — the number nearest to a numeral;
* `HubGateway.Json.Denotes` — `Denotes d doc` says that the document `doc` denotes the datum `d`;
* `HubGateway.Json.Document.Exact` — every numeral is read as the number nearest to it.

Main statements:

* `HubGateway.Json.Denotes.tree` — **an exact document is read as the value that it denotes**;
* `HubGateway.Json.Denotes.depth_le` — a document is no deeper than what it denotes;
* `HubGateway.Json.not_readsNearest_elevenTenthsE24` — a numeral of two digits that is not read as
  its nearest number.
-/

import HubGateway.Proofs.Json.Grammar
import HubGateway.Proofs.Value.Datum

set_option relaxedAutoImplicit false
set_option autoImplicit false

namespace HubGateway.Json

/-! ### Numerals -/

namespace Numeral

/-- The numeral is an integer of 64 bits. -/
def IsWideInteger (n : Numeral) : Prop := ∃ i, n.IsInteger i ∧ IsWide i

/-- The power of ten that the last digit of a numeral counts. -/
def scale (n : Numeral) : Int :=
  match n.exponent with
  | none => -n.fraction.length
  | some e => signed e.negative (digitsValue e.digits) - n.fraction.length

/-- The double-precision number nearest to a numeral. -/
def nearest (n : Numeral) : Binary64 :=
  .ofRatio n.negative (digitsValue (n.whole ++ n.fraction) * 10 ^ n.scale.toNat)
    (10 ^ (-n.scale).toNat)

/-- The numeral is read as the number nearest to it. -/
def ReadsNearest (n : Numeral) : Prop := ∃ finite, n.toNumber? = some (.float n.nearest finite)

end Numeral

/-! ### Documents -/

mutual

/-- `Denotes d doc`: the document `doc` denotes the datum `d`. -/
inductive Denotes : Datum → Document → Prop
  | null : Denotes .null .null
  | bool {value : Bool} : Denotes (.bool value) (.bool value)
  | integer {i : Int} {wide : IsWide i} {n : Numeral} (h : n.IsInteger i) :
      Denotes (.integer i wide) (.number n)
  /-- A numeral that is no integer of 64 bits denotes the number nearest to it. -/
  | float {n : Numeral} {x : Binary64} {finite : x.isFinite = true} (h : ¬ n.IsWideInteger)
      (hx : n.nearest = x) : Denotes (.float x finite) (.number n)
  | string {text : String} : Denotes (.string text) (.string text)
  | list {items : List Datum} {docs : List Document} (h : DenotesItems items docs) :
      Denotes (.list items) (.array docs)
  /-- The members stand in any order, but those of one name keep theirs. -/
  | map {pairs pairs' : List (String × Datum)} {members : List (String × Document)}
      (horder : Entries.Rearranged pairs pairs') (h : DenotesPairs pairs' members) :
      Denotes (.map pairs) (.object members)

/-- The documents denote items, one each. -/
inductive DenotesItems : List Datum → List Document → Prop
  | nil : DenotesItems [] []
  | cons {item : Datum} {items : List Datum} {doc : Document} {docs : List Document}
      (h : Denotes item doc) (hitems : DenotesItems items docs) :
      DenotesItems (item :: items) (doc :: docs)

/-- The members denote pairs of a key and a datum, one each. -/
inductive DenotesPairs : List (String × Datum) → List (String × Document) → Prop
  | nil : DenotesPairs [] []
  | cons {key : String} {item : Datum} {pairs : List (String × Datum)} {doc : Document}
      {members : List (String × Document)} (h : Denotes item doc)
      (hpairs : DenotesPairs pairs members) :
      DenotesPairs ((key, item) :: pairs) ((key, doc) :: members)

end

namespace Document

mutual

/-- Every numeral that is no integer of 64 bits is read as the number nearest to it. -/
def Exact : Document → Prop
  | .number n => ¬ n.IsWideInteger → n.ReadsNearest
  | .array items => ExactItems items
  | .object members => ExactMembers members
  | _ => True

/-- All items of an array are exact. -/
def ExactItems : List Document → Prop
  | [] => True
  | item :: items => item.Exact ∧ ExactItems items

/-- The values of all members of an object are exact. -/
def ExactMembers : List (String × Document) → Prop
  | [] => True
  | (_, value) :: members => value.Exact ∧ ExactMembers members

end

end Document

/-! ### Depth -/

mutual

/-- A document is no deeper than the datum that it denotes. -/
theorem Denotes.depth_le {d : Datum} {doc : Document} (h : Denotes d doc) :
    doc.depth ≤ d.depth := by
  match h with
  | .null | .bool | .integer _ | .float _ _ | .string => exact Nat.le_refl _
  | .list h => exact Nat.succ_le_succ h.depth_le
  | .map horder h =>
      rw [Document.depth, Datum.depth, Datum.depthPairs_of_rearranged horder]
      exact Nat.succ_le_succ h.depth_le

theorem DenotesItems.depth_le {items : List Datum} {docs : List Document}
    (h : DenotesItems items docs) : Document.depthItems docs ≤ Datum.depthItems items := by
  match h with
  | .nil => exact Nat.le_refl _
  | .cons h hitems => exact max_le_max h.depth_le hitems.depth_le

theorem DenotesPairs.depth_le {pairs : List (String × Datum)}
    {members : List (String × Document)} (h : DenotesPairs pairs members) :
    Document.depthMembers members ≤ Datum.depthPairs pairs := by
  match h with
  | .nil => exact Nat.le_refl _
  | .cons h hpairs => exact max_le_max h.depth_le hpairs.depth_le

end

/-! ### Trees -/

theorem ofJsonMembers_eq (members : List (String × Json)) :
    Value.ofJsonMembers members = Entries.mapValues Value.ofJson members := by
  induction members with
  | nil => rfl
  | cons member members ih =>
      rw [Value.ofJsonMembers, ih]
      rfl

mutual

/-- **An exact document is read as the value that it denotes.** -/
theorem Denotes.tree {d : Datum} {doc : Document} (h : Denotes d doc) (hexact : doc.Exact) :
    ∃ j, doc.tree? = some j ∧ Value.ofJson j = d.value := by
  match h with
  | .null | .bool | .string => exact ⟨_, rfl, rfl⟩
  | @Denotes.integer _ wide _ h =>
      refine ⟨.number (.integer _ wide), ?_, rfl⟩
      rw [Document.tree?, h.toNumber? wide]
      rfl
  | .float h rfl =>
      obtain ⟨finite, hnumber⟩ := hexact h
      refine ⟨.number (.float _ finite), ?_, rfl⟩
      rw [Document.tree?, hnumber]
      rfl
  | .list h =>
      obtain ⟨trees, htrees, hvalues⟩ := h.trees hexact
      refine ⟨.array trees, ?_, ?_⟩
      · rw [Document.tree?, htrees]
        rfl
      · rw [Value.ofJson, hvalues, Datum.value]
  | .map horder h =>
      obtain ⟨trees, htrees, hvalues⟩ := h.trees hexact
      refine ⟨.object (Entries.ofList trees), ?_, ?_⟩
      · rw [Document.tree?, htrees]
        rfl
      · -- building the entries commutes with taking values, and does not see the order
        rw [Value.ofJson, ofJsonMembers_eq, ← Entries.ofList_map, ← ofJsonMembers_eq, hvalues,
          ← Datum.ofList_valuePairs_of_rearranged horder, Datum.value]

theorem DenotesItems.trees {items : List Datum} {docs : List Document}
    (h : DenotesItems items docs) (hexact : Document.ExactItems docs) :
    ∃ trees, Document.treeItems? docs = some trees ∧
      Value.ofJsonItems trees = Datum.valueItems items := by
  match h with
  | .nil => exact ⟨[], rfl, rfl⟩
  | .cons h hitems =>
      obtain ⟨j, hj, hvalue⟩ := h.tree hexact.1
      obtain ⟨trees, htrees, hvalues⟩ := hitems.trees hexact.2
      refine ⟨j :: trees, ?_, ?_⟩
      · simp only [Document.treeItems?, hj, htrees, Option.map_some]
      · rw [Value.ofJsonItems, hvalue, hvalues, Datum.valueItems]

theorem DenotesPairs.trees {pairs : List (String × Datum)} {members : List (String × Document)}
    (h : DenotesPairs pairs members) (hexact : Document.ExactMembers members) :
    ∃ trees, Document.treeMembers? members = some trees ∧
      Value.ofJsonMembers trees = Datum.valuePairs pairs := by
  match h with
  | .nil => exact ⟨[], rfl, rfl⟩
  | @DenotesPairs.cons key _ _ _ _ h hpairs =>
      obtain ⟨j, hj, hvalue⟩ := h.tree hexact.1
      obtain ⟨trees, htrees, hvalues⟩ := hpairs.trees hexact.2
      refine ⟨(key, j) :: trees, ?_, ?_⟩
      · simp only [Document.treeMembers?, hj, htrees, Option.map_some]
      · rw [Value.ofJsonMembers, hvalue, hvalues, Datum.valuePairs]

end

/-! ### Exactness -/

/-- The numeral `1.1e24`. -/
def elevenTenthsE24 : Numeral := ⟨false, [1], [1], some ⟨false, [2, 4]⟩⟩

/-- The reader rounds the power of ten and then the product: a numeral of two digits is not read as
the number nearest to it. -/
theorem not_readsNearest_elevenTenthsE24 : ¬ elevenTenthsE24.ReadsNearest := by
  rintro ⟨finite, h⟩
  have hread : elevenTenthsE24.toNumber?.map Number.toBinary64 = some elevenTenthsE24.nearest := by
    rw [h]
    rfl
  exact absurd hread (by decide +kernel)

end HubGateway.Json
