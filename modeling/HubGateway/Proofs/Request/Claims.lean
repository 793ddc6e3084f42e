/-
**Claims are recovered.**

Claims are written as entries with a comma and a blank between them, each a type and a value around
a colon and a blank.  They are cut at commas alone, so that every entry but the first one comes with
the blank in front of it, and then at the first colon with a blank behind it.  So a type may contain
colons, and may even end in one, and a value may contain anything but a comma.

White space around an entry is not read, and neither is an entry without a mark, which is a colon
with a blank behind it, or with nothing but white space in front of the first mark.  A stray entry
counts with the white space around it, since that can make a mark of a colon at its end.

Main definitions:

* `HubGateway.Parameters.IsClaim` — a type and a value that can be written;
* `HubGateway.Parameters.Carries` — entries with claims, among others.

Main statements:

* `HubGateway.Parameters.claimPair?_entry` — an entry is read as its claim;
* `HubGateway.Parameters.ofClaims_intercalate` — entries are read one by one;
* `HubGateway.Parameters.ofClaims_recovers` — **claims are recovered**.
-/

import HubGateway.Proofs.Request.Parameters

set_option relaxedAutoImplicit false
set_option autoImplicit false

namespace HubGateway.Parameters

/-! ### Claims and entries -/

/-- There is no white space at either end. -/
def IsTrimmed (text : String) : Prop :=
  (∀ c ∈ text.toList.head?, Text.isBlank c = false) ∧
    ∀ c ∈ text.toList.getLast?, Text.isBlank c = false

/-- The type and the value can be written as an entry. -/
structure IsClaim (type value : String) : Prop where
  /-- The type is not empty; the value may be. -/
  type_ne : type ≠ ""
  /-- The type has no white space at its ends. -/
  type_trimmed : IsTrimmed type
  /-- The value has no white space at its ends. -/
  value_trimmed : IsTrimmed value
  /-- The type has no comma. -/
  type_apart : ',' ∉ type.toList
  /-- The value has no comma. -/
  value_apart : ',' ∉ value.toList
  /-- The type has no colon with a blank behind it. -/
  type_unmarked : ¬ [':', ' '] <:+: type.toList

/-- The entry of a claim. -/
def claimEntry (claim : String × String) : String := claim.1 ++ ": " ++ claim.2

/-- An entry without a claim: together with the white space around it, it has no colon with a blank
behind it, or nothing but white space in front of the first one. -/
def IsStrayEntry (entry : String) : Prop :=
  ',' ∉ entry.toList ∧ (¬ [':', ' '] <:+: entry.toList ∨
    ∃ left rest, Text.isBlankText left ∧ entry = left ++ ": " ++ rest)

/-- The entries are those of the claims in order, with white space around them, and stray ones. -/
inductive Carries : List String → List (String × String) → Prop
  | nil : Carries [] []
  | claim {left right : String} {claim : String × String} {entries : List String}
      {claims : List (String × String)} (hleft : Text.isBlankText left)
      (hright : Text.isBlankText right) (hrest : Carries entries claims) :
      Carries ((left ++ claimEntry claim ++ right) :: entries) (claim :: claims)
  | stray {entry : String} {entries : List String} {claims : List (String × String)}
      (h : IsStrayEntry entry) (hrest : Carries entries claims) : Carries (entry :: entries) claims

/-! ### White space -/

section Blanks

variable {left right core cs : List Char}

theorem not_mem_of_blank {c : Char} (hc : Text.isBlank c = false) (h : left.all Text.isBlank) :
    c ∉ left := by
  intro hmem
  rw [List.all_eq_true.1 h c hmem] at hc
  cases hc

/-- White space at the beginning brings no colon. -/
theorem marked_append_iff (h : left.all Text.isBlank) :
    [':', ' '] <:+: left ++ cs ↔ [':', ' '] <:+: cs := by
  induction left with
  | nil => rfl
  | cons c left ih =>
      rw [List.all_cons, Bool.and_eq_true] at h
      obtain ⟨hc, hleft⟩ := h
      rw [List.cons_append, List.infix_cons_iff, ih hleft, or_iff_right]
      intro hprefix
      have hcolon : ':' = c := (List.cons_prefix_cons.1 hprefix).1
      rw [← hcolon] at hc
      exact absurd hc (by decide)

/-- A colon at the end has no blank behind it. -/
theorem marked_concat_iff : [':', ' '] <:+: cs ++ [':'] ↔ [':', ' '] <:+: cs := by
  rw [List.infix_concat_iff, or_iff_right]
  intro hsuffix
  obtain ⟨front, hfront⟩ := hsuffix
  have hlast := congrArg List.getLast? hfront
  simp at hlast

theorem trimChars_blank_append (hleft : left.all Text.isBlank)
    (hhead : ∀ c ∈ core.head?, Text.isBlank c = false)
    (hlast : ∀ c ∈ core.getLast?, Text.isBlank c = false) :
    Text.trimChars (left ++ core) = core :=
  Text.trimChars_eq_iff.2 ⟨left, [], by simp, hleft, rfl, hhead, hlast⟩

theorem trimChars_append_blank (hright : right.all Text.isBlank)
    (hhead : ∀ c ∈ core.head?, Text.isBlank c = false)
    (hlast : ∀ c ∈ core.getLast?, Text.isBlank c = false) :
    Text.trimChars (core ++ right) = core :=
  Text.trimChars_eq_iff.2 ⟨[], right, by simp, rfl, hright, hhead, hlast⟩

end Blanks

/-! ### Reading an entry -/

/-- What stands in front of the first colon with a blank behind it, and what stands behind these. -/
theorem cutAt_colon {before : List Char} (h : ¬ [':', ' '] <:+: before) (after : List Char) :
    Text.cutAt [':', ' '] (before ++ [':', ' '] ++ after) = some (before, after) :=
  Text.cutAt_append (List.cons_ne_nil _ _) (marked_concat_iff.not.2 h)

/-- **An entry is read as its claim**, whatever white space is around it. -/
theorem claimPair?_entry {type value left right : String} (h : IsClaim type value)
    (hleft : Text.isBlankText left) (hright : Text.isBlankText right) :
    claimPair? (left ++ claimEntry (type, value) ++ right).toList = some (type, value) := by
  have hcut := cutAt_colon ((marked_append_iff hleft).not.2 h.type_unmarked)
    (value.toList ++ right.toList)
  have hentry : (left ++ claimEntry (type, value) ++ right).toList =
      left.toList ++ type.toList ++ [':', ' '] ++ (value.toList ++ right.toList) := by
    simp [claimEntry]
  have htype := trimChars_blank_append hleft h.type_trimmed.1 h.type_trimmed.2
  have hvalue := trimChars_append_blank hright h.value_trimmed.1 h.value_trimmed.2
  have hne : type.toList.isEmpty = false := by simpa using h.type_ne
  simp only [claimPair?, hentry, hcut, htype, hvalue, hne, String.ofList_toList]
  rfl

/-- A stray entry is not read. -/
theorem claimPair?_stray {entry : String} (h : IsStrayEntry entry) :
    claimPair? entry.toList = none := by
  obtain ⟨-, hnone | ⟨left, rest, hleft, rfl⟩⟩ := h
  · rw [claimPair?, (Text.cutAt_eq_none_iff (List.cons_ne_nil _ _)).2 hnone]
  · -- the type would be white space only
    have hunmarked : ¬ [':', ' '] <:+: left.toList := by
      have hempty : ¬ [':', ' '] <:+: left.toList ++ [] := (marked_append_iff hleft).not.2 (by simp)
      rwa [List.append_nil] at hempty
    have hentry : (left ++ ": " ++ rest).toList = left.toList ++ [':', ' '] ++ rest.toList := by
      simp
    have htype : Text.trimChars left.toList = [] := by
      have hblank : Text.trimChars (left.toList ++ []) = [] :=
        trimChars_blank_append hleft (by simp) (by simp)
      rwa [List.append_nil] at hblank
    simp only [claimPair?, hentry, cutAt_colon hunmarked, htype]
    rfl

/-- A blank in front of an entry is not read. -/
theorem claimPair?_cons_blank (cs : List Char) : claimPair? (' ' :: cs) = claimPair? cs := by
  have hprefix : ¬ [':', ' '] <+: ' ' :: cs := by simp
  have htrim : ∀ type, Text.trimChars (' ' :: type) = Text.trimChars type := fun type => by
    have hblank : Text.isBlank ' ' = true := by decide
    rw [Text.trimChars, List.dropWhile_cons_of_pos hblank]
    rfl
  rw [claimPair?, Text.cutAt_of_not_begins hprefix]
  cases hcut : Text.cutAt [':', ' '] cs with
  | none => simp [claimPair?, hcut]
  | some sides => simp [claimPair?, hcut, htrim]

/-! ### Reading entries -/

/-- Between commas stand the first entry, and the others with a blank in front of them. -/
theorem toList_intercalate_comma (first : String) (entries : List String) :
    (", ".intercalate (first :: entries)).toList =
      [','].intercalate (first.toList :: entries.map fun entry => ' ' :: entry.toList) := by
  induction entries generalizing first with
  | nil => simp
  | cons next entries ih =>
      have hnext := ih next
      rw [String.toList_intercalate] at hnext ⊢
      rw [List.map_cons, List.map_cons, List.intercalate_cons_cons, ← List.map_cons, hnext]
      cases entries <;> simp

/-- Entries without commas are read one by one. -/
theorem ofClaims_intercalate {entries : List String} (h : ∀ entry ∈ entries, ',' ∉ entry.toList) :
    ofClaims (", ".intercalate entries) =
      ofPairs ((entries.map String.toList).filterMap claimPair?) := by
  cases entries with
  | nil => rfl
  | cons first entries =>
      obtain ⟨hfirst, hentries⟩ := List.forall_mem_cons.1 h
      rw [ofClaims, toList_intercalate_comma,
        List.splitOn_intercalate ',' (by simpa [hfirst] using hentries) (List.cons_ne_nil _ _)]
      rw [List.filterMap_cons, List.map_cons, List.filterMap_cons, List.filterMap_map,
        List.filterMap_map]
      simp only [Function.comp_def, claimPair?_cons_blank]

section Carries

variable {entries : List String} {claims : List (String × String)}

theorem Carries.apart (h : Carries entries claims)
    (hclaims : ∀ claim ∈ claims, IsClaim claim.1 claim.2) :
    ∀ entry ∈ entries, ',' ∉ entry.toList := by
  induction h with
  | nil =>
      intro entry hentry
      cases hentry
  | claim hleft hright _ ih =>
      obtain ⟨hclaim, hclaims⟩ := List.forall_mem_cons.1 hclaims
      refine List.forall_mem_cons.2 ⟨?_, ih hclaims⟩
      have hcomma : Text.isBlank ',' = false := by decide
      simp [claimEntry, not_mem_of_blank hcomma hleft, not_mem_of_blank hcomma hright,
        hclaim.type_apart, hclaim.value_apart]
  | stray h _ ih => exact List.forall_mem_cons.2 ⟨h.1, ih hclaims⟩

/-- Entries are read as the claims that they carry. -/
theorem Carries.filterMap_eq (h : Carries entries claims)
    (hclaims : ∀ claim ∈ claims, IsClaim claim.1 claim.2) :
    (entries.map String.toList).filterMap claimPair? = claims := by
  induction h with
  | nil => rfl
  | claim hleft hright _ ih =>
      obtain ⟨hclaim, hclaims⟩ := List.forall_mem_cons.1 hclaims
      rw [List.map_cons, List.filterMap_cons_some (claimPair?_entry hclaim hleft hright),
        ih hclaims]
  | stray h _ ih => rw [List.map_cons, List.filterMap_cons_none (claimPair?_stray h), ih hclaims]

theorem Carries.ofClaims_eq (h : Carries entries claims)
    (hclaims : ∀ claim ∈ claims, IsClaim claim.1 claim.2) :
    ofClaims (", ".intercalate entries) = ofPairs claims := by
  rw [ofClaims_intercalate (h.apart hclaims), h.filterMap_eq hclaims]

/-- Claims are carried by their own entries. -/
theorem carries_map_claimEntry (claims : List (String × String)) :
    Carries (claims.map claimEntry) claims := by
  induction claims with
  | nil => exact .nil
  | cons claim claims ih =>
      have hbare : Carries (("" ++ claimEntry claim ++ "") :: claims.map claimEntry)
          (claim :: claims) := .claim rfl rfl ih
      rwa [String.empty_append, String.append_empty] at hbare

/-- **Claims are recovered.**  The table of their entries lists them, and white space around the
entries and stray ones between them change nothing. -/
theorem ofClaims_recovers (hclaims : ∀ claim ∈ claims, IsClaim claim.1 claim.2) :
    Lists (ofClaims (", ".intercalate (claims.map claimEntry))) claims ∧
      ∀ entries, Carries entries claims → ofClaims (", ".intercalate entries) =
        ofClaims (", ".intercalate (claims.map claimEntry)) := by
  have hbare := (carries_map_claimEntry claims).ofClaims_eq hclaims
  rw [hbare]
  exact ⟨lists_ofPairs claims, fun entries hentries => hentries.ofClaims_eq hclaims⟩

end Carries

/-- A type that ends in a colon and comes twice, an empty value and one with a colon and a blank;
and the same claims with white space around them and two stray entries between. -/
theorem ofClaims_recovers_dressed :
    Lists (ofClaims "a:: , role: u: v, a:: x") [("a:", ""), ("role", "u: v"), ("a:", "x")] ∧
      ofClaims " a::  , junk, \trole: u: v ,  : x, a:: x" =
        ofClaims "a:: , role: u: v, a:: x" := by
  have hclaims : ∀ claim ∈ [("a:", ""), ("role", "u: v"), ("a:", "x")],
      IsClaim claim.1 claim.2 := by
    have htrimmed : IsTrimmed "a:" ∧ IsTrimmed "" ∧ IsTrimmed "role" ∧ IsTrimmed "u: v" ∧
        IsTrimmed "x" := by
      simp [IsTrimmed]
      decide
    obtain ⟨hcolon, hempty, hrole, hmarked, hx⟩ := htrimmed
    simp only [List.forall_mem_cons, List.not_mem_nil, false_imp_iff, implies_true, and_true]
    exact ⟨⟨by decide, hcolon, hempty, by decide, by decide, by decide⟩,
      ⟨by decide, hrole, hmarked, by decide, by decide, by decide⟩,
      ⟨by decide, hcolon, hx, by decide, by decide, by decide⟩⟩
  have hcarries : Carries [" a::  ", "junk", "\trole: u: v ", " : x", "a:: x"]
      [("a:", ""), ("role", "u: v"), ("a:", "x")] := by
    have hfirst : " a::  " = " " ++ claimEntry ("a:", "") ++ " " := by decide +kernel
    have hsecond : "\trole: u: v " = "\t" ++ claimEntry ("role", "u: v") ++ " " := by decide +kernel
    have hthird : "a:: x" = "" ++ claimEntry ("a:", "x") ++ "" := by decide +kernel
    have hjunk : IsStrayEntry "junk" := ⟨by decide, .inl (by decide)⟩
    have hblank : IsStrayEntry " : x" := ⟨by decide, .inr ⟨" ", "x", by decide, by decide⟩⟩
    rw [hfirst, hsecond, hthird]
    exact .claim (by decide) (by decide) (.stray hjunk (.claim (by decide) (by decide)
      (.stray hblank (.claim (by decide) (by decide) .nil))))
  have hplain : ", ".intercalate ([("a:", ""), ("role", "u: v"), ("a:", "x")].map claimEntry) =
      "a:: , role: u: v, a:: x" := by decide +kernel
  have hdressed : ", ".intercalate [" a::  ", "junk", "\trole: u: v ", " : x", "a:: x"] =
      " a::  , junk, \trole: u: v ,  : x, a:: x" := by decide +kernel
  obtain ⟨hlists, hsame⟩ := ofClaims_recovers hclaims
  have heq := hsame _ hcarries
  rw [hplain] at hlists heq
  rw [hdressed] at heq
  exact ⟨hlists, heq⟩

end HubGateway.Parameters
