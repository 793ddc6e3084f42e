/-
**Pieces of a text.**

A text is cut at each separator, so that its pieces are what stands between two neighbouring
separators, or between one and an end of the text.  A piece is cut once more at a mark, where the
mark first occurs.  Sometimes only what stands in front of the first separator counts.  Trimming
takes away the white space around a text.  All four are said here by where something stands in the
text, apart from the functions that look for it.

Main definitions:

* `HubGateway.Text.IsPiece` — a piece of a text;
* `HubGateway.Text.IsFront` — what stands in front of the first separator;
* `HubGateway.Text.Trims` — a text and what is left of it without the white space around it.

Main statements:

* `HubGateway.Text.mem_splitOn_iff` — **cutting a text gives its pieces**;
* `HubGateway.Text.takeWhile_eq_iff` — **what is taken up to a separator is the front**;
* `HubGateway.Text.trimChars_eq_iff` — **trimming leaves what has no white space at its ends**;
* `HubGateway.Text.splitOn_intercalate` — the pieces of joined texts are those of each of them;
* `HubGateway.Text.cutAt_eq_some_iff`, `cutAt_eq_none_iff` — **a text is cut where a mark first
  occurs**, if it does.
-/

import HubGateway.Text.Blank
import HubGateway.Text.Split
import Mathlib.Data.List.TakeWhile

set_option relaxedAutoImplicit false
set_option autoImplicit false

namespace HubGateway.Text

/-! ### Joined texts -/

theorem intercalate_append (sep : Char) {front back : List (List Char)} (hfront : front ≠ [])
    (hback : back ≠ []) :
    [sep].intercalate (front ++ back) =
      [sep].intercalate front ++ sep :: [sep].intercalate back := by
  induction front with
  | nil => exact absurd rfl hfront
  | cons piece front ih =>
      cases front with
      | nil => simp [List.intercalate_cons_of_ne_nil hback]
      | cons next front =>
          have hnext : next :: front ≠ [] := List.cons_ne_nil _ _
          rw [List.cons_append, List.intercalate_cons_of_ne_nil (by simp), ih hnext,
            List.intercalate_cons_of_ne_nil hnext]
          simp

/-- What holds of all characters of joined texts holds of those of each, and of the separator if
there is one. -/
theorem all_intercalate (p : Char → Bool) (sep : Char) (pieces : List (List Char)) :
    ([sep].intercalate pieces).all p =
      (pieces.all (·.all p) && (pieces.length ≤ 1 || p sep)) := by
  induction pieces with
  | nil => rfl
  | cons piece pieces ih =>
      cases pieces with
      | nil => simp
      | cons next pieces =>
          rw [List.intercalate_cons_of_ne_nil (List.cons_ne_nil _ _), List.all_append,
            List.all_append, ih, List.all_cons]
          cases p sep <;> simp

/-! ### Pieces -/

/-- The piece stands between two neighbouring separators of the text, or between one and an end. -/
def IsPiece (sep : Char) (piece cs : List Char) : Prop :=
  sep ∉ piece ∧ ∃ before after, cs = before ++ piece ++ after ∧
    (before = [] ∨ ∃ front, before = front ++ [sep]) ∧ (after = [] ∨ ∃ back, after = sep :: back)

/-- The pieces of joined texts are those of each text, if there are any. -/
theorem splitOn_intercalate (sep : Char) {texts : List (List Char)} (hne : texts ≠ []) :
    ([sep].intercalate texts).splitOn sep = texts.flatMap (List.splitOn sep) := by
  induction texts with
  | nil => exact absurd rfl hne
  | cons text texts ih =>
      cases texts with
      | nil => simp
      | cons next texts =>
          rw [List.intercalate_cons_of_ne_nil (List.cons_ne_nil _ _), List.append_assoc,
            List.singleton_append, List.splitOn_append_cons_self, ih (List.cons_ne_nil _ _)]
          rfl

theorem not_mem_of_mem_splitOn {sep : Char} {piece cs : List Char} (h : piece ∈ cs.splitOn sep) :
    sep ∉ piece := by
  induction cs generalizing piece with
  | nil =>
      rw [List.splitOn_nil, List.mem_singleton] at h
      simp [h]
  | cons c cs ih =>
      rw [List.splitOn_cons_eq_if_modifyHead] at h
      split at h
      next =>
        rcases List.mem_cons.1 h with rfl | h
        · exact List.not_mem_nil
        · exact ih h
      next hc =>
        obtain ⟨first, pieces, hpieces⟩ := List.exists_cons_of_ne_nil (List.splitOn_ne_nil sep cs)
        rw [hpieces] at ih h
        rcases List.mem_cons.1 h with rfl | h
        · rw [List.mem_cons, not_or]
          exact ⟨fun heq => hc (by simp [heq]), ih List.mem_cons_self⟩
        · exact ih (List.mem_cons_of_mem _ h)

/-- **Cutting a text gives its pieces.** -/
theorem mem_splitOn_iff {sep : Char} {piece cs : List Char} :
    piece ∈ cs.splitOn sep ↔ IsPiece sep piece cs := by
  constructor
  · intro h
    refine ⟨not_mem_of_mem_splitOn h, ?_⟩
    -- the pieces in front of this one and those behind it, put together again
    obtain ⟨front, back, hpieces⟩ := List.append_of_mem h
    have hcs : [sep].intercalate (cs.splitOn sep) = cs := List.intercalate_splitOn sep
    rw [hpieces] at hcs
    have hback : ∃ after, [sep].intercalate (piece :: back) = piece ++ after ∧
        (after = [] ∨ ∃ rest, after = sep :: rest) := by
      cases back with
      | nil => exact ⟨[], by simp, .inl rfl⟩
      | cons next back => exact ⟨sep :: [sep].intercalate (next :: back), by simp, .inr ⟨_, rfl⟩⟩
    obtain ⟨after, hjoin, hafter⟩ := hback
    by_cases hfront : front = []
    · subst hfront
      rw [List.nil_append, hjoin] at hcs
      exact ⟨[], after, hcs.symm, .inl rfl, hafter⟩
    · rw [intercalate_append sep hfront (List.cons_ne_nil _ _), hjoin] at hcs
      exact ⟨[sep].intercalate front ++ [sep], after, by simp [← hcs], .inr ⟨_, rfl⟩, hafter⟩
  · intro h
    obtain ⟨hpiece, before, after, rfl, hbefore, hafter⟩ := h
    -- a separator in front of the piece or behind it divides the pieces of the text
    have hback : piece ∈ (piece ++ after).splitOn sep := by
      rcases hafter with rfl | ⟨back, rfl⟩
      · rw [List.append_nil, List.splitOn_eq_singleton hpiece]
        exact List.mem_singleton_self piece
      · rw [List.splitOn_append_cons_self, List.splitOn_eq_singleton hpiece]
        exact List.mem_cons_self
    rcases hbefore with rfl | ⟨front, rfl⟩
    · exact hback
    · rw [List.append_assoc, List.append_assoc, List.singleton_append,
        List.splitOn_append_cons_self]
      exact List.mem_append_right _ hback

/-! ### The front -/

/-- Everything in front of the first separator, or everything there is if there is none. -/
inductive IsFront {α : Type} (sep : α) : List α → List α → Prop
  | cut {front : List α} (h : sep ∉ front) (back : List α) :
      IsFront sep (front ++ sep :: back) front
  | whole {front : List α} (h : sep ∉ front) : IsFront sep front front

/-- **What is taken up to a separator is the front.** -/
theorem takeWhile_eq_iff {α : Type} [DecidableEq α] {sep : α} {all front : List α} :
    all.takeWhile (· != sep) = front ↔ IsFront sep all front := by
  have htake : ∀ {front : List α}, sep ∉ front → ∀ x ∈ front, (x != sep) = true :=
    fun h x hx => bne_iff_ne.2 (ne_of_mem_of_not_mem hx h)
  constructor
  · rintro rfl
    by_cases h : sep ∈ all
    · obtain ⟨front, back, rfl, hfront⟩ := List.eq_append_cons_of_mem h
      rw [List.takeWhile_append_of_pos (htake hfront), List.takeWhile_cons, if_neg (by simp),
        List.append_nil]
      exact .cut hfront back
    · rw [List.takeWhile_eq_self_iff.2 (htake h)]
      exact .whole h
  · intro h
    cases h with
    | cut h back =>
        rw [List.takeWhile_append_of_pos (htake h), List.takeWhile_cons, if_neg (by simp),
          List.append_nil]
    | whole h => exact List.takeWhile_eq_self_iff.2 (htake h)

/-! ### The first occurrence of a mark -/

section Mark

variable {mark cs before after : List Char}

theorem cutAt_of_begins (mark rest : List Char) (hmark : mark ≠ []) :
    cutAt mark (mark ++ rest) = some ([], rest) := by
  cases mark with
  | nil => exact absurd rfl hmark
  | cons m mark =>
      rw [List.cons_append, cutAt, ← List.cons_append, List.drop_left, if_pos]
      exact List.isPrefixOf_iff_prefix.2 (List.prefix_append (m :: mark) rest)

theorem cutAt_of_not_begins {c : Char} (h : ¬ mark <+: c :: cs) :
    cutAt mark (c :: cs) = (cutAt mark cs).map fun (before, after) => (c :: before, after) := by
  rw [cutAt, if_neg fun hprefix => h (List.isPrefixOf_iff_prefix.1 hprefix)]

/-- **A text without the mark is not cut.** -/
theorem cutAt_eq_none_iff (hmark : mark ≠ []) : cutAt mark cs = none ↔ ¬ mark <:+: cs := by
  induction cs with
  | nil => simp [cutAt, hmark]
  | cons c cs ih =>
      rw [List.infix_cons_iff, not_or]
      by_cases h : mark <+: c :: cs
      · obtain ⟨rest, hrest⟩ := h
        rw [← hrest, cutAt_of_begins mark rest hmark]
        simp
      · simp [cutAt_of_not_begins h, ih, h]

/-- What stands in front of the last character of an occurrence. -/
theorem prefix_of_occurrence (before mark after : List Char) :
    before ++ mark.dropLast <+: before ++ mark ++ after := by
  rw [List.append_assoc, List.prefix_append_right_inj]
  exact (List.dropLast_prefix mark).trans (List.prefix_append mark after)

/-- A text is cut at an occurrence of the mark that no other one ends before. -/
theorem cutAt_append (hmark : mark ≠ []) (hfirst : ¬ mark <:+: before ++ mark.dropLast) :
    cutAt mark (before ++ mark ++ after) = some (before, after) := by
  induction before with
  | nil => exact cutAt_of_begins mark after hmark
  | cons c before ih =>
      rw [List.cons_append, List.infix_cons_iff, not_or] at hfirst
      obtain ⟨hhere, hlater⟩ := hfirst
      -- a mark at the beginning would end before this one does
      have hprefix : ¬ mark <+: c :: before ++ mark ++ after := by
        intro h
        refine hhere (List.prefix_of_prefix_length_le h
          (prefix_of_occurrence (c :: before) mark after) ?_)
        simp
        omega
      rw [List.cons_append, List.cons_append] at hprefix ⊢
      rw [cutAt_of_not_begins hprefix, ih hlater]
      rfl

theorem of_cutAt_eq_some (hmark : mark ≠ []) (hcut : cutAt mark cs = some (before, after)) :
    cs = before ++ mark ++ after ∧ ¬ mark <:+: before ++ mark.dropLast := by
  induction cs generalizing before with
  | nil => simp [cutAt, hmark] at hcut
  | cons c cs ih =>
      by_cases h : mark <+: c :: cs
      · obtain ⟨rest, hrest⟩ := h
        rw [← hrest, cutAt_of_begins mark rest hmark] at hcut
        cases hcut
        refine ⟨hrest.symm, fun hinfix => ?_⟩
        have hlength := hinfix.length_le
        have hpos := List.length_pos_iff.2 hmark
        rw [List.nil_append, List.length_dropLast] at hlength
        omega
      · rw [cutAt_of_not_begins h, Option.map_eq_some_iff] at hcut
        obtain ⟨⟨front, back⟩, hcut, heq⟩ := hcut
        cases heq
        obtain ⟨rfl, hfirst⟩ := ih hcut
        refine ⟨rfl, ?_⟩
        rw [List.cons_append, List.infix_cons_iff, not_or]
        exact ⟨fun hhere => h (hhere.trans (prefix_of_occurrence (c :: front) mark after)), hfirst⟩

/-- **A text is cut where the mark first occurs**: no occurrence of it ends earlier. -/
theorem cutAt_eq_some_iff (hmark : mark ≠ []) :
    cutAt mark cs = some (before, after) ↔
      cs = before ++ mark ++ after ∧ ¬ mark <:+: before ++ mark.dropLast := by
  constructor
  · exact of_cutAt_eq_some hmark
  · intro h
    obtain ⟨rfl, hfirst⟩ := h
    exact cutAt_append hmark hfirst

end Mark

/-! ### White space at the ends -/

/-- The text is the other one with white space around it, and has none at its own ends. -/
def Trims (cs core : List Char) : Prop :=
  ∃ left right, cs = left ++ core ++ right ∧ left.all isBlank ∧ right.all isBlank ∧
    (∀ c ∈ core.head?, isBlank c = false) ∧ ∀ c ∈ core.getLast?, isBlank c = false

/-- White space in front of what does not begin with any is dropped. -/
theorem dropWhile_isBlank_append {left cs : List Char} (hleft : left.all isBlank)
    (hhead : ∀ c ∈ cs.head?, isBlank c = false) : (left ++ cs).dropWhile isBlank = cs := by
  rw [List.all_eq_true] at hleft
  rw [List.dropWhile_append_of_pos hleft]
  cases cs with
  | nil => rfl
  | cons c cs => rw [List.dropWhile_cons_of_neg (by simp [hhead c rfl])]

theorem head?_dropWhile_isBlank (cs : List Char) :
    ∀ c ∈ (cs.dropWhile isBlank).head?, isBlank c = false := by
  intro c hc
  have h := List.head?_dropWhile_not isBlank cs
  rw [hc] at h
  exact h

/-- What trimming takes away is white space, and all of it that there is at the ends. -/
theorem trims_trimChars (cs : List Char) : Trims cs (trimChars cs) := by
  let inner := cs.dropWhile isBlank
  let right := (inner.reverse.takeWhile isBlank).reverse
  have hinner : inner = trimChars cs ++ right := by
    rw [trimChars, ← List.reverse_append, List.takeWhile_append_dropWhile, List.reverse_reverse]
  refine ⟨cs.takeWhile isBlank, right, ?_, List.all_takeWhile, ?_, ?_, ?_⟩
  · rw [List.append_assoc, ← hinner, List.takeWhile_append_dropWhile]
  · rw [List.all_reverse]
    exact List.all_takeWhile
  · -- what is trimmed begins where the text without its first white space does
    intro c hc
    apply head?_dropWhile_isBlank cs c
    change c ∈ inner.head?
    rw [hinner, List.head?_append, hc]
    rfl
  · intro c hc
    rw [trimChars, List.getLast?_reverse] at hc
    exact head?_dropWhile_isBlank _ c hc

/-- **Trimming leaves what has no white space at its ends.** -/
theorem trimChars_eq_iff {cs core : List Char} : trimChars cs = core ↔ Trims cs core := by
  constructor
  · intro h
    rw [← h]
    exact trims_trimChars cs
  · intro h
    obtain ⟨left, right, rfl, hleft, hright, hhead, hlast⟩ := h
    cases core with
    | nil =>
        -- there is white space only
        have hall : (left ++ right).all isBlank := by
          rw [List.all_append, hleft, hright]
          rfl
        have hnone := dropWhile_isBlank_append hall hhead
        rw [List.append_nil] at hnone
        rw [trimChars, List.append_nil, hnone]
        rfl
    | cons c core =>
        rw [trimChars, List.append_assoc, dropWhile_isBlank_append hleft (by simpa using hhead),
          List.reverse_append, dropWhile_isBlank_append (by rwa [List.all_reverse]),
          List.reverse_reverse]
        rw [List.head?_reverse]
        exact hlast

end HubGateway.Text
