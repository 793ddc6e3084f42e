/-
**Quoted bytes that are read as a text are a form of it.**

The scanner cuts the bytes between quotes into pieces, and the bytes of all pieces together must be
UTF-8.  A character may then have come as several pieces, one for each of its bytes, and nothing the
scanner checks keeps such a character from being completed by an escape.  That this cannot happen is
a property of UTF-8: the bytes of a character begin with one that continues no other character, so
the bytes behind the first one of a long character stand for themselves, too.

Main definitions:

* `HubGateway.Json.PieceForm`, `PiecesForm` — the bytes of a piece, and of pieces;
* `HubGateway.Json.Spells` — bytes between quotes and the UTF-8 bytes that they stand for, an
  unescaped byte or a character at a time.

Main statements:

* `HubGateway.Json.forms_of_scanString` — what is scanned are pieces and a quote;
* `HubGateway.Json.Spells.charsForm` — what stands for the bytes of a text is a form of the text;
* `HubGateway.Json.charsForm_of_scanString` — **what is read as a text is a form of it**.
-/

import HubGateway.Proofs.Json.Quoted
import HubGateway.Proofs.Text.Order

set_option relaxedAutoImplicit false
set_option autoImplicit false

namespace HubGateway.Json

/-! ### Pieces -/

/-- The bytes of a piece: a byte that stands for itself, or an escape. -/
inductive PieceForm : Piece → List UInt8 → Prop
  | plain {b : UInt8} (hcontrol : 0x20 ≤ b.toNat) (hquote : b ≠ 0x22) (hbackslash : b ≠ 0x5C) :
      PieceForm (.byte b) [b]
  | letter {b : UInt8} {c : Char} (h : (b, c) ∈ letterEscapes) :
      PieceForm (.byte c.toNat.toUInt8) [0x5C, b]
  | unit {u : Nat} {p : List UInt8} (h : UnitForm u p) : PieceForm (.codeUnit u) p

/-- The bytes of pieces, one after the other. -/
inductive PiecesForm : List Piece → List UInt8 → Prop
  | nil : PiecesForm [] []
  | cons {piece : Piece} {pieces : List Piece} {p q : List UInt8} (h : PieceForm piece p)
      (hpieces : PiecesForm pieces q) : PiecesForm (piece :: pieces) (p ++ q)

theorem mem_hexDigits_of_value (b : UInt8) : ∀ n ∈ Hex.value? b, (b, n) ∈ hexDigits := by
  revert b
  decide +kernel

theorem unitForm_of_codeUnit {a b c d : UInt8} {u : Nat} (h : codeUnit? a b c d = some u) :
    UnitForm u [0x5C, 0x75, a, b, c, d] := by
  simp only [codeUnit?, Option.bind_eq_bind, Option.bind_eq_some_iff] at h
  obtain ⟨k, hk, l, hl, m, hm, n, hn, hu⟩ := h
  cases hu
  have hvalue : ((k * 16 + l) * 16 + m) * 16 + n = k * 4096 + l * 256 + m * 16 + n := by omega
  rw [hvalue]
  exact .intro (mem_hexDigits_of_value a k hk) (mem_hexDigits_of_value b l hl)
    (mem_hexDigits_of_value c m hm) (mem_hexDigits_of_value d n hn)

theorem pieceForm_of_shortEscape {letter : UInt8} {piece : Piece}
    (h : shortEscape? letter = some piece) : PieceForm piece [0x5C, letter] := by
  have hall : ∀ letter : UInt8, ∀ piece ∈ shortEscape? letter,
      ∃ e ∈ letterEscapes, e.1 = letter ∧ piece = .byte e.2.toNat.toUInt8 := by
    decide +kernel
  obtain ⟨⟨b, c⟩, hmem, rfl, rfl⟩ := hall letter piece h
  exact .letter hmem

/-- What is scanned are pieces and a quote. -/
theorem forms_of_scanStringFrom {acc pieces : List Piece} {bytes rest : List UInt8}
    (h : scanStringFrom acc bytes = some (pieces, rest)) :
    ∃ more p, pieces = acc.reverse ++ more ∧ PiecesForm more p ∧ bytes = p ++ 0x22 :: rest := by
  fun_induction scanStringFrom acc bytes with
  | case1 acc => cases h
  | case2 acc tail =>
      cases h
      exact ⟨[], [], by simp, .nil, rfl⟩
  | case3 acc a b c d tail u hu ih =>
      obtain ⟨more, p, rfl, hmore, rfl⟩ := ih h
      exact ⟨.codeUnit u :: more, _, by simp, .cons (.unit (unitForm_of_codeUnit hu)) hmore, rfl⟩
  | case4 => cases h
  | case5 acc letter tail _ piece hpiece ih =>
      obtain ⟨more, p, rfl, hmore, rfl⟩ := ih h
      exact ⟨piece :: more, _, by simp, .cons (pieceForm_of_shortEscape hpiece) hmore, rfl⟩
  | case6 => cases h
  | case7 => cases h
  | case8 acc b tail hquote _ _ hplain ih =>
      obtain ⟨more, p, rfl, hmore, rfl⟩ := ih h
      simp only [Bool.or_eq_true, decide_eq_true_eq, not_or, UInt8.lt_iff_toNat_lt,
        Nat.not_lt] at hplain
      exact ⟨.byte b :: more, _, by simp, .cons (.plain hplain.1 hquote hplain.2) hmore, rfl⟩

theorem forms_of_scanString {pieces : List Piece} {bytes rest : List UInt8}
    (h : scanString bytes = some (pieces, rest)) :
    ∃ p, PiecesForm pieces p ∧ bytes = p ++ 0x22 :: rest := by
  obtain ⟨more, p, rfl, hmore, hbytes⟩ := forms_of_scanStringFrom h
  exact ⟨p, hmore, hbytes⟩

/-! ### Spellings -/

/-- `Spells p q`: between quotes the bytes `p` stand for the bytes `q`.  An unescaped byte stands
for itself, whatever character it belongs to. -/
inductive Spells : List UInt8 → List UInt8 → Prop
  | nil : Spells [] []
  | plain {b : UInt8} {p q : List UInt8} (hcontrol : 0x20 ≤ b.toNat) (hquote : b ≠ 0x22)
      (hbackslash : b ≠ 0x5C) (h : Spells p q) : Spells (b :: p) (b :: q)
  | char {c : Char} {p q r : List UInt8} (hc : CharForm c p) (h : Spells q r) :
      Spells (p ++ q) (Utf8.encodeChar c ++ r)

/-- A code unit that is no surrogate is a character's. -/
theorem charForm_of_unit {u : Nat} {p : List UInt8} (h : UnitForm u p)
    (hu : u < 0xD800 ∨ 0xDFFF < u) : CharForm (Char.ofNat u) p := by
  have hlt : u < 0x10000 := by
    cases h with
    | intro ha hb hc hd =>
        have := (hexValue_of_mem ha).2
        have := (hexValue_of_mem hb).2
        have := (hexValue_of_mem hc).2
        have := (hexValue_of_mem hd).2
        omega
  have hvalid : u.isValidChar := by
    simp only [Nat.isValidChar]
    omega
  refine .unit ?_
  rwa [Utf8.toNat_ofNat hvalid]

/-- Two surrogates are a character's. -/
theorem charForm_of_pair {high low : Nat} {p q : List UInt8}
    (hhigh : 0xD800 ≤ high ∧ high ≤ 0xDBFF) (hlow : 0xDC00 ≤ low ∧ low ≤ 0xDFFF)
    (hp : UnitForm high p) (hq : UnitForm low q) : CharForm (pairedChar high low) (p ++ q) := by
  refine .pair hhigh hlow hp hq (Utf8.toNat_ofNat ?_)
  simp only [Nat.isValidChar]
  omega

/-- Pieces that have bytes stand for them. -/
theorem spells_of_piecesBytesFrom {acc bytes p : List UInt8} {pieces : List Piece}
    (h : piecesBytesFrom acc pieces = some bytes) (hform : PiecesForm pieces p) :
    ∃ q, bytes = acc.reverse ++ q ∧ Spells p q := by
  fun_induction piecesBytesFrom acc pieces generalizing p with
  | case1 acc =>
      cases h
      cases hform
      exact ⟨[], by simp, .nil⟩
  | case2 acc b pieces ih =>
      cases hform with
      | cons hpiece hpieces =>
          obtain ⟨q, rfl, hq⟩ := ih h hpieces
          refine ⟨b :: q, by simp, ?_⟩
          cases hpiece with
          | plain hcontrol hquote hbackslash => exact .plain hcontrol hquote hbackslash hq
          | letter hletter =>
              have := Spells.char (.letter hletter) hq
              rwa [(shortEscape_of_mem hletter).2.2] at this
  | case3 acc u pieces hu ih =>
      cases hform with
      | cons hpiece hpieces =>
          obtain ⟨q, rfl, hq⟩ := ih h hpieces
          cases hpiece with
          | unit hunit =>
              have hchar := charForm_of_unit hunit (by simpa using hu)
              exact ⟨Utf8.encodeChar (Char.ofNat u) ++ q, by simp, .char hchar hq⟩
  | case4 => cases h
  | case5 acc u hu hlow v pieces hv ih =>
      cases hform with
      | cons hpiece hpieces =>
          cases hpieces with
          | cons hpiece' hpieces =>
              obtain ⟨q, hbytes, hq⟩ := ih h hpieces
              cases hpiece with
              | unit hunit =>
                  cases hpiece' with
                  | unit hunit' =>
                      simp only [Bool.or_eq_true, decide_eq_true_eq, Bool.and_eq_true] at hu hv
                      have hchar := charForm_of_pair (by omega) hv hunit hunit'
                      refine ⟨Utf8.encodeChar (pairedChar u v) ++ q, by simp [hbytes], ?_⟩
                      rw [← List.append_assoc]
                      exact .char hchar hq
  | case6 => cases h
  | case7 => cases h

/-- Continuation bytes stand for themselves. -/
theorem Spells.of_continuation {tail p q : List UInt8}
    (htail : ∀ t ∈ tail, Utf8.isContinuation t = true) (h : Spells p (tail ++ q)) :
    ∃ p', p = tail ++ p' ∧ Spells p' q := by
  induction tail generalizing p with
  | nil => exact ⟨p, rfl, h⟩
  | cons t tail ih =>
      obtain ⟨ht, htail⟩ := List.forall_mem_cons.1 htail
      rw [List.cons_append] at h
      generalize hbytes : t :: (tail ++ q) = bytes at h
      cases h with
      | nil => cases hbytes
      | plain _ _ _ h =>
          cases hbytes
          obtain ⟨p', rfl, hp'⟩ := ih htail h
          exact ⟨p', rfl, hp'⟩
      | @char c _ _ r =>
          -- no character begins with a continuation byte
          obtain ⟨b, others, hc, hb, -⟩ := Utf8.encodeChar_eq_cons c
          rw [hc, List.cons_append] at hbytes
          rw [(List.cons.inj hbytes).1, hb] at ht
          cases ht

/-- **What stands for the bytes of characters is a form of them.** -/
theorem Spells.charsForm {cs : List Char} {p : List UInt8} (h : Spells p (Utf8.encodeChars cs)) :
    CharsForm cs p := by
  induction cs generalizing p with
  | nil =>
      generalize hbytes : Utf8.encodeChars [] = bytes at h
      cases h with
      | nil => exact .nil
      | plain => cases hbytes
      | @char c =>
          obtain ⟨b, tail, hc, -⟩ := Utf8.encodeChar_eq_cons c
          rw [hc] at hbytes
          cases hbytes
  | cons c cs ih =>
      obtain ⟨first, tail, hc, -, htail⟩ := Utf8.encodeChar_eq_cons c
      rw [Utf8.encodeChars_cons] at h
      generalize hbytes : Utf8.encodeChar c ++ Utf8.encodeChars cs = bytes at h
      cases h with
      | nil =>
          rw [hc] at hbytes
          cases hbytes
      | plain hcontrol hquote hbackslash h =>
          rw [hc] at hbytes
          cases hbytes
          -- the rest of the character stands for itself
          obtain ⟨p', rfl, hp'⟩ := h.of_continuation htail
          have hcases := Utf8.toNat_of_encodeChar_eq_cons hc
          have hplain : CharForm c (Utf8.encodeChar c) := by
            refine .plain (by omega) ?_ ?_
            · rintro rfl
              exact hquote (List.cons.inj hc).1.symm
            · rintro rfl
              exact hbackslash (List.cons.inj hc).1.symm
          rw [← List.cons_append, ← hc]
          exact .cons hplain (ih hp')
      | char hchar h =>
          obtain ⟨rfl, rfl⟩ := Utf8.encodeChar_append_inj hbytes
          exact .cons hchar (ih h)

/-- **What is read as a text is a form of it**, and the quote behind it is taken. -/
theorem charsForm_of_scanString {pieces : List Piece} {bytes rest : List UInt8} {s : String}
    (hscan : scanString bytes = some (pieces, rest)) (htext : piecesText? pieces = some s) :
    ∃ p, CharsForm s.toList p ∧ bytes = p ++ 0x22 :: rest := by
  obtain ⟨p, hform, hbytes⟩ := forms_of_scanString hscan
  obtain ⟨text, htext, hdecode⟩ := Option.bind_eq_some_iff.1 htext
  obtain ⟨q, rfl, hspells⟩ := spells_of_piecesBytesFrom htext hform
  obtain rfl := Utf8.decode?_eq_some_iff.1 hdecode
  exact ⟨p, hspells.charsForm, hbytes⟩

end HubGateway.Json
