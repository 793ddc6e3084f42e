/-
**Texts within quotes.**

A character has several forms within the quotes of a JSON text: it stands for itself unless it is a
control character, the quote or the backslash; some have an escape of one letter; and each one is
given by its UTF-16 code units, of which there are two beyond the basic plane.  The forms are said
here without reference to the reader, which is then shown to read each of them back.

Main definitions:

* `HubGateway.Json.CharForm` — the bytes of a character within quotes;
* `HubGateway.Json.CharsForm`, `HubGateway.Json.StringForm` — the bytes of a text.

Main statements:

* `HubGateway.Json.CharForm.pieces` — a character is read back from any of its forms;
* `HubGateway.Json.scanString_append` — **a text is read back from any of its forms**.
-/

import HubGateway.Json.Reader
import HubGateway.Proofs.Text.Utf8

set_option relaxedAutoImplicit false
set_option autoImplicit false

namespace HubGateway.Json

/-! ### Characters within quotes -/

/-- The hexadecimal digits of either case, each with its value. -/
def hexDigits : List (UInt8 × Nat) :=
  [(0x30, 0), (0x31, 1), (0x32, 2), (0x33, 3), (0x34, 4), (0x35, 5), (0x36, 6), (0x37, 7),
    (0x38, 8), (0x39, 9), (0x41, 10), (0x42, 11), (0x43, 12), (0x44, 13), (0x45, 14), (0x46, 15),
    (0x61, 10), (0x62, 11), (0x63, 12), (0x64, 13), (0x65, 14), (0x66, 15)]

/-- The escapes of one letter, each with the character that it stands for. -/
def letterEscapes : List (UInt8 × Char) :=
  [(0x22, '"'), (0x5C, '\\'), (0x2F, '/'), (0x62, Char.ofNat 0x08), (0x66, Char.ofNat 0x0C),
    (0x6E, '\n'), (0x72, '\r'), (0x74, '\t')]

/-- The bytes of an escaped UTF-16 code unit. -/
inductive UnitForm : Nat → List UInt8 → Prop
  | intro {a b c d : UInt8} {k l m n : Nat} (ha : (a, k) ∈ hexDigits) (hb : (b, l) ∈ hexDigits)
      (hc : (c, m) ∈ hexDigits) (hd : (d, n) ∈ hexDigits) :
      UnitForm (k * 4096 + l * 256 + m * 16 + n) [0x5C, 0x75, a, b, c, d]

/-- The bytes of a character within quotes: itself, an escape of one letter, or one or two escaped
code units. -/
inductive CharForm (c : Char) : List UInt8 → Prop
  | plain (hcontrol : 0x20 ≤ c.toNat) (hquote : c ≠ '"') (hbackslash : c ≠ '\\') :
      CharForm c (Utf8.encodeChar c)
  | letter {b : UInt8} (h : (b, c) ∈ letterEscapes) : CharForm c [0x5C, b]
  | unit {p : List UInt8} (h : UnitForm c.toNat p) : CharForm c p
  | pair {high low : Nat} {p q : List UInt8} (hhigh : 0xD800 ≤ high ∧ high ≤ 0xDBFF)
      (hlow : 0xDC00 ≤ low ∧ low ≤ 0xDFFF) (hp : UnitForm high p) (hq : UnitForm low q)
      (hc : c.toNat = 0x10000 + (high - 0xD800) * 1024 + (low - 0xDC00)) : CharForm c (p ++ q)

/-- The bytes of characters within quotes, one after the other. -/
inductive CharsForm : List Char → List UInt8 → Prop
  | nil : CharsForm [] []
  | cons {c : Char} {cs : List Char} {p q : List UInt8} (h : CharForm c p)
      (hcs : CharsForm cs q) : CharsForm (c :: cs) (p ++ q)

/-- The bytes of a text in quotes. -/
inductive StringForm (s : String) : List UInt8 → Prop
  | intro {p : List UInt8} (h : CharsForm s.toList p) : StringForm s (0x22 :: (p ++ [0x22]))

/-! ### Scanning -/

theorem hexValue_of_mem {b : UInt8} {n : Nat} (h : (b, n) ∈ hexDigits) :
    Hex.value? b = some n ∧ n < 16 := by
  have hall : ∀ e ∈ hexDigits, Hex.value? e.1 = some e.2 ∧ e.2 < 16 := by decide
  exact hall _ h

theorem shortEscape_of_mem {b : UInt8} {c : Char} (h : (b, c) ∈ letterEscapes) :
    b ≠ 0x75 ∧ shortEscape? b = some (.byte c.toNat.toUInt8) ∧
      Utf8.encodeChar c = [c.toNat.toUInt8] := by
  have hall : ∀ e ∈ letterEscapes, e.1 ≠ 0x75 ∧
      shortEscape? e.1 = some (.byte e.2.toNat.toUInt8) ∧
        Utf8.encodeChar e.2 = [e.2.toNat.toUInt8] := by decide
  exact hall _ h

/-- A byte that stands for itself within quotes. -/
theorem scanStringFrom_plain {b : UInt8} (hcontrol : 0x20 ≤ b.toNat) (hquote : b ≠ 0x22)
    (hbackslash : b ≠ 0x5C) (acc : List Piece) (rest : List UInt8) :
    scanStringFrom acc (b :: rest) = scanStringFrom (.byte b :: acc) rest := by
  rw [scanStringFrom.eq_def]
  split
  next heq => cases heq
  next heq => exact absurd (List.cons.inj heq).1 hquote
  next heq => exact absurd (List.cons.inj heq).1 hbackslash
  next heq => exact absurd (List.cons.inj heq).1 hbackslash
  next heq =>
    cases heq
    rw [if_neg]
    simp [UInt8.lt_iff_toNat_lt, hbackslash]
    omega

theorem scanStringFrom_bytes {bytes : List UInt8}
    (h : ∀ b ∈ bytes, 0x20 ≤ b.toNat ∧ b ≠ 0x22 ∧ b ≠ 0x5C) (acc : List Piece)
    (rest : List UInt8) :
    scanStringFrom acc (bytes ++ rest) =
      scanStringFrom ((bytes.map Piece.byte).reverse ++ acc) rest := by
  induction bytes generalizing acc with
  | nil => rfl
  | cons b bytes ih =>
      obtain ⟨⟨hcontrol, hquote, hbackslash⟩, hbytes⟩ := List.forall_mem_cons.1 h
      rw [List.cons_append, scanStringFrom_plain hcontrol hquote hbackslash, ih hbytes]
      simp

theorem scanStringFrom_letter {b : UInt8} {c : Char} (h : (b, c) ∈ letterEscapes)
    (acc : List Piece) (rest : List UInt8) :
    scanStringFrom acc (0x5C :: b :: rest) =
      scanStringFrom (.byte c.toNat.toUInt8 :: acc) rest := by
  obtain ⟨hne, hescape, -⟩ := shortEscape_of_mem h
  rw [scanStringFrom.eq_def]
  split
  next heq => cases heq
  next heq => cases heq
  next heq => exact absurd (List.cons.inj (List.cons.inj heq).2).1 hne
  next heq =>
    cases heq
    rw [hescape]
  next hnone heq =>
    cases heq
    exact (hnone _ _ rfl rfl).elim

theorem scanStringFrom_unit {u : Nat} {p : List UInt8} (h : UnitForm u p) (acc : List Piece)
    (rest : List UInt8) :
    scanStringFrom acc (p ++ rest) = scanStringFrom (.codeUnit u :: acc) rest := by
  cases h with
  | @intro a b c d k l m n ha hb hc hd =>
      have hunit : codeUnit? a b c d = some (k * 4096 + l * 256 + m * 16 + n) := by
        simp only [codeUnit?, (hexValue_of_mem ha).1, (hexValue_of_mem hb).1,
          (hexValue_of_mem hc).1, (hexValue_of_mem hd).1, Option.bind_eq_bind, Option.bind_some]
        exact congrArg some (by omega)
      simp only [List.cons_append, List.nil_append, scanStringFrom, hunit]

/-! ### The text of pieces -/

theorem piecesBytesFrom_bytes (bytes acc : List UInt8) (more : List Piece) :
    piecesBytesFrom acc (bytes.map Piece.byte ++ more) =
      piecesBytesFrom (bytes.reverse ++ acc) more := by
  induction bytes generalizing acc with
  | nil => rfl
  | cons b bytes ih =>
      rw [List.map_cons, List.cons_append, piecesBytesFrom, ih]
      simp

/-- A code unit that is no surrogate is a character. -/
theorem piecesBytesFrom_char (c : Char) (acc : List UInt8) (more : List Piece) :
    piecesBytesFrom acc (.codeUnit c.toNat :: more) =
      piecesBytesFrom ((Utf8.encodeChar c).reverse ++ acc) more := by
  have hvalid : c.toNat.isValidChar := c.valid
  simp only [Nat.isValidChar] at hvalid
  rw [piecesBytesFrom.eq_def]
  simp only
  rw [if_pos (by simp; omega), Char.ofNat_toNat]

/-- Two surrogates are a character. -/
theorem piecesBytesFrom_pair {c : Char} {high low : Nat} (hhigh : 0xD800 ≤ high ∧ high ≤ 0xDBFF)
    (hlow : 0xDC00 ≤ low ∧ low ≤ 0xDFFF)
    (hc : c.toNat = 0x10000 + (high - 0xD800) * 1024 + (low - 0xDC00)) (acc : List UInt8)
    (more : List Piece) :
    piecesBytesFrom acc (.codeUnit high :: .codeUnit low :: more) =
      piecesBytesFrom ((Utf8.encodeChar c).reverse ++ acc) more := by
  have hpaired : pairedChar high low = c := by rw [pairedChar, ← hc, Char.ofNat_toNat]
  rw [piecesBytesFrom.eq_def]
  simp only
  rw [if_neg (by simp; omega), if_neg (by omega), if_pos (by simp; omega), hpaired]

/-- The bytes of a character that stands for itself do not end a string and are no escape. -/
theorem encodeChar_plain {c : Char} (hcontrol : 0x20 ≤ c.toNat) (hquote : c ≠ '"')
    (hbackslash : c ≠ '\\') :
    ∀ b ∈ Utf8.encodeChar c, 0x20 ≤ b.toNat ∧ b ≠ 0x22 ∧ b ≠ 0x5C := by
  have hvalid : c.toNat.isValidChar := c.valid
  have hquote : c.toNat ≠ 0x22 := fun h => hquote (Char.toNat_inj.1 h)
  have hbackslash : c.toNat ≠ 0x5C := fun h => hbackslash (Char.toNat_inj.1 h)
  simp only [Nat.isValidChar] at hvalid
  simp only [Utf8.encodeChar]
  generalize c.toNat = n at *
  split_ifs <;>
    simp only [List.forall_mem_cons, List.not_mem_nil, false_imp_iff, implies_true, and_true, ne_eq,
      ← UInt8.toNat_inj, Nat.toUInt8_eq, UInt8.toNat_ofNat', UInt8.reduceToNat] <;>
    omega

/-- **A character is read back from any of its forms.** -/
theorem CharForm.pieces {c : Char} {p : List UInt8} (h : CharForm c p) :
    ∃ pieces, (∀ acc rest, scanStringFrom acc (p ++ rest) =
        scanStringFrom (pieces.reverse ++ acc) rest) ∧
      ∀ acc more, piecesBytesFrom acc (pieces ++ more) =
        piecesBytesFrom ((Utf8.encodeChar c).reverse ++ acc) more := by
  cases h with
  | plain hcontrol hquote hbackslash =>
      exact ⟨(Utf8.encodeChar c).map .byte,
        scanStringFrom_bytes (encodeChar_plain hcontrol hquote hbackslash),
        piecesBytesFrom_bytes _⟩
  | letter h =>
      refine ⟨[.byte c.toNat.toUInt8], scanStringFrom_letter h, fun acc more => ?_⟩
      rw [(shortEscape_of_mem h).2.2]
      rfl
  | unit h => exact ⟨[.codeUnit c.toNat], scanStringFrom_unit h, piecesBytesFrom_char c⟩
  | @pair high low p q hhigh hlow hp hq hc =>
      refine ⟨[.codeUnit high, .codeUnit low], fun acc rest => ?_,
        piecesBytesFrom_pair hhigh hlow hc⟩
      rw [List.append_assoc, scanStringFrom_unit hp, scanStringFrom_unit hq]
      rfl

theorem CharsForm.pieces {cs : List Char} {p : List UInt8} (h : CharsForm cs p) :
    ∃ pieces, (∀ acc rest, scanStringFrom acc (p ++ rest) =
        scanStringFrom (pieces.reverse ++ acc) rest) ∧
      ∀ acc more, piecesBytesFrom acc (pieces ++ more) =
        piecesBytesFrom ((Utf8.encodeChars cs).reverse ++ acc) more := by
  induction h with
  | nil => exact ⟨[], fun _ _ => rfl, fun _ _ => rfl⟩
  | cons h hcs ih =>
      obtain ⟨front, hscan, hbytes⟩ := h.pieces
      obtain ⟨back, hscans, hbytess⟩ := ih
      refine ⟨front ++ back, fun acc rest => ?_, fun acc more => ?_⟩
      · rw [List.append_assoc, hscan, hscans]
        simp
      · rw [List.append_assoc, hbytes, hbytess]
        simp

/-- **A text is read back from any of its forms.** -/
theorem scanString_append {s : String} {p : List UInt8} (h : CharsForm s.toList p)
    (rest : List UInt8) :
    ∃ pieces, scanString (p ++ 0x22 :: rest) = some (pieces, rest) ∧
      piecesText? pieces = some s := by
  obtain ⟨pieces, hscan, hbytes⟩ := h.pieces
  refine ⟨pieces, ?_, ?_⟩
  · rw [scanString, hscan, scanStringFrom]
    simp
  · have hall := hbytes [] []
    rw [List.append_nil, List.append_nil, piecesBytesFrom, List.reverse_reverse] at hall
    rw [piecesText?, hall, Option.bind_some, Utf8.decode?]
    exact congrArg Except.toOption (Utf8.decode_encode s)

end HubGateway.Json
