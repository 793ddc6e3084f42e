/-
**What percent escapes stand for.**

A percent sign and two hexadecimal digits stand for a byte, and every other character for its own
bytes.  This is a relation between a text and bytes that says nothing about how they are found;
reading a text finds the bytes that it stands for, and there are no others.

There are many ways to write a text with escapes: every character may be escaped, and the four that
have a meaning in a query must be.  However a text is written, it is what the writing stands for.

Main definitions:

* `HubGateway.Percent.Denotes` — a text and the bytes that it stands for;
* `HubGateway.Percent.Means` — a text and the text that it stands for;
* `HubGateway.Percent.Escapes` — a text that is written with escapes;
* `HubGateway.Percent.encode` — the writing that escapes all but unreserved characters.

Main statements:

* `HubGateway.Percent.denotes_iff`, `decode_eq_iff` — **reading finds what a text stands for**;
* `HubGateway.Percent.Escapes.means` — **what is written with escapes stands for the text**;
* `HubGateway.Percent.escapes_encode` — the usual writing is one of them.
-/

import HubGateway.Proofs.Text.Utf8
import HubGateway.Text.Percent

set_option relaxedAutoImplicit false
set_option autoImplicit false

namespace HubGateway.Percent

open Utf8 (encodeChar encodeChars encodeChar_ascii)

/-! ### What a text stands for -/

/-- The hexadecimal digits of either case, each with its value. -/
def digits : List (Char × Nat) :=
  [('0', 0), ('1', 1), ('2', 2), ('3', 3), ('4', 4), ('5', 5), ('6', 6), ('7', 7), ('8', 8),
    ('9', 9), ('A', 10), ('B', 11), ('C', 12), ('D', 13), ('E', 14), ('F', 15), ('a', 10),
    ('b', 11), ('c', 12), ('d', 13), ('e', 14), ('f', 15)]

/-- The characters are an escape of the byte. -/
inductive IsEscape : List Char → UInt8 → Prop
  | intro {hi lo : Char} {h l : Nat} (hhi : (hi, h) ∈ digits) (hlo : (lo, l) ∈ digits) :
      IsEscape ['%', hi, lo] (h * 16 + l).toUInt8

/-- An escape stands at the beginning. -/
def BeginsEscaped (cs : List Char) : Prop := ∃ escape b, IsEscape escape b ∧ escape <+: cs

/-- What a text stands for: an escape for its byte, every other character for its own bytes. -/
inductive Denotes : List Char → List UInt8 → Prop
  | nil : Denotes [] []
  | escape {escape cs : List Char} {b : UInt8} {bytes : List UInt8} (h : IsEscape escape b)
      (hrest : Denotes cs bytes) : Denotes (escape ++ cs) (b :: bytes)
  | plain {c : Char} {cs : List Char} {bytes : List UInt8} (h : ¬ BeginsEscaped (c :: cs))
      (hrest : Denotes cs bytes) : Denotes (c :: cs) (encodeChar c ++ bytes)

/-- The text that a text stands for: the one of its bytes, or itself if these are not UTF-8. -/
def Means (s t : String) : Prop :=
  Denotes s.toList (Utf8.encode t) ∨ t = s ∧ ∀ u, ¬ Denotes s.toList (Utf8.encode u)

/-! ### Digits -/

theorem value?_of_mem {c : Char} {n : Nat} (h : (c, n) ∈ digits) :
    encodeChar c = [c.toNat.toUInt8] ∧ Hex.value? c.toNat.toUInt8 = some n ∧ n < 16 := by
  have hall : ∀ e ∈ digits, e.1.toNat < 0x80 ∧ Hex.value? e.1.toNat.toUInt8 = some e.2 ∧
      e.2 < 16 := by decide
  obtain ⟨hascii, hvalue⟩ := hall _ h
  exact ⟨encodeChar_ascii hascii, hvalue⟩

theorem mem_digits_of_value? {b : UInt8} {n : Nat} (h : Hex.value? b = some n) :
    b.toNat < 0x80 ∧ (Char.ofNat b.toNat, n) ∈ digits := by
  have hall : ∀ b : UInt8, ∀ n ∈ Hex.value? b,
      b.toNat < 0x80 ∧ (Char.ofNat b.toNat, n) ∈ digits := by decide +kernel
  exact hall b n h

/-- A byte of ASCII is the whole of the character that it begins. -/
theorem eq_cons_of_encodeChars {cs : List Char} {b : UInt8} {bytes : List UInt8}
    (hb : b.toNat < 0x80) (h : encodeChars cs = b :: bytes) :
    ∃ rest, cs = Char.ofNat b.toNat :: rest ∧ encodeChars rest = bytes := by
  have hread := Utf8.decodeFrom_encodeChars 0 [] cs
  rw [h, Utf8.decodeFrom_one hb] at hread
  obtain ⟨rest, hcs, hbytes⟩ := Utf8.encodeChars_of_decodeFrom hread
  exact ⟨rest, hcs, hbytes.symm⟩

/-! ### Reading -/

/-- A byte that is no percent sign stands for itself. -/
theorem decodeBytes_cons_of_ne {b : UInt8} (h : b ≠ 0x25) (bytes : List UInt8) :
    decodeBytes (b :: bytes) = b :: decodeBytes bytes := by
  rw [decodeBytes.eq_def]
  split
  next heq => exact absurd (List.cons.inj heq).1 h
  next heq =>
    cases heq
    rfl
  next heq => cases heq

theorem decodeBytes_append_of_not_mem {front : List UInt8} (h : 0x25 ∉ front)
    (bytes : List UInt8) : decodeBytes (front ++ bytes) = front ++ decodeBytes bytes := by
  induction front with
  | nil => rfl
  | cons b front ih =>
      obtain ⟨hb, hfront⟩ := not_or.1 (List.mem_cons.not.1 h)
      rw [List.cons_append, decodeBytes_cons_of_ne (Ne.symm hb), ih hfront, List.cons_append]

/-- Only a percent sign has the byte of one. -/
theorem not_mem_encodeChar {c : Char} (h : c ≠ '%') : (0x25 : UInt8) ∉ encodeChar c := by
  intro hmem
  obtain ⟨b, tail, hchar, -, htail⟩ := Utf8.encodeChar_eq_cons c
  rw [hchar] at hmem
  rcases List.mem_cons.1 hmem with rfl | hmem
  · have hone : encodeChars [c] = 0x25 :: tail := by
      rw [Utf8.encodeChars_cons, hchar, Utf8.encodeChars_nil, List.append_nil]
    obtain ⟨rest, hc, -⟩ := eq_cons_of_encodeChars (by decide) hone
    exact h (List.cons.inj hc).1
  · exact absurd (htail _ hmem) (by decide)

/-- A percent sign that begins no escape stands for itself. -/
theorem decodeBytes_percent {cs : List Char} (h : ¬ BeginsEscaped ('%' :: cs)) :
    decodeBytes (0x25 :: encodeChars cs) = 0x25 :: decodeBytes (encodeChars cs) := by
  rw [decodeBytes.eq_def]
  split
  next hi lo bytes heq =>
    have hbytes := (List.cons.inj heq).2
    split
    next b hescaped =>
      -- the two digits are those of an escape at the beginning
      unfold escaped? at hescaped
      split at hescaped
      next n m hhi hlo =>
        obtain ⟨hhiAscii, hhiMem⟩ := mem_digits_of_value? hhi
        obtain ⟨hloAscii, hloMem⟩ := mem_digits_of_value? hlo
        obtain ⟨cs, rfl, htail⟩ := eq_cons_of_encodeChars hhiAscii hbytes
        obtain ⟨cs, rfl, -⟩ := eq_cons_of_encodeChars hloAscii htail
        exact absurd ⟨_, _, .intro hhiMem hloMem, List.prefix_append _ cs⟩ h
      next => cases hescaped
    next => rw [hbytes]
  next heq =>
    cases heq
    rfl
  next heq => cases heq

theorem decodeBytes_escape {escape : List Char} {b : UInt8} (h : IsEscape escape b)
    (bytes : List UInt8) :
    decodeBytes (encodeChars escape ++ bytes) = b :: decodeBytes bytes := by
  cases h with
  | intro hhi hlo =>
      obtain ⟨hhiChar, hhiValue, -⟩ := value?_of_mem hhi
      obtain ⟨hloChar, hloValue, -⟩ := value?_of_mem hlo
      have hpercent : encodeChar '%' = [0x25] := by decide
      simp [hpercent, hhiChar, hloChar, decodeBytes, escaped?, hhiValue, hloValue]

theorem decodeBytes_of_denotes {cs : List Char} {bytes : List UInt8} (h : Denotes cs bytes) :
    decodeBytes (encodeChars cs) = bytes := by
  induction h with
  | nil => rfl
  | escape h _ ih => rw [Utf8.encodeChars_append, decodeBytes_escape h, ih]
  | @plain c cs bytes h _ ih =>
      rw [Utf8.encodeChars_cons]
      by_cases hc : c = '%'
      · subst hc
        have hpercent : encodeChar '%' = [0x25] := by decide
        rw [hpercent, List.singleton_append, decodeBytes_percent h, ih]
        rfl
      · rw [decodeBytes_append_of_not_mem (not_mem_encodeChar hc), ih]

/-- Every text stands for bytes. -/
theorem exists_denotes (cs : List Char) : ∃ bytes, Denotes cs bytes := by
  -- an escape is three characters long, so the induction is on the length
  induction hlength : cs.length using Nat.strong_induction_on generalizing cs with
  | _ n ih =>
      by_cases h : BeginsEscaped cs
      · obtain ⟨escape, b, hescape, rest, rfl⟩ := h
        have hshorter : rest.length < n := by
          cases hescape
          simp at hlength
          omega
        obtain ⟨bytes, hrest⟩ := ih _ hshorter rest rfl
        exact ⟨_, .escape hescape hrest⟩
      · cases cs with
        | nil => exact ⟨[], .nil⟩
        | cons c cs =>
            obtain ⟨bytes, hrest⟩ := ih cs.length (by simp at hlength; omega) cs rfl
            exact ⟨_, .plain h hrest⟩

/-- **Reading finds the bytes that a text stands for.** -/
theorem denotes_iff {cs : List Char} {bytes : List UInt8} :
    Denotes cs bytes ↔ decodeBytes (encodeChars cs) = bytes := by
  constructor
  · exact decodeBytes_of_denotes
  · intro h
    obtain ⟨found, hfound⟩ := exists_denotes cs
    rw [← h, decodeBytes_of_denotes hfound]
    exact hfound

/-- **Reading finds the text that a text stands for.** -/
theorem decode_eq_iff {s t : String} : decode s = t ↔ Means s t := by
  have hbytes : ∀ u, Denotes s.toList (Utf8.encode u) ↔
      Utf8.decode (decodeBytes (Utf8.encode s)) = .ok u := fun u => by
    rw [denotes_iff, Utf8.decode_eq_ok_iff]
    rfl
  unfold decode Means
  simp only [hbytes]
  cases Utf8.decode (decodeBytes (Utf8.encode s)) with
  | ok text => simp [eq_comm]
  | error fault => simp [eq_comm]

/-! ### Writing -/

/-- The characters that have a meaning in a query. -/
def reserved : List Char := ['%', '&', '=', '?']

/-- Escapes of bytes, one after the other. -/
inductive EscapesBytes : List Char → List UInt8 → Prop
  | nil : EscapesBytes [] []
  | cons {escape cs : List Char} {b : UInt8} {bytes : List UInt8} (h : IsEscape escape b)
      (hrest : EscapesBytes cs bytes) : EscapesBytes (escape ++ cs) (b :: bytes)

/-- A writing of a text with escapes: every character is escaped, or stands as it is if it has no
meaning in a query. -/
inductive Escapes : List Char → List Char → Prop
  | nil : Escapes [] []
  | plain {c : Char} {cs text : List Char} (h : c ∉ reserved) (hrest : Escapes cs text) :
      Escapes (c :: cs) (c :: text)
  | escaped {c : Char} {front cs text : List Char} (h : EscapesBytes front (encodeChar c))
      (hrest : Escapes cs text) : Escapes (front ++ cs) (c :: text)

theorem EscapesBytes.denotes {front cs : List Char} {bytes rest : List UInt8}
    (h : EscapesBytes front bytes) (hrest : Denotes cs rest) :
    Denotes (front ++ cs) (bytes ++ rest) := by
  induction h with
  | nil => exact hrest
  | cons h _ ih =>
      rw [List.append_assoc]
      exact .escape h ih

theorem not_beginsEscaped {c : Char} (h : c ≠ '%') (cs : List Char) :
    ¬ BeginsEscaped (c :: cs) := by
  intro hbegins
  obtain ⟨escape, b, hescape, hprefix⟩ := hbegins
  cases hescape
  exact h (List.cons_prefix_cons.1 hprefix).1.symm

/-- What is written with escapes stands for the bytes of the text. -/
theorem Escapes.denotes {cs text : List Char} (h : Escapes cs text) :
    Denotes cs (encodeChars text) := by
  induction h with
  | nil => exact .nil
  | plain h _ ih =>
      refine .plain (not_beginsEscaped ?_ _) ih
      rintro rfl
      exact h (by decide)
  | escaped h _ ih => exact h.denotes ih

/-- **What is written with escapes stands for the text.** -/
theorem Escapes.means {s t : String} (h : Escapes s.toList t.toList) : Means s t := .inl h.denotes

theorem IsEscape.eq_percent {escape : List Char} {b : UInt8} (h : IsEscape escape b) :
    ∀ c ∈ escape, c ∈ reserved → c = '%' := by
  have hdigit : ∀ e ∈ digits, e.1 ∉ reserved := by decide
  cases h with
  | intro hhi hlo =>
      intro c hc hreserved
      simp only [List.mem_cons, List.not_mem_nil, or_false] at hc
      rcases hc with rfl | rfl | rfl
      · rfl
      · exact absurd hreserved (hdigit _ hhi)
      · exact absurd hreserved (hdigit _ hlo)

theorem EscapesBytes.eq_percent {front : List Char} {bytes : List UInt8}
    (h : EscapesBytes front bytes) : ∀ c ∈ front, c ∈ reserved → c = '%' := by
  induction h with
  | nil =>
      intro c hc
      cases hc
  | cons h _ ih =>
      intro c hc
      rcases List.mem_append.1 hc with hc | hc
      · exact h.eq_percent c hc
      · exact ih c hc

/-- Of the characters with a meaning in a query, a writing has the percent sign alone. -/
theorem Escapes.eq_percent {cs text : List Char} (h : Escapes cs text) :
    ∀ c ∈ cs, c ∈ reserved → c = '%' := by
  induction h with
  | nil =>
      intro c hc
      cases hc
  | plain h _ ih =>
      intro c hc hreserved
      rcases List.mem_cons.1 hc with rfl | hc
      · exact absurd hreserved h
      · exact ih c hc hreserved
  | escaped h _ ih =>
      intro c hc
      rcases List.mem_append.1 hc with hc | hc
      · exact h.eq_percent c hc
      · exact ih c hc

/-- Only the empty text is written as the empty text. -/
theorem Escapes.ne_nil {cs text : List Char} (h : Escapes cs text) (hne : text ≠ []) : cs ≠ [] := by
  cases h with
  | nil => exact absurd rfl hne
  | plain => exact List.cons_ne_nil _ _
  | @escaped c front cs text h =>
      obtain ⟨b, tail, hchar, -⟩ := Utf8.encodeChar_eq_cons c
      rw [hchar] at h
      cases h with
      | cons h =>
          cases h
          simp

/-! ### The usual writing -/

/-- The characters that are written as they are. -/
def isUnreserved (c : Char) : Bool := c.isAlphanum || ['-', '.', '_', '~'].contains c

/-- The uppercase digit of a value below sixteen. -/
def digit (n : Nat) : Char := if n < 10 then Char.ofNat (48 + n) else Char.ofNat (55 + n)

/-- The escape of a byte. -/
def encodeByte (b : UInt8) : List Char := ['%', digit (b.toNat / 16), digit (b.toNat % 16)]

/-- A text with all characters escaped that are not unreserved. -/
def encode (s : String) : String :=
  String.ofList (s.toList.flatMap fun c =>
    if isUnreserved c then [c] else (encodeChar c).flatMap encodeByte)

theorem isEscape_encodeByte (b : UInt8) : IsEscape (encodeByte b) b := by
  have hdigit : ∀ n < 16, (digit n, n) ∈ digits := by decide
  have hb := b.toNat_lt
  have hvalue : (b.toNat / 16 * 16 + b.toNat % 16).toUInt8 = b := by
    rw [Nat.div_add_mod' b.toNat 16]
    simp
  have hescape := IsEscape.intro (hdigit (b.toNat / 16) (by omega))
    (hdigit (b.toNat % 16) (by omega))
  rw [hvalue] at hescape
  exact hescape

theorem escapesBytes_flatMap (bytes : List UInt8) :
    EscapesBytes (bytes.flatMap encodeByte) bytes := by
  induction bytes with
  | nil => exact .nil
  | cons b bytes ih => exact .cons (isEscape_encodeByte b) ih

theorem not_mem_reserved {c : Char} (h : isUnreserved c) : c ∉ reserved := by
  have hall : ∀ d ∈ reserved, isUnreserved d = false := by simp [reserved, isUnreserved]
  intro hc
  rw [hall c hc] at h
  cases h

/-- The usual writing is one with escapes. -/
theorem escapes_encode (s : String) : Escapes (encode s).toList s.toList := by
  rw [encode, String.toList_ofList]
  induction s.toList with
  | nil => exact .nil
  | cons c cs ih =>
      rw [List.flatMap_cons]
      split
      next h => exact .plain (not_mem_reserved h) ih
      next => exact .escaped (escapesBytes_flatMap _) ih

end HubGateway.Percent
