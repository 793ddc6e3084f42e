/-
**What the printer writes is in the grammar.**

Texts in quotes, integers, and containers of texts that are in the grammar are in the grammar
themselves.  Nothing that is printed holds a control character, whatever it says.

A float is printed as the shortest decimal that identifies it, but the reader rounds twice, so not
every float is read back.  One that is has a numeral, and that numeral means the float again.

Main definitions:

* `HubGateway.Json.Survives` — a double-precision number is read back from its text;
* `HubGateway.Json.Printable` — characters none of which is a control character.

Main statements:

* `HubGateway.Json.stringForm_quote`, `numeralForm_renderInt`, `Survives.numeral` — the scalars;
* `HubGateway.Json.writes_renderArray`, `writes_renderObject` — the containers;
* `HubGateway.Json.printable_quote`, `printable_render` — no control character is printed.
-/

import HubGateway.Json.Printer
import HubGateway.Proofs.Json.Acceptance

set_option relaxedAutoImplicit false
set_option autoImplicit false

namespace HubGateway.Json

open Utf8 (encodeChar encodeChars encodeChar_ascii)

/-! ### Texts in quotes -/

theorem mem_hexDigits {n : Nat} (h : n < 16) :
    (Hex.digit n).toNat < 0x80 ∧ ((Hex.digit n).toNat.toUInt8, n) ∈ hexDigits := by
  revert n
  decide

/-- A control character is written by its code unit. -/
theorem unitForm_escape {n : Nat} (h : n < 0x100) :
    UnitForm n (encodeChars ['\\', 'u', '0', '0', Hex.digit (n / 16), Hex.digit (n % 16)]) := by
  obtain ⟨hhigh, hhighMem⟩ := mem_hexDigits (n := n / 16) (by omega)
  obtain ⟨hlow, hlowMem⟩ := mem_hexDigits (n := n % 16) (by omega)
  have hform := UnitForm.intro (a := 0x30) (b := 0x30) (k := 0) (l := 0) (by decide) (by decide)
    hhighMem hlowMem
  rw [show 0 * 4096 + 0 * 256 + n / 16 * 16 + n % 16 = n by omega] at hform
  simp only [Utf8.encodeChars_cons, encodeChar_ascii hhigh, encodeChar_ascii hlow]
  exact hform

/-- An escaped character is a form of the character. -/
theorem charForm_escape (c : Char) : CharForm c (encodeChars (escape c)) := by
  unfold escape
  split_ifs with hquote hbackslash hn hr ht hb hf hcontrol
  · subst hquote; exact .letter (by decide)
  · subst hbackslash; exact .letter (by decide)
  · subst hn; exact .letter (by decide)
  · subst hr; exact .letter (by decide)
  · subst ht; exact .letter (by decide)
  · obtain rfl : c = Char.ofNat 8 := by rw [← hb, Char.ofNat_toNat]
    exact .letter (by decide)
  · obtain rfl : c = Char.ofNat 12 := by rw [← hf, Char.ofNat_toNat]
    exact .letter (by decide)
  · exact .unit (unitForm_escape (by omega))
  · rw [Utf8.encodeChars_cons, Utf8.encodeChars_nil, List.append_nil]
    exact .plain (by omega) hquote hbackslash

theorem charsForm_escape (cs : List Char) : CharsForm cs (encodeChars (cs.flatMap escape)) := by
  induction cs with
  | nil => exact .nil
  | cons c cs ih =>
      rw [List.flatMap_cons, Utf8.encodeChars_append]
      exact .cons (charForm_escape c) ih

/-- **A quoted text is a form of the text.** -/
theorem stringForm_quote (s : String) : StringForm s (encodeChars (quote s)) := by
  rw [quote, Utf8.encodeChars_cons, Utf8.encodeChars_append]
  exact .intro (charsForm_escape s.toList)

/-! ### Integers -/

/-- The value of a decimal digit. -/
def digitValue (c : Char) : Nat := c.toNat - '0'.toNat

theorem toNat_of_isDigit {c : Char} (h : c.isDigit = true) : 0x30 ≤ c.toNat ∧ c.toNat ≤ 0x39 := by
  simpa [Char.isDigit, UInt32.le_iff_toNat_le] using h

theorem isDigit_of_mem_naturalDigits {n : Nat} {c : Char} (h : c ∈ Binary64.naturalDigits n) :
    c.isDigit = true :=
  Nat.isDigit_of_mem_toDigits (by decide) (by decide) h

theorem digitBytes_map_digitValue {cs : List Char} (h : ∀ c ∈ cs, c.isDigit = true) :
    digitBytes (cs.map digitValue) = encodeChars cs := by
  induction cs with
  | nil => rfl
  | cons c cs ih =>
      obtain ⟨hc, hcs⟩ := List.forall_mem_cons.1 h
      have hrange := toNat_of_isDigit hc
      have hvalue : 0x30 + digitValue c = c.toNat := Nat.add_sub_cancel' hrange.1
      rw [List.map_cons, digitBytes_cons, ih hcs, Utf8.encodeChars_cons,
        encodeChar_ascii (by omega), hvalue]
      rfl

/-- The decimal digits of a natural number, as numbers. -/
def decimalDigits (n : Nat) : List Nat := (Binary64.naturalDigits n).map digitValue

theorem digitBytes_decimalDigits (n : Nat) :
    digitBytes (decimalDigits n) = encodeChars (Binary64.naturalDigits n) :=
  digitBytes_map_digitValue fun _ => isDigit_of_mem_naturalDigits

theorem isDigits_decimalDigits (n : Nat) : IsDigits (decimalDigits n) where
  ne_nil := mt List.map_eq_nil_iff.1 Nat.toDigits_ne_nil
  lt_ten := by
    intro d hd
    obtain ⟨c, hc, rfl⟩ := List.mem_map.1 hd
    have := toNat_of_isDigit (isDigit_of_mem_naturalDigits hc)
    unfold digitValue
    simp only [Char.reduceToNat]
    omega

theorem digitsValue_decimalDigits (n : Nat) : digitsValue (decimalDigits n) = n := by
  have hvalue : Nat.ofDigitChars 10 (Binary64.naturalDigits n) 0 = n :=
    Nat.ofDigitChars_ten_toDigits
  rw [Nat.ofDigitChars_eq_foldl] at hvalue
  rw [digitsValue, decimalDigits, List.foldl_map]
  simpa only [digitValue, Nat.mul_comm] using hvalue

/-- A positive number has no leading zero. -/
theorem head_decimalDigits {n : Nat} (h : 0 < n) : (decimalDigits n).head? ≠ some 0 := by
  induction n using Nat.strong_induction_on with
  | _ n ih =>
      unfold decimalDigits Binary64.naturalDigits at ih ⊢
      rw [Nat.toDigits_eq_if (by decide)]
      split
      next hlt =>
        have hall : ∀ d < 10, 0 < d → ([d.digitChar].map digitValue).head? ≠ some 0 := by decide
        exact hall n hlt h
      next hge =>
        rw [List.map_append,
          List.head?_append_of_ne_nil _ (mt List.map_eq_nil_iff.1 Nat.toDigits_ne_nil)]
        exact ih (n / 10) (by omega) (by omega)

/-- **An integer is written as a numeral of its value.** -/
theorem numeralForm_renderInt (i : Int) :
    NumeralForm ⟨i < 0, decimalDigits i.natAbs, [], none⟩ (encodeChars (renderInt i)) := by
  have hzero : (decimalDigits i.natAbs).head? = some 0 → decimalDigits i.natAbs = [0] := by
    intro hhead
    rcases Nat.eq_zero_or_pos i.natAbs with h | h
    · rw [h]
      rfl
    · exact absurd hhead (head_decimalDigits h)
  have hform := NumeralForm.intro (n := ⟨i < 0, decimalDigits i.natAbs, [], none⟩)
    (isDigits_decimalDigits i.natAbs) hzero .absent .absent
  simp only at hform
  rw [digitBytes_decimalDigits, List.append_nil, List.append_nil] at hform
  unfold renderInt
  split
  next h =>
    rw [decide_eq_true h] at hform ⊢
    exact hform
  next h =>
    rw [decide_eq_false h] at hform ⊢
    exact hform

theorem isInteger_decimalDigits (i : Int) :
    Numeral.IsInteger ⟨i < 0, decimalDigits i.natAbs, [], none⟩ i where
  fraction := rfl
  exponent := rfl
  value := by
    rw [digitsValue_decimalDigits, signed]
    split
    next h =>
      have := of_decide_eq_true h
      omega
    next h =>
      have := of_decide_eq_false (Bool.eq_false_iff.2 h)
      omega
  zero h := by
    have := of_decide_eq_true h
    rw [digitsValue_decimalDigits]
    omega

/-- **The numeral of an integer means the integer.** -/
theorem toNumber?_decimalDigits {i : Int}
    (hrange : -0x8000000000000000 ≤ i ∧ i < 0x10000000000000000) :
    Numeral.toNumber? ⟨i < 0, decimalDigits i.natAbs, [], none⟩ = some (.integer i hrange) :=
  (isInteger_decimalDigits i).toNumber? hrange

/-! ### Floats -/

/-- The characters that the text of a finite number consists of. -/
def floatChars : List Char :=
  ['0', '1', '2', '3', '4', '5', '6', '7', '8', '9', '.', 'e', '+', '-']

theorem mem_floatChars_of_isDigit {c : Char} (h : c.isDigit = true) : c ∈ floatChars := by
  have hrange := toNat_of_isDigit h
  have hall : ∀ n ≤ 0x39, 0x30 ≤ n → Char.ofNat n ∈ floatChars := by decide
  rw [← Char.ofNat_toNat c]
  exact hall _ hrange.2 hrange.1

theorem mem_floatChars_of_mem_naturalDigits {n : Nat} {c : Char}
    (h : c ∈ Binary64.naturalDigits n) : c ∈ floatChars :=
  mem_floatChars_of_isDigit (isDigit_of_mem_naturalDigits h)

theorem mem_floatChars_mark {exponent : Int} {c : Char}
    (h : c ∈ ['e', if exponent < 0 then '-' else '+'] ++ Binary64.naturalDigits exponent.natAbs) :
    c ∈ floatChars := by
  rcases List.mem_append.1 h with h | h
  · simp only [List.mem_cons, List.not_mem_nil, or_false] at h
    rcases h with rfl | rfl
    · decide
    · split <;> decide
  · exact mem_floatChars_of_mem_naturalDigits h

/-- A digit, and then characters of floats. -/
inductive FloatText : List Char → Prop
  | intro {first : Char} {cs : List Char} (hfirst : first.isDigit = true)
      (h : ∀ c ∈ cs, c ∈ floatChars) : FloatText (first :: cs)

/-- A decimal is written with the characters of floats, a digit first. -/
theorem floatText_render (d : Binary64.Decimal) : FloatText d.render := by
  have hne : Binary64.naturalDigits d.digits ≠ [] := Nat.toDigits_ne_nil
  have hall : ∀ c ∈ Binary64.naturalDigits d.digits, c.isDigit = true :=
    fun _ => isDigit_of_mem_naturalDigits
  unfold Binary64.Decimal.render
  generalize Binary64.naturalDigits d.digits = digits at hne hall
  obtain ⟨first, digits, rfl⟩ := List.exists_cons_of_ne_nil hne
  obtain ⟨hfirst, hdigits⟩ := List.forall_mem_cons.1 hall
  have hchars : ∀ c ∈ first :: digits, c ∈ floatChars := fun c hc =>
    mem_floatChars_of_isDigit (hall c hc)
  have hmore : ∀ c ∈ digits, c ∈ floatChars := (List.forall_mem_cons.1 hchars).2
  have hpoint : '.' ∈ floatChars := by decide
  have hzeros : ∀ n, ∀ c ∈ List.replicate n '0', c ∈ floatChars := by
    intro n c hc
    rw [List.eq_of_mem_replicate hc]
    decide
  simp only
  split
  next =>
    refine .intro hfirst ?_
    simp only [List.append_eq, List.forall_mem_append]
    exact ⟨⟨hmore, hzeros _⟩, List.forall_mem_cons.2 ⟨hpoint, hzeros 1⟩⟩
  next =>
    split
    next h =>
      obtain ⟨k, hk⟩ : ∃ k : Nat, (((first :: digits).length : Int) + d.exponent).toNat = k + 1 :=
        ⟨_, (Nat.succ_pred_eq_of_pos (by simp at h ⊢; omega)).symm⟩
      rw [hk]
      refine .intro hfirst ?_
      simp only [List.append_eq, List.forall_mem_append, List.forall_mem_cons]
      exact ⟨fun c hc => hmore c (List.mem_of_mem_take hc), hpoint,
        fun c hc => hchars c (List.mem_of_mem_drop hc)⟩
    next =>
      split
      next =>
        refine .intro rfl ?_
        simp only [List.append_eq, List.cons_append, List.forall_mem_append,
          List.forall_mem_cons (a := '.')]
        exact ⟨hpoint, hzeros _, hchars⟩
      next =>
        split
        next heq => cases heq
        next heq =>
          cases heq
          exact .intro hfirst fun _ => mem_floatChars_mark
        next heq =>
          cases heq
          refine .intro hfirst ?_
          simp only [List.append_eq, List.cons_append, List.forall_mem_append,
            List.forall_mem_cons (a := '.')]
          exact ⟨hpoint, hmore, fun _ => mem_floatChars_mark⟩

theorem floatText_cases (x : Binary64) :
    ∃ text, FloatText text ∧ (x.render = text ∨ x.render = '-' :: text) := by
  have htext : FloatText (if x.isZero then ['0', '.', '0'] else x.shortest.render) := by
    split
    · exact .intro rfl (by simp [floatChars])
    · exact floatText_render x.shortest
  refine ⟨_, htext, ?_⟩
  unfold Binary64.render
  cases x.isNegative
  · exact .inl rfl
  · exact .inr rfl

theorem FloatText.mem {text : List Char} (h : FloatText text) : ∀ c ∈ text, c ∈ floatChars := by
  cases h with
  | intro hfirst h => exact List.forall_mem_cons.2 ⟨mem_floatChars_of_isDigit hfirst, h⟩

theorem mem_floatChars_of_mem_render {x : Binary64} : ∀ c ∈ x.render, c ∈ floatChars := by
  obtain ⟨text, htext, h | h⟩ := floatText_cases x
  · rw [h]
    exact htext.mem
  · rw [h]
    exact List.forall_mem_cons.2 ⟨by decide, htext.mem⟩

/-- The text of a finite number begins as a numeral does. -/
theorem render_begins (x : Binary64) :
    ∃ b tail, encodeChars x.render = b :: tail ∧ (b = 0x2D ∨ isDigit b = true) := by
  obtain ⟨text, htext, h | h⟩ := floatText_cases x
  · cases htext with
    | @intro first cs hfirst =>
        have hrange := toNat_of_isDigit hfirst
        rw [h, Utf8.encodeChars_cons, encodeChar_ascii (by omega)]
        refine ⟨_, _, rfl, .inr ?_⟩
        rw [isDigit_iff]
        simp
        omega
  · rw [h]
    exact ⟨_, _, rfl, .inl rfl⟩

/-- The characters of floats are visible and in ASCII. -/
theorem visible_of_mem_floatChars {c : Char} (h : c ∈ floatChars) :
    0x20 < c.toNat ∧ c.toNat < 0x80 := by
  simp only [floatChars, List.mem_cons, List.not_mem_nil, or_false] at h
  rcases h with rfl | rfl | rfl | rfl | rfl | rfl | rfl | rfl | rfl | rfl | rfl | rfl | rfl |
    rfl <;> decide

theorem toNat_of_mem_blanks {b : UInt8} (h : b ∈ blanks) : b.toNat ≤ 0x20 := by
  simp only [blanks, List.mem_cons, List.not_mem_nil, or_false] at h
  rcases h with rfl | rfl | rfl | rfl <;> decide

theorem render_no_blank (x : Binary64) : ∀ b ∈ encodeChars x.render, b ∉ blanks := by
  intro b hb hblank
  obtain ⟨c, hc, hb⟩ := List.mem_flatMap.1 hb
  obtain ⟨hvisible, hascii⟩ := visible_of_mem_floatChars (mem_floatChars_of_mem_render c hc)
  rw [encodeChar_ascii hascii, List.mem_singleton] at hb
  have := toNat_of_mem_blanks hblank
  rw [hb] at this
  simp at this
  omega

theorem dropBlanks_of_no_blank {bytes : List UInt8} (h : ∀ b ∈ bytes, b ∉ blanks) :
    dropBlanks bytes = bytes := by
  cases bytes with
  | nil => rfl
  | cons b bytes => exact dropBlanks_cons (h b List.mem_cons_self) bytes

/-- What is parsed, begins as a numeral and holds no blanks is a numeral. -/
theorem numeral_of_parse {b : UInt8} {tail : List UInt8} {j : Json}
    (hb : b = 0x2D ∨ isDigit b = true) (hblanks : ∀ c ∈ b :: tail, c ∉ blanks)
    (h : parse (b :: tail) = some j) :
    ∃ n : Numeral, NumeralForm n (b :: tail) ∧ n.toNumber?.map .number = some j := by
  rw [parse, readDocument, read_cons_numeral hb] at h
  cases hscan : scanNumeral (b :: tail) with
  | none =>
      rw [hscan] at h
      cases h
  | some scanned =>
      obtain ⟨n, rest⟩ := scanned
      obtain ⟨p, hp, hbytes⟩ := form_of_scanNumeral hscan
      rw [hbytes] at hblanks ⊢
      rw [hscan] at h
      simp only [Option.bind_some] at h
      cases hnumber : n.toNumber?.map Json.number with
      | none =>
          rw [hnumber] at h
          cases h
      | some value =>
          simp only [hnumber, Option.map_some, atEnd] at h
          split at h
          next hempty =>
            rw [dropBlanks_of_no_blank fun c hc => hblanks c (List.mem_append_right p hc),
              List.isEmpty_iff] at hempty
            rw [hempty, List.append_nil, ← h]
            exact ⟨n, hp, hnumber⟩
          next => cases h

/-- A double-precision number is read back from the text that it is printed as. -/
def Survives (x : Binary64) : Prop :=
  parse (encodeChars (ofBinary64 x).render) = some (ofBinary64 x)

/-- **A float that is read back is written as a numeral that means it.** -/
theorem Survives.numeral {x : Binary64} (h : Survives x) (finite : x.isFinite = true) :
    ∃ n : Numeral, NumeralForm n (encodeChars x.render) ∧
      n.toNumber? = some (.float x finite) := by
  obtain ⟨b, tail, hbytes, hb⟩ := render_begins x
  have hblanks := render_no_blank x
  rw [Survives, ofBinary64, dif_pos finite, render, Number.render, hbytes] at h
  rw [hbytes] at hblanks ⊢
  obtain ⟨n, hn, hmeaning⟩ := numeral_of_parse hb hblanks h
  refine ⟨n, hn, ?_⟩
  obtain ⟨number, hnumber, heq⟩ := Option.map_eq_some_iff.1 hmeaning
  cases heq
  exact hnumber

/-- A float whose text is scanned as a numeral that means it is read back. -/
theorem survives_of_scanNumeral {x : Binary64} {n : Numeral} (finite : x.isFinite = true)
    (hscan : scanNumeral (encodeChars x.render) = some (n, []))
    (hnumber : n.toNumber? = some (.float x finite)) : Survives x := by
  obtain ⟨p, hform, hbytes⟩ := form_of_scanNumeral hscan
  have hparse := parse_of_writes (.number hform) (Nat.zero_le _) isBlank_nil isBlank_nil
  rw [List.append_nil] at hbytes
  rw [List.nil_append, List.append_nil, Document.tree?, hnumber, ← hbytes] at hparse
  rw [Survives, ofBinary64, dif_pos finite]
  exact hparse

/-- A number that is not finite is written as null, and read back as that. -/
theorem survives_of_not_finite {x : Binary64} (h : x.isFinite = false) : Survives x := by
  rw [Survives, ofBinary64, dif_neg (by simp [h])]
  rfl

/-! ### No control characters -/

/-- None of the characters is a control character. -/
def Printable (cs : List Char) : Prop := ∀ c ∈ cs, 0x20 ≤ c.toNat

section Printable

variable {as bs : List Char}

theorem printable_append (ha : Printable as) (hb : Printable bs) : Printable (as ++ bs) :=
  List.forall_mem_append.2 ⟨ha, hb⟩

theorem printable_cons {c : Char} (hc : 0x20 ≤ c.toNat) (hb : Printable bs) : Printable (c :: bs) :=
  List.forall_mem_cons.2 ⟨hc, hb⟩

theorem le_hexDigit {n : Nat} (h : n < 16) : 0x20 ≤ (Hex.digit n).toNat := by
  revert n
  decide

theorem printable_escape (c : Char) : Printable (escape c) := by
  unfold escape Printable
  split_ifs with _ _ _ _ _ _ _ hcontrol
  iterate 7
    · simp
  · have hhigh := le_hexDigit (n := c.toNat / 16) (by omega)
    have hlow := le_hexDigit (n := c.toNat % 16) (by omega)
    simpa using ⟨hhigh, hlow⟩
  · simpa using hcontrol

theorem printable_quote (s : String) : Printable (quote s) := by
  have htext : Printable (s.toList.flatMap escape) := fun c hc => by
    obtain ⟨d, -, hd⟩ := List.mem_flatMap.1 hc
    exact printable_escape d c hd
  exact printable_cons (by decide) (printable_append htext (by simp [Printable]))

theorem printable_renderInt (i : Int) : Printable (renderInt i) := by
  have hdigits : Printable (Binary64.naturalDigits i.natAbs) := fun c hc =>
    Nat.le_trans (by decide) (toNat_of_isDigit (isDigit_of_mem_naturalDigits hc)).1
  unfold renderInt
  split
  · exact printable_cons (by decide) hdigits
  · exact hdigits

theorem printable_render (x : Binary64) : Printable x.render := fun c hc =>
  Nat.le_of_lt (visible_of_mem_floatChars (mem_floatChars_of_mem_render c hc)).1

theorem printable_intercalate {texts : List (List Char)} (h : ∀ text ∈ texts, Printable text) :
    Printable ([','].intercalate texts) := by
  induction texts with
  | nil => simp [Printable]
  | cons text texts ih =>
      obtain ⟨htext, htexts⟩ := List.forall_mem_cons.1 h
      cases texts with
      | nil => rwa [List.intercalate_singleton]
      | cons next texts =>
          rw [List.intercalate_cons_of_ne_nil (List.cons_ne_nil _ _), List.append_assoc]
          exact printable_append htext (printable_cons (by decide) (ih htexts))

/-- The bytes of printable characters are no control characters. -/
theorem Printable.bytes (h : Printable as) : ∀ b ∈ encodeChars as, 0x20 ≤ b.toNat := by
  intro b hb
  obtain ⟨c, hc, hb⟩ := List.mem_flatMap.1 hb
  by_cases hspecial : c = '"' ∨ c = '\\'
  · rcases hspecial with rfl | rfl
    · rw [encodeChar_ascii (by decide), List.mem_singleton] at hb
      rw [hb]
      decide
    · rw [encodeChar_ascii (by decide), List.mem_singleton] at hb
      rw [hb]
      decide
  · rw [not_or] at hspecial
    exact (encodeChar_plain (h c hc) hspecial.1 hspecial.2 b hb).1

theorem printable_renderArray {texts : List (List Char)} (h : ∀ text ∈ texts, Printable text) :
    Printable (renderArray texts) :=
  printable_cons (by decide) (printable_append (printable_intercalate h) (by simp [Printable]))

theorem printable_renderObject {texts : List (List Char)} (h : ∀ text ∈ texts, Printable text) :
    Printable (renderObject texts) :=
  printable_cons (by decide) (printable_append (printable_intercalate h) (by simp [Printable]))

theorem printable_renderMember {text : List Char} (name : String) (h : Printable text) :
    Printable (renderMember name text) :=
  printable_append (printable_quote name) (printable_cons (by decide) h)

end Printable

/-! ### Containers -/

section Containers

variable {texts : List (List Char)}

theorem writesItems_intercalate {items : List Document}
    (h : List.Forall₂ (fun d text => Writes d (encodeChars text)) items texts) (hne : items ≠ []) :
    WritesItems items (encodeChars ([','].intercalate texts)) := by
  induction h with
  | nil => exact absurd rfl hne
  | @cons d text items texts hd htexts ih =>
      cases htexts with
      | nil => simpa using WritesItems.last isBlank_nil hd isBlank_nil
      | cons hd' htexts =>
          have hitems := ih (List.cons_ne_nil _ _)
          rw [List.intercalate_cons_of_ne_nil (List.cons_ne_nil _ _), List.append_assoc,
            List.singleton_append, Utf8.encodeChars_append, Utf8.encodeChars_cons]
          exact .cons isBlank_nil hd isBlank_nil hitems

/-- **Written items are an array.** -/
theorem writes_renderArray {items : List Document}
    (h : List.Forall₂ (fun d text => Writes d (encodeChars text)) items texts) :
    Writes (.array items) (encodeChars (renderArray texts)) := by
  rw [renderArray, Utf8.encodeChars_cons, Utf8.encodeChars_append]
  by_cases hne : items = []
  · subst hne
    cases h
    exact .emptyArray (by simp [IsBlank])
  · exact .array (writesItems_intercalate h hne)

theorem writesMembers_intercalate {members : List (String × Document)}
    (h : List.Forall₂ (fun member text => WritesMember member (encodeChars text)) members texts)
    (hne : members ≠ []) : WritesMembers members (encodeChars ([','].intercalate texts)) := by
  induction h with
  | nil => exact absurd rfl hne
  | @cons member text members texts hmember htexts ih =>
      cases htexts with
      | nil => simpa using WritesMembers.last hmember
      | cons hmember' htexts =>
          have hmembers := ih (List.cons_ne_nil _ _)
          rw [List.intercalate_cons_of_ne_nil (List.cons_ne_nil _ _), List.append_assoc,
            List.singleton_append, Utf8.encodeChars_append, Utf8.encodeChars_cons]
          exact .cons hmember hmembers

/-- **Written members are an object.** -/
theorem writes_renderObject {members : List (String × Document)}
    (h : List.Forall₂ (fun member text => WritesMember member (encodeChars text)) members texts) :
    Writes (.object members) (encodeChars (renderObject texts)) := by
  rw [renderObject, Utf8.encodeChars_cons, Utf8.encodeChars_append]
  by_cases hne : members = []
  · subst hne
    cases h
    exact .emptyObject (by simp [IsBlank])
  · exact .object (writesMembers_intercalate h hne)

theorem writesMember_renderMember {d : Document} {text : List Char} (name : String)
    (h : Writes d (encodeChars text)) :
    WritesMember (name, d) (encodeChars (renderMember name text)) := by
  have hmember := WritesMember.intro isBlank_nil (stringForm_quote name) isBlank_nil isBlank_nil h
    isBlank_nil
  rw [renderMember, Utf8.encodeChars_append, Utf8.encodeChars_cons]
  rw [List.append_nil] at hmember
  exact hmember

end Containers

end HubGateway.Json
