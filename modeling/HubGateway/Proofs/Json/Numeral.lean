/-
**Numerals as they stand in a text.**

A numeral is a sign, a whole part, a fraction and an exponent.  The bytes of each part are said here
without reference to the scanner, which is then shown to take exactly them: what is written is
scanned, up to a byte that would not belong to it, and what is scanned is a numeral.  A numeral that
has neither fraction nor exponent means its integer, as far as 64 bits reach.

Main definitions:

* `HubGateway.Json.NumeralForm` — the bytes of a numeral;
* `HubGateway.Json.EndsNumeral` — bytes that do not go on with a numeral in front of them;
* `HubGateway.Json.Numeral.IsInteger` — the numerals of integers.

Main statements:

* `HubGateway.Json.scanNumeral_append` — **a numeral is scanned as it is written**;
* `HubGateway.Json.form_of_scanNumeral` — **what is scanned as a numeral is one**;
* `HubGateway.Json.Numeral.IsInteger.toNumber?` — a numeral that is an integer means it.
-/

import HubGateway.Json.Numeral
import HubGateway.Proofs.Text.Utf8

set_option relaxedAutoImplicit false
set_option autoImplicit false

namespace HubGateway.Json

/-! ### Digits -/

/-- The bytes of decimal digits. -/
def digitBytes (digits : List Nat) : List UInt8 := digits.map fun d => (0x30 + d).toUInt8

/-- At least one digit, and nothing but decimal digits. -/
structure IsDigits (digits : List Nat) : Prop where
  ne_nil : digits ≠ []
  lt_ten : ∀ d ∈ digits, d < 10

/-- The bytes do not begin with a digit. -/
def NoDigit (bytes : List UInt8) : Prop := ∀ b ∈ bytes.head?, isDigit b = false

theorem isDigit_iff (b : UInt8) : isDigit b = true ↔ 0x30 ≤ b.toNat ∧ b.toNat ≤ 0x39 := by
  simp [isDigit, UInt8.le_iff_toNat_le]

theorem toNat_digitByte {d : Nat} (h : d < 10) : (0x30 + d).toUInt8.toNat = 0x30 + d := by
  simp
  omega

theorem isDigit_digitByte {d : Nat} (h : d < 10) : isDigit (0x30 + d).toUInt8 = true := by
  rw [isDigit_iff, toNat_digitByte h]
  omega

@[simp] theorem digitBytes_cons (d : Nat) (digits : List Nat) :
    digitBytes (d :: digits) = (0x30 + d).toUInt8 :: digitBytes digits := rfl

theorem scanDigitsFrom_digitBytes {digits : List Nat} (h : ∀ d ∈ digits, d < 10) (acc : List Nat)
    (rest : List UInt8) :
    scanDigitsFrom acc (digitBytes digits ++ rest) =
      scanDigitsFrom (digits.reverse ++ acc) rest := by
  induction digits generalizing acc with
  | nil => rfl
  | cons d digits ih =>
      obtain ⟨hd, hdigits⟩ := List.forall_mem_cons.1 h
      rw [digitBytes_cons, List.cons_append, scanDigitsFrom, if_pos (isDigit_digitByte hd),
        toNat_digitByte hd, Nat.add_sub_cancel_left, ih hdigits]
      simp

theorem scanDigitsFrom_of_noDigit {rest : List UInt8} (h : NoDigit rest) (acc : List Nat) :
    scanDigitsFrom acc rest = (acc.reverse, rest) := by
  cases rest with
  | nil => rfl
  | cons b rest => rw [scanDigitsFrom, if_neg (by simp [h b rfl])]

/-- All digits are taken, up to the first other byte. -/
theorem scanDigits_append {digits : List Nat} (h : ∀ d ∈ digits, d < 10) {rest : List UInt8}
    (hrest : NoDigit rest) : scanDigits (digitBytes digits ++ rest) = (digits, rest) := by
  rw [scanDigits, scanDigitsFrom_digitBytes h, scanDigitsFrom_of_noDigit hrest]
  simp

theorem digits_of_scanDigitsFrom {acc digits : List Nat} {bytes rest : List UInt8}
    (h : scanDigitsFrom acc bytes = (digits, rest)) :
    ∃ more, digits = acc.reverse ++ more ∧ (∀ d ∈ more, d < 10) ∧
      bytes = digitBytes more ++ rest ∧ NoDigit rest := by
  fun_induction scanDigitsFrom acc bytes with
  | case1 acc =>
      cases h
      exact ⟨[], by simp, by simp, rfl, by simp [NoDigit]⟩
  | case2 acc b tail hb ih =>
      obtain ⟨more, rfl, hmore, rfl, hrest⟩ := ih h
      rw [isDigit_iff] at hb
      have hdigit : (0x30 + (b.toNat - 0x30)).toUInt8 = b := by
        rw [Nat.add_sub_cancel' hb.1, Nat.toUInt8_eq, UInt8.ofNat_toNat]
      exact ⟨(b.toNat - 0x30) :: more, by simp, List.forall_mem_cons.2 ⟨by omega, hmore⟩,
        by rw [digitBytes_cons, hdigit]; rfl, hrest⟩
  | case3 acc b tail hb =>
      cases h
      exact ⟨[], by simp, by simp, rfl, by rintro _ ⟨⟩; simpa using hb⟩

/-- What is taken as digits are digits. -/
theorem digits_of_scanDigits {digits : List Nat} {bytes rest : List UInt8}
    (h : scanDigits bytes = (digits, rest)) :
    (∀ d ∈ digits, d < 10) ∧ bytes = digitBytes digits ++ rest := by
  obtain ⟨more, rfl, hmore, hbytes, -⟩ := digits_of_scanDigitsFrom h
  exact ⟨by simpa using hmore, by simpa using hbytes⟩

/-! ### Numerals -/

/-- The minus sign, or nothing. -/
def signBytes (negative : Bool) : List UInt8 := if negative then [0x2D] else []

/-- The bytes of a fraction. -/
inductive FractionForm : List Nat → List UInt8 → Prop
  | absent : FractionForm [] []
  | present {digits : List Nat} (h : IsDigits digits) :
      FractionForm digits (0x2E :: digitBytes digits)

/-- The bytes of an exponent: a letter of either case, a sign or none, and digits. -/
inductive ExponentForm : Option Numeral.Exponent → List UInt8 → Prop
  | absent : ExponentForm none []
  | present {letter : UInt8} {negative : Bool} {sign : List UInt8} {digits : List Nat}
      (hletter : letter = 0x65 ∨ letter = 0x45)
      (hsign : sign = signBytes negative ∨ negative = false ∧ sign = [0x2B])
      (h : IsDigits digits) :
      ExponentForm (some ⟨negative, digits⟩) (letter :: (sign ++ digitBytes digits))

/-- The bytes of a numeral.  The whole part has no superfluous leading zero. -/
inductive NumeralForm (n : Numeral) : List UInt8 → Prop
  | intro {fraction exponent : List UInt8} (hwhole : IsDigits n.whole)
      (hzero : n.whole.head? = some 0 → n.whole = [0])
      (hfraction : FractionForm n.fraction fraction)
      (hexponent : ExponentForm n.exponent exponent) :
      NumeralForm n (signBytes n.negative ++ (digitBytes n.whole ++ (fraction ++ exponent)))

/-- A byte that would belong to a numeral in front of it. -/
def continuesNumeral (b : UInt8) : Bool := isDigit b || b == 0x2E || b == 0x65 || b == 0x45

/-- The bytes do not go on with a numeral in front of them. -/
def EndsNumeral (bytes : List UInt8) : Prop := ∀ b ∈ bytes.head?, continuesNumeral b = false

section Scanning

variable {rest : List UInt8}

theorem EndsNumeral.noDigit (h : EndsNumeral rest) : NoDigit rest := by
  intro b hb
  have := h b hb
  simp only [continuesNumeral, Bool.or_eq_false_iff] at this
  exact this.1.1.1

theorem scanWhole_append {whole : List Nat} (h : IsDigits whole)
    (hzero : whole.head? = some 0 → whole = [0]) (hrest : NoDigit rest) :
    scanWhole (digitBytes whole ++ rest) = some (whole, rest) := by
  unfold scanWhole
  rw [scanDigits_append h.lt_ten hrest]
  split
  next heq => exact absurd (congrArg Prod.fst heq) h.ne_nil
  next heq => rw [← heq]
  next tail _ hne heq =>
    cases heq
    exact absurd (List.cons.inj (hzero rfl)).2 hne
  next heq => rw [heq]

theorem scanFraction_append {fraction : List Nat} {p : List UInt8} (h : FractionForm fraction p)
    (hdigit : NoDigit rest) (hpoint : rest.head? ≠ some 0x2E) :
    scanFraction (p ++ rest) = some (fraction, rest) := by
  cases h with
  | absent =>
      unfold scanFraction
      split
      next heq =>
        rw [List.nil_append] at heq
        exact absurd (by rw [heq]; rfl) hpoint
      next => rfl
  | present h =>
      rw [List.cons_append, scanFraction]
      simp only [scanDigits_append h.lt_ten hdigit]
      split
      next heq => exact absurd (congrArg Prod.fst heq) h.ne_nil
      next heq => rw [heq]

theorem digitBytes_append_ne {digits : List Nat} {rest left : List UInt8} {b : UInt8}
    (h : IsDigits digits) (hb : isDigit b = false) : digitBytes digits ++ rest ≠ b :: left := by
  intro heq
  obtain ⟨d, digits, rfl⟩ := List.exists_cons_of_ne_nil h.ne_nil
  have hd := isDigit_digitByte (h.lt_ten d List.mem_cons_self)
  rw [digitBytes_cons, List.cons_append] at heq
  rw [(List.cons.inj heq).1, hb] at hd
  cases hd

theorem scanExponentSign_append {negative : Bool} {sign : List UInt8} {digits : List Nat}
    (hsign : sign = signBytes negative ∨ negative = false ∧ sign = [0x2B]) (h : IsDigits digits) :
    scanExponentSign (sign ++ (digitBytes digits ++ rest)) =
      (negative, digitBytes digits ++ rest) := by
  rcases hsign with rfl | ⟨rfl, rfl⟩
  · cases negative with
    | true => rfl
    | false =>
        rw [scanExponentSign.eq_def]
        split
        next heq => exact absurd heq (digitBytes_append_ne h (by decide))
        next heq => exact absurd heq (digitBytes_append_ne h (by decide))
        next => rfl
  · rfl

theorem scanExponent_append {e : Option Numeral.Exponent} {p : List UInt8}
    (h : ExponentForm e p) (hrest : EndsNumeral rest) :
    scanExponent (p ++ rest) = some (e, rest) := by
  cases h with
  | absent =>
      cases rest with
      | nil => rfl
      | cons b rest =>
          have hb := hrest b rfl
          simp only [continuesNumeral, Bool.or_eq_false_iff, beq_eq_false_iff_ne] at hb
          rw [List.nil_append, scanExponent, if_neg (by simp [hb.1.2, hb.2])]
  | @present letter negative sign digits hletter hsign h =>
      rw [List.cons_append, List.append_assoc, scanExponent, if_pos (by simpa using hletter)]
      simp only [scanExponentSign_append hsign h, scanDigits_append h.lt_ten hrest.noDigit]
      split
      next heq => exact absurd (congrArg Prod.fst heq) h.ne_nil
      next heq =>
        cases heq
        rfl

/-- The parts of a numeral behind its sign. -/
def scanUnsigned (negative : Bool) (bytes : List UInt8) : Option (Numeral × List UInt8) := do
  let (whole, bytes) ← scanWhole bytes
  let (fraction, bytes) ← scanFraction bytes
  let (exponent, bytes) ← scanExponent bytes
  return (⟨negative, whole, fraction, exponent⟩, bytes)

theorem scanNumeral_of_ne {bytes : List UInt8} (h : ∀ tail, bytes ≠ 0x2D :: tail) :
    scanNumeral bytes = scanUnsigned false bytes := by
  unfold scanNumeral
  split
  next heq =>
    split at heq
    next => exact absurd rfl (h _)
    next =>
      cases heq
      rfl

/-- **A numeral is scanned as it is written.** -/
theorem scanNumeral_append {n : Numeral} {p : List UInt8} (h : NumeralForm n p)
    (hrest : EndsNumeral rest) : scanNumeral (p ++ rest) = some (n, rest) := by
  obtain ⟨negative, whole, fraction, exponent⟩ := n
  cases h with
  | @intro f e hwhole hzero hfraction hexponent =>
      -- what stands behind each part is not mistaken for more of it
      have hexponentHead : ∀ b ∈ (e ++ rest).head?, isDigit b = false ∧ b ≠ 0x2E := by
        cases hexponent with
        | absent =>
            intro b hb
            have := hrest b hb
            simp only [continuesNumeral, Bool.or_eq_false_iff, beq_eq_false_iff_ne] at this
            exact this.1.1
        | present hletter =>
            rintro b ⟨⟩
            rcases hletter with rfl | rfl <;> decide
      have hfractionHead : NoDigit (f ++ (e ++ rest)) := by
        cases hfraction with
        | absent => exact fun b hb => (hexponentHead b hb).1
        | present =>
            rintro b ⟨⟩
            decide
      have hunsigned : scanUnsigned negative (digitBytes whole ++ (f ++ (e ++ rest))) =
          some (⟨negative, whole, fraction, exponent⟩, rest) := by
        rw [scanUnsigned, scanWhole_append hwhole hzero hfractionHead]
        simp only [Option.bind_eq_bind, Option.bind_some]
        rw [scanFraction_append hfraction (fun b hb => (hexponentHead b hb).1)
          (fun h => (hexponentHead _ h).2 rfl)]
        simp only [Option.bind_some, scanExponent_append hexponent hrest]
        rfl
      simp only [List.append_assoc]
      cases negative with
      | true => exact hunsigned
      | false =>
          exact (scanNumeral_of_ne fun _ => digitBytes_append_ne hwhole (by decide)).trans hunsigned

end Scanning

/-! ### What is scanned is a numeral -/

theorem isDigits_of_scanDigits {digits : List Nat} {bytes rest : List UInt8}
    (h : scanDigits bytes = (digits, rest)) (hne : digits ≠ []) :
    IsDigits digits ∧ bytes = digitBytes digits ++ rest := by
  obtain ⟨hdigits, hbytes⟩ := digits_of_scanDigits h
  exact ⟨⟨hne, hdigits⟩, hbytes⟩

theorem digits_of_scanWhole {whole : List Nat} {bytes rest : List UInt8}
    (h : scanWhole bytes = some (whole, rest)) :
    IsDigits whole ∧ (whole.head? = some 0 → whole = [0]) ∧ bytes = digitBytes whole ++ rest := by
  unfold scanWhole at h
  split at h
  next => cases h
  next heq =>
    cases h
    obtain ⟨hdigits, hbytes⟩ := isDigits_of_scanDigits heq (by decide)
    exact ⟨hdigits, fun _ => rfl, hbytes⟩
  next => cases h
  next hne _ hzero heq =>
    cases h
    obtain ⟨hdigits, hbytes⟩ := isDigits_of_scanDigits heq hne
    refine ⟨hdigits, fun hhead => ?_, hbytes⟩
    obtain ⟨d, digits, rfl⟩ := List.exists_cons_of_ne_nil hne
    cases hhead
    exact absurd rfl (hzero _)

theorem form_of_scanFraction {fraction : List Nat} {bytes rest : List UInt8}
    (h : scanFraction bytes = some (fraction, rest)) :
    ∃ p, FractionForm fraction p ∧ bytes = p ++ rest := by
  unfold scanFraction at h
  split at h
  next =>
    split at h
    next => cases h
    next hne heq =>
      cases h
      obtain ⟨hdigits, rfl⟩ := isDigits_of_scanDigits heq hne
      exact ⟨_, .present hdigits, rfl⟩
  next =>
    cases h
    exact ⟨[], .absent, rfl⟩

theorem sign_of_scanExponentSign {negative : Bool} {bytes rest : List UInt8}
    (h : scanExponentSign bytes = (negative, rest)) :
    ∃ sign, (sign = signBytes negative ∨ negative = false ∧ sign = [0x2B]) ∧
      bytes = sign ++ rest := by
  unfold scanExponentSign at h
  split at h
  next =>
    cases h
    exact ⟨[0x2B], .inr ⟨rfl, rfl⟩, rfl⟩
  next =>
    cases h
    exact ⟨[0x2D], .inl rfl, rfl⟩
  next =>
    cases h
    exact ⟨[], .inl rfl, rfl⟩

theorem form_of_scanExponent {e : Option Numeral.Exponent} {bytes rest : List UInt8}
    (h : scanExponent bytes = some (e, rest)) : ∃ p, ExponentForm e p ∧ bytes = p ++ rest := by
  unfold scanExponent at h
  split at h
  next b tail =>
    split at h
    next hletter =>
      generalize hsigned : scanExponentSign tail = signed at h
      obtain ⟨negative, tail'⟩ := signed
      obtain ⟨sign, hsign, rfl⟩ := sign_of_scanExponentSign hsigned
      simp only at h
      split at h
      next => cases h
      next hne heq =>
        cases h
        obtain ⟨hdigits, rfl⟩ := isDigits_of_scanDigits heq hne
        exact ⟨_, .present (by simpa using hletter) hsign hdigits, by
          rw [List.cons_append, List.append_assoc]⟩
    next =>
      cases h
      exact ⟨[], .absent, rfl⟩
  next =>
    cases h
    exact ⟨[], .absent, rfl⟩

theorem form_of_scanUnsigned {n : Numeral} {negative : Bool} {bytes rest : List UInt8}
    (h : scanUnsigned negative bytes = some (n, rest)) :
    ∃ p, NumeralForm n (signBytes negative ++ p) ∧ bytes = p ++ rest := by
  simp only [scanUnsigned, Option.bind_eq_bind, Option.bind_eq_some_iff, Prod.exists] at h
  obtain ⟨whole, bytes, hwhole, fraction, bytes', hfraction, e, bytes'', hexponent, hn⟩ := h
  cases hn
  obtain ⟨hdigits, hzero, rfl⟩ := digits_of_scanWhole hwhole
  obtain ⟨f, hf, rfl⟩ := form_of_scanFraction hfraction
  obtain ⟨p, hp, rfl⟩ := form_of_scanExponent hexponent
  exact ⟨_, .intro hdigits hzero hf hp, by simp only [List.append_assoc]⟩

/-- **What is scanned as a numeral is one.** -/
theorem form_of_scanNumeral {n : Numeral} {bytes rest : List UInt8}
    (h : scanNumeral bytes = some (n, rest)) : ∃ p, NumeralForm n p ∧ bytes = p ++ rest := by
  by_cases hminus : ∃ tail, bytes = 0x2D :: tail
  · obtain ⟨tail, rfl⟩ := hminus
    obtain ⟨p, hp, rfl⟩ := form_of_scanUnsigned h
    exact ⟨0x2D :: p, hp, rfl⟩
  · rw [scanNumeral_of_ne (not_exists.1 hminus)] at h
    exact form_of_scanUnsigned h

/-! ### Integers -/

theorem foldl_digits_le (digits : List Nat) (s : Nat) :
    s ≤ digits.foldl (fun n d => n * 10 + d) s := by
  induction digits generalizing s with
  | nil => exact Nat.le_refl s
  | cons d digits ih => exact Nat.le_trans (by omega) (ih (s * 10 + d))

/-- Digits whose value 64 bits hold are all absorbed. -/
theorem absorb_eq {digits : List Nat} {s : Nat}
    (h : digits.foldl (fun n d => n * 10 + d) s < 0x10000000000000000) :
    absorb s digits = (digits.foldl (fun n d => n * 10 + d) s, []) := by
  induction digits generalizing s with
  | nil => rfl
  | cons d digits ih =>
      have hle := foldl_digits_le digits (s * 10 + d)
      rw [List.foldl_cons] at h ⊢
      rw [absorb, if_pos (Nat.lt_of_le_of_lt hle h), ih h]

/-- A magnitude with a sign. -/
def signed (negative : Bool) (magnitude : Nat) : Int := if negative then -magnitude else magnitude

/-- The numeral is an integer: it has neither fraction nor exponent.  Negative zero is none. -/
structure Numeral.IsInteger (n : Numeral) (i : Int) : Prop where
  fraction : n.fraction = []
  exponent : n.exponent = none
  value : signed n.negative (digitsValue n.whole) = i
  zero : n.negative = true → digitsValue n.whole ≠ 0

/-- **A numeral that is an integer means it**, if 64 bits hold that. -/
theorem Numeral.IsInteger.toNumber? {n : Numeral} {i : Int} (h : n.IsInteger i)
    (hrange : -0x8000000000000000 ≤ i ∧ i < 0x10000000000000000) :
    n.toNumber? = some (.integer i hrange) := by
  obtain ⟨negative, whole, fraction, exponent⟩ := n
  obtain ⟨rfl, rfl, hvalue, hzero⟩ := h
  simp only at hvalue hzero
  subst hvalue
  have hlt : digitsValue whole < 0x10000000000000000 := by
    unfold signed at hrange
    cases negative <;> simp at hrange <;> omega
  have hinteger : signedInteger? negative (digitsValue whole) =
      some (.integer (signed negative (digitsValue whole)) hrange) := by
    unfold signed at hrange ⊢
    rw [signedInteger?, if_neg (by simpa using hzero), dif_pos hrange]
  rw [Numeral.toNumber?, show absorb 0 whole = (digitsValue whole, []) from absorb_eq hlt]
  simp only [List.isEmpty_nil, Option.isNone_none, Bool.and_self, if_true, hinteger]

end HubGateway.Json
