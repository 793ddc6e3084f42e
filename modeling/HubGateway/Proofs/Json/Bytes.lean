/-
**The bytes of JSON texts.**

A control character stands in a text only as a blank between tokens: within quotes it is escaped,
and no other token has one.  A byte that is a control character but no blank can therefore be put
behind a text to end it.

Main definitions:

* `HubGateway.Json.IsPlain` — no control characters, unless blanks.

Main statements:

* `HubGateway.Json.Writes.isPlain` — **texts consist of such bytes**.
-/

import HubGateway.Proofs.Json.Grammar

set_option relaxedAutoImplicit false
set_option autoImplicit false

namespace HubGateway.Json

/-- The byte is no control character, unless it is a blank. -/
def IsTextByte (b : UInt8) : Prop := 0x20 ≤ b.toNat ∨ b ∈ blanks

instance (b : UInt8) : Decidable (IsTextByte b) :=
  inferInstanceAs (Decidable (0x20 ≤ b.toNat ∨ b ∈ blanks))

/-- All bytes are such as stand in texts. -/
def IsPlain (bytes : List UInt8) : Prop := ∀ b ∈ bytes, IsTextByte b

section Plain

variable {p q : List UInt8} {b : UInt8}

theorem isPlain_nil : IsPlain [] := fun _ h => nomatch h

theorem isPlain_cons_iff : IsPlain (b :: p) ↔ IsTextByte b ∧ IsPlain p := List.forall_mem_cons

theorem isPlain_append_iff : IsPlain (p ++ q) ↔ IsPlain p ∧ IsPlain q := List.forall_mem_append

theorem isPlain_of_visible (h : ∀ b ∈ p, 0x20 ≤ b.toNat) : IsPlain p := fun b hb => .inl (h b hb)

theorem IsBlank.isPlain (h : IsBlank p) : IsPlain p := fun b hb => .inr (h b hb)

end Plain

/-! ### Strings -/

theorem UnitForm.isPlain {u : Nat} {p : List UInt8} (h : UnitForm u p) : IsPlain p := by
  have hdigits : ∀ e ∈ hexDigits, IsTextByte e.1 := by decide
  cases h with
  | intro ha hb hc hd =>
      simp only [isPlain_cons_iff]
      exact ⟨by decide, by decide, hdigits _ ha, hdigits _ hb, hdigits _ hc, hdigits _ hd,
        isPlain_nil⟩

theorem CharForm.isPlain {c : Char} {p : List UInt8} (h : CharForm c p) : IsPlain p := by
  cases h with
  | plain hcontrol hquote hbackslash =>
      exact isPlain_of_visible fun b hb => (encodeChar_plain hcontrol hquote hbackslash b hb).1
  | letter h =>
      have hletters : ∀ e ∈ letterEscapes, IsTextByte e.1 := by decide
      exact isPlain_cons_iff.2 ⟨by decide, isPlain_cons_iff.2 ⟨hletters _ h, isPlain_nil⟩⟩
  | unit h => exact h.isPlain
  | pair hhigh hlow hp hq hc => exact isPlain_append_iff.2 ⟨hp.isPlain, hq.isPlain⟩

theorem CharsForm.isPlain {cs : List Char} {p : List UInt8} (h : CharsForm cs p) : IsPlain p := by
  induction h with
  | nil => exact isPlain_nil
  | cons h hcs ih => exact isPlain_append_iff.2 ⟨h.isPlain, ih⟩

theorem StringForm.isPlain {s : String} {p : List UInt8} (h : StringForm s p) : IsPlain p := by
  cases h with
  | intro h =>
      have hquote : IsPlain [0x22] := isPlain_cons_iff.2 ⟨by decide, isPlain_nil⟩
      exact isPlain_cons_iff.2 ⟨by decide, isPlain_append_iff.2 ⟨h.isPlain, hquote⟩⟩

/-! ### Numerals -/

theorem isPlain_digitBytes {digits : List Nat} (h : IsDigits digits) :
    IsPlain (digitBytes digits) := by
  intro b hb
  obtain ⟨d, hd, rfl⟩ := List.mem_map.1 hb
  left
  rw [toNat_digitByte (h.lt_ten d hd)]
  omega

theorem isPlain_signBytes (negative : Bool) : IsPlain (signBytes negative) := by
  cases negative with
  | true => exact isPlain_cons_iff.2 ⟨by decide, isPlain_nil⟩
  | false => exact isPlain_nil

theorem FractionForm.isPlain {fraction : List Nat} {p : List UInt8}
    (h : FractionForm fraction p) : IsPlain p := by
  cases h with
  | absent => exact isPlain_nil
  | present h => exact isPlain_cons_iff.2 ⟨by decide, isPlain_digitBytes h⟩

theorem ExponentForm.isPlain {e : Option Numeral.Exponent} {p : List UInt8}
    (h : ExponentForm e p) : IsPlain p := by
  cases h with
  | absent => exact isPlain_nil
  | present hletter hsign h =>
      refine isPlain_cons_iff.2 ⟨?_, isPlain_append_iff.2 ⟨?_, isPlain_digitBytes h⟩⟩
      · rcases hletter with rfl | rfl <;> decide
      · rcases hsign with rfl | ⟨-, rfl⟩
        · exact isPlain_signBytes _
        · exact isPlain_cons_iff.2 ⟨by decide, isPlain_nil⟩

theorem NumeralForm.isPlain {n : Numeral} {p : List UInt8} (h : NumeralForm n p) : IsPlain p := by
  cases h with
  | intro hwhole hzero hfraction hexponent =>
      refine isPlain_append_iff.2 ⟨isPlain_signBytes _, isPlain_append_iff.2 ⟨?_, ?_⟩⟩
      · exact isPlain_digitBytes hwhole
      · exact isPlain_append_iff.2 ⟨hfraction.isPlain, hexponent.isPlain⟩

/-! ### Texts -/

theorem isPlain_enclosed {first last : UInt8} {p : List UInt8} (hfirst : IsTextByte first)
    (h : IsPlain p) (hlast : IsTextByte last) : IsPlain (first :: (p ++ [last])) :=
  isPlain_cons_iff.2
    ⟨hfirst, isPlain_append_iff.2 ⟨h, isPlain_cons_iff.2 ⟨hlast, isPlain_nil⟩⟩⟩

mutual

/-- **Texts consist of bytes that are no control characters, unless blanks.** -/
theorem Writes.isPlain {d : Document} {p : List UInt8} (h : Writes d p) : IsPlain p := by
  match h with
  | .null | .yes | .no => simp only [isPlain_cons_iff, isPlain_nil, and_true]; decide
  | .number h => exact h.isPlain
  | .string h => exact h.isPlain
  | .emptyArray hbetween | .emptyObject hbetween =>
      exact isPlain_enclosed (by decide) hbetween.isPlain (by decide)
  | .array h => exact isPlain_enclosed (by decide) h.isPlain (by decide)
  | .object h => exact isPlain_enclosed (by decide) h.isPlain (by decide)

theorem WritesItems.isPlain {items : List Document} {p : List UInt8} (h : WritesItems items p) :
    IsPlain p := by
  match h with
  | .last hbefore h hafter =>
      simp only [isPlain_append_iff]
      exact ⟨hbefore.isPlain, h.isPlain, hafter.isPlain⟩
  | .cons hbefore h hafter hitems =>
      simp only [isPlain_append_iff, isPlain_cons_iff]
      exact ⟨hbefore.isPlain, h.isPlain, hafter.isPlain, by decide, hitems.isPlain⟩

theorem WritesMembers.isPlain {members : List (String × Document)} {p : List UInt8}
    (h : WritesMembers members p) : IsPlain p := by
  match h with
  | .last h => exact h.isPlain
  | .cons h hmembers =>
      simp only [isPlain_append_iff, isPlain_cons_iff]
      exact ⟨h.isPlain, by decide, hmembers.isPlain⟩

theorem WritesMember.isPlain {member : String × Document} {p : List UInt8}
    (h : WritesMember member p) : IsPlain p := by
  match h with
  | .intro hbefore hname hleft hright h hafter =>
      simp only [isPlain_append_iff, isPlain_cons_iff]
      exact ⟨hbefore.isPlain, hname.isPlain, hleft.isPlain, by decide, hright.isPlain, h.isPlain,
        hafter.isPlain⟩

end

end HubGateway.Json
