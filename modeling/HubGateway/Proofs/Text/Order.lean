/-
**The order of texts is the order of their bytes.**

Keys are sorted by their characters.  On the wire they are byte strings, and their order there is
the same one: the leading byte of a character tells how many bytes follow, and a larger number of
bytes comes with a larger leading byte.

* `HubGateway.Utf8.encodeChar_append_inj` — the bytes of a character tell where it ends;
* `HubGateway.Utf8.encode_lt_encode_iff` — **texts and their bytes are ordered alike**.
-/

import HubGateway.Proofs.Text.Utf8

set_option relaxedAutoImplicit false
set_option autoImplicit false

namespace HubGateway

namespace Utf8

/-- A smaller character has smaller bytes, whatever follows. -/
theorem encodeChar_append_lt {c d : Char} (h : c.toNat < d.toNat) (xs ys : List UInt8) :
    encodeChar c ++ xs < encodeChar d ++ ys := by
  have hc : c.toNat.isValidChar := c.valid
  have hd : d.toNat.isValidChar := d.valid
  simp only [encodeChar]
  generalize c.toNat = m at h hc
  generalize d.toNat = n at h hd
  simp only [Nat.isValidChar] at hc hd
  -- the digits in base 64, which the continuation bytes carry
  have hm₁ : m / 64 / 64 = m / 4096 := Nat.div_div_eq_div_mul ..
  have hm₂ : m / 4096 / 64 = m / 262144 := Nat.div_div_eq_div_mul ..
  have hn₁ : n / 64 / 64 = n / 4096 := Nat.div_div_eq_div_mul ..
  have hn₂ : n / 4096 / 64 = n / 262144 := Nat.div_div_eq_div_mul ..
  split_ifs <;>
    simp only [List.cons_append, List.nil_append, List.cons_lt_cons_iff, UInt8.lt_iff_toNat_lt,
      ← UInt8.toNat_inj, Nat.toUInt8_eq, UInt8.toNat_ofNat'] <;>
    simp (disch := omega) only [Nat.mod_eq_of_lt] <;>
    omega

/-- The bytes of a character tell where it ends, and which one it is. -/
theorem encodeChar_append_inj {c d : Char} {xs ys : List UInt8}
    (h : encodeChar c ++ xs = encodeChar d ++ ys) : c = d ∧ xs = ys := by
  rcases Nat.lt_trichotomy c.toNat d.toNat with hlt | heq | hgt
  · exact absurd (h ▸ encodeChar_append_lt hlt xs ys) (List.lt_irrefl _)
  · obtain rfl := Char.toNat_inj.1 heq
    exact ⟨rfl, List.append_cancel_left h⟩
  · exact absurd (h ▸ encodeChar_append_lt hgt ys xs) (List.lt_irrefl _)

theorem encodeChars_lt {cs ds : List Char} (h : cs < ds) : encodeChars cs < encodeChars ds := by
  induction h with
  | @nil d ds =>
      obtain ⟨b, bytes, hbytes, -⟩ := encodeChar_eq_cons d
      rw [encodeChars_cons, hbytes]
      exact .nil
  | rel h =>
      rw [encodeChars_cons, encodeChars_cons]
      exact encodeChar_append_lt h _ _
  | cons h ih =>
      rw [encodeChars_cons, encodeChars_cons]
      exact List.append_left_lt ih

/-- **Texts and their bytes are ordered alike.** -/
theorem encode_lt_encode_iff {s t : String} : encode s < encode t ↔ s < t := by
  constructor
  · intro h
    by_contra hst
    rcases (String.not_lt.1 hst).lt_or_eq with hts | rfl
    · exact List.lt_asymm h (encodeChars_lt hts)
    · exact List.lt_irrefl _ h
  · exact encodeChars_lt

end Utf8

end HubGateway
