/-
**UTF-8 is read as it is written.**

Reading bytes as text succeeds exactly on the encodings of texts, and gives the text that was
encoded.  Both directions go character by character: the one to four bytes of a character are
recognised by their leading byte, and the bytes that a reading step accepts are those of the
character that it yields.

* `HubGateway.Utf8.decodeFrom_encodeChar` — one step reads one written character;
* `HubGateway.Utf8.encodeChar_eq_cons` — a character begins where its leading byte stands;
* `HubGateway.Utf8.encodeChars_of_decodeFrom` — what is read was written;
* `HubGateway.Utf8.decode_eq_ok_iff` — **reading is the inverse of writing**.
-/

import Mathlib
import HubGateway.Text.Utf8

set_option relaxedAutoImplicit false
set_option autoImplicit false

namespace HubGateway.Utf8

/-! ### Bytes as numbers -/

theorem isContinuation_iff (b : UInt8) :
    isContinuation b = true ↔ 0x80 ≤ b.toNat ∧ b.toNat ≤ 0xBF := by
  simp [isContinuation, UInt8.le_iff_toNat_le]

/-- The second bytes that a leading byte admits. -/
theorem mayFollow_iff (b₀ b₁ : UInt8) :
    mayFollow b₀ b₁ = true ↔
      (0x80 ≤ b₁.toNat ∧ b₁.toNat ≤ 0xBF) ∧ (b₀.toNat = 0xE0 → 0xA0 ≤ b₁.toNat) ∧
        (b₀.toNat = 0xED → b₁.toNat ≤ 0x9F) ∧ (b₀.toNat = 0xF0 → 0x90 ≤ b₁.toNat) ∧
          (b₀.toNat = 0xF4 → b₁.toNat ≤ 0x8F) := by
  have hE0 : b₀ = 0xE0 ↔ b₀.toNat = 0xE0 := by rw [← UInt8.toNat_inj]; rfl
  have hED : b₀ = 0xED ↔ b₀.toNat = 0xED := by rw [← UInt8.toNat_inj]; rfl
  have hF0 : b₀ = 0xF0 ↔ b₀.toNat = 0xF0 := by rw [← UInt8.toNat_inj]; rfl
  have hF4 : b₀ = 0xF4 ↔ b₀.toNat = 0xF4 := by rw [← UInt8.toNat_inj]; rfl
  unfold mayFollow isContinuation
  simp only [hE0, hED, hF0, hF4]
  split_ifs <;> simp only [Bool.and_eq_true, decide_eq_true_eq, UInt8.le_iff_toNat_le,
    UInt8.reduceToNat] <;> omega

/-- A valid code point is the one of its character. -/
theorem toNat_ofNat {n : Nat} (h : n.isValidChar) : (Char.ofNat n).toNat = n := by
  rw [Char.toNat_ofNat, if_pos h]

/-! ### One step of reading -/

section Steps

variable {i : Nat} {acc : List Char} {b₀ b₁ b₂ b₃ : UInt8} {rest : List UInt8}

theorem decodeFrom_one (h : b₀.toNat < 0x80) :
    decodeFrom i acc (b₀ :: rest) = decodeFrom (i + 1) (Char.ofNat b₀.toNat :: acc) rest := by
  have h₀ : b₀ < 0x80 := h
  rw [decodeFrom.eq_def i acc (b₀ :: rest)]
  simp only [h₀, if_true]

theorem decodeFrom_two (hlow : 0xC2 ≤ b₀.toNat) (hhigh : b₀.toNat < 0xE0)
    (h₁ : mayFollow b₀ b₁ = true) :
    decodeFrom i acc (b₀ :: b₁ :: rest) = decodeFrom (i + 2) (char₂ b₀ b₁ :: acc) rest := by
  have hA : ¬ b₀ < 0x80 := by rw [UInt8.lt_iff_toNat_lt]; simp; omega
  have hB : (decide (b₀ < 0xC2) || decide (0xF4 < b₀)) = false := by
    simp [UInt8.lt_iff_toNat_lt]; omega
  have hC : b₀ < 0xE0 := hhigh
  rw [decodeFrom.eq_def i acc (b₀ :: b₁ :: rest)]
  simp [hA, hB, hC, h₁]

theorem decodeFrom_three (hlow : 0xE0 ≤ b₀.toNat) (hhigh : b₀.toNat < 0xF0)
    (h₁ : mayFollow b₀ b₁ = true) (h₂ : isContinuation b₂ = true) :
    decodeFrom i acc (b₀ :: b₁ :: b₂ :: rest) =
      decodeFrom (i + 3) (char₃ b₀ b₁ b₂ :: acc) rest := by
  have hA : ¬ b₀ < 0x80 := by rw [UInt8.lt_iff_toNat_lt]; simp; omega
  have hB : (decide (b₀ < 0xC2) || decide (0xF4 < b₀)) = false := by
    simp [UInt8.lt_iff_toNat_lt]; omega
  have hC : ¬ b₀ < 0xE0 := by rw [UInt8.lt_iff_toNat_lt]; simp; omega
  have hD : b₀ < 0xF0 := hhigh
  rw [decodeFrom.eq_def i acc (b₀ :: b₁ :: b₂ :: rest)]
  simp [hA, hB, hC, hD, h₁, h₂]

theorem decodeFrom_four (hlow : 0xF0 ≤ b₀.toNat) (hhigh : b₀.toNat ≤ 0xF4)
    (h₁ : mayFollow b₀ b₁ = true) (h₂ : isContinuation b₂ = true)
    (h₃ : isContinuation b₃ = true) :
    decodeFrom i acc (b₀ :: b₁ :: b₂ :: b₃ :: rest) =
      decodeFrom (i + 4) (char₄ b₀ b₁ b₂ b₃ :: acc) rest := by
  have hA : ¬ b₀ < 0x80 := by rw [UInt8.lt_iff_toNat_lt]; simp; omega
  have hB : (decide (b₀ < 0xC2) || decide (0xF4 < b₀)) = false := by
    simp [UInt8.lt_iff_toNat_lt]; omega
  have hC : ¬ b₀ < 0xE0 := by rw [UInt8.lt_iff_toNat_lt]; simp; omega
  have hD : ¬ b₀ < 0xF0 := by rw [UInt8.lt_iff_toNat_lt]; simp; omega
  rw [decodeFrom.eq_def i acc (b₀ :: b₁ :: b₂ :: b₃ :: rest)]
  simp [hA, hB, hC, hD, h₁, h₂, h₃]

end Steps

/-- One step reads one written character. -/
theorem decodeFrom_encodeChar (i : Nat) (acc : List Char) (c : Char) (rest : List UInt8) :
    decodeFrom i acc (encodeChar c ++ rest) =
      decodeFrom (i + (encodeChar c).length) (c :: acc) rest := by
  have hvalid : c.toNat.isValidChar := c.valid
  have hc : Char.ofNat c.toNat = c := Char.ofNat_toNat c
  simp only [encodeChar]
  generalize c.toNat = n at hvalid hc
  simp only [Nat.isValidChar] at hvalid
  -- the four lengths of a character, by the size of its code point
  split_ifs with h₁ h₂ h₃
  · have hn : n.toUInt8.toNat = n := by simp; omega
    rw [List.singleton_append, decodeFrom_one (by omega), hn, hc]
    rfl
  · have h0 : (0xC0 + n / 64).toUInt8.toNat = 0xC0 + n / 64 := by simp; omega
    have h1 : (0x80 + n % 64).toUInt8.toNat = 0x80 + n % 64 := by simp; omega
    have hchar : char₂ (0xC0 + n / 64).toUInt8 (0x80 + n % 64).toUInt8 = c := by
      rw [char₂, h0, h1, ← hc]
      exact congrArg Char.ofNat (by omega)
    rw [List.cons_append, List.singleton_append,
      decodeFrom_two (by omega) (by omega) ((mayFollow_iff _ _).2 (by omega)), hchar]
    rfl
  · have h0 : (0xE0 + n / 4096).toUInt8.toNat = 0xE0 + n / 4096 := by simp; omega
    have h1 : (0x80 + n / 64 % 64).toUInt8.toNat = 0x80 + n / 64 % 64 := by simp; omega
    have h2 : (0x80 + n % 64).toUInt8.toNat = 0x80 + n % 64 := by simp; omega
    have hchar : char₃ (0xE0 + n / 4096).toUInt8 (0x80 + n / 64 % 64).toUInt8
        (0x80 + n % 64).toUInt8 = c := by
      rw [char₃, h0, h1, h2, ← hc]
      exact congrArg Char.ofNat (by omega)
    rw [List.cons_append, List.cons_append, List.singleton_append,
      decodeFrom_three (by omega) (by omega) ((mayFollow_iff _ _).2 (by omega))
        ((isContinuation_iff _).2 (by omega)), hchar]
    rfl
  · have h0 : (0xF0 + n / 262144).toUInt8.toNat = 0xF0 + n / 262144 := by simp; omega
    have h1 : (0x80 + n / 4096 % 64).toUInt8.toNat = 0x80 + n / 4096 % 64 := by simp; omega
    have h2 : (0x80 + n / 64 % 64).toUInt8.toNat = 0x80 + n / 64 % 64 := by simp; omega
    have h3 : (0x80 + n % 64).toUInt8.toNat = 0x80 + n % 64 := by simp; omega
    have hchar : char₄ (0xF0 + n / 262144).toUInt8 (0x80 + n / 4096 % 64).toUInt8
        (0x80 + n / 64 % 64).toUInt8 (0x80 + n % 64).toUInt8 = c := by
      rw [char₄, h0, h1, h2, h3, ← hc]
      exact congrArg Char.ofNat (by omega)
    rw [List.cons_append, List.cons_append, List.cons_append, List.singleton_append,
      decodeFrom_four (by omega) (by omega) ((mayFollow_iff _ _).2 (by omega))
        ((isContinuation_iff _).2 (by omega)) ((isContinuation_iff _).2 (by omega)), hchar]
    rfl

/-- Written characters are read. -/
theorem decodeFrom_encodeChars (i : Nat) (acc cs : List Char) :
    decodeFrom i acc (encodeChars cs) = .ok (acc.reverse ++ cs) := by
  induction cs generalizing i acc with
  | nil => simp [decodeFrom]
  | cons c cs ih => rw [encodeChars_cons, decodeFrom_encodeChar, ih]; simp

/-! ### What is read was written -/

section Characters

variable {b₀ b₁ b₂ b₃ : UInt8}

/-- A character of ASCII is one byte. -/
theorem encodeChar_ascii {c : Char} (h : c.toNat < 0x80) : encodeChar c = [c.toNat.toUInt8] := by
  rw [encodeChar, if_pos h]

theorem encodeChar_one (h : b₀.toNat < 0x80) : encodeChar (Char.ofNat b₀.toNat) = [b₀] := by
  rw [encodeChar, toNat_ofNat (by simp only [Nat.isValidChar]; omega), if_pos h]
  simp

theorem encodeChar_two (hlow : 0xC2 ≤ b₀.toNat) (hhigh : b₀.toNat < 0xE0)
    (h₁ : mayFollow b₀ b₁ = true) : encodeChar (char₂ b₀ b₁) = [b₀, b₁] := by
  rw [mayFollow_iff] at h₁
  rw [encodeChar, char₂, toNat_ofNat (by simp only [Nat.isValidChar]; omega), if_neg (by omega),
    if_pos (by omega)]
  simp only [List.cons.injEq, and_true, ← UInt8.toNat_inj, Nat.toUInt8_eq, UInt8.toNat_ofNat']
  omega

theorem encodeChar_three (hlow : 0xE0 ≤ b₀.toNat) (hhigh : b₀.toNat < 0xF0)
    (h₁ : mayFollow b₀ b₁ = true) (h₂ : isContinuation b₂ = true) :
    encodeChar (char₃ b₀ b₁ b₂) = [b₀, b₁, b₂] := by
  rw [mayFollow_iff] at h₁
  rw [isContinuation_iff] at h₂
  rw [encodeChar, char₃, toNat_ofNat (by simp only [Nat.isValidChar]; omega), if_neg (by omega),
    if_neg (by omega), if_pos (by omega)]
  simp only [List.cons.injEq, and_true, ← UInt8.toNat_inj, Nat.toUInt8_eq, UInt8.toNat_ofNat']
  omega

theorem encodeChar_four (hlow : 0xF0 ≤ b₀.toNat) (hhigh : b₀.toNat ≤ 0xF4)
    (h₁ : mayFollow b₀ b₁ = true) (h₂ : isContinuation b₂ = true)
    (h₃ : isContinuation b₃ = true) :
    encodeChar (char₄ b₀ b₁ b₂ b₃) = [b₀, b₁, b₂, b₃] := by
  rw [mayFollow_iff] at h₁
  rw [isContinuation_iff] at h₂ h₃
  rw [encodeChar, char₄, toNat_ofNat (by simp only [Nat.isValidChar]; omega), if_neg (by omega),
    if_neg (by omega), if_neg (by omega)]
  simp only [List.cons.injEq, and_true, ← UInt8.toNat_inj, Nat.toUInt8_eq, UInt8.toNat_ofNat']
  omega

/-- A character begins with a byte that continues none; the others continue it. -/
theorem encodeChar_eq_cons (c : Char) :
    ∃ b tail, encodeChar c = b :: tail ∧ isContinuation b = false ∧
      ∀ t ∈ tail, isContinuation t = true := by
  have hvalid : c.toNat.isValidChar := c.valid
  simp only [encodeChar]
  generalize c.toNat = n at hvalid
  simp only [Nat.isValidChar] at hvalid
  split_ifs <;>
    refine ⟨_, _, rfl, ?_, ?_⟩ <;>
    simp only [Bool.eq_false_iff, ne_eq, List.forall_mem_cons, List.not_mem_nil, false_imp_iff,
      implies_true, and_true, isContinuation_iff, Nat.toUInt8_eq, UInt8.toNat_ofNat'] <;>
    omega

/-- Only an ASCII character begins with an ASCII byte, and it is that byte. -/
theorem toNat_of_encodeChar_eq_cons {c : Char} {b : UInt8} {tail : List UInt8}
    (h : encodeChar c = b :: tail) : c.toNat = b.toNat ∨ 0x80 ≤ c.toNat := by
  by_cases hc : c.toNat < 0x80
  · rw [encodeChar_ascii hc] at h
    have hb : c.toNat.toUInt8 = b := (List.cons.inj h).1
    rw [← hb]
    simp only [Nat.toUInt8_eq, UInt8.toNat_ofNat']
    omega
  · exact .inr (Nat.not_lt.1 hc)

end Characters

/-- What is read was written. -/
theorem encodeChars_of_decodeFrom {i : Nat} {acc cs : List Char} {bytes : List UInt8}
    (h : decodeFrom i acc bytes = .ok cs) :
    ∃ ds, cs = acc.reverse ++ ds ∧ bytes = encodeChars ds := by
  fun_induction decodeFrom i acc bytes with
  | case1 i acc =>
      cases h
      exact ⟨[], by simp, rfl⟩
  | case2 i acc b₀ rest h₀ ih =>
      obtain ⟨ds, rfl, rfl⟩ := ih h
      exact ⟨Char.ofNat b₀.toNat :: ds, by simp, by simp [encodeChar_one h₀]⟩
  | case6 i acc b₀ h₀ hlead b₁ rest h₁ hC ih =>
      obtain ⟨ds, rfl, rfl⟩ := ih h
      refine ⟨char₂ b₀ b₁ :: ds, by simp, ?_⟩
      have hchar := encodeChar_two (by simp_all [UInt8.le_iff_toNat_le]) hC (by simpa using h₁)
      rw [encodeChars_cons, hchar]
      rfl
  | case9 i acc b₀ h₀ hlead b₁ h₁ hC b₂ rest h₂ hD ih =>
      obtain ⟨ds, rfl, rfl⟩ := ih h
      refine ⟨char₃ b₀ b₁ b₂ :: ds, by simp, ?_⟩
      rw [encodeChars_cons, encodeChar_three (by simpa [UInt8.le_iff_toNat_le] using hC) hD
        (by simpa using h₁) (by simpa using h₂)]
      rfl
  | case12 i acc b₀ h₀ hlead b₁ h₁ hC b₂ h₂ hD b₃ rest h₃ ih =>
      obtain ⟨ds, rfl, rfl⟩ := ih h
      refine ⟨char₄ b₀ b₁ b₂ b₃ :: ds, by simp, ?_⟩
      rw [encodeChars_cons, encodeChar_four (by simpa [UInt8.le_iff_toNat_le] using hD)
        (by simp_all [UInt8.le_iff_toNat_le]) (by simpa using h₁) (by simpa using h₂)
        (by simpa using h₃)]
      rfl
  | _ => cases h

/-- **Reading is the inverse of writing.** -/
theorem decode_eq_ok_iff {bytes : List UInt8} {s : String} :
    decode bytes = .ok s ↔ bytes = encode s := by
  unfold decode decodeChars encode
  constructor
  · intro h
    cases hd : decodeFrom 0 [] bytes with
    | error e => rw [hd] at h; cases h
    | ok cs =>
        rw [hd] at h
        cases h
        obtain ⟨ds, rfl, rfl⟩ := encodeChars_of_decodeFrom hd
        simp
  · rintro rfl
    rw [decodeFrom_encodeChars]
    simp [Except.map]

theorem decode?_eq_some_iff {bytes : List UInt8} {s : String} :
    decode? bytes = some s ↔ bytes = encode s := by
  rw [← decode_eq_ok_iff, decode?]
  cases decode bytes <;> simp [Except.toOption]

theorem decode_encode (s : String) : decode (encode s) = .ok s := decode_eq_ok_iff.2 rfl

end HubGateway.Utf8
