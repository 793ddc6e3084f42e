/-
**Big-endian numbers.**

Numbers, lengths and counts travel as one, two, four or eight bytes, the most significant first.
This module relates the three forms in which the library meets them: the value of a list of bytes,
the bytes of a value, and the reading of a number from the front of an input.

* `HubGateway.MessagePack.bigEndian_numberBytes` — the bytes of a number have its value;
* `HubGateway.MessagePack.takeNumber_eq_ok_iff` — a number is read exactly from its bytes.
-/

import Mathlib
import HubGateway.MessagePack.Writer
import HubGateway.MessagePack.Cursor

set_option relaxedAutoImplicit false
set_option autoImplicit false

namespace HubGateway.MessagePack

/-! ### Values and bytes -/

@[simp] theorem bigEndian_nil : bigEndian [] = 0 := rfl

theorem foldl_bigEndian (bytes : List UInt8) (n : Nat) :
    bytes.foldl (fun n b => n * 256 + b.toNat) n = n * 256 ^ bytes.length + bigEndian bytes := by
  unfold bigEndian
  induction bytes generalizing n with
  | nil => simp
  | cons b bytes ih =>
      rw [List.foldl_cons, List.foldl_cons, ih, ih (0 * 256 + b.toNat), List.length_cons, pow_succ]
      ring

/-- The first byte is the most significant one. -/
theorem bigEndian_cons (b : UInt8) (bytes : List UInt8) :
    bigEndian (b :: bytes) = b.toNat * 256 ^ bytes.length + bigEndian bytes := by
  have h := foldl_bigEndian bytes (0 * 256 + b.toNat)
  rw [zero_mul, zero_add] at h
  rw [← h, bigEndian, List.foldl_cons, zero_mul, zero_add]

@[simp] theorem length_numberBytes (width n : Nat) : (numberBytes width n).length = width := by
  induction width with
  | zero => rfl
  | succ width ih => rw [numberBytes, List.length_cons, ih]

/-- The bytes of a number have its value, as far as they reach. -/
theorem bigEndian_numberBytes_mod (width n : Nat) :
    bigEndian (numberBytes width n) = n % 256 ^ width := by
  induction width with
  | zero => rw [numberBytes, bigEndian_nil, pow_zero, Nat.mod_one]
  | succ width ih =>
      have hbyte : (n / 256 ^ width % 256).toUInt8.toNat = n / 256 ^ width % 256 := by
        simp
      rw [numberBytes, Nat.pow_eq, bigEndian_cons, hbyte, length_numberBytes, ih, Nat.mod_pow_succ,
        mul_comm (256 ^ width), add_comm]

/-- The bytes of a number have its value. -/
theorem bigEndian_numberBytes {width n : Nat} (h : n < 256 ^ width) :
    bigEndian (numberBytes width n) = n := by
  rw [bigEndian_numberBytes_mod, Nat.mod_eq_of_lt h]

/-! ### Reading numbers and payloads -/

/-- The bytes in front of a rest are enough for what they hold. -/
theorem hasAtLeast_append (bytes rest : List UInt8) :
    hasAtLeast bytes.length (bytes ++ rest) = true := by
  rw [hasAtLeast_iff, List.length_append]
  omega

/-- A number is read exactly from the bytes of its width. -/
theorem takeNumber_eq_ok_iff {width n : Nat} {bytes rest : List UInt8} :
    takeNumber width bytes = (.ok n, rest) ↔
      ∃ number, number.length = width ∧ bigEndian number = n ∧ bytes = number ++ rest := by
  unfold takeNumber
  constructor
  · intro h
    split at h
    next hlen =>
      rw [hasAtLeast_iff] at hlen
      cases h
      exact ⟨bytes.take width, List.length_take_of_le hlen, rfl, (List.take_append_drop ..).symm⟩
    next => cases h
  · rintro ⟨number, rfl, rfl, rfl⟩
    rw [if_pos (hasAtLeast_append number rest), List.take_left, List.drop_left]

/-- A payload is read exactly from the bytes of its length. -/
theorem takePayload_eq_ok_iff {length : Nat} {bytes payload rest : List UInt8} :
    takePayload length bytes = (.ok payload, rest) ↔
      payload.length = length ∧ bytes = payload ++ rest := by
  unfold takePayload
  constructor
  · intro h
    split at h
    next hlen =>
      rw [hasAtLeast_iff] at hlen
      cases h
      exact ⟨List.length_take_of_le hlen, (List.take_append_drop ..).symm⟩
    next => cases h
  · rintro ⟨rfl, rfl⟩
    rw [if_pos (hasAtLeast_append payload rest), List.take_left, List.drop_left]

end HubGateway.MessagePack
