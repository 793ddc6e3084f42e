/-
**Short numerals.**

The reader of numerals rounds a significand, a power of ten, and then their product or quotient.  A
significand below `2 ^ 53` and a power of ten up to `10 ^ 22` are exact, so that only the last
rounding remains: a numeral of that size is read as the number nearest to it.

Main statements:

* `HubGateway.Json.scaleByTenTo_short` — a short significand is scaled with one rounding;
* `HubGateway.Json.Numeral.readsNearest_of_short` — **short numerals are read as their nearest
  numbers**.
-/

import HubGateway.Proofs.Binary64.Rounding
import HubGateway.Proofs.Json.Denotation

set_option relaxedAutoImplicit false
set_option autoImplicit false

namespace HubGateway.Json

open Binary64 (ofRatio ofNat tenTo)

/-! ### Powers of ten -/

/-- The powers of ten up to `10 ^ 22` are exact. -/
theorem magnitude_tenTo {k : Nat} (hk : k ≤ 22) :
    (tenTo k).magnitude = 10 ^ k ∧ (tenTo k).significand ≠ 0 ∧ (tenTo k).isNegative = false := by
  have hall : ∀ k < 23, (tenTo k).significand * 2 ^ (tenTo k).scale.toNat =
      10 ^ k * 2 ^ (-(tenTo k).scale).toNat ∧ (tenTo k).significand ≠ 0 := by decide +kernel
  obtain ⟨hvalue, hne⟩ := hall k (by omega)
  refine ⟨?_, hne, Binary64.isNegative_ofRatio ..⟩
  rw [Binary64.magnitude, Binary64.zpow_eq_div two_ne_zero, ← mul_div_assoc,
    div_eq_iff (by positivity)]
  exact_mod_cast hvalue

theorem isNegative_ofNat (n : Nat) : (ofNat n).isNegative = false := Binary64.isNegative_ofRatio ..

/-! ### Scaling -/

theorem divideByTenTo_short {s k : Nat} (hs : s < 2 ^ 53) (hk : k ≤ 22) :
    divideByTenTo (ofNat s) k = ofRatio false s (10 ^ k) := by
  obtain ⟨hten, hne, hsign⟩ := magnitude_tenTo hk
  have hsteps : (k - 1) / 308 = 0 := Nat.div_eq_of_lt (by omega)
  have hexact : (ofNat s).magnitude / (tenTo k).magnitude = (s : ℚ) / ((10 ^ k : Nat) : ℚ) := by
    rw [Binary64.magnitude_ofNat hs, hten]
    norm_cast
  have hdiv := Binary64.div_eq_ofRatio (Nat.pow_pos (by decide)) hne hexact
  rw [isNegative_ofNat, hsign, bne_self_eq_false] at hdiv
  simpa only [divideByTenTo, hsteps, divideSteps, mul_zero, Nat.sub_zero] using hdiv

theorem mul_tenTo_short {s k : Nat} (hs : s < 2 ^ 53) (hk : k ≤ 22) :
    (ofNat s).mul (tenTo k) = ofRatio false (s * 10 ^ k) 1 := by
  obtain ⟨hten, -, hsign⟩ := magnitude_tenTo hk
  have hexact : (ofNat s).magnitude * (tenTo k).magnitude =
      ((s * 10 ^ k : Nat) : ℚ) / ((1 : Nat) : ℚ) := by
    rw [Binary64.magnitude_ofNat hs, hten]
    push_cast
    rw [div_one]
  have hmul := Binary64.mul_eq_ofRatio Nat.one_pos hexact
  rwa [isNegative_ofNat, hsign, bne_self_eq_false] at hmul

theorem isFinite_short (negative : Bool) {s k : Nat} (l : Nat) (hs : s < 2 ^ 53) (hk : k ≤ 22) :
    (ofRatio negative (s * 10 ^ k) (10 ^ l)).isFinite = true := by
  refine Binary64.isFinite_ofRatio negative (Nat.pow_pos (by decide)) ?_
  calc s * 10 ^ k ≤ 2 ^ 53 * 10 ^ 22 := Nat.mul_le_mul hs.le (Nat.pow_le_pow_right (by decide) hk)
    _ < 1 * 2 ^ 1000 := by decide +kernel
    _ ≤ 10 ^ l * 2 ^ 1000 := Nat.mul_le_mul_right _ (Nat.pow_pos (by decide))

/-- Only zero is rounded to zero, as far as numbers are exact. -/
theorem eq_zero_of_isZero {s : Nat} (hs : s < 2 ^ 53) (h : (ofNat s).isZero = true) : s = 0 := by
  have hvalue := Binary64.magnitude_ofNat hs
  rw [Binary64.isZero, Bool.and_eq_true, beq_iff_eq, beq_iff_eq] at h
  rw [Binary64.magnitude, Binary64.significand, if_pos h.1, h.2, Nat.cast_zero, zero_mul] at hvalue
  exact_mod_cast hvalue.symm

/-- **A short significand is scaled with one rounding.** -/
theorem scaleByTenTo_short {s : Nat} {k : Int} (hs : s < 2 ^ 53) (hk : -22 ≤ k ∧ k ≤ 22) :
    scaleByTenTo s k = some (ofRatio false (s * 10 ^ k.toNat) (10 ^ (-k).toNat)) := by
  unfold scaleByTenTo
  dsimp only
  split
  next hneg =>
    have hup : k.toNat = 0 := by omega
    have hdown : k.natAbs = (-k).toNat := by omega
    rw [hup, hdown, divideByTenTo_short hs (by omega), pow_zero, mul_one]
  next hneg =>
    have hdown : (-k).toNat = 0 := by omega
    rw [hdown, pow_zero]
    split
    next hzero =>
      rw [eq_zero_of_isZero hs hzero, zero_mul]
      rfl
    next =>
      have hfinite := isFinite_short false 0 hs (show k.toNat ≤ 22 by omega)
      rw [pow_zero] at hfinite
      rw [if_neg (by omega), mul_tenTo_short hs (by omega), if_pos hfinite]

/-! ### Numerals -/

namespace Numeral

/-- All digits of a numeral together. -/
theorem digitsValue_append (front back : List Nat) :
    digitsValue (front ++ back) = back.foldl (fun n d => n * 10 + d) (digitsValue front) := by
  rw [digitsValue, digitsValue, List.foldl_append]

/-- Digits below `2 ^ 53` are absorbed whole. -/
theorem absorb_short {n : Numeral} (h : digitsValue (n.whole ++ n.fraction) < 2 ^ 53) :
    absorb 0 n.whole = (digitsValue n.whole, []) ∧
      absorb (digitsValue n.whole) n.fraction = (digitsValue (n.whole ++ n.fraction), []) := by
  rw [digitsValue_append] at h ⊢
  have hwhole := Nat.lt_of_le_of_lt (foldl_digits_le n.fraction (digitsValue n.whole)) h
  exact ⟨absorb_eq (hwhole.trans (by norm_num)), absorb_eq (h.trans (by norm_num))⟩

theorem signedFloat_eq {negative : Bool} {x y : Binary64}
    (hy : (if negative then x.neg else x) = y) (h : y.isFinite = true) :
    signedFloat negative x = some (.float y h) := by
  subst hy
  exact dif_pos h

theorem signedFloat_ofRatio (negative : Bool) (num den : Nat)
    (h : (ofRatio negative num den).isFinite = true) :
    signedFloat negative (ofRatio false num den) = some (.float (ofRatio negative num den) h) := by
  refine signedFloat_eq ?_ h
  cases negative with
  | false => exact if_neg Bool.false_ne_true
  | true => rw [if_pos rfl, Binary64.neg_ofRatio]

/-- The scale of a numeral is what its reader finds behind the digits. -/
theorem floatMeaning_eq (n : Numeral) (s : Nat)
    (hexponent : ∀ e ∈ n.exponent, digitsValue e.digits < 0x80000000) :
    floatMeaning n s (-n.fraction.length) =
      (scaleByTenTo s n.scale).bind (signedFloat n.negative) := by
  obtain ⟨negative, whole, fraction, exponent⟩ := n
  cases exponent with
  | none => rfl
  | some e =>
      have hscale : (if e.negative then -(fraction.length : Int) - digitsValue e.digits
          else -(fraction.length : Int) + digitsValue e.digits) =
            signed e.negative (digitsValue e.digits) - fraction.length := by
        unfold signed
        split <;> omega
      simp only [floatMeaning, if_pos (hexponent e rfl), hscale, scale]

/-- Without fraction and exponent, only negative zero and large numerals are no integers. -/
theorem negative_zero_of_not_wide {n : Numeral} (hfraction : n.fraction = [])
    (hexponent : n.exponent = none) (hsmall : digitsValue n.whole < 2 ^ 53)
    (h : ¬ n.IsWideInteger) : n.negative = true ∧ digitsValue n.whole = 0 := by
  by_contra hzero
  refine h ⟨signed n.negative (digitsValue n.whole), ⟨hfraction, hexponent, rfl, ?_⟩, ?_⟩
  · exact fun hnegative hvalue => hzero ⟨hnegative, hvalue⟩
  · have hlarge : (2 : Nat) ^ 53 < 0x8000000000000000 := by norm_num
    unfold signed IsWide
    split <;> omega

/-- **Short numerals are read as their nearest numbers**, unless they are integers of 64 bits. -/
theorem readsNearest_of_short {n : Numeral}
    (hdigits : digitsValue (n.whole ++ n.fraction) < 2 ^ 53) (hscale : -22 ≤ n.scale ∧ n.scale ≤ 22)
    (hexponent : ∀ e ∈ n.exponent, digitsValue e.digits < 0x80000000)
    (h : ¬ n.IsWideInteger) : n.ReadsNearest := by
  have hfinite : n.nearest.isFinite = true :=
    isFinite_short n.negative (-n.scale).toNat hdigits (show n.scale.toNat ≤ 22 by omega)
  obtain ⟨hwhole, hall⟩ := absorb_short hdigits
  refine ⟨hfinite, ?_⟩
  simp only [toNumber?, hwhole, hall]
  split
  next hinteger =>
    simp only [Bool.and_eq_true, List.isEmpty_iff, Option.isNone_iff_eq_none] at hinteger
    obtain ⟨⟨hfraction, hnone⟩, -⟩ := hinteger
    have hsmall : digitsValue n.whole < 2 ^ 53 := by rwa [hfraction, List.append_nil] at hdigits
    obtain ⟨hnegative, hzero⟩ := negative_zero_of_not_wide hfraction hnone hsmall h
    have hnearest : (ofNat 0).neg = n.nearest := by
      rw [nearest, hfraction, List.append_nil, hzero, zero_mul, hnegative, ofNat,
        Binary64.neg_ofRatio, ofRatio, ofRatio, if_pos rfl, if_pos rfl]
    rw [hnegative, hzero, signedInteger?, if_pos rfl]
    exact signedFloat_eq (by rw [if_pos rfl, hnearest]) hfinite
  next =>
    have hbehind : (([] : List Nat).length : Int) -
        ((n.fraction.length - ([] : List Nat).length : Nat) : Int) = -n.fraction.length := by simp
    rw [hbehind, floatMeaning_eq n _ hexponent, scaleByTenTo_short hdigits hscale, Option.bind_some]
    exact signedFloat_ofRatio ..

end Numeral

end HubGateway.Json
