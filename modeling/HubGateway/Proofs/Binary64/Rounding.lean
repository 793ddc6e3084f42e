/-
**Rounding depends on the ratio only.**

A number is found as the one nearest to a quotient of natural numbers.  Neither the exponent nor the
rounded significand that is computed from the quotient depends on how it is written, so that
products and quotients of numbers are the numbers nearest to the exact products and quotients.
Natural numbers below `2 ^ 53` are their own nearest numbers.

Main definitions:

* `HubGateway.Binary64.magnitude` — what a finite number stands for, without its sign;
* `HubGateway.Binary64.unitExponent`, `roundIn` — the unit that a quotient is rounded in, and the
  significand that it gets there.

Main statements:

* `HubGateway.Binary64.floorLog2_eq_log` — the exponent of a quotient is its binary logarithm;
* `HubGateway.Binary64.ofRatio_congr` — **equal quotients have one nearest number**;
* `HubGateway.Binary64.mul_eq_ofRatio`, `div_eq_ofRatio` — products and quotients are rounded once;
* `HubGateway.Binary64.magnitude_ofNat` — **natural numbers below `2 ^ 53` are exact**;
* `HubGateway.Binary64.isFinite_ofRatio` — what is below `2 ^ 1000` is rounded to a finite number.
-/

import Mathlib
import HubGateway.Binary64.Basic

set_option relaxedAutoImplicit false
set_option autoImplicit false

namespace HubGateway.Binary64

/-- What a finite number stands for, without its sign. -/
def magnitude (x : Binary64) : ℚ := x.significand * (2 : ℚ) ^ x.scale

/-! ### Logarithms of quotients -/

/-- A power with an integer exponent as a quotient of powers with natural ones. -/
theorem zpow_eq_div {b : ℚ} (hb : b ≠ 0) (t : Int) : b ^ t = b ^ t.toNat / b ^ (-t).toNat := by
  have ht : t = (t.toNat : Int) - ((-t).toNat : Int) := by omega
  conv_lhs => rw [ht]
  rw [zpow_sub₀ hb, zpow_natCast, zpow_natCast]

section Quotients

variable {num den : Nat}

theorem two_zpow_le_iff (hden : 0 < den) (t : Int) :
    (2 : ℚ) ^ t ≤ (num : ℚ) / den ↔
      den * Nat.pow 2 t.toNat ≤ num * Nat.pow 2 (-t).toNat := by
  have hpow : (0 : ℚ) < 2 ^ (-t).toNat := by positivity
  rw [zpow_eq_div (by norm_num), div_le_div_iff₀ hpow (by exact_mod_cast hden)]
  norm_cast
  rw [mul_comm]
  rfl

/-- The logarithms of numerator and denominator miss that of the quotient by at most one. -/
theorem quotient_bounds (hnum : 0 < num) (hden : 0 < den) :
    (2 : ℚ) ^ ((num.log2 : Int) - den.log2 - 1) < (num : ℚ) / den ∧
      (num : ℚ) / den < (2 : ℚ) ^ ((num.log2 : Int) - den.log2 + 1) := by
  have hnumPos : (0 : ℚ) < num := by exact_mod_cast hnum
  have hdenPos : (0 : ℚ) < den := by exact_mod_cast hden
  have hnumLow : (2 : ℚ) ^ num.log2 ≤ num := by exact_mod_cast Nat.log2_self_le hnum.ne'
  have hnumHigh : (num : ℚ) < 2 ^ (num.log2 + 1) := by exact_mod_cast Nat.lt_log2_self
  have hdenLow : (2 : ℚ) ^ den.log2 ≤ den := by exact_mod_cast Nat.log2_self_le hden.ne'
  have hdenHigh : (den : ℚ) < 2 ^ (den.log2 + 1) := by exact_mod_cast Nat.lt_log2_self
  constructor
  · calc (2 : ℚ) ^ ((num.log2 : Int) - den.log2 - 1)
        = 2 ^ num.log2 / 2 ^ (den.log2 + 1) := by
          rw [sub_sub, zpow_sub₀ two_ne_zero, zpow_natCast]
          norm_cast
      _ < num / den := div_lt_div₀' hnumLow hdenHigh hnumPos hdenPos
  · calc (num : ℚ) / den
        < 2 ^ (num.log2 + 1) / 2 ^ den.log2 :=
          div_lt_div₀ hnumHigh hdenLow (by positivity) (by positivity)
      _ = 2 ^ ((num.log2 : Int) - den.log2 + 1) := by
          rw [sub_add_eq_add_sub, zpow_sub₀ two_ne_zero, zpow_natCast]
          norm_cast

theorem eq_log_of_bounds {q : ℚ} {t : Int} (hpos : 0 < q) (hlow : (2 : ℚ) ^ t ≤ q)
    (hhigh : q < (2 : ℚ) ^ (t + 1)) : t = Int.log 2 q := by
  have hle := (Int.zpow_le_iff_le_log (b := 2) (by decide) hpos).1 (by exact_mod_cast hlow)
  have hlt := (Int.lt_zpow_iff_log_lt (b := 2) (by decide) hpos).1 (by exact_mod_cast hhigh)
  omega

/-- The exponent of a quotient is its binary logarithm. -/
theorem floorLog2_eq_log (hnum : 0 < num) (hden : 0 < den) :
    floorLog2 num den = Int.log 2 ((num : ℚ) / den) := by
  have hpos : (0 : ℚ) < (num : ℚ) / den := by positivity
  obtain ⟨hlow, hhigh⟩ := quotient_bounds hnum hden
  unfold floorLog2
  dsimp only
  split
  next h => exact eq_log_of_bounds hpos ((two_zpow_le_iff hden _).2 h) hhigh
  next h =>
    rw [← two_zpow_le_iff hden, not_le] at h
    exact eq_log_of_bounds hpos hlow.le (by rwa [sub_add_cancel])

end Quotients

/-! ### Rounded quotients -/

theorem roundQuotient_mul_right (num den : Nat) {c : Nat} (hc : 0 < c) :
    roundQuotient (num * c) (den * c) = roundQuotient num den := by
  have htwice : 2 * (num * c % (den * c)) = 2 * (num % den) * c := by
    rw [Nat.mul_mod_mul_right]
    ring
  unfold roundQuotient
  simp only [Nat.mul_div_mul_right num den hc, htwice, Nat.mul_lt_mul_right hc]

/-- A quotient is rounded alike however it is written. -/
theorem roundQuotient_congr {num den num' den' : Nat} (hden : 0 < den) (hden' : 0 < den')
    (h : num * den' = num' * den) : roundQuotient num den = roundQuotient num' den' := by
  rw [← roundQuotient_mul_right num den hden', ← roundQuotient_mul_right num' den' hden, h,
    mul_comm den den']

theorem roundQuotient_one (num : Nat) : roundQuotient num 1 = num := by
  simp [roundQuotient, Nat.mod_one]

/-- Rounding goes up by one at most. -/
theorem roundQuotient_le (num den : Nat) : roundQuotient num den ≤ num / den + 1 := by
  unfold roundQuotient
  dsimp only
  split
  · omega
  · split <;> omega

/-- **Equal quotients have one nearest number.** -/
theorem ofRatio_congr (negative : Bool) {num den num' den' : Nat} (hden : 0 < den)
    (hden' : 0 < den') (h : num * den' = num' * den) :
    ofRatio negative num den = ofRatio negative num' den' := by
  rcases Nat.eq_zero_or_pos num with rfl | hnum
  · obtain rfl : num' = 0 := by
      rw [zero_mul, eq_comm, Nat.mul_eq_zero] at h
      omega
    rw [ofRatio, ofRatio, if_pos rfl, if_pos rfl]
  have hnum' : 0 < num' := by
    refine Nat.pos_of_ne_zero ?_
    rintro rfl
    rw [zero_mul, Nat.mul_eq_zero] at h
    omega
  have hratio : (num : ℚ) / den = (num' : ℚ) / den' := by
    rw [div_eq_div_iff (by exact_mod_cast hden.ne') (by exact_mod_cast hden'.ne')]
    exact_mod_cast h
  have hlog : floorLog2 num den = floorLog2 num' den' := by
    rw [floorLog2_eq_log hnum hden, floorLog2_eq_log hnum' hden', hratio]
  have hround : ∀ c d : Nat, 0 < d →
      roundQuotient (num * c) (den * d) = roundQuotient (num' * c) (den' * d) := by
    intro c d hd
    refine roundQuotient_congr (Nat.mul_pos hden hd) (Nat.mul_pos hden' hd) ?_
    calc num * c * (den' * d) = num * den' * (c * d) := by ring
      _ = num' * c * (den * d) := by rw [h]; ring
  have hpos : ∀ k, 0 < Nat.pow 2 k := fun k => Nat.pow_pos Nat.two_pos
  unfold ofRatio
  rw [if_neg hnum.ne', if_neg hnum'.ne', hlog]
  simp only [hround _ _ (hpos _)]

/-! ### Products and quotients -/

/-- A fraction with a power of two, as it is handed to rounding. -/
theorem ratio_scaled (s t : Nat) (e : Int) :
    (s : ℚ) / t * (2 : ℚ) ^ e =
      ((s * Nat.pow 2 e.toNat : Nat) : ℚ) / ((t * Nat.pow 2 (-e).toNat : Nat) : ℚ) := by
  rw [zpow_eq_div (by norm_num), div_mul_div_comm]
  norm_cast

theorem mul_eq_of_div_eq {num den num' den' : Nat} (hden : 0 < den) (hden' : 0 < den')
    (h : (num : ℚ) / den = (num' : ℚ) / den') : num * den' = num' * den := by
  rw [div_eq_div_iff (by exact_mod_cast hden.ne') (by exact_mod_cast hden'.ne')] at h
  exact_mod_cast h

/-- **A product is rounded once.** -/
theorem mul_eq_ofRatio {x y : Binary64} {num den : Nat} (hden : 0 < den)
    (h : x.magnitude * y.magnitude = (num : ℚ) / den) :
    x.mul y = ofRatio (x.isNegative != y.isNegative) num den := by
  have hexact :
      ((x.significand * y.significand * Nat.pow 2 (x.scale + y.scale).toNat : Nat) : ℚ) /
        ((1 * Nat.pow 2 (-(x.scale + y.scale)).toNat : Nat) : ℚ) = (num : ℚ) / den := by
    rw [← ratio_scaled, ← h, magnitude, magnitude, zpow_add₀ two_ne_zero]
    push_cast
    ring
  have hpow : 0 < 1 * Nat.pow 2 (-(x.scale + y.scale)).toNat :=
    Nat.mul_pos Nat.one_pos (Nat.pow_pos (by decide))
  rw [mul, ← ofRatio_congr _ hpow hden (mul_eq_of_div_eq hpow hden hexact), one_mul]

/-- **A quotient is rounded once.** -/
theorem div_eq_ofRatio {x y : Binary64} {num den : Nat} (hden : 0 < den)
    (hy : y.significand ≠ 0) (h : x.magnitude / y.magnitude = (num : ℚ) / den) :
    x.div y = ofRatio (x.isNegative != y.isNegative) num den := by
  have hexact : ((x.significand * Nat.pow 2 (x.scale - y.scale).toNat : Nat) : ℚ) /
      ((y.significand * Nat.pow 2 (-(x.scale - y.scale)).toNat : Nat) : ℚ) = (num : ℚ) / den := by
    rw [← ratio_scaled, ← h, magnitude, magnitude, zpow_sub₀ two_ne_zero]
    field_simp
  have hpow : 0 < y.significand * Nat.pow 2 (-(x.scale - y.scale)).toNat :=
    Nat.mul_pos (Nat.pos_of_ne_zero hy) (Nat.pow_pos (by decide))
  rw [div, ← ofRatio_congr _ hpow hden (mul_eq_of_div_eq hpow hden hexact)]

/-! ### Fields -/

section Fields

variable {m : Nat}

theorem bits_ofMagnitude (hm : m < signUnit) (negative : Bool) :
    (ofMagnitude negative m).bits.toNat = if negative then signUnit + m else m := by
  rw [signUnit] at hm
  rw [ofMagnitude, Nat.toUInt64_eq, UInt64.toNat_ofNat', Nat.mod_eq_of_lt]
  cases negative <;> simp only [signUnit] <;> simp <;> omega

theorem isNegative_ofMagnitude (hm : m < signUnit) (negative : Bool) :
    (ofMagnitude negative m).isNegative = negative := by
  rw [isNegative, bits_ofMagnitude hm]
  cases negative <;> simp [hm]

theorem exponentField_ofMagnitude (hm : m < signUnit) (negative : Bool) :
    (ofMagnitude negative m).exponentField = m / exponentUnit := by
  rw [signUnit] at hm
  rw [exponentField, bits_ofMagnitude (by rwa [signUnit])]
  cases negative <;> simp only [signUnit, exponentUnit] <;> simp <;> omega

theorem fractionField_ofMagnitude (hm : m < signUnit) (negative : Bool) :
    (ofMagnitude negative m).fractionField = m % exponentUnit := by
  rw [fractionField, bits_ofMagnitude hm]
  cases negative <;> simp [signUnit, exponentUnit]
  omega

theorem isFinite_ofMagnitude (hm : m < infinityMagnitude) (negative : Bool) :
    (ofMagnitude negative m).isFinite = true := by
  have hbound : m < signUnit := by
    rw [infinityMagnitude, exponentUnit] at hm
    rw [signUnit]
    omega
  have hexponent : m / exponentUnit < 2047 := Nat.div_lt_of_lt_mul (by rwa [mul_comm])
  rw [isFinite, exponentField_ofMagnitude hbound]
  simpa using hexponent.ne

/-- The other sign in front of a magnitude. -/
theorem neg_ofMagnitude (hm : m < signUnit) :
    (ofMagnitude false m).neg = ofMagnitude true m := by
  rw [neg, isNegative_ofMagnitude hm, bits_ofMagnitude hm]
  simp [Nat.mod_eq_of_lt hm]

end Fields

/-! ### Exact numbers -/

/-- The parts of a number of full precision. -/
theorem fields_ofMagnitude {e m : Nat} (he : e ≤ 2045) (hlow : exponentUnit ≤ m)
    (hhigh : m < 2 * exponentUnit) :
    (ofMagnitude false (e * exponentUnit + m)).significand = m ∧
      (ofMagnitude false (e * exponentUnit + m)).scale = (e : Int) - 1074 := by
  have hbound : e * exponentUnit + m < signUnit := by
    rw [exponentUnit] at hhigh ⊢
    rw [signUnit]
    omega
  have hexponent : (ofMagnitude false (e * exponentUnit + m)).exponentField = e + 1 := by
    rw [exponentField_ofMagnitude hbound]
    rw [exponentUnit] at hlow hhigh ⊢
    omega
  have hfraction : (ofMagnitude false (e * exponentUnit + m)).fractionField = m - exponentUnit := by
    rw [fractionField_ofMagnitude hbound]
    rw [exponentUnit] at hlow hhigh ⊢
    omega
  constructor
  · rw [significand, hexponent, hfraction, if_neg (Nat.succ_ne_zero e)]
    omega
  · rw [scale, hexponent, if_neg (Nat.succ_ne_zero e)]
    omega

/-- A number of full precision stands for its significand, scaled. -/
theorem magnitude_ofMagnitude {e m : Nat} (he : e ≤ 2045) (hlow : exponentUnit ≤ m)
    (hhigh : m < 2 * exponentUnit) :
    (ofMagnitude false (e * exponentUnit + m)).magnitude = m * (2 : ℚ) ^ ((e : Int) - 1074) := by
  obtain ⟨hsignificand, hscale⟩ := fields_ofMagnitude he hlow hhigh
  rw [magnitude, hsignificand, hscale]

/-- An integer that is not negative is rounded as a natural number. -/
theorem ofInt_of_nonneg {i : Int} (h : 0 ≤ i) : ofInt i = ofNat i.toNat := by
  rw [ofInt, ofNat, decide_eq_false (Int.not_lt.2 h)]
  congr 1
  omega

theorem floorLog2_one {n : Nat} (hn : 0 < n) : floorLog2 n 1 = n.log2 := by
  have hlow : 2 ^ n.log2 ≤ n := Nat.log2_self_le (by omega)
  have hone : Nat.log2 1 = 0 := by decide
  simp [floorLog2, hone, hlow]

theorem magnitude_zero (negative : Bool) : (zero negative).magnitude = 0 := by
  have hzero : (zero negative).significand = 0 := by
    cases negative <;> decide
  rw [magnitude, hzero, Nat.cast_zero, zero_mul]

/-- A natural number below `2 ^ 53` fills the significand when it is shifted. -/
theorem ofNat_eq_ofMagnitude {n k : Nat} (hk : k ≤ 52) (hlow : 2 ^ k ≤ n)
    (hhigh : n < 2 ^ (k + 1)) :
    exponentUnit ≤ n * 2 ^ (52 - k) ∧ n * 2 ^ (52 - k) < 2 * exponentUnit ∧
      ofNat n = ofMagnitude false ((k + 1022) * exponentUnit + n * 2 ^ (52 - k)) := by
  have hpos : 0 < n := Nat.lt_of_lt_of_le (Nat.pow_pos (by decide)) hlow
  have hlog : n.log2 = k := (Nat.log2_eq_iff (by omega)).2 ⟨hlow, hhigh⟩
  have hshift : 2 ^ k * 2 ^ (52 - k) = exponentUnit := by
    rw [← Nat.pow_add, Nat.add_sub_cancel' hk, exponentUnit]
  have hmlow : exponentUnit ≤ n * 2 ^ (52 - k) := hshift ▸ Nat.mul_le_mul_right _ hlow
  have hmhigh : n * 2 ^ (52 - k) < 2 * exponentUnit := by
    calc n * 2 ^ (52 - k) < 2 ^ (k + 1) * 2 ^ (52 - k) :=
          Nat.mul_lt_mul_of_pos_right hhigh (Nat.pow_pos (by decide))
      _ = 2 * exponentUnit := by rw [Nat.pow_succ, ← hshift]; ring
  refine ⟨hmlow, hmhigh, ?_⟩
  have hunit : max ((k : Int) - 52) (-1074) = k - 52 := by omega
  have hup : (-((k : Int) - 52)).toNat = 52 - k := by omega
  have hdown : ((k : Int) - 52).toNat = 0 := by omega
  have hexponent : ((k : Int) - 52 + 1074).toNat = k + 1022 := by omega
  have hfinite : (k + 1022) * exponentUnit + n * 2 ^ (52 - k) ≤ infinityMagnitude := by
    rw [infinityMagnitude, exponentUnit] at *
    omega
  rw [ofNat, ofRatio, if_neg hpos.ne', floorLog2_one hpos, hlog]
  simp only [hunit, hup, hdown, hexponent, Nat.pow_eq, pow_zero, mul_one, roundQuotient_one,
    Nat.min_eq_left hfinite]

/-- **Natural numbers below `2 ^ 53` are exact.** -/
theorem magnitude_ofNat {n : Nat} (hn : n < 2 ^ 53) : (ofNat n).magnitude = n := by
  rcases Nat.eq_zero_or_pos n with rfl | hpos
  · rw [ofNat, ofRatio, if_pos rfl, magnitude_zero, Nat.cast_zero]
  have hlow : 2 ^ n.log2 ≤ n := Nat.log2_self_le (by omega)
  have hlog : n.log2 < 53 := (Nat.pow_lt_pow_iff_right (by decide)).1 (Nat.lt_of_le_of_lt hlow hn)
  obtain ⟨hmlow, hmhigh, heq⟩ :=
    ofNat_eq_ofMagnitude (Nat.le_of_lt_succ hlog) hlow Nat.lt_log2_self
  have hscale : ((n.log2 + 1022 : Nat) : Int) - 1074 = -((52 - n.log2 : Nat) : Int) := by omega
  rw [heq, magnitude_ofMagnitude (by omega) hmlow hmhigh, hscale, zpow_neg, zpow_natCast]
  push_cast
  field_simp

/-! ### Bounds and signs -/

theorem floorLog2_lt {num den : Nat} (hnum : 0 < num) (hden : 0 < den) {t : Nat}
    (h : num < den * 2 ^ t) : floorLog2 num den < t := by
  have hratio : (0 : ℚ) < (num : ℚ) / den := by positivity
  rw [floorLog2_eq_log hnum hden, ← Int.lt_zpow_iff_log_lt (by decide) hratio, zpow_natCast,
    div_lt_iff₀ (by exact_mod_cast hden), mul_comm]
  exact_mod_cast h

/-- The exponent of the unit that a quotient is rounded in.  The quotient has 53 bits in it, unless
that takes a unit below the smallest one. -/
def unitExponent (num den : Nat) : Int := max (floorLog2 num den - 52) (-1074)

/-- A quotient in units of `2 ^ u`, rounded to an integer. -/
def roundIn (u : Int) (num den : Nat) : Nat :=
  roundQuotient (num * Nat.pow 2 (-u).toNat) (den * Nat.pow 2 u.toNat)

section Bounds

variable {num den : Nat}

/-- The rounded significand has 53 bits, or it is the next power of two. -/
theorem roundIn_le (hnum : 0 < num) (hden : 0 < den) :
    roundIn (unitExponent num den) num den ≤ 2 * exponentUnit := by
  have hu : floorLog2 num den - 52 ≤ unitExponent num den := le_max_left _ _
  generalize unitExponent num den = u at hu ⊢
  have hpos : 0 < den * Nat.pow 2 u.toNat := Nat.mul_pos hden (Nat.pow_pos Nat.two_pos)
  have hbelow : (num : ℚ) / den < 2 ^ (floorLog2 num den + 1) := by
    rw [floorLog2_eq_log hnum hden]
    exact_mod_cast Int.lt_zpow_succ_log_self (b := 2) (by decide) ((num : ℚ) / den)
  have hscaled : (num : ℚ) / den * 2 ^ (-u) < 2 ^ (53 : Int) := by
    calc (num : ℚ) / den * 2 ^ (-u) < 2 ^ (floorLog2 num den + 1) * 2 ^ (-u) := by gcongr
      _ = 2 ^ (floorLog2 num den + 1 - u) := by rw [← zpow_add₀ two_ne_zero, sub_eq_add_neg]
      _ ≤ 2 ^ (53 : Int) := zpow_le_zpow_right₀ (by norm_num) (by omega)
  rw [ratio_scaled, neg_neg, div_lt_iff₀ (by exact_mod_cast hpos)] at hscaled
  have hlt : num * Nat.pow 2 (-u).toNat < den * Nat.pow 2 u.toNat * 2 ^ 53 := by
    rw [mul_comm _ (2 ^ 53)]
    exact_mod_cast hscaled
  exact Nat.le_trans (roundQuotient_le ..) (Nat.div_lt_of_lt_mul hlt)

/-- What is below `2 ^ 1000` is rounded in a unit of its own, with room for the largest exponent. -/
theorem ofRatio_eq_ofMagnitude (negative : Bool) (hnum : 0 < num) (hden : 0 < den)
    (h : num < den * 2 ^ 1000) :
    ofRatio negative num den = ofMagnitude negative ((unitExponent num den + 1074).toNat *
        exponentUnit + roundIn (unitExponent num den) num den) ∧
      (unitExponent num den + 1074).toNat ≤ 2021 := by
  have hlog := floorLog2_lt hnum hden h
  have hround := roundIn_le hnum hden
  have hexponent : (unitExponent num den + 1074).toNat ≤ 2021 := by
    rw [unitExponent]
    omega
  have hfinite : (unitExponent num den + 1074).toNat * exponentUnit +
      roundIn (unitExponent num den) num den ≤ infinityMagnitude := by
    rw [infinityMagnitude]
    rw [exponentUnit] at hround ⊢
    omega
  refine ⟨?_, hexponent⟩
  conv_rhs => rw [← Nat.min_eq_left hfinite]
  rw [ofRatio, if_neg hnum.ne']
  rfl

/-- What is below `2 ^ 1000` is rounded to a finite number. -/
theorem isFinite_ofRatio (negative : Bool) (hden : 0 < den) (h : num < den * 2 ^ 1000) :
    (ofRatio negative num den).isFinite = true := by
  rcases Nat.eq_zero_or_pos num with rfl | hnum
  · rw [ofRatio, if_pos rfl]
    cases negative <;> decide
  obtain ⟨heq, hexponent⟩ := ofRatio_eq_ofMagnitude negative hnum hden h
  rw [heq]
  refine isFinite_ofMagnitude ?_ negative
  calc (unitExponent num den + 1074).toNat * exponentUnit + roundIn (unitExponent num den) num den
      ≤ 2021 * exponentUnit + 2 * exponentUnit :=
        Nat.add_le_add (Nat.mul_le_mul_right _ hexponent) (roundIn_le hnum hden)
    _ < infinityMagnitude := by decide

end Bounds

/-- Rounding does not see the sign. -/
theorem neg_ofRatio (num den : Nat) : (ofRatio false num den).neg = ofRatio true num den := by
  have hinfinity : infinityMagnitude < signUnit := by decide
  rw [ofRatio, ofRatio]
  split
  next => exact neg_ofMagnitude (by decide)
  next => exact neg_ofMagnitude (Nat.lt_of_le_of_lt (Nat.min_le_right _ _) hinfinity)

theorem isNegative_ofRatio (negative : Bool) (num den : Nat) :
    (ofRatio negative num den).isNegative = negative := by
  have hinfinity : infinityMagnitude < signUnit := by decide
  rw [ofRatio]
  split
  next => exact isNegative_ofMagnitude (by decide) negative
  next =>
    exact isNegative_ofMagnitude (Nat.lt_of_le_of_lt (Nat.min_le_right _ _) hinfinity) negative

end HubGateway.Binary64
