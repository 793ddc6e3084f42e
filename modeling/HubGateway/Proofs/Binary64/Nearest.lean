/-
**Rounding is to the nearest number.**

The significand of a rounded quotient is the integer nearest to it in units of its own.  The
multiples of the unit are not all numbers, and not all numbers are multiples of it, but a number
that is none is smaller than the least one of full precision in that unit, and so it is further
away.  Of two numbers that are as near the one with the even significand is taken.

Main definitions:

* `HubGateway.Binary64.toRat` — what a finite number stands for;
* `HubGateway.Binary64.IsNearest` — a number nearest to a rational one.

Main statements:

* `HubGateway.Binary64.roundQuotient_half` — integers are rounded to nearest, ties to even;
* `HubGateway.Binary64.toRat_cases` — a number is a multiple of a unit, or below full precision;
* `HubGateway.Binary64.isNearest_ofRatio` — **a rounded quotient is the number nearest to it**.
-/

import HubGateway.Proofs.Binary64.Rounding

set_option relaxedAutoImplicit false
set_option autoImplicit false

namespace HubGateway.Binary64

/-- What a finite number stands for. -/
def toRat (x : Binary64) : ℚ := if x.isNegative then -x.magnitude else x.magnitude

/-- A finite number to which `q` is as near as to any other one; of two that lie as near, the one
with the even significand. -/
structure IsNearest (x : Binary64) (q : ℚ) : Prop where
  finite : x.isFinite = true
  le : ∀ y : Binary64, y.isFinite = true → |x.toRat - q| ≤ |y.toRat - q|
  even : ∀ y : Binary64, y.isFinite = true → |y.toRat - q| = |x.toRat - q| →
    y.toRat = x.toRat ∨ x.significand % 2 = 0

/-! ### Rounded quotients -/

section Quotients

variable {num den : Nat}

/-- A quotient is its whole part and what the remainder adds to it. -/
theorem div_eq_floor_add (hden : 0 < den) :
    (num : ℚ) / den = (num / den : Nat) + ((num % den : Nat) : ℚ) / den := by
  have hne : (den : ℚ) ≠ 0 := by exact_mod_cast hden.ne'
  have hnum : (num : ℚ) = (num / den : Nat) * den + (num % den : Nat) := by
    exact_mod_cast (Nat.div_add_mod' num den).symm
  rw [hnum, add_div, mul_div_cancel_right₀ _ hne]

/-- A quotient is at most a half away from the integer that it is rounded to, and where it is a half
away, the integer is even. -/
theorem roundQuotient_half (hden : 0 < den) :
    |(roundQuotient num den : ℚ) - num / den| ≤ 1 / 2 ∧
      (|(roundQuotient num den : ℚ) - num / den| = 1 / 2 → roundQuotient num den % 2 = 0) := by
  have hpos : (0 : ℚ) < den := by exact_mod_cast hden
  have hlt : ((num % den : Nat) : ℚ) < den := by exact_mod_cast Nat.mod_lt num hden
  have hdown : |((num / den : Nat) : ℚ) - num / den| = ((num % den : Nat) : ℚ) / den := by
    rw [div_eq_floor_add hden, sub_add_cancel_left, abs_neg, abs_of_nonneg (by positivity)]
  have hup : |((num / den + 1 : Nat) : ℚ) - num / den| = 1 - ((num % den : Nat) : ℚ) / den := by
    have hone : ((num % den : Nat) : ℚ) / den < 1 := (div_lt_one hpos).2 hlt
    rw [div_eq_floor_add hden, Nat.cast_add_one, add_sub_add_left_eq_sub,
      abs_of_pos (sub_pos.2 hone)]
  unfold roundQuotient
  dsimp only
  split
  next hlow =>
    have hhalf : ((num % den : Nat) : ℚ) / den < 1 / 2 := by
      rw [div_lt_div_iff₀ hpos two_pos, one_mul, mul_comm]
      exact_mod_cast hlow
    rw [hdown]
    exact ⟨hhalf.le, fun h => absurd h hhalf.ne⟩
  split
  next hhigh =>
    have hhalf : 1 / 2 < ((num % den : Nat) : ℚ) / den := by
      rw [div_lt_div_iff₀ two_pos hpos, one_mul, mul_comm _ (2 : ℚ)]
      exact_mod_cast hhigh
    rw [hup]
    exact ⟨by linarith, fun h => absurd h (by linarith)⟩
  next hlow hhigh =>
    have hhalf : ((num % den : Nat) : ℚ) / den = 1 / 2 := by
      rw [div_eq_div_iff hpos.ne' two_ne_zero, one_mul, mul_comm]
      exact_mod_cast Nat.le_antisymm (not_lt.1 hhigh) (not_lt.1 hlow)
    rcases Nat.mod_two_eq_zero_or_one (num / den) with heven | hodd
    · rw [heven, Nat.add_zero, hdown, hhalf]
      exact ⟨le_refl _, fun _ => heven⟩
    · rw [hodd, hup, hhalf]
      exact ⟨by norm_num, fun _ => by omega⟩

end Quotients

/-! ### Grids -/

/-- Of the multiples of a step, one that is at most half a step away is nearest. -/
theorem nearest_multiple {q step : ℚ} (hstep : 0 < step) {m k : Int}
    (hhalf : |m * step - q| ≤ step / 2) :
    |m * step - q| ≤ |k * step - q| ∧
      (|k * step - q| = |m * step - q| → k = m ∨ |m * step - q| = step / 2) := by
  by_cases hk : k = m
  · rw [hk]
    exact ⟨le_refl _, fun _ => .inl rfl⟩
  -- another multiple is at least a step away from this one
  have hone : (1 : ℚ) ≤ |(k : ℚ) - m| := by
    exact_mod_cast Int.one_le_abs (sub_ne_zero.2 hk)
  have hapart : step ≤ |k * step - m * step| := by
    rw [← sub_mul, abs_mul, abs_of_pos hstep]
    exact le_mul_of_one_le_left hstep.le hone
  have htriangle : |k * step - m * step| ≤ |k * step - q| + |m * step - q| := by
    rw [abs_sub_comm (m * step) q]
    exact abs_sub_le ..
  exact ⟨by linarith, fun h => .inr (by linarith)⟩

/-- What is smaller than a number below `q` is further away from `q` than what that number is. -/
theorem further_of_below {q x y power : ℚ} (hpower : power ≤ q) (hx : |x - q| ≤ |power - q|)
    (hy : |y| < power) : |x - q| < |y - q| := by
  have hlt : y < power := lt_of_le_of_lt (le_abs_self y) hy
  calc |x - q| ≤ |power - q| := hx
    _ = q - power := by rw [abs_sub_comm, abs_of_nonneg (sub_nonneg.2 hpower)]
    _ < q - y := sub_lt_sub_left hlt q
    _ ≤ |y - q| := by rw [abs_sub_comm]; exact le_abs_self _

/-- The number that begins the full precision of a unit is one of its multiples. -/
theorem two_pow_mul_zpow (u : Int) : ((2 ^ 52 : Int) : ℚ) * 2 ^ u = 2 ^ (u + 52) := by
  rw [zpow_add₀ two_ne_zero, mul_comm]
  norm_cast

/-! ### Numbers in a unit -/

theorem significand_lt (x : Binary64) : x.significand < 2 ^ 53 := by
  have hfraction : x.fractionField < exponentUnit := Nat.mod_lt _ (by decide)
  rw [exponentUnit] at hfraction
  rw [significand, exponentUnit]
  split <;> omega

theorem le_scale (x : Binary64) : -1074 ≤ x.scale := by
  rw [scale]
  split <;> omega

theorem abs_toRat (x : Binary64) : |x.toRat| = x.magnitude := by
  have hnonneg : 0 ≤ x.magnitude := by rw [magnitude]; positivity
  rw [toRat]
  split
  · rw [abs_neg, abs_of_nonneg hnonneg]
  · exact abs_of_nonneg hnonneg

/-- A number is a multiple of every unit that is not above its own. -/
theorem magnitude_eq_mul {x : Binary64} {u : Int} (h : u ≤ x.scale) :
    x.magnitude = (x.significand * 2 ^ (x.scale - u).toNat : Nat) * (2 : ℚ) ^ u := by
  have hsum : x.scale = ((x.scale - u).toNat : Int) + u := by omega
  rw [magnitude]
  nth_rewrite 1 [hsum]
  rw [zpow_add₀ two_ne_zero, zpow_natCast]
  push_cast
  ring

/-- A number has no more than 53 bits. -/
theorem magnitude_lt (x : Binary64) : x.magnitude < (2 : ℚ) ^ (x.scale + 53) := by
  have hsignificand : (x.significand : ℚ) < 2 ^ 53 := by exact_mod_cast x.significand_lt
  calc x.magnitude = x.significand * (2 : ℚ) ^ x.scale := rfl
    _ < 2 ^ 53 * (2 : ℚ) ^ x.scale := by gcongr
    _ = (2 : ℚ) ^ (x.scale + 53) := by
        rw [add_comm, zpow_add₀ two_ne_zero]
        norm_cast

/-- What a number stands for is a multiple of a unit, or it is below full precision in it. -/
theorem toRat_cases (x : Binary64) (e : Nat) :
    (∃ k : Int, x.toRat = k * (2 : ℚ) ^ ((e : Int) - 1074)) ∨
      e ≠ 0 ∧ |x.toRat| < (2 : ℚ) ^ ((e : Int) - 1074 + 52) := by
  have hscale := x.le_scale
  rcases le_or_gt ((e : Int) - 1074) x.scale with hle | hlt
  · left
    rw [toRat, magnitude_eq_mul hle]
    generalize x.significand * 2 ^ (x.scale - ((e : Int) - 1074)).toNat = k
    split
    · exact ⟨-k, by push_cast; ring⟩
    · exact ⟨k, by push_cast; ring⟩
  · refine .inr ⟨by omega, ?_⟩
    rw [abs_toRat]
    exact x.magnitude_lt.trans_le (zpow_le_zpow_right₀ one_le_two (by omega))

/-- A number below full precision stands for its significand, in the smallest unit. -/
theorem fields_ofMagnitude_small {m : Nat} (hm : m < exponentUnit) :
    (ofMagnitude false m).significand = m ∧ (ofMagnitude false m).scale = -1074 := by
  have hbound : m < signUnit := Nat.lt_trans hm (by decide)
  have hexponent : (ofMagnitude false m).exponentField = 0 := by
    rw [exponentField_ofMagnitude hbound, Nat.div_eq_of_lt hm]
  have hfraction : (ofMagnitude false m).fractionField = m := by
    rw [fractionField_ofMagnitude hbound, Nat.mod_eq_of_lt hm]
  exact ⟨by rw [significand, if_pos hexponent, hfraction], by rw [scale, if_pos hexponent]⟩

/-- A significand of up to 53 bits, or the next power of two, in a unit. -/
theorem toRat_ofMagnitude {e m : Nat} (he : e ≤ 2044) (hlow : e = 0 ∨ exponentUnit ≤ m)
    (hhigh : m ≤ 2 * exponentUnit) :
    (ofMagnitude false (e * exponentUnit + m)).toRat = m * (2 : ℚ) ^ ((e : Int) - 1074) ∧
      (m % 2 = 0 → (ofMagnitude false (e * exponentUnit + m)).significand % 2 = 0) := by
  have hbound : e * exponentUnit + m < signUnit := by
    rw [exponentUnit] at hhigh ⊢
    rw [signUnit]
    omega
  have hpositive : (ofMagnitude false (e * exponentUnit + m)).isNegative = false :=
    isNegative_ofMagnitude hbound false
  rw [toRat, hpositive, if_neg Bool.false_ne_true, magnitude]
  rcases Nat.lt_or_ge m exponentUnit with hsmall | hfull
  · obtain rfl : e = 0 := hlow.resolve_right (Nat.not_le.2 hsmall)
    obtain ⟨hsignificand, hscale⟩ := fields_ofMagnitude_small hsmall
    rw [Nat.zero_mul, Nat.zero_add, hsignificand, hscale]
    exact ⟨rfl, id⟩
  rcases Nat.lt_or_ge m (2 * exponentUnit) with hlt | hge
  · obtain ⟨hsignificand, hscale⟩ := fields_ofMagnitude (Nat.le_succ_of_le he) hfull hlt
    rw [hsignificand, hscale]
    exact ⟨rfl, id⟩
  · -- the carry goes into the exponent
    obtain rfl : m = 2 * exponentUnit := Nat.le_antisymm hhigh hge
    obtain ⟨hsignificand, hscale⟩ :=
      fields_ofMagnitude (Nat.succ_le_succ he) (le_refl exponentUnit) (by decide)
    have hcarry : e * exponentUnit + 2 * exponentUnit = (e + 1) * exponentUnit + exponentUnit := by
      ring
    rw [hcarry, hsignificand, hscale]
    refine ⟨?_, fun _ => by decide⟩
    have hunit : ((e + 1 : Nat) : Int) - 1074 = ((e : Int) - 1074) + 1 := by
      push_cast
      ring
    rw [hunit, zpow_add_one₀ two_ne_zero]
    push_cast
    ring

/-! ### The nearest number -/

/-- A multiple of a unit that is at most half the unit away is the nearest number, if what is not a
multiple of the unit is below `q`. -/
theorem IsNearest.of_unit {x : Binary64} {q : ℚ} {e : Nat} {m : Int} (finite : x.isFinite = true)
    (hvalue : x.toRat = m * (2 : ℚ) ^ ((e : Int) - 1074))
    (hlow : e = 0 ∨ (2 : ℚ) ^ ((e : Int) - 1074 + 52) ≤ q)
    (hhalf : |x.toRat - q| ≤ (2 : ℚ) ^ ((e : Int) - 1074) / 2)
    (heven : |x.toRat - q| = (2 : ℚ) ^ ((e : Int) - 1074) / 2 → x.significand % 2 = 0) :
    x.IsNearest q := by
  have hstep : (0 : ℚ) < (2 : ℚ) ^ ((e : Int) - 1074) := by positivity
  have hgrid : ∀ k : Int, _ := fun k => nearest_multiple (k := k) hstep (hvalue ▸ hhalf)
  rw [← hvalue] at hgrid
  have hfurther : ∀ y : ℚ, e ≠ 0 → |y| < (2 : ℚ) ^ ((e : Int) - 1074 + 52) →
      |x.toRat - q| < |y - q| := by
    intro y hne hy
    have hpower := (hgrid (2 ^ 52)).1
    rw [two_pow_mul_zpow] at hpower
    exact further_of_below (hlow.resolve_left hne) hpower hy
  refine ⟨finite, fun y _ => ?_, fun y _ htie => ?_⟩
  · rcases y.toRat_cases e with ⟨k, hk⟩ | ⟨hne, hy⟩
    · rw [hk]
      exact (hgrid k).1
    · exact (hfurther y.toRat hne hy).le
  · rcases y.toRat_cases e with ⟨k, hk⟩ | ⟨hne, hy⟩
    · rw [hk] at htie ⊢
      rcases (hgrid k).2 htie with rfl | hhalf
      · exact .inl hvalue.symm
      · exact .inr (heven hhalf)
    · exact absurd htie (hfurther y.toRat hne hy).ne'

section Ratio

variable {num den : Nat}

/-- A quotient is at most half a unit away from the multiple that it is rounded to, and where it is
half a unit away, the multiple is even. -/
theorem roundIn_half (hden : 0 < den) (u : Int) :
    |roundIn u num den * (2 : ℚ) ^ u - num / den| ≤ 2 ^ u / 2 ∧
      (|roundIn u num den * (2 : ℚ) ^ u - num / den| = 2 ^ u / 2 →
        roundIn u num den % 2 = 0) := by
  have hstep : (0 : ℚ) < 2 ^ u := by positivity
  have hscaled : ((num * Nat.pow 2 (-u).toNat : Nat) : ℚ) / ((den * Nat.pow 2 u.toNat : Nat) : ℚ) =
      num / den / 2 ^ u := by
    rw [div_eq_mul_inv (_ / _ : ℚ), ← zpow_neg, ratio_scaled, neg_neg]
  have hpos : 0 < den * Nat.pow 2 u.toNat := Nat.mul_pos hden (Nat.pow_pos Nat.two_pos)
  obtain ⟨hhalf, heven⟩ := @roundQuotient_half (num * Nat.pow 2 (-u).toNat) _ hpos
  rw [hscaled] at hhalf heven
  have hdistance : |roundIn u num den * (2 : ℚ) ^ u - num / den| =
      |(roundIn u num den : ℚ) - num / den / 2 ^ u| * 2 ^ u := by
    rw [← abs_of_pos hstep, ← abs_mul, abs_of_pos hstep, sub_mul, div_mul_cancel₀ _ hstep.ne']
  rw [hdistance]
  constructor
  · calc |(roundIn u num den : ℚ) - num / den / 2 ^ u| * 2 ^ u ≤ 1 / 2 * 2 ^ u :=
          mul_le_mul_of_nonneg_right hhalf hstep.le
      _ = 2 ^ u / 2 := by ring
  · exact fun htie => heven (mul_right_cancel₀ hstep.ne' (htie.trans (by ring)))

/-- Above the smallest unit a quotient has full precision in the unit that it is rounded in. -/
theorem unitExponent_cases (hnum : 0 < num) (hden : 0 < den) :
    unitExponent num den = -1074 ∨
      exponentUnit ≤ roundIn (unitExponent num den) num den ∧
        (2 : ℚ) ^ (unitExponent num den + 52) ≤ num / den := by
  rcases max_choice (floorLog2 num den - 52) (-1074) with hmax | hmax
  · right
    have hratio : (0 : ℚ) < num / den := by positivity
    have hlow : (2 : ℚ) ^ (unitExponent num den + 52) ≤ num / den := by
      rw [unitExponent, hmax, sub_add_cancel, floorLog2_eq_log hnum hden]
      exact_mod_cast Int.zpow_log_le_self (b := 2) (by decide) hratio
    refine ⟨?_, hlow⟩
    -- the multiple that is rounded to is not below the power of two, from which it is half a unit
    -- away at most
    have hhalf := (abs_le.1 (@roundIn_half num den hden (unitExponent num den)).1).1
    generalize unitExponent num den = u at hlow hhalf ⊢
    have hstep : (0 : ℚ) < 2 ^ u := by positivity
    rw [← two_pow_mul_zpow] at hlow
    have hlt : ((2 ^ 52 : Int) : ℚ) * 2 ^ u < ((roundIn u num den : Int) + 1 : Int) * 2 ^ u := by
      push_cast at hlow ⊢
      linarith
    have hint : (2 ^ 52 : Int) < (roundIn u num den : Int) + 1 := by
      exact_mod_cast lt_of_mul_lt_mul_right hlt hstep.le
    rw [exponentUnit]
    omega
  · exact .inl hmax

/-- **A rounded quotient is the number nearest to it.** -/
theorem isNearest_ofRatio (hnum : 0 < num) (hden : 0 < den) (h : num < den * 2 ^ 1000) :
    (ofRatio false num den).IsNearest (num / den) := by
  have finite := isFinite_ofRatio false hden h
  obtain ⟨heq, he⟩ := ofRatio_eq_ofMagnitude false hnum hden h
  obtain ⟨hhalf, heven⟩ := @roundIn_half num den hden (unitExponent num den)
  have hcases := unitExponent_cases hnum hden
  have hhigh := roundIn_le hnum hden
  -- the bound would be evaluated below
  clear h
  obtain ⟨e, hunit⟩ : ∃ e : Nat, unitExponent num den = (e : Int) - 1074 := by
    have hsmallest : -1074 ≤ unitExponent num den := le_max_right _ _
    exact ⟨(unitExponent num den + 1074).toNat, by omega⟩
  rw [hunit] at heq he hhalf heven hcases hhigh
  rw [sub_add_cancel, Int.toNat_natCast] at heq he
  replace hcases := hcases.imp_left fun h => (show e = 0 by omega)
  obtain ⟨hvalue, hparity⟩ :=
    toRat_ofMagnitude (Nat.le_trans he (by decide)) (hcases.imp_right And.left) hhigh
  rw [← heq] at hvalue hparity
  rw [← hvalue] at hhalf heven
  exact .of_unit finite (by exact_mod_cast hvalue) (hcases.imp_right And.right) hhalf
    fun htie => hparity (heven htie)

end Ratio

/-- A positive natural number is rounded to the number nearest to it. -/
theorem isNearest_ofNat {n k : Nat} (hpos : 0 < n) (hk : k ≤ 1000) (h : n < 2 ^ k) :
    (ofNat n).IsNearest n := by
  have hbound : n < 1 * 2 ^ 1000 := by
    rw [Nat.one_mul]
    exact h.trans_le (pow_le_pow_right₀ one_le_two hk)
  have hnearest := isNearest_ofRatio hpos Nat.one_pos hbound
  rwa [Nat.cast_one, div_one] at hnearest

end HubGateway.Binary64
