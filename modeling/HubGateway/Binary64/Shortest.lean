/-
**The shortest decimal of a double-precision number.**

A finite number is written with the fewest significant digits that still identify it: among the
decimals that lie in the interval of reals that round to the number, one with the fewest digits,
and of those the nearest to the number; of two that are equally near, the one with even digits.
The interval reaches half way to the neighbours on both sides; its ends belong to it when the
significand is even, because a tie goes to the even side.

The search tries one to seventeen digits.  On the grid of decimals with a given number of digits
only the two grid points around the number can be the nearest ones in the interval.

Main definitions:

* `HubGateway.Binary64.Decimal` — digits with a decimal exponent;
* `HubGateway.Binary64.shortest` — the digits of a finite number's magnitude;
* `HubGateway.Binary64.render` — the text of a finite number.
-/

import HubGateway.Binary64.Basic

set_option relaxedAutoImplicit false
set_option autoImplicit false

namespace HubGateway.Binary64

/-- The decimal `digits * 10 ^ exponent`. -/
structure Decimal where
  digits : Nat
  exponent : Int
  deriving DecidableEq

/-- `num / den` as a fraction that is at least one and below ten, times a power of ten: the exponent
`e` with `10 ^ e ≤ num / den < 10 ^ (e + 1)`, found from the estimate `e₀` within `fuel` steps. -/
def floorLog10From (num den : Nat) : Nat → Int → Int
  | 0, e => e
  | fuel + 1, e =>
    if num * Nat.pow 10 (-e).toNat < den * Nat.pow 10 e.toNat then
      floorLog10From num den fuel (e - 1)
    else if den * Nat.pow 10 (e + 1).toNat ≤ num * Nat.pow 10 (-(e + 1)).toNat then
      floorLog10From num den fuel (e + 1)
    else e

/-- The exponent `e` with `10 ^ e ≤ num / den < 10 ^ (e + 1)`. -/
def floorLog10 (num den : Nat) : Int :=
  floorLog10From num den 4 (floorLog2 num den * 1233 / 4096)

/-- The interval of reals that round to a positive number: with the common denominator `den`, the
number itself is `mid / den`, and the interval reaches from `low / den` to `high / den`. -/
structure RoundingInterval where
  low : Nat
  mid : Nat
  high : Nat
  den : Nat
  closed : Bool

/-- The rounding interval of a finite positive magnitude.  Below a power of two the neighbours are
half as far apart as above it. -/
def roundingInterval (x : Binary64) : RoundingInterval :=
  let m := x.significand
  let up := Nat.pow 2 x.scale.toNat
  let below := if x.fractionField = 0 && 1 < x.exponentField then 1 else 2
  { low := (4 * m - below) * up
    mid := 4 * m * up
    high := (4 * m + 2) * up
    den := 4 * Nat.pow 2 (-x.scale).toNat
    closed := m % 2 == 0 }

/-- Whether `digits * 10 ^ exponent` lies in the interval. -/
def RoundingInterval.contains (i : RoundingInterval) (d : Decimal) : Bool :=
  let value := d.digits * Nat.pow 10 d.exponent.toNat * i.den
  let unit := Nat.pow 10 (-d.exponent).toNat
  if i.closed then i.low * unit ≤ value && value ≤ i.high * unit
  else i.low * unit < value && value < i.high * unit

/-- The decimal with exponent `exponent` that lies in the interval and is nearest to its middle, if
one of the two around the middle lies in it.  Of two that are equally near, the one with even digits
is preferred. -/
def RoundingInterval.nearest? (i : RoundingInterval) (exponent : Int) : Option Decimal :=
  let num := i.mid * Nat.pow 10 (-exponent).toNat
  let den := i.den * Nat.pow 10 exponent.toNat
  let below := num / den
  let near := roundQuotient num den
  let nearer : Decimal := ⟨near, exponent⟩
  let farther : Decimal := ⟨if near = below then below + 1 else below, exponent⟩
  if i.contains nearer then some nearer
  else if i.contains farther then some farther
  else none

/-- The first hit on the grids of `count` and more digits, where the leading digit has the decimal
exponent `lead`. -/
def RoundingInterval.search (i : RoundingInterval) (lead : Int) : Nat → Nat → Decimal
  | 0, count =>
    let exponent := lead + 1 - count
    ⟨i.mid * Nat.pow 10 (-exponent).toNat / (i.den * Nat.pow 10 exponent.toNat), exponent⟩
  | fuel + 1, count =>
    match i.nearest? (lead + 1 - count) with
    | some d => d
    | none => i.search lead fuel (count + 1)

/-- A decimal without up to `fuel` zeros at the end of its digits. -/
def Decimal.dropZeros : Nat → Decimal → Decimal
  | 0, d => d
  | fuel + 1, d =>
    if d.digits ≠ 0 && d.digits % 10 = 0 then dropZeros fuel ⟨d.digits / 10, d.exponent + 1⟩ else d

/-- The shortest decimal of a finite number's magnitude.  On the grid of one digit the point above
the number can be the next power of ten, which is then written with one digit. -/
def shortest (x : Binary64) : Decimal :=
  if x.isZero then ⟨0, 0⟩
  else
    let i := x.roundingInterval
    (i.search (floorLog10 i.mid i.den) 17 1).dropZeros 17

/-! ### Text -/

/-- The decimal digits of a natural number. -/
def naturalDigits (n : Nat) : List Char := Nat.toDigits 10 n

/-- The magnitude of a decimal as text.  With `point` digits before the decimal point, it is written
in positions when the point stands from five places before to sixteen places after the first
digit, always with a digit on both sides of the point; otherwise with an exponent that carries its
sign, and a point only if there is more than one digit. -/
def Decimal.render (d : Decimal) : List Char :=
  let digits := naturalDigits d.digits
  let count : Int := digits.length
  let point := count + d.exponent
  if 0 ≤ d.exponent && point ≤ 16 then
    digits ++ List.replicate d.exponent.toNat '0' ++ ['.', '0']
  else if 0 < point && point ≤ 16 then
    digits.take point.toNat ++ '.' :: digits.drop point.toNat
  else if -5 < point && point ≤ 0 then
    '0' :: '.' :: List.replicate (-point).toNat '0' ++ digits
  else
    let exponent := point - 1
    let mark := ['e', if exponent < 0 then '-' else '+'] ++ naturalDigits exponent.natAbs
    match digits with
    | [] => mark
    | [d₀] => d₀ :: mark
    | d₀ :: more => d₀ :: '.' :: more ++ mark

/-- The text of a finite number. -/
def render (x : Binary64) : List Char :=
  let text := if x.isZero then ['0', '.', '0'] else x.shortest.render
  if x.isNegative then '-' :: text else text

end HubGateway.Binary64
