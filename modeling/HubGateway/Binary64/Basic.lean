/-
**Double-precision numbers.**

A number is carried as the 64 bits of its IEEE 754 interchange form, so that equality of values is
equality of bits and every operation is exact integer arithmetic followed by one rounding.  A
finite number has the magnitude `significand * 2 ^ scale`; rounding is to nearest, ties to even.

Main definitions:

* `HubGateway.Binary64` — the bits, with their sign, exponent and fraction fields;
* `HubGateway.Binary64.ofRatio` — the number nearest to a fraction;
* `HubGateway.Binary64.ofNat`, `mul`, `div` — arithmetic, each rounded once;
* `HubGateway.Binary64.ofBinary32` — the number that a single-precision one denotes.
-/

set_option relaxedAutoImplicit false
set_option autoImplicit false

namespace HubGateway

/-- A double-precision number, as its bits. -/
structure Binary64 where
  bits : UInt64
  deriving DecidableEq

namespace Binary64

/-! ### Fields -/

/-- What the sign bit stands for, `2 ^ 63`. -/
def signUnit : Nat := 0x8000000000000000

/-- What the lowest bit of the exponent stands for, `2 ^ 52`; fractions are below it. -/
def exponentUnit : Nat := 0x10000000000000

/-- The sign: `true` for negative numbers and negative zero. -/
def isNegative (x : Binary64) : Bool := signUnit ≤ x.bits.toNat

/-- The biased exponent, below 2048. -/
def exponentField (x : Binary64) : Nat := x.bits.toNat / exponentUnit % 2048

/-- The fraction, below `2 ^ 52`. -/
def fractionField (x : Binary64) : Nat := x.bits.toNat % exponentUnit

/-- Neither infinite nor a NaN. -/
def isFinite (x : Binary64) : Bool := x.exponentField != 2047

/-- Infinite, of either sign. -/
def isInfinite (x : Binary64) : Bool := x.exponentField == 2047 && x.fractionField == 0

/-- Not a number. -/
def isNaN (x : Binary64) : Bool := x.exponentField == 2047 && x.fractionField != 0

/-- Zero, of either sign. -/
def isZero (x : Binary64) : Bool := x.exponentField == 0 && x.fractionField == 0

/-- The integer significand of a finite number. -/
def significand (x : Binary64) : Nat :=
  if x.exponentField = 0 then x.fractionField else exponentUnit + x.fractionField

/-- The exponent of two that a finite number's significand is scaled by. -/
def scale (x : Binary64) : Int :=
  if x.exponentField = 0 then -1074 else (x.exponentField : Int) - 1075

/-- The number with a sign and the lower 63 bits `magnitude`. -/
def ofMagnitude (negative : Bool) (magnitude : Nat) : Binary64 :=
  ⟨(if negative then signUnit + magnitude else magnitude).toUInt64⟩

/-- The bits of infinity without its sign. -/
def infinityMagnitude : Nat := 2047 * exponentUnit

/-- Zero with a sign. -/
def zero (negative : Bool) : Binary64 := ofMagnitude negative 0

/-- The number with its sign changed. -/
def neg (x : Binary64) : Binary64 := ofMagnitude (!x.isNegative) (x.bits.toNat % signUnit)

/-- Equality of numbers as numbers: zeros are equal, and a NaN equals nothing. -/
def sameNumber (x y : Binary64) : Bool :=
  !x.isNaN && !y.isNaN && (x == y || (x.isZero && y.isZero))

/-! ### Rounding -/

/-- The exponent `e` with `2 ^ e ≤ num / den < 2 ^ (e + 1)`, for positive `num` and `den`. -/
def floorLog2 (num den : Nat) : Int :=
  let e : Int := (Nat.log2 num : Int) - (Nat.log2 den : Int)
  if den * Nat.pow 2 e.toNat ≤ num * Nat.pow 2 (-e).toNat then e else e - 1

/-- A quotient of natural numbers rounded to an integer, a half going to the even neighbour. -/
def roundQuotient (num den : Nat) : Nat :=
  let q := num / den
  let twice := 2 * (num % den)
  if twice < den then q
  else if den < twice then q + 1
  else q + q % 2

/-- The number nearest to `num / den`, with a sign; what is too large becomes infinite. -/
def ofRatio (negative : Bool) (num den : Nat) : Binary64 :=
  if num = 0 then zero negative
  else
    let unit : Int := max (floorLog2 num den - 52) (-1074)
    let m := roundQuotient (num * Nat.pow 2 (-unit).toNat) (den * Nat.pow 2 unit.toNat)
    ofMagnitude negative (min ((unit + 1074).toNat * exponentUnit + m) infinityMagnitude)

/-- The number nearest to a natural number. -/
def ofNat (n : Nat) : Binary64 := ofRatio false n 1

/-- The number nearest to an integer. -/
def ofInt (i : Int) : Binary64 := ofRatio (i < 0) i.natAbs 1

/-- The number nearest to a power of ten. -/
def tenTo (k : Nat) : Binary64 := ofNat (Nat.pow 10 k)

/-- The product of finite numbers. -/
def mul (x y : Binary64) : Binary64 :=
  let scale := x.scale + y.scale
  ofRatio (x.isNegative != y.isNegative)
    (x.significand * y.significand * Nat.pow 2 scale.toNat) (Nat.pow 2 (-scale).toNat)

/-- The quotient of finite numbers, the second not zero. -/
def div (x y : Binary64) : Binary64 :=
  let scale := x.scale - y.scale
  ofRatio (x.isNegative != y.isNegative)
    (x.significand * Nat.pow 2 scale.toNat) (y.significand * Nat.pow 2 (-scale).toNat)

/-! ### Single precision -/

/-- The number that the bits of a single-precision one denote.  Every such number is exact; a NaN
keeps its sign and the leading bits of its fraction, and is quiet. -/
def ofBinary32 (bits : UInt32) : Binary64 :=
  let n := bits.toNat
  let negative : Bool := 0x80000000 ≤ n
  let exponent := n / 0x800000 % 256
  let fraction := n % 0x800000
  if exponent = 255 then
    if fraction = 0 then ofMagnitude negative infinityMagnitude
    else ofMagnitude negative
      (infinityMagnitude + exponentUnit / 2 + fraction % 0x400000 * 0x20000000)
  else if exponent = 0 then ofRatio negative fraction (Nat.pow 2 149)
  else ofRatio negative ((0x800000 + fraction) * Nat.pow 2 exponent) (Nat.pow 2 150)

end Binary64

end HubGateway
