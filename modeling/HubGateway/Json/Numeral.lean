/-
**Numerals of JSON texts.**

A numeral is read in two steps.  The first collects its digits: a sign, the whole part without
superfluous leading zeros, a fraction and an exponent.  The second gives its meaning.  A numeral
without fraction and exponent is an integer if 64 bits hold it; negative zero and all other
numerals are double-precision numbers.

A double-precision meaning takes as many leading digits as a 64-bit significand holds.  The digits
of the whole part that are left over raise the decimal exponent by one each, those of the fraction
are dropped.  The significand, rounded to double precision, is then multiplied or divided by the
power of ten nearest to the one that the exponent asks for, rounding once more; powers beyond the
largest finite one are divided off in steps.  A meaning that would be infinite is refused.

Main definitions:

* `HubGateway.Json.Numeral` — the parts of a numeral;
* `HubGateway.Json.scanNumeral` — a numeral at the beginning of bytes;
* `HubGateway.Json.Numeral.toNumber?` — the number that a numeral means.
-/

import HubGateway.Json.Basic

set_option relaxedAutoImplicit false
set_option autoImplicit false

namespace HubGateway.Json

/-- The exponent part of a numeral. -/
structure Numeral.Exponent where
  negative : Bool
  digits : List Nat
  deriving DecidableEq

/-- The parts of a numeral; the fraction is empty when there is none. -/
structure Numeral where
  negative : Bool
  whole : List Nat
  fraction : List Nat
  exponent : Option Numeral.Exponent
  deriving DecidableEq

/-! ### Scanning -/

/-- Whether a byte is a decimal digit. -/
def isDigit (b : UInt8) : Bool := 0x30 ≤ b && b ≤ 0x39

/-- The digits at the beginning of bytes, in front of which `acc` was read (last digit first). -/
def scanDigitsFrom : List Nat → List UInt8 → List Nat × List UInt8
  | acc, [] => (acc.reverse, [])
  | acc, b :: rest =>
    if isDigit b then scanDigitsFrom ((b.toNat - 0x30) :: acc) rest else (acc.reverse, b :: rest)

/-- The digits at the beginning of bytes. -/
def scanDigits (bytes : List UInt8) : List Nat × List UInt8 := scanDigitsFrom [] bytes

/-- The whole part: a single zero, or digits that begin with another one. -/
def scanWhole (bytes : List UInt8) : Option (List Nat × List UInt8) :=
  match scanDigits bytes with
  | ([], _) => none
  | ([0], rest) => some ([0], rest)
  | (0 :: _, _) => none
  | (digits, rest) => some (digits, rest)

/-- The fraction: nothing, or a point and at least one digit. -/
def scanFraction (bytes : List UInt8) : Option (List Nat × List UInt8) :=
  match bytes with
  | 0x2E :: rest =>
    match scanDigits rest with
    | ([], _) => none
    | (digits, rest) => some (digits, rest)
  | _ => some ([], bytes)

/-- The sign of an exponent. -/
def scanExponentSign (bytes : List UInt8) : Bool × List UInt8 :=
  match bytes with
  | 0x2B :: rest => (false, rest)
  | 0x2D :: rest => (true, rest)
  | _ => (false, bytes)

/-- The exponent: nothing, or the letter, a sign or none, and at least one digit. -/
def scanExponent (bytes : List UInt8) : Option (Option Numeral.Exponent × List UInt8) :=
  match bytes with
  | b :: rest =>
    if b = 0x65 || b = 0x45 then
      let (negative, rest) := scanExponentSign rest
      match scanDigits rest with
      | ([], _) => none
      | (digits, rest) => some (some ⟨negative, digits⟩, rest)
    else some (none, bytes)
  | [] => some (none, [])

/-- A numeral at the beginning of bytes, and the bytes behind it. -/
def scanNumeral (bytes : List UInt8) : Option (Numeral × List UInt8) := do
  let (negative, bytes) :=
    match bytes with
    | 0x2D :: rest => (true, rest)
    | _ => (false, bytes)
  let (whole, bytes) ← scanWhole bytes
  let (fraction, bytes) ← scanFraction bytes
  let (exponent, bytes) ← scanExponent bytes
  return (⟨negative, whole, fraction, exponent⟩, bytes)

/-! ### Meaning -/

/-- Appends digits to a significand as long as 64 bits hold it; gives the digits left over. -/
def absorb : Nat → List Nat → Nat × List Nat
  | s, [] => (s, [])
  | s, d :: digits =>
    if s * 10 + d < 0x10000000000000000 then absorb (s * 10 + d) digits else (s, d :: digits)

/-- The value of digits. -/
def digitsValue (digits : List Nat) : Nat := digits.foldl (fun n d => n * 10 + d) 0

/-- Division by the largest finite power of ten, up to `steps` times; zero is left alone. -/
def divideSteps : Nat → Binary64 → Binary64
  | 0, x => x
  | steps + 1, x => if x.isZero then x else divideSteps steps (x.div (Binary64.tenTo 308))

/-- Division by `10 ^ k`: as many steps as leave a power that is finite, and then by that one. -/
def divideByTenTo (x : Binary64) (k : Nat) : Binary64 :=
  let steps := (k - 1) / 308
  (divideSteps steps x).div (Binary64.tenTo (k - 308 * steps))

/-- A significand times a power of ten, if that is finite. -/
def scaleByTenTo (significand : Nat) (exponent : Int) : Option Binary64 :=
  let x := Binary64.ofNat significand
  if exponent < 0 then some (divideByTenTo x exponent.natAbs)
  else if x.isZero then some x
  else if 308 < exponent then none
  else
    let y := x.mul (Binary64.tenTo exponent.toNat)
    if y.isFinite then some y else none

/-- A double-precision number as a number of a tree, with a sign put on it. -/
def signedFloat (negative : Bool) (x : Binary64) : Option Number :=
  let x := if negative then x.neg else x
  if finite : x.isFinite = true then some (.float x finite) else none

/-- The integer of a significand with a sign, if 64 bits hold it; negative zero is no integer. -/
def signedInteger? (negative : Bool) (significand : Nat) : Option Number :=
  let value : Int := if negative then -significand else significand
  if negative && significand == 0 then none
  else if inRange : -0x8000000000000000 ≤ value ∧ value < 0x10000000000000000 then
    some (.integer value inRange)
  else none

/-- The number that a significand, the digits left over and an exponent mean. -/
def floatMeaning (n : Numeral) (significand : Nat) (exponent : Int) : Option Number :=
  match n.exponent with
  | none => (scaleByTenTo significand exponent).bind (signedFloat n.negative)
  | some e =>
    let written := digitsValue e.digits
    if written < 0x80000000 then
      (scaleByTenTo significand (if e.negative then exponent - written else exponent + written)).bind
        (signedFloat n.negative)
    else if e.negative || significand == 0 then signedFloat n.negative (Binary64.zero false)
    else none

/-- The number that a numeral means, if there is one. -/
def Numeral.toNumber? (n : Numeral) : Option Number :=
  let (significand, left) := absorb 0 n.whole
  if n.fraction.isEmpty && n.exponent.isNone && left.isEmpty then
    match signedInteger? n.negative significand with
    | some meaning => some meaning
    | none => signedFloat n.negative (Binary64.ofNat significand)
  else
    let (significand, dropped) := absorb significand n.fraction
    floatMeaning n significand (left.length - (n.fraction.length - dropped.length : Nat))

end HubGateway.Json
