/-
**Hexadecimal text.**

Signatures are carried as lowercase hexadecimal digits, two for each byte; percent escapes and
string escapes read hexadecimal digits of either case.

Main definitions:

* `HubGateway.Hex.digit`, `HubGateway.Hex.encode` — writing, in lowercase;
* `HubGateway.Hex.value?`, `HubGateway.Hex.ofChar?` — the value of one digit of either case.
-/

set_option relaxedAutoImplicit false
set_option autoImplicit false

namespace HubGateway.Hex

/-- The lowercase digit of a value below sixteen. -/
def digit (n : Nat) : Char := if n < 10 then Char.ofNat (48 + n) else Char.ofNat (87 + n)

/-- The two digits of a byte. -/
def encodeByte (b : UInt8) : List Char := [digit (b.toNat / 16), digit (b.toNat % 16)]

/-- The digits of bytes. -/
def encode (bytes : List UInt8) : List Char := bytes.flatMap encodeByte

/-- The value of the digit that a byte stands for in ASCII. -/
def value? (b : UInt8) : Option Nat :=
  if 0x30 ≤ b && b ≤ 0x39 then some (b.toNat - 0x30)
  else if 0x41 ≤ b && b ≤ 0x46 then some (b.toNat - 0x37)
  else if 0x61 ≤ b && b ≤ 0x66 then some (b.toNat - 0x57)
  else none

/-- The value of a digit. -/
def ofChar? (c : Char) : Option Nat := if c.toNat < 0x80 then value? c.toNat.toUInt8 else none

/-- The digits of a number in base sixteen, without leading zeros, in front of `acc`. -/
def numeralFrom : Nat → Nat → List Char → List Char
  | 0, _, acc => acc
  | fuel + 1, n, acc =>
    if n < 16 then digit n :: acc else numeralFrom fuel (n / 16) (digit (n % 16) :: acc)

/-- The digits of a number in base sixteen, without leading zeros. -/
def numeral (n : Nat) : List Char := numeralFrom (n + 1) n []

end HubGateway.Hex
