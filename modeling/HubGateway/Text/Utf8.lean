/-
**UTF-8 over byte lists.**

Bytes that travel between the hub and the gateway are lists of `UInt8`; text is a `String`.  This
module holds the two directions between them.  Decoding is total and says precisely why bytes are
not UTF-8: the fault names the first byte that belongs to no encoded character and how many bytes
from there on form the longest beginning of an encoded character that the next byte contradicts.

Main definitions:

* `HubGateway.Utf8.encode` — the encoding of a text;
* `HubGateway.Utf8.decode` — the text that bytes encode, or the `Fault` that stops the reading.
-/

set_option relaxedAutoImplicit false
set_option autoImplicit false

namespace HubGateway.Utf8

/-- Why bytes are not UTF-8. -/
inductive Fault where
  /-- The `length` bytes at `index` begin no encoded character. -/
  | invalid (length index : Nat)
  /-- The bytes end within the character that begins at `index`. -/
  | incomplete (index : Nat)
  deriving DecidableEq

/-- The wording of a fault. -/
def Fault.message : Fault → String
  | .invalid length index => s!"invalid utf-8 sequence of {length} bytes from index {index}"
  | .incomplete index => s!"incomplete utf-8 byte sequence from index {index}"

/-! ### Encoding -/

/-- The one to four bytes of a character. -/
def encodeChar (c : Char) : List UInt8 :=
  let n := c.toNat
  if n < 0x80 then [n.toUInt8]
  else if n < 0x800 then [(0xC0 + n / 64).toUInt8, (0x80 + n % 64).toUInt8]
  else if n < 0x10000 then
    [(0xE0 + n / 4096).toUInt8, (0x80 + n / 64 % 64).toUInt8, (0x80 + n % 64).toUInt8]
  else
    [(0xF0 + n / 262144).toUInt8, (0x80 + n / 4096 % 64).toUInt8, (0x80 + n / 64 % 64).toUInt8,
      (0x80 + n % 64).toUInt8]

/-- The bytes of a list of characters. -/
def encodeChars (cs : List Char) : List UInt8 := cs.flatMap encodeChar

/-- The bytes of a text. -/
def encode (s : String) : List UInt8 := encodeChars s.toList

@[simp] theorem encodeChars_nil : encodeChars [] = [] := rfl

@[simp] theorem encodeChars_cons (c : Char) (cs : List Char) :
    encodeChars (c :: cs) = encodeChar c ++ encodeChars cs := rfl

@[simp] theorem encodeChars_append (as bs : List Char) :
    encodeChars (as ++ bs) = encodeChars as ++ encodeChars bs := by
  simp [encodeChars]

/-! ### Decoding -/

/-- A byte that can only continue a character. -/
def isContinuation (b : UInt8) : Bool := 0x80 ≤ b && b ≤ 0xBF

/-- Whether `b₁` may follow the leading byte `b₀`: a continuation byte that makes the form neither
overlong, nor a surrogate, nor larger than the last scalar value. -/
def mayFollow (b₀ b₁ : UInt8) : Bool :=
  if b₀ = 0xE0 then 0xA0 ≤ b₁ && b₁ ≤ 0xBF
  else if b₀ = 0xED then 0x80 ≤ b₁ && b₁ ≤ 0x9F
  else if b₀ = 0xF0 then 0x90 ≤ b₁ && b₁ ≤ 0xBF
  else if b₀ = 0xF4 then 0x80 ≤ b₁ && b₁ ≤ 0x8F
  else isContinuation b₁

/-- The character of a two-byte form. -/
def char₂ (b₀ b₁ : UInt8) : Char :=
  Char.ofNat ((b₀.toNat - 0xC0) * 64 + (b₁.toNat - 0x80))

/-- The character of a three-byte form. -/
def char₃ (b₀ b₁ b₂ : UInt8) : Char :=
  Char.ofNat ((b₀.toNat - 0xE0) * 4096 + (b₁.toNat - 0x80) * 64 + (b₂.toNat - 0x80))

/-- The character of a four-byte form. -/
def char₄ (b₀ b₁ b₂ b₃ : UInt8) : Char :=
  Char.ofNat ((b₀.toNat - 0xF0) * 262144 + (b₁.toNat - 0x80) * 4096 + (b₂.toNat - 0x80) * 64
    + (b₃.toNat - 0x80))

/-- Reads characters from index `i` on, in front of which `acc` was read (last character first). -/
def decodeFrom : Nat → List Char → List UInt8 → Except Fault (List Char)
  | _, acc, [] => .ok acc.reverse
  | i, acc, b₀ :: rest =>
    if b₀ < 0x80 then decodeFrom (i + 1) (Char.ofNat b₀.toNat :: acc) rest
    else if b₀ < 0xC2 || 0xF4 < b₀ then .error (.invalid 1 i)
    else match rest with
      | [] => .error (.incomplete i)
      | b₁ :: rest =>
        if !mayFollow b₀ b₁ then .error (.invalid 1 i)
        else if b₀ < 0xE0 then decodeFrom (i + 2) (char₂ b₀ b₁ :: acc) rest
        else match rest with
          | [] => .error (.incomplete i)
          | b₂ :: rest =>
            if !isContinuation b₂ then .error (.invalid 2 i)
            else if b₀ < 0xF0 then decodeFrom (i + 3) (char₃ b₀ b₁ b₂ :: acc) rest
            else match rest with
              | [] => .error (.incomplete i)
              | b₃ :: rest =>
                if !isContinuation b₃ then .error (.invalid 3 i)
                else decodeFrom (i + 4) (char₄ b₀ b₁ b₂ b₃ :: acc) rest

/-- The characters that bytes encode. -/
def decodeChars (bytes : List UInt8) : Except Fault (List Char) := decodeFrom 0 [] bytes

/-- The text that bytes encode. -/
def decode (bytes : List UInt8) : Except Fault String := (decodeChars bytes).map String.ofList

/-- The text that bytes encode, if they encode one. -/
def decode? (bytes : List UInt8) : Option String := (decode bytes).toOption

end HubGateway.Utf8
