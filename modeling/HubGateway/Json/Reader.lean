/-
**Reading JSON texts.**

One grammar of JSON texts serves several readings.  The grammar is fixed: blanks between tokens,
literals, numerals, strings, arrays and objects, with no comma before a closing bracket.  What a
reading makes of the parts is a `Reading`: a value for each literal, a meaning or a refusal for
each numeral and string, and a value for each container.  The tree of a document is one reading,
the value of an argument another, and passing over a part unread a third.

Strings are scanned into pieces first.  A piece is a byte that stands for itself, or a UTF-16 code
unit given by a `\u` escape; the text of the pieces exists if surrogates are paired and the bytes
are UTF-8.

Containers may be nested only up to a given depth.

Main definitions:

* `HubGateway.Json.Piece`, `HubGateway.Json.scanString`, `HubGateway.Json.piecesText?` — strings;
* `HubGateway.Json.Reading`, `HubGateway.Json.read`, `HubGateway.Json.readDocument` — the grammar;
* `HubGateway.Json.tree`, `HubGateway.Json.parse` — the tree of a document.
-/

import HubGateway.Entries
import HubGateway.Json.Numeral
import HubGateway.Text.Utf8
import HubGateway.Text.Hex

set_option relaxedAutoImplicit false
set_option autoImplicit false

namespace HubGateway.Json

/-! ### Blanks and literals -/

/-- The bytes that may stand between tokens: space, tab, line feed and carriage return. -/
def isBlankByte (b : UInt8) : Bool := b == 0x20 || b == 0x09 || b == 0x0A || b == 0x0D

/-- Bytes without the blanks at their beginning. -/
def dropBlanks : List UInt8 → List UInt8
  | [] => []
  | b :: rest => if isBlankByte b then dropBlanks rest else b :: rest

/-- The bytes behind `word`, if they begin with it. -/
def afterWord : List UInt8 → List UInt8 → Option (List UInt8)
  | [], bytes => some bytes
  | _ :: _, [] => none
  | w :: word, b :: bytes => if w = b then afterWord word bytes else none

/-! ### Strings -/

/-- A piece of a string between its quotes. -/
inductive Piece where
  /-- A byte of the string's UTF-8 text. -/
  | byte (b : UInt8)
  /-- A UTF-16 code unit. -/
  | codeUnit (u : Nat)
  deriving DecidableEq

/-- The piece of a one-letter escape. -/
def shortEscape? (letter : UInt8) : Option Piece :=
  match letter with
  | 0x22 => some (.byte 0x22)
  | 0x5C => some (.byte 0x5C)
  | 0x2F => some (.byte 0x2F)
  | 0x62 => some (.byte 0x08)
  | 0x66 => some (.byte 0x0C)
  | 0x6E => some (.byte 0x0A)
  | 0x72 => some (.byte 0x0D)
  | 0x74 => some (.byte 0x09)
  | _ => none

/-- The code unit of four hexadecimal digits. -/
def codeUnit? (a b c d : UInt8) : Option Nat := do
  let a ← Hex.value? a
  let b ← Hex.value? b
  let c ← Hex.value? c
  let d ← Hex.value? d
  return ((a * 16 + b) * 16 + c) * 16 + d

/-- The pieces up to the closing quote, in front of which `acc` was read (last piece first), and
the bytes behind the quote. -/
def scanStringFrom : List Piece → List UInt8 → Option (List Piece × List UInt8)
  | _, [] => none
  | acc, 0x22 :: rest => some (acc.reverse, rest)
  | acc, 0x5C :: 0x75 :: a :: b :: c :: d :: rest =>
    match codeUnit? a b c d with
    | some u => scanStringFrom (.codeUnit u :: acc) rest
    | none => none
  | acc, 0x5C :: letter :: rest =>
    match shortEscape? letter with
    | some piece => scanStringFrom (piece :: acc) rest
    | none => none
  | acc, b :: rest => if b < 0x20 || b = 0x5C then none else scanStringFrom (.byte b :: acc) rest

/-- The pieces of a string whose opening quote was read, and the bytes behind its closing one. -/
def scanString (bytes : List UInt8) : Option (List Piece × List UInt8) := scanStringFrom [] bytes

/-- The character of a high and a low surrogate. -/
def pairedChar (high low : Nat) : Char :=
  Char.ofNat (0x10000 + (high - 0xD800) * 1024 + (low - 0xDC00))

/-- The UTF-8 bytes of pieces, in front of which `acc` was read (last byte first); surrogates must
come in pairs. -/
def piecesBytesFrom : List UInt8 → List Piece → Option (List UInt8)
  | acc, [] => some acc.reverse
  | acc, .byte b :: pieces => piecesBytesFrom (b :: acc) pieces
  | acc, .codeUnit u :: pieces =>
    if u < 0xD800 || 0xDFFF < u then
      piecesBytesFrom ((Utf8.encodeChar (Char.ofNat u)).reverse ++ acc) pieces
    else if 0xDC00 ≤ u then none
    else match pieces with
      | .codeUnit v :: pieces =>
        if 0xDC00 ≤ v && v ≤ 0xDFFF then
          piecesBytesFrom ((Utf8.encodeChar (pairedChar u v)).reverse ++ acc) pieces
        else none
      | _ => none

/-- The text of the pieces of a string. -/
def piecesText? (pieces : List Piece) : Option String :=
  (piecesBytesFrom [] pieces).bind Utf8.decode?

/-! ### The grammar -/

/-- What a reading makes of the parts of a document: names become `κ`, values become `α`. -/
structure Reading (κ α : Type) where
  null : α
  bool : Bool → α
  number : Numeral → Option α
  string : List Piece → Option α
  array : List α → α
  name : List Piece → Option κ
  object : List (κ × α) → α

/-- The items of an array after its first bracket or a comma, in front of which `acc` was read
(last item first); `fuel` bounds their number. -/
def readItems {α : Type} (item : List UInt8 → Option (α × List UInt8)) :
    Nat → List α → List UInt8 → Option (List α × List UInt8)
  | 0, _, _ => none
  | fuel + 1, acc, bytes =>
    match item bytes with
    | none => none
    | some (value, rest) =>
      match dropBlanks rest with
      | 0x2C :: rest => readItems item fuel (value :: acc) rest
      | 0x5D :: rest => some ((value :: acc).reverse, rest)
      | _ => none

/-- The items of an array whose opening bracket was read. -/
def readArray {α : Type} (item : List UInt8 → Option (α × List UInt8)) (fuel : Nat)
    (bytes : List UInt8) : Option (List α × List UInt8) :=
  match dropBlanks bytes with
  | 0x5D :: rest => some ([], rest)
  | bytes => readItems item fuel [] bytes

/-- One member: a quoted name, a colon and a value that may depend on the name. -/
def readMember {κ α : Type} (name : List Piece → Option κ)
    (value : κ → List UInt8 → Option (α × List UInt8)) (bytes : List UInt8) :
    Option ((κ × α) × List UInt8) :=
  match dropBlanks bytes with
  | 0x22 :: rest =>
    match scanString rest with
    | none => none
    | some (pieces, rest) =>
      match name pieces with
      | none => none
      | some key =>
        match dropBlanks rest with
        | 0x3A :: rest =>
          match value key rest with
          | none => none
          | some (v, rest) => some ((key, v), rest)
        | _ => none
  | _ => none

/-- The members of an object after its first brace or a comma, in front of which `acc` was read
(last member first); `fuel` bounds their number. -/
def readMembers {α : Type} (member : List UInt8 → Option (α × List UInt8)) :
    Nat → List α → List UInt8 → Option (List α × List UInt8)
  | 0, _, _ => none
  | fuel + 1, acc, bytes =>
    match member bytes with
    | none => none
    | some (value, rest) =>
      match dropBlanks rest with
      | 0x2C :: rest => readMembers member fuel (value :: acc) rest
      | 0x7D :: rest => some ((value :: acc).reverse, rest)
      | _ => none

/-- The members of an object whose opening brace was read. -/
def readObject {α : Type} (member : List UInt8 → Option (α × List UInt8)) (fuel : Nat)
    (bytes : List UInt8) : Option (List α × List UInt8) :=
  match dropBlanks bytes with
  | 0x7D :: rest => some ([], rest)
  | bytes => readMembers member fuel [] bytes

/-- A value, in which at most `depth` containers may be nested, and the bytes behind it. -/
def read {κ α : Type} (r : Reading κ α) (fuel : Nat) :
    Nat → List UInt8 → Option (α × List UInt8)
  | depth, bytes =>
    match dropBlanks bytes with
    | 0x6E :: rest => (afterWord [0x75, 0x6C, 0x6C] rest).map fun rest => (r.null, rest)
    | 0x74 :: rest => (afterWord [0x72, 0x75, 0x65] rest).map fun rest => (r.bool true, rest)
    | 0x66 :: rest =>
      (afterWord [0x61, 0x6C, 0x73, 0x65] rest).map fun rest => (r.bool false, rest)
    | 0x22 :: rest =>
      match scanString rest with
      | none => none
      | some (pieces, rest) => (r.string pieces).map fun value => (value, rest)
    | 0x5B :: rest =>
      match depth with
      | 0 => none
      | depth + 1 =>
        (readArray (read r fuel depth) fuel rest).map fun (items, rest) => (r.array items, rest)
    | 0x7B :: rest =>
      match depth with
      | 0 => none
      | depth + 1 =>
        (readObject (readMember r.name fun _ => read r fuel depth) fuel rest).map
          fun (members, rest) => (r.object members, rest)
    | bytes =>
      match scanNumeral bytes with
      | none => none
      | some (numeral, rest) => (r.number numeral).map fun value => (value, rest)

/-- The result of a part that only blanks may follow. -/
def atEnd {α : Type} : Option (α × List UInt8) → Option α
  | some (value, rest) => if (dropBlanks rest).isEmpty then some value else none
  | none => none

/-- How many containers a document may nest. -/
def maxNesting : Nat := 127

/-- A whole document. -/
def readDocument {κ α : Type} (r : Reading κ α) (bytes : List UInt8) : Option α :=
  atEnd (read r bytes.length maxNesting bytes)

/-! ### Trees -/

/-- The reading of a document as a tree; of members with one name the last counts. -/
def tree : Reading String Json where
  null := .null
  bool := .bool
  number n := n.toNumber?.map .number
  string pieces := (piecesText? pieces).map .string
  array := .array
  name := piecesText?
  object members := .object (Entries.ofList members)

/-- The tree of a document. -/
def parse (bytes : List UInt8) : Option Json := readDocument tree bytes

end HubGateway.Json
