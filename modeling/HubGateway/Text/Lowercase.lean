/-
**Lowercase names.**

Hubs, events and message targets are compared without regard to case.  The comparison folds both
sides to lowercase by the full Unicode rules: most characters map to one character, the capital
`I` with a dot to two, and a capital sigma at the end of a word to the final small sigma.

A sigma ends a word when a cased character stands before it and none after it, where characters
that case detection looks through do not count.

Main definitions:

* `HubGateway.Text.lowercase` — the lowercase form of a text;
* `HubGateway.Text.sameFolded` — equality of lowercase forms;
* `HubGateway.Text.sameAscii` — equality up to the case of ASCII letters alone.
-/

import HubGateway.Text.Unicode.LetterCase

set_option relaxedAutoImplicit false
set_option autoImplicit false

namespace HubGateway.Text

/-- Whether a code point lies in one of the ranges. -/
def inRanges (ranges : List (Nat × Nat)) (n : Nat) : Bool :=
  ranges.any fun (first, last) => first ≤ n && n ≤ last

/-- Whether a character has case. -/
def isCased (c : Char) : Bool := inRanges casedRanges c.toNat

/-- Whether case detection looks through a character. -/
def isCaseIgnorable (c : Char) : Bool := inRanges caseIgnorableRanges c.toNat

/-- The lowercase form of a character on its own. -/
def lowercaseChar (c : Char) : List Char :=
  let n := c.toNat
  if n < 0x80 then [c.toLower]
  else if n = 0x130 then ['i', Char.ofNat 0x307]
  else
    match lowercaseRuns.find? fun (first, last, step, _) =>
        first ≤ n && n ≤ last && (n - first) % step == 0 with
    | some (_, _, _, distance) => [Char.ofNat (n + distance).toNat]
    | none => [c]

/-- Whether the nearest character that counts for case detection is cased. -/
def startsCased (cs : List Char) : Bool :=
  match cs.dropWhile isCaseIgnorable with
  | [] => false
  | c :: _ => isCased c

/-- The lowercase form of characters that stand after the reversed characters `before`. -/
def lowercaseFrom (before : List Char) : List Char → List Char
  | [] => []
  | c :: cs =>
    (if c.toNat = 0x3A3 then
      [if startsCased before && !startsCased cs then Char.ofNat 0x3C2 else Char.ofNat 0x3C3]
    else lowercaseChar c) ++ lowercaseFrom (c :: before) cs

/-- The lowercase form of a text. -/
def lowercase (s : String) : String := String.ofList (lowercaseFrom [] s.toList)

/-- Whether two names have the same lowercase form. -/
def sameFolded (a b : String) : Bool := lowercase a == lowercase b

/-- A text with its ASCII capital letters made small. -/
def lowerAscii (s : String) : String := String.ofList (s.toList.map Char.toLower)

/-- Whether two texts are equal up to the case of ASCII letters. -/
def sameAscii (a b : String) : Bool := lowerAscii a == lowerAscii b

end HubGateway.Text
