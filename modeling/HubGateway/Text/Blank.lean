/-
**White space.**

Header values and configured keys are compared after the white space around them is removed.
White space is the Unicode property of that name, not the ASCII class.

Main definitions:

* `HubGateway.Text.isBlank` — the property;
* `HubGateway.Text.trim` — a text without the white space at its ends;
* `HubGateway.Text.isBlankText` — a text of white space only.
-/

set_option relaxedAutoImplicit false
set_option autoImplicit false

namespace HubGateway.Text

/-- The Unicode property `White_Space`. -/
def isBlank (c : Char) : Bool :=
  let n := c.toNat
  (0x09 ≤ n && n ≤ 0x0D) || n == 0x20 || n == 0x85 || n == 0xA0 || n == 0x1680
    || (0x2000 ≤ n && n ≤ 0x200A) || n == 0x2028 || n == 0x2029 || n == 0x202F || n == 0x205F
    || n == 0x3000

/-- Characters without the white space before the first and after the last other one. -/
def trimChars (cs : List Char) : List Char :=
  (((cs.dropWhile isBlank).reverse).dropWhile isBlank).reverse

/-- A text without the white space at its ends. -/
def trim (s : String) : String := String.ofList (trimChars s.toList)

/-- Whether a text holds nothing but white space. -/
def isBlankText (s : String) : Bool := s.toList.all isBlank

end HubGateway.Text
