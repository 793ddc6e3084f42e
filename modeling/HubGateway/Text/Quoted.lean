/-
**Quoted text.**

A message that shows a text puts it between double quotes and escapes what could not be read
there: the quote, the backslash, control characters, and every character that has no visible
form of its own.

Main definitions:

* `HubGateway.Text.escapeVisible` — one character within quotes;
* `HubGateway.Text.quoted` — a text within quotes.
-/

import HubGateway.Text.Unicode.Visibility
import HubGateway.Text.Lowercase
import HubGateway.Text.Hex

set_option relaxedAutoImplicit false
set_option autoImplicit false

namespace HubGateway.Text

/-- Whether a character is shown as it is: it is printable, begins a grapheme of its own, and is not
one to be ignored where it has no effect. -/
def isVisible (c : Char) : Bool :=
  !inRanges unprintableRanges c.toNat && !inRanges graphemeExtendRanges c.toNat
    && !inRanges defaultIgnorableRanges c.toNat

/-- A character as it appears within double quotes. -/
def escapeVisible (c : Char) : List Char :=
  if c = '"' then ['\\', '"']
  else if c = '\\' then ['\\', '\\']
  else if c = '\n' then ['\\', 'n']
  else if c = '\r' then ['\\', 'r']
  else if c = '\t' then ['\\', 't']
  else if c = Char.ofNat 0 then ['\\', '0']
  else if isVisible c then [c]
  else ['\\', 'u', '{'] ++ Hex.numeral c.toNat ++ ['}']

/-- A text within double quotes. -/
def quoted (s : String) : String :=
  String.ofList ('"' :: (s.toList.flatMap escapeVisible ++ ['"']))

end HubGateway.Text
