/-
**Cutting text at a mark.**

Entries of headers and queries are a name and a value with a mark between them, of one character or
of several.  They are cut where the mark first occurs, so that values may hold it.

Main definitions:

* `HubGateway.Text.cutAt` — the two sides of the first occurrence of a mark.
-/

set_option relaxedAutoImplicit false
set_option autoImplicit false

namespace HubGateway.Text

/-- What stands before and after the first occurrence of `mark`. -/
def cutAt (mark : List Char) : List Char → Option (List Char × List Char)
  | [] => if mark.isEmpty then some ([], []) else none
  | c :: cs =>
    if mark.isPrefixOf (c :: cs) then some ([], (c :: cs).drop mark.length)
    else (cutAt mark cs).map fun (before, after) => (c :: before, after)

end HubGateway.Text
