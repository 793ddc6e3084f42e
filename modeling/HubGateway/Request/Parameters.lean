/-
**Parameters carried in headers.**

Two headers carry named texts.  A client query consists of fragments between ampersands, each a
name and a value around an equals sign, both percent-encoded.  Claims stand between commas, each a
type and a value around a colon and a blank.  Fragments without the mark or without a name are
dropped, and the values of one name are joined with commas.

Main definitions:

* `HubGateway.Parameters.ofQuery` — the parameters of a client query;
* `HubGateway.Parameters.ofClaims` — the claims of a user;
* `HubGateway.Parameters.splitList` — the elements of a list between commas.
-/

import HubGateway.Entries
import HubGateway.Text.Blank
import HubGateway.Text.Percent
import HubGateway.Text.Split

set_option relaxedAutoImplicit false
set_option autoImplicit false

namespace HubGateway.Parameters

/-- Named texts, in the order of their names. -/
abbrev Table := List (String × String)

/-- The table of pairs; the texts of one name are joined with commas. -/
def ofPairs (pairs : List (String × String)) : Table :=
  pairs.foldl (fun table (name, text) => Entries.adjoin name text table) []

/-! ### Client queries -/

/-- The name and value of a fragment, decoded. -/
def queryPair? (fragment : List Char) : Option (String × String) :=
  match Text.cutAt ['='] fragment with
  | none => none
  | some (name, value) =>
    if name.isEmpty then none
    else some (Percent.decode (String.ofList name), Percent.decode (String.ofList value))

/-- The fragments of a query, without the question marks at its beginning. -/
def queryFragments (raw : String) : List (List Char) :=
  (raw.toList.dropWhile (· == '?')).splitOn '&'

/-- The parameters of a client query. -/
def ofQuery (raw : String) : Table := ofPairs ((queryFragments raw).filterMap queryPair?)

/-! ### Claims -/

/-- The type and value of a claim, without the blanks around them. -/
def claimPair? (entry : List Char) : Option (String × String) :=
  match Text.cutAt [':', ' '] entry with
  | none => none
  | some (type, value) =>
    let type := Text.trimChars type
    if type.isEmpty then none
    else some (String.ofList type, String.ofList (Text.trimChars value))

/-- The claims of a user. -/
def ofClaims (raw : String) : Table := ofPairs ((raw.toList.splitOn ',').filterMap claimPair?)

/-! ### Lists -/

/-- The elements of a list between commas, without the blanks around them; empty ones are
dropped. -/
def splitList (raw : String) : List String :=
  (((raw.toList.splitOn ',').map Text.trimChars).filter (!·.isEmpty)).map String.ofList

end HubGateway.Parameters
