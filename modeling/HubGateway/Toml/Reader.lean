/-
**Reading configuration documents.**

A document is a sequence of lines: headers of tables, keys with values, comments and empty lines.
Arrays may run over several lines and end with a comma, tables written in line may not.  There are
four kinds of strings: quoted with escapes or without, on one line or on several.

Main definitions:

* `HubGateway.Toml.readKey` — a key, dotted or not;
* `HubGateway.Toml.readValue` — a value;
* `HubGateway.Toml.parse` — the entries of a document.
-/

import HubGateway.Toml.Scalar

set_option relaxedAutoImplicit false
set_option autoImplicit false

namespace HubGateway.Toml

/-- What was read, and the characters behind it. -/
abbrev Read (α : Type) := Option (α × List Char)

/-! ### Blanks, comments and lines -/

/-- Whether a character is a blank within a line. -/
def isBlank (c : Char) : Bool := c == ' ' || c == '\t'

/-- Characters without the blanks at their beginning. -/
def dropBlanks (cs : List Char) : List Char := cs.dropWhile isBlank

/-- Whether a character may stand in text: a tab, or anything but a control character. -/
def isTextChar (c : Char) : Bool := c == '\t' || (0x20 ≤ c.toNat && c.toNat != 0x7F)

/-- Characters without a comment at their beginning. -/
def dropComment : List Char → List Char
  | '#' :: rest => rest.dropWhile isTextChar
  | cs => cs

/-- The characters behind the end of a line. -/
def afterLine : List Char → Option (List Char)
  | [] => some []
  | '\n' :: rest => some rest
  | '\r' :: '\n' :: rest => some rest
  | _ => none

/-- The characters behind a line of which only blanks and a comment are left. -/
def endLine (cs : List Char) : Option (List Char) := afterLine (dropComment (dropBlanks cs))

/-- Characters without the blanks, line ends and comments at their beginning; `comment` tells whether
they begin within a comment. -/
def dropTriviaFrom : Bool → List Char → List Char
  | _, [] => []
  | _, '\n' :: rest => dropTriviaFrom false rest
  | _, '\r' :: '\n' :: rest => dropTriviaFrom false rest
  | true, c :: rest => if isTextChar c then dropTriviaFrom true rest else c :: rest
  | false, c :: rest =>
    if isBlank c then dropTriviaFrom false rest
    else if c = '#' then dropTriviaFrom true rest
    else c :: rest

/-- Characters without the blanks, line ends and comments at their beginning. -/
def dropTrivia (cs : List Char) : List Char := dropTriviaFrom false cs

/-! ### Strings -/

/-- The character of `count` hexadecimal digits, if they name one. -/
def readCodePoint (count : Nat) (cs : List Char) : Read Char :=
  let written := cs.take count
  if written.length = count then
    match written.mapM Hex.ofChar? with
    | some digits =>
      let n := value 16 digits
      if n.isValidChar then some (Char.ofNat n, cs.drop count) else none
    | none => none
  else none

/-- The character of an escape whose backslash was read. -/
def readEscape : List Char → Read Char
  | 'b' :: rest => some (Char.ofNat 8, rest)
  | 't' :: rest => some ('\t', rest)
  | 'n' :: rest => some ('\n', rest)
  | 'f' :: rest => some (Char.ofNat 12, rest)
  | 'r' :: rest => some ('\r', rest)
  | '"' :: rest => some ('"', rest)
  | '\\' :: rest => some ('\\', rest)
  | 'u' :: rest => readCodePoint 4 rest
  | 'U' :: rest => readCodePoint 8 rest
  | _ => none

/-- The string with escapes whose opening quote was read, in front of which `acc` was read (last
character first). -/
def readBasic : Nat → List Char → List Char → Read String
  | 0, _, _ => none
  | _ + 1, _, [] => none
  | _ + 1, acc, '"' :: rest => some (String.ofList acc.reverse, rest)
  | fuel + 1, acc, '\\' :: rest =>
    match readEscape rest with
    | some (c, rest) => readBasic fuel (c :: acc) rest
    | none => none
  | fuel + 1, acc, c :: rest => if isTextChar c then readBasic fuel (c :: acc) rest else none

/-- The string without escapes whose opening apostrophe was read. -/
def readLiteral (cs : List Char) : Read String :=
  let isLiteralChar (c : Char) : Bool := isTextChar c && c != '\''
  match cs.dropWhile isLiteralChar with
  | '\'' :: rest => some (String.ofList (cs.takeWhile isLiteralChar), rest)
  | _ => none

/-- Characters without one line end at their beginning. -/
def dropLineEnd : List Char → List Char
  | '\n' :: rest => rest
  | '\r' :: '\n' :: rest => rest
  | cs => cs

/-- The marks at the beginning of characters that close a string of several lines: up to two marks
in front of the closing three belong to the string. -/
def closing? (mark : Char) (cs : List Char) : Read (List Char) :=
  let count := (cs.takeWhile (· == mark)).length
  if count < 3 then none
  else
    let kept := min (count - 3) 2
    some (List.replicate kept mark, cs.drop (kept + 3))

/-- Whether characters behind a backslash are blanks up to the end of the line. -/
def endsLine (cs : List Char) : Bool :=
  match dropBlanks cs with
  | '\n' :: _ => true
  | '\r' :: '\n' :: _ => true
  | _ => false

/-- Characters without the blanks and line ends at their beginning. -/
def dropLines : List Char → List Char
  | '\r' :: '\n' :: rest => dropLines rest
  | c :: rest => if c = '\n' || isBlank c then dropLines rest else c :: rest
  | [] => []

/-- The string of several lines with the quote `mark`, in front of which `acc` was read (last
character first); with escapes if the mark is the double quote. -/
def readLines (mark : Char) : Nat → List Char → List Char → Read String
  | 0, _, _ => none
  | _ + 1, _, [] => none
  | fuel + 1, acc, c :: rest =>
    match closing? mark (c :: rest) with
    | some (kept, rest) => some (String.ofList (acc.reverse ++ kept), rest)
    | none =>
      if c = '\\' && mark = '"' then
        if endsLine rest then readLines mark fuel acc (dropLines rest)
        else
          match readEscape rest with
          | some (c, rest) => readLines mark fuel (c :: acc) rest
          | none => none
      else if c = '\n' || isTextChar c then readLines mark fuel (c :: acc) rest
      else
        match c, rest with
        | '\r', '\n' :: rest => readLines mark fuel ('\n' :: acc) rest
        | _, _ => none

/-- A string of any kind; `fuel` bounds its length. -/
def readString (fuel : Nat) (cs : List Char) : Read String :=
  match cs with
  | '"' :: '"' :: '"' :: rest => readLines '"' fuel [] (dropLineEnd rest)
  | '\'' :: '\'' :: '\'' :: rest => readLines '\'' fuel [] (dropLineEnd rest)
  | '"' :: rest => readBasic fuel [] rest
  | '\'' :: rest => readLiteral rest
  | _ => none

/-! ### Keys -/

/-- Whether a character may stand in a key without quotes. -/
def isBareChar (c : Char) : Bool := c.isAlphanum || c == '_' || c == '-'

/-- One name of a key, quoted or bare; `fuel` bounds its length. -/
def readName (fuel : Nat) (cs : List Char) : Read String :=
  match cs with
  | '"' :: rest => readBasic fuel [] rest
  | '\'' :: rest => readLiteral rest
  | cs =>
    let name := cs.takeWhile isBareChar
    if name.isEmpty then none else some (String.ofList name, cs.dropWhile isBareChar)

/-- Up to `count` names of a key, in front of which `acc` was read (last name first). -/
def readNames (fuel : Nat) : Nat → List String → List Char → Read (List String)
  | 0, _, _ => none
  | count + 1, acc, cs =>
    match readName fuel (dropBlanks cs) with
    | none => none
    | some (name, rest) =>
      match dropBlanks rest with
      | '.' :: rest => readNames fuel count (name :: acc) rest
      | rest => some ((name :: acc), rest)

/-- How many containers a value may nest, and how many names a key may have. -/
def maxNesting : Nat := 79

/-- A key: the names in front of its last one, and the last one; `fuel` bounds their lengths. -/
def readKey (fuel : Nat) (cs : List Char) : Read (List String × String) :=
  match readNames fuel maxNesting [] cs with
  | some (last :: before, rest) => some ((before.reverse, last), rest)
  | _ => none

/-! ### Values -/

/-- The items of an array behind its bracket or a comma, in front of which `acc` was read (last item
first). -/
def readItems (item : List Char → Read Toml) : Nat → List Toml → List Char → Read (List Toml)
  | 0, _, _ => none
  | fuel + 1, acc, cs =>
    match dropTrivia cs with
    | ']' :: rest => some (acc.reverse, rest)
    | cs =>
      match item cs with
      | none => none
      | some (value, rest) =>
        match dropTrivia rest with
        | ',' :: rest => readItems item fuel (value :: acc) rest
        | ']' :: rest => some ((value :: acc).reverse, rest)
        | _ => none

/-- A key, an equals sign and a value. -/
def readPair (item : List Char → Read Toml) (fuel : Nat) (cs : List Char) :
    Read ((List String × String) × Toml) :=
  match readKey fuel cs with
  | some (key, '=' :: rest) =>
    match item (dropBlanks rest) with
    | some (value, rest) => some ((key, value), rest)
    | none => none
  | _ => none

/-- Up to `count` pairs of a table written in line, behind its brace or a comma, added to
`entries`. -/
def readPairs (item : List Char → Read Toml) (fuel : Nat) :
    Nat → Entries → List Char → Read Entries
  | 0, _, _ => none
  | count + 1, entries, cs =>
    match readPair item fuel cs with
    | none => none
    | some (((path, key), value), rest) =>
      match addKey path key value entries with
      | none => none
      | some entries =>
        match dropBlanks rest with
        | ',' :: rest => readPairs item fuel count entries rest
        | '}' :: rest => some (entries, rest)
        | _ => none

/-- The table written in line whose opening brace was read. -/
def readInlineTable (item : List Char → Read Toml) (fuel : Nat) (cs : List Char) : Read Entries :=
  match dropBlanks cs with
  | '}' :: rest => some ([], rest)
  | cs => readPairs item fuel fuel [] cs

/-- A value in which at most `depth` containers may be nested; `fuel` bounds their sizes. -/
def readValue (fuel : Nat) : Nat → List Char → Read Toml
  | depth, cs =>
    match cs with
    | '[' :: rest =>
      match depth with
      | 0 => none
      | depth + 1 =>
        (readItems (readValue fuel depth) fuel [] rest).map fun (items, rest) =>
          (.array items, rest)
    | '{' :: rest =>
      match depth with
      | 0 => none
      | depth + 1 =>
        (readInlineTable (readValue fuel depth) fuel rest).map fun (entries, rest) =>
          (.table (finishEntries entries), rest)
    | '"' :: _ | '\'' :: _ => (readString fuel cs).map fun (text, rest) => (.string text, rest)
    | _ =>
      let (word, rest) := splitWord cs
      (scalar? word).map fun value => (value, rest)

/-! ### Documents -/

/-- The path of the table that a header names. -/
def pathOf (key : List String × String) : List String := key.1 ++ [key.2]

/-- The statements of a document of `size` characters: `entries` is what was built, and `current`
leads to the table that keys are set in. -/
def readStatements (size : Nat) : Nat → Entries → List String → List Char → Option Entries
  | 0, _, _, _ => none
  | fuel + 1, entries, current, cs =>
    match dropBlanks cs with
    | [] => some entries
    | '[' :: '[' :: rest =>
      match readKey size rest with
      | some (key, ']' :: ']' :: rest) =>
        match endLine rest, appendTable key.1 key.2 entries with
        | some rest, some entries => readStatements size fuel entries (pathOf key) rest
        | _, _ => none
      | _ => none
    | '[' :: rest =>
      match readKey size rest with
      | some (key, ']' :: rest) =>
        match endLine rest, openTable key.1 key.2 entries with
        | some rest, some entries => readStatements size fuel entries (pathOf key) rest
        | _, _ => none
      | _ => none
    | c :: rest =>
      if c = '#' || c = '\n' || c = '\r' then
        match endLine (c :: rest) with
        | some rest => readStatements size fuel entries current rest
        | none => none
      else
        match readPair (readValue size maxNesting) size (c :: rest) with
        | none => none
        | some ((key, value), rest) =>
          match endLine rest, within current (addKey key.1 key.2 value) entries with
          | some rest, some entries => readStatements size fuel entries current rest
          | _, _ => none

/-- The entries of a document; a byte order mark in front of it is passed over. -/
def parse (text : String) : Option (List (String × Toml)) :=
  let cs := match text.toList with
    | c :: rest => if c.toNat = 0xFEFF then rest else c :: rest
    | [] => []
  (readStatements (cs.length + 1) (cs.length + 1) [] [] cs).map finishEntries

end HubGateway.Toml
