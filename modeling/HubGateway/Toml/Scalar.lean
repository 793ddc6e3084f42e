/-
**Numbers, dates and words of configuration documents.**

What is neither quoted nor bracketed is a word that runs to the next blank or punctuation mark.
The word as a whole decides what it is: a truth value, a date or time, a float, or an integer.  An
underscore may stand between two digits.  Integers fit 64 signed bits; decimal ones have no leading
zero, the others are marked as hexadecimal, octal or binary.

Main definitions:

* `HubGateway.Toml.integer?` — decimal and marked integers;
* `HubGateway.Toml.isFloat` — floats;
* `HubGateway.Toml.isDateTime` — dates, times, and both with or without an offset;
* `HubGateway.Toml.scalar?` — the value of a word.
-/

import HubGateway.Toml.Basic
import HubGateway.Binary64.Basic
import HubGateway.Text.Hex
import HubGateway.Text.Split

set_option relaxedAutoImplicit false
set_option autoImplicit false

namespace HubGateway.Toml

/-! ### Digits -/

/-- The value of a digit of a base up to sixteen. -/
def digit? (base : Nat) (c : Char) : Option Nat :=
  match Hex.ofChar? c with
  | some d => if d < base then some d else none
  | none => none

/-- The digits of a base, with at most one underscore between two neighbours; at least one digit. -/
def digits? (base : Nat) : List Char → Option (List Nat)
  | [] => none
  | [c] => (digit? base c).map fun d => [d]
  | c :: '_' :: rest =>
    match digit? base c, digits? base rest with
    | some d, some ds => some (d :: ds)
    | _, _ => none
  | c :: rest =>
    match digit? base c, digits? base rest with
    | some d, some ds => some (d :: ds)
    | _, _ => none

/-- The number that digits of a base write. -/
def value (base : Nat) (digits : List Nat) : Nat := digits.foldl (fun n d => n * base + d) 0

/-- The sign at the beginning of a word, and the rest. -/
def splitSign : List Char → Bool × List Char
  | '+' :: rest => (false, rest)
  | '-' :: rest => (true, rest)
  | cs => (false, cs)

/-! ### Integers -/

/-- Decimal digits without a leading zero. -/
def decimal? (cs : List Char) : Option (List Nat) :=
  match digits? 10 cs with
  | some (0 :: _ :: _) => none
  | other => other

/-- An integer that fits 64 signed bits. -/
def fit? (i : Int) : Option Int :=
  if -0x8000000000000000 ≤ i ∧ i < 0x8000000000000000 then some i else none

/-- The integer that a word writes. -/
def integer? (cs : List Char) : Option Int :=
  match cs with
  | '0' :: 'x' :: rest => (digits? 16 rest).bind fun ds => fit? (value 16 ds)
  | '0' :: 'o' :: rest => (digits? 8 rest).bind fun ds => fit? (value 8 ds)
  | '0' :: 'b' :: rest => (digits? 2 rest).bind fun ds => fit? (value 2 ds)
  | cs =>
    let (negative, rest) := splitSign cs
    (decimal? rest).bind fun ds => fit? (if negative then -(value 10 ds : Int) else value 10 ds)

/-! ### Floats -/

/-- Whether `digits * 10 ^ exponent` is too large for a finite double-precision number.  What is cut
off behind the point does not count, since the bound is an integer. -/
def overflows (digits : List Nat) (exponent : Int) : Bool :=
  let n := value 10 digits
  let magnitude := (Nat.toDigits 10 n).length + exponent
  if n = 0 || magnitude < 300 then false
  else if 400 < magnitude then true
  else if exponent < 0 then !(Binary64.ofNat (n / Nat.pow 10 exponent.natAbs)).isFinite
  else !(Binary64.ofNat (n * Nat.pow 10 exponent.toNat)).isFinite

/-- The exponent that a word writes behind its letter. -/
def exponent? (cs : List Char) : Option Int :=
  let (negative, rest) := splitSign cs
  (digits? 10 rest).map fun ds => if negative then -(value 10 ds : Int) else value 10 ds

/-- Whether a character begins an exponent. -/
def isExponentLetter (c : Char) : Bool := c == 'e' || c == 'E'

/-- Whether a word is a float: a decimal integer with a fraction, an exponent, or both, not too
large, or one of the two special words. -/
def isFloat (cs : List Char) : Bool :=
  let (negative, rest) := splitSign cs
  if rest == ['i', 'n', 'f'] || rest == ['n', 'a', 'n'] then true
  else
    let mantissa := rest.takeWhile (!isExponentLetter ·)
    let tail := rest.dropWhile (!isExponentLetter ·)
    let exponent := match tail with
      | [] => some 0
      | _ :: written => exponent? written
    let digits := match Text.cutAt ['.'] mantissa with
      | none => if tail.isEmpty then none else (decimal? mantissa).map fun ds => (ds, 0)
      | some (whole, fraction) =>
        match decimal? whole, digits? 10 fraction with
        | some ds, some fs => some (ds ++ fs, fs.length)
        | _, _ => none
    match digits, exponent with
    | some (ds, places), some e => negative || !overflows ds (e - places)
    | _, _ => false

/-! ### Dates and times -/

/-- The number of exactly `count` digits at the beginning of characters, and the rest. -/
def fixedNumber (count : Nat) (cs : List Char) : Option (Nat × List Char) :=
  let written := cs.take count
  if written.length = count && written.all Char.isDigit then
    some (written.foldl (fun n c => n * 10 + (c.toNat - 48)) 0, cs.drop count)
  else none

/-- The number of days of a month. -/
def daysIn (year month : Nat) : Nat :=
  if month = 2 then
    if year % 4 = 0 && (year % 100 ≠ 0 || year % 400 = 0) then 29 else 28
  else if month = 4 || month = 6 || month = 9 || month = 11 then 30
  else 31

/-- What follows a date. -/
def afterDate (cs : List Char) : Option (List Char) := do
  let (year, cs) ← fixedNumber 4 cs
  let cs ← match cs with | '-' :: cs => some cs | _ => none
  let (month, cs) ← fixedNumber 2 cs
  let cs ← match cs with | '-' :: cs => some cs | _ => none
  let (day, cs) ← fixedNumber 2 cs
  if 1 ≤ month ∧ month ≤ 12 ∧ 1 ≤ day ∧ day ≤ daysIn year month then some cs else none

/-- What follows the fraction of a second, if there is one. -/
def afterFraction : List Char → Option (List Char)
  | '.' :: cs =>
    if (cs.takeWhile Char.isDigit).isEmpty then none else some (cs.dropWhile Char.isDigit)
  | cs => some cs

/-- What follows a time of day. -/
def afterTime (cs : List Char) : Option (List Char) := do
  let (hour, cs) ← fixedNumber 2 cs
  let cs ← match cs with | ':' :: cs => some cs | _ => none
  let (minute, cs) ← fixedNumber 2 cs
  let cs ← match cs with | ':' :: cs => some cs | _ => none
  let (second, cs) ← fixedNumber 2 cs
  if hour ≤ 23 ∧ minute ≤ 59 ∧ second ≤ 60 then afterFraction cs else none

/-- Whether characters are an offset from universal time, or nothing. -/
def isOffset : List Char → Bool
  | [] => true
  | ['Z'] | ['z'] => true
  | sign :: cs =>
    (sign == '+' || sign == '-') &&
      match fixedNumber 2 cs with
      | some (hour, ':' :: cs) =>
        match fixedNumber 2 cs with
        | some (minute, []) => hour ≤ 23 && minute ≤ 59
        | _ => false
      | _ => false

/-- Whether a word is a date. -/
def isDate (cs : List Char) : Bool := afterDate cs == some []

/-- Whether a word is a date, a time of day, or a date and a time with an offset or without. -/
def isDateTime (cs : List Char) : Bool :=
  match afterDate cs with
  | some [] => true
  | some (mark :: rest) =>
    (mark == 'T' || mark == 't' || mark == ' ') &&
      match afterTime rest with
      | some rest => isOffset rest
      | none => false
  | none => afterTime cs == some []

/-! ### Words -/

/-- Whether a character belongs to a word. -/
def isWordChar (c : Char) : Bool :=
  c.isAlphanum || c == '+' || c == '-' || c == '_' || c == '.' || c == ':'

/-- The word at the beginning of characters, and the rest.  A blank and a second word belong to a
date. -/
def splitWord (cs : List Char) : List Char × List Char :=
  let word := cs.takeWhile isWordChar
  let rest := cs.dropWhile isWordChar
  match rest with
  | ' ' :: more =>
    let second := more.takeWhile isWordChar
    if isDate word && !second.isEmpty then
      (word ++ ' ' :: second, more.dropWhile isWordChar)
    else (word, rest)
  | _ => (word, rest)

/-- The value of a word. -/
def scalar? (word : List Char) : Option Toml :=
  if word = ['t', 'r', 'u', 'e'] then some (.boolean true)
  else if word = ['f', 'a', 'l', 's', 'e'] then some (.boolean false)
  else if isDateTime word then some (.date (String.ofList word))
  else if isFloat word then some (.float (String.ofList word))
  else (integer? word).map .integer

end HubGateway.Toml
