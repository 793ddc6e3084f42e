/-
**Configuration documents.**

A TOML document is a table of named values.  It is built statement by statement: a header opens a
table, and the statements behind it set keys in that table.  A key may be dotted, which sets a key
in a table within the table.

Tables remember how they came to be, because that decides what may still be added.  A table named
only on the way to another one can be opened later, once.  A table made by dotted keys can get more
keys in the same way, but no header of its own.  Values, and with them arrays and tables written
in line, are closed.

Main definitions:

* `HubGateway.Toml` — the values of a document;
* `HubGateway.Toml.Item` — a document that is being built;
* `HubGateway.Toml.addKey`, `openTable`, `appendTable`, `within` — the statements.
-/

set_option relaxedAutoImplicit false
set_option autoImplicit false

namespace HubGateway

/-- A value of a configuration document.  Floats and dates are kept as they are written. -/
inductive Toml where
  | string (value : String)
  | integer (value : Int)
  | float (text : String)
  | boolean (value : Bool)
  | date (text : String)
  | array (items : List Toml)
  | table (entries : List (String × Toml))

namespace Toml

/-- A part of a document that is being built. -/
inductive Item where
  | value (value : Toml)
  /-- A table; `implicit` if no header has opened it, `dotted` if dotted keys made it. -/
  | table (implicit dotted : Bool) (entries : List (String × Item))
  /-- An array of tables, the last of them first. -/
  | tables (elements : List (List (String × Item)))

/-- The entries of a table that is being built. -/
abbrev Entries := List (String × Item)

/-- Sets the item of a key to what `f` makes of the one that is there. -/
def alter (key : String) (f : Option Item → Option Item) : Entries → Option Entries
  | [] => (f none).map fun item => [(key, item)]
  | (k, item) :: rest =>
    if k = key then (f (some item)).map fun item => (k, item) :: rest
    else (alter key f rest).map fun rest => (k, item) :: rest

/-- Sets a key that is not there yet. -/
def setKey (key : String) (value : Toml) (entries : Entries) : Option Entries :=
  alter key (fun
    | none => some (.value value)
    | some _ => none) entries

/-- Sets a key in the table that the names before it lead to; `dotted` tells whether dotted keys made
the table at hand. -/
def addDotted (key : String) (value : Toml) : Bool → List String → Entries → Option Entries
  | dotted, [], entries => if dotted then setKey key value entries else none
  | _, name :: path, entries =>
    alter name (fun
      | none => (addDotted key value true path []).map (.table true true)
      | some (.value _) => none
      | some (.table implicit dotted inner) =>
        if implicit then (addDotted key value dotted path inner).map (.table implicit dotted)
        else none
      | some (.tables []) => none
      | some (.tables (last :: before)) =>
        (addDotted key value false path last).map fun last => .tables (last :: before)) entries

/-- Sets a key, dotted if there are names before it. -/
def addKey (path : List String) (key : String) (value : Toml) (entries : Entries) :
    Option Entries :=
  if path.isEmpty then setKey key value entries else addDotted key value false path entries

/-- Changes the table that the names of a header lead to. -/
def within (path : List String) (change : Entries → Option Entries) (entries : Entries) :
    Option Entries :=
  match path with
  | [] => change entries
  | name :: path =>
    alter name (fun
      | none => (within path change []).map (.table true false)
      | some (.value _) => none
      | some (.table implicit dotted inner) =>
        (within path change inner).map (.table implicit dotted)
      | some (.tables []) => none
      | some (.tables (last :: before)) =>
        (within path change last).map fun last => .tables (last :: before)) entries

/-- Opens the table of a header. -/
def openTable (path : List String) (name : String) (entries : Entries) : Option Entries :=
  within path (alter name fun
    | none => some (.table false false [])
    | some (.table true false inner) => some (.table false false inner)
    | some _ => none) entries

/-- Adds a table to the array of tables of a header. -/
def appendTable (path : List String) (name : String) (entries : Entries) : Option Entries :=
  within path (alter name fun
    | none => some (.tables [[]])
    | some (.tables elements) => some (.tables ([] :: elements))
    | some _ => none) entries

/-! ### Finished documents -/

mutual

/-- The value of a finished part. -/
def Item.finish : Item → Toml
  | .value value => value
  | .table _ _ entries => .table (finishEntries entries)
  | .tables elements => .array (finishTables elements [])

/-- The values of finished entries. -/
def finishEntries : List (String × Item) → List (String × Toml)
  | [] => []
  | (key, item) :: entries => (key, item.finish) :: finishEntries entries

/-- The values of finished tables, the last of them first, in front of those in `acc`. -/
def finishTables : List (List (String × Item)) → List Toml → List Toml
  | [], acc => acc
  | entries :: elements, acc => finishTables elements (.table (finishEntries entries) :: acc)

end

end Toml

end HubGateway
