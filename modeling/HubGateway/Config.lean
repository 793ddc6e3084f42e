/-
**Configuration of the gateway.**

A configuration gives the access keys and the nesting limit of binary payloads.  It is read from a
configuration document, in which other keys are allowed and missing keys have defaults.  A list of
keys from the environment replaces the document's.

Main definitions:

* `HubGateway.Config` — the settings;
* `HubGateway.Config.ofText`, `HubGateway.Config.load` — settings from a document or a file;
* `HubGateway.Config.override` — settings with the keys of the environment.
-/

import HubGateway.MessagePack.Reader
import HubGateway.Request.Parameters
import HubGateway.Toml.Reader

set_option relaxedAutoImplicit false
set_option autoImplicit false

namespace HubGateway

/-- The settings of a gateway. -/
structure Config where
  /-- Any of these may have signed a request. -/
  accessKeys : List String := []
  /-- How many containers may be nested in a binary argument. -/
  maxNestingDepth : Nat := MessagePack.defaultMaxDepth
  deriving DecidableEq

/-- Why there is no configuration. -/
inductive ConfigError where
  /-- The file cannot be read as text. -/
  | io
  /-- The text is no document, or its settings have the wrong form. -/
  | document
  deriving DecidableEq

namespace Config

/-- The strings of a list. -/
def stringItems : List Toml → Option (List String)
  | [] => some []
  | .string text :: items => (stringItems items).map fun texts => text :: texts
  | _ :: _ => none

/-- The access keys of a document. -/
def accessKeysOf (entries : List (String × Toml)) : Option (List String) :=
  match entries.lookup "access_keys" with
  | none => some []
  | some (.array items) => stringItems items
  | some _ => none

/-- The nesting limit of a document. -/
def maxNestingDepthOf (entries : List (String × Toml)) : Option Nat :=
  match entries.lookup "max_nesting_depth" with
  | none => some MessagePack.defaultMaxDepth
  | some (.integer value) => if 0 ≤ value then some value.toNat else none
  | some _ => none

/-- The settings of a document. -/
def ofText (text : String) : Except ConfigError Config :=
  match Toml.parse text with
  | none => .error .document
  | some entries =>
    match accessKeysOf entries, maxNestingDepthOf entries with
    | some keys, some depth => .ok ⟨keys, depth⟩
    | _, _ => .error .document

/-- The settings of a file, given its bytes if it exists. -/
def load (file : Option (List UInt8)) : Except ConfigError Config :=
  match file.bind Utf8.decode? with
  | none => .error .io
  | some text => ofText text

/-- The settings with the keys that the environment lists, if it does. -/
def override (environment : Option String) (c : Config) : Config :=
  match environment with
  | none => c
  | some raw => { c with accessKeys := Parameters.splitList raw }

/-- The settings of a file with the keys of the environment. -/
def loadWithEnvironment (file : Option (List UInt8)) (environment : Option String) :
    Except ConfigError Config :=
  (load file).map (override environment)

/-- The defaults with the keys of the environment. -/
def ofEnvironment (environment : Option String) : Config := override environment {}

/-- The limits of decoding that follow from the settings. -/
def limits (c : Config) : MessagePack.Limits := ⟨c.maxNestingDepth⟩

end Config

end HubGateway
