import Gatehouse.Config.Setting

/-!
# Gatehouse.Config.Load — configurations from a file and the environment

A setting has the value of its variable in the environment, if that is set and can be read; else the
value in the settings file; else its default.  A file must be a TOML document in which every setting
that occurs can be read; other entries are ignored.  A variable that cannot be read is as good as
not set.

The two sources are thus treated differently: what is wrong in a file is an error, and what is wrong
in the environment is passed over.  Both go through all settings in one order, `ofDocument?` with a
fold that stops where a setting cannot be read and `override` with one that never stops.  No setting
is written twice, so the order shows in no configuration.

* `Config.ofSource` is the configuration before any variable.
* `Config.load` is the configuration under the environment, once it has been validated.  Validation
  comes last: a file without a secret is no error if the environment has one.
-/

namespace Gatehouse

/-- The variables of an environment. -/
abbrev Environment := String → Option String

/-- Where a configuration is read from, besides the environment: nowhere, the text of a file, or a
file that could not be read. -/
inductive ConfigSource where
  | none
  | text (contents : String)
  | unreadable (path reason : String)
deriving DecidableEq, Repr

namespace Setting

/-- The value under a key of a table of settings.  Its values may also be listed in order, and a
date counts as a table without settings. -/
def inSection? (place : Place) : Toml.Value → Option (Option Toml.Value)
  | .table _ es => some (es.lookup place.key)
  -- a structure may be spelled as the row of its values, by position
  | .array vs => some vs[place.index]?
  | .tables items => some ((items[place.index]?).map fun es => .table .named es)
  | .moment => some none
  | _ => none

/-- The value of a setting in a document, if it has one; there is no answer if it, or the table that
it belongs to, cannot be read. -/
def inDocument? (es : Toml.Entries) (s : Setting) : Option (Option s.kind.Value) :=
  match es.find? s.place.table with
  | none => some none
  | some v =>
    match inSection? s.place v with
    | none => none
    | some none => some none
    | some (some v) => (s.kind.ofToml? v).map some

/-- The value of a setting in an environment, if it is set and can be read. -/
def inEnvironment? (env : Environment) (s : Setting) : Option s.kind.Value :=
  (env s.envName).bind s.kind.ofText?

end Setting

namespace Config

/-- The configuration with another value of a setting, if there is one. -/
def putAny (c : Config) (s : Setting) (v : Option s.kind.Value) : Config :=
  match v with
  | some v => c.put s v
  | none => c

/-- The configuration of a document, with defaults for what it does not set. -/
def ofDocument? (es : Toml.Entries) : Option Config :=
  Setting.all.foldlM (fun c s => (s.inDocument? es).map (c.putAny s)) {}

/-- The configuration of the text of a file. -/
def ofText (text : String) : Except ConfigError Config :=
  match Toml.parse text with
  | none => throw (.parseToml "not a document")
  | some es =>
    match ofDocument? es with
    | none => throw (.parseToml "a setting has a value of another kind")
    | some c => return c

/-- The configuration under the variables of an environment: every setting whose variable is set and
can be read has the value of that. -/
def override (env : Environment) (c : Config) : Config :=
  Setting.all.foldl (fun c s => c.putAny s (s.inEnvironment? env)) c

/-- The configuration of a source, before any variable. -/
def ofSource : ConfigSource → Except ConfigError Config
  | .none => return {}
  | .text contents => ofText contents
  | .unreadable path reason => throw (.readFile path reason)

/-- The configuration of a source and an environment, if it can be used. -/
def load (source : ConfigSource) (env : Environment) : Except ConfigError Config := do
  let c ← ofSource source
  let c := c.override env
  match c.validate with
  | .ok () => return c
  | .error v => throw (.validation v)

end Config

end Gatehouse
