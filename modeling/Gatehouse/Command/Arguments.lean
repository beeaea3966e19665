import Gatehouse.Command
import Gatehouse.Text.Split

/-!
# Gatehouse.Command.Arguments — reading a command line

Arguments are read from left to right, first those of the program and behind a subcommand those of
the subcommand.  An option waits for its value, which may also be attached to it, and is taken when
the next option begins or the scope ends: only then is it found that it was given twice or has a
value that it does not take.  The scope of a subcommand ends before that of the program.

An option for the settings may be given in both scopes, and the one behind the subcommand counts.

That errors are found late decides which of several is reported.  `Given` therefore holds the last
option apart from those that are taken, and `Given.settle` is the only place where it is taken: when
the next option begins (`Given.read`), and at the end (`finish`).  An option that is given twice is
reported there, not where its name is read, and a value that the option does not take not before
what follows it has been looked at.

* `readArguments` goes through the arguments once, with the scope as a parameter; it changes once at
  most, where a subcommand is named.
* `Invocation.ofArguments` is the whole command line.
-/

namespace Gatehouse

open Gatehouse.Text

/-! ## Vocabulary -/

/-- An option that takes a value. -/
inductive Flag where
  | config
  | subject
  | role
deriving DecidableEq, Repr

/-- Whether an option takes a value. -/
def Flag.admits : Flag → String → Bool
  | config, s => s ≠ ""
  | subject, _ => true
  | role, s => (Role.ofName? s).isSome

/-- A subcommand. -/
inductive Verb where
  | serve
  | migrate
  | issueToken
deriving DecidableEq, Repr

/-- The subcommand of a name. -/
def Verb.ofName? : String → Option Verb
  | "serve" => some serve
  | "migrate" => some migrate
  | "issue-token" => some issueToken
  | _ => none

/-- The subcommand that describes the others. -/
def helpName : String := "help"

/-- What an option asks for. -/
inductive Request where
  | value (f : Flag)
  | help
  | version
deriving DecidableEq, Repr

/-- Where arguments are read: before any subcommand, or behind one. -/
abbrev Scope := Option Verb

namespace Scope

/-- What the long name of an option asks for in a scope. -/
def long? (scope : Scope) (name : String) : Option Request :=
  match name with
  | "config" => some (.value .config)
  | "help" => some .help
  | "version" => if scope.isNone then some .version else none
  | "subject" => if scope = some .issueToken then some (.value .subject) else none
  | "role" => if scope = some .issueToken then some (.value .role) else none
  | _ => none

/-- What the letter of an option asks for in a scope. -/
def short? (scope : Scope) (letter : Char) : Option Request :=
  match letter with
  | 'c' => some (.value .config)
  | 'h' => some .help
  | 'V' => if scope.isNone then some .version else none
  | _ => none

/-- The error of an argument that is no option and no value. -/
def stray (scope : Scope) : UsageError :=
  if scope.isNone then .invalidSubcommand else .unknownArgument

end Scope

/-! ## Options -/

/-- The options of a scope: those that are taken, and the last one if it still waits, for its value
or to be taken. -/
structure Given where
  taken : List (Flag × String) := []
  waiting : Option (Flag × Option String) := none
deriving DecidableEq, Repr

namespace Given

/-- The value of an option that is taken. -/
def value? (g : Given) (f : Flag) : Option String := g.taken.lookup f

/-- Takes an option. -/
def take (g : Given) (f : Flag) (s : String) : Except UsageError Given :=
  if (g.value? f).isSome then throw .argumentConflict
  else if f.admits s then return { g with taken := (f, s) :: g.taken }
  else throw .invalidValue

/-- Takes the option that waits. -/
def settle (g : Given) : Except UsageError Given :=
  match g.waiting with
  | none => return g
  | some (_, none) => throw .invalidValue
  | some (f, some s) => { g with waiting := none }.take f s

/-- Reads an option with the value that is attached to it, if any. -/
def read (g : Given) (r : Request) (attached : Option String) : Except UsageError Given := do
  let g ← g.settle
  match r, attached with
  | .value f, some s => g.take f s
  | .value f, none => return { g with waiting := some (f, none) }
  | .help, _ => throw .displayHelp
  | .version, _ => throw .displayVersion

/-- Reads an option by its long name, behind the dashes. -/
def readLong (g : Given) (scope : Scope) (s : List Char) : Except UsageError Given :=
  let (name, attached) := splitFirst '=' s
  let attached := attached.map String.ofList
  match scope.long? (String.ofList name) with
  | none => throw .unknownArgument
  | some (.value f) => g.read (.value f) attached
  | some r => if attached.isSome then throw .tooManyValues else g.read r none

/-- Reads an option by its letter, behind the dash; what follows the letter is the value. -/
def readShort (g : Given) (scope : Scope) (letter : Char) (s : List Char) :
    Except UsageError Given :=
  match scope.short? letter, s with
  | none, _ => throw .unknownArgument
  | some r, [] => g.read r none
  | some r, '=' :: s => g.read r (some (String.ofList s))
  | some r, s => g.read r (some (String.ofList s))

/-- Gives its value to the option that waits for one, if there is such an option. -/
def feed? (g : Given) (s : String) : Option Given :=
  match g.waiting with
  | some (f, none) => some { g with waiting := some (f, some s) }
  | _ => none

end Given

/-! ## Command lines -/

/-- The command of a subcommand with its options. -/
def Verb.command (v : Verb) (g : Given) : Except UsageError Command :=
  match v with
  | serve => return .serve
  | migrate => return .migrate
  | issueToken =>
    match g.value? .subject with
    | some subject => return .issueToken subject (((g.value? .role).bind Role.ofName?).getD .user)
    | none => throw .missingRequiredArgument

/-- The end of a command line.  `outer` holds the options before the subcommand. -/
def finish (outer : Given) (scope : Scope) (g : Given) : Except UsageError Invocation := do
  -- the inner scope ends first, so what is wrong in it hides what is wrong before the subcommand
  let g ← g.settle
  match scope with
  | none => return { config := g.value? .config }
  | some v =>
    let command ← v.command g
    let outer ← outer.settle
    return { config := g.value? .config <|> outer.value? .config, command := some command }

/-- The description of the program, or of the subcommand that is named. -/
def describe : List String → UsageError
  | [] => .displayHelp
  | [name] =>
    if (Verb.ofName? name).isSome ∨ name = helpName then .displayHelp else .invalidSubcommand
  | _ => .invalidSubcommand

/-- The first argument behind two dashes that stand alone, which only end the options. -/
def strayBehindDashes (scope : Scope) (name : String) : UsageError :=
  if (Verb.ofName? name).isSome ∨ name = helpName then .unknownArgument else scope.stray

/-- Reads the arguments of a scope. -/
def readArguments (outer : Given) (scope : Scope) (g : Given) :
    List String → Except UsageError Invocation
  | [] => finish outer scope g
  | s :: rest =>
    match s.toList with
    | ['-', '-'] =>
      -- no scope takes arguments that are not options, so nothing may follow
      match rest with
      | [] => finish outer scope g
      | name :: _ => throw (strayBehindDashes scope name)
    | '-' :: '-' :: name => do
      let g ← g.readLong scope name
      readArguments outer scope g rest
    | '-' :: letter :: attached => do
      let g ← g.readShort scope letter attached
      readArguments outer scope g rest
    | _ =>
      -- a waiting option takes whatever comes, also the name of a subcommand
      match g.feed? s, scope, Verb.ofName? s with
      | some g, _, _ => readArguments outer scope g rest
      | none, none, some v => readArguments g (some v) {} rest
      | none, none, none => throw (if s = helpName then describe rest else .invalidSubcommand)
      | none, some _, _ => throw .unknownArgument

/-- What a command line says. -/
def Invocation.ofArguments (args : List String) : Except UsageError Invocation :=
  readArguments {} none {} args

end Gatehouse
