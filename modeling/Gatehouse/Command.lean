import Gatehouse.Token

/-!
# Gatehouse.Command — what the program is told to do

An `Invocation` is what a command line says: where the settings are, and what to do.  Without a
command the program serves.  How command lines are read is told in `Gatehouse.Command.Arguments`,
and how they are followed in `Gatehouse.Command.Run`.

A `UsageError` is what becomes of a command line that is not followed.  Two of them are no errors in
truth: who asks for help or for the version gets a text and a program that ends well, but no command
is run, so they take the same way out as the others.
-/

namespace Gatehouse

/-- What the program is told to do. -/
inductive Command where
  | serve
  | migrate
  | issueToken (subject : String) (role : Role)
deriving DecidableEq, Repr

/-- What a command line says. -/
structure Invocation where
  config : Option String := none
  command : Option Command := none
deriving DecidableEq, Repr

/-- Why a command line is not followed; two of the reasons are requests. -/
inductive UsageError where
  | displayHelp
  | displayVersion
  | invalidValue
  | tooManyValues
  | argumentConflict
  | unknownArgument
  | invalidSubcommand
  | missingRequiredArgument
deriving DecidableEq, Repr

namespace UsageError

/-- The code with which the program ends: zero where the text was asked for, two where the command
line was wrong. -/
def exitCode : UsageError → Nat
  | displayHelp | displayVersion => 0
  | _ => 2

/-- The text of a usage error. -/
def message : UsageError → String
  | displayHelp =>
    "Usage: corral-server [--config FILE] [serve | migrate | " ++
      "issue-token --subject SUBJECT [--role user|admin]]"
  | displayVersion => "corral-server"
  | invalidValue => "error: an option has no value or one that it does not take"
  | tooManyValues => "error: an option that takes no value has one"
  | argumentConflict => "error: an option is given twice"
  | unknownArgument => "error: unexpected argument"
  | invalidSubcommand => "error: unrecognized subcommand"
  | missingRequiredArgument => "error: a required option is missing"

end UsageError

end Gatehouse
