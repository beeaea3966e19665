import Gatehouse.Program
import Gatehouse.Sql.Statement
import Gatehouse.Trace

/-!
# Gatehouse.Sql.Database — executing statements

A database executes one statement at a time and answers with rows and with the number of rows that
were affected, or with an error that has a code.  What is made of rows is said here: how many are
expected, and which value a column must hold.

A query is a program over a database, as an operation is one over its surroundings, and nothing is
said of how the database executes a statement.  Two kinds of answers are used: a script that says
what comes back (`Gatehouse.Sql.Rehearsal`), and tables that mean what statements say
(`Gatehouse.Proofs.Sql.Meaning`).  What is proved of the first holds whatever a database does; what
is proved of the second is what a store or a log kept by a database amounts to.

Columns are read by position, so a reader agrees with a statement only if both follow one order of
columns; `Gatehouse.Sql.Layout` has that order.
-/

namespace Gatehouse.Sql

open Gatehouse.Time

/-! ## The surroundings of a query -/

/-- What a database says when it does not execute a statement. -/
structure DatabaseError where
  code : String
  message : String
deriving DecidableEq, Repr

/-- The values of a row in the order of its columns. -/
abbrev Row := List Value

/-- What a database answers to a statement that it has executed. -/
structure Outcome where
  rows : List Row
  affected : Nat
deriving DecidableEq, Repr

/-- One step of a query: a statement with the values bound to it, or a remark. -/
inductive DatabaseCall where
  | execute (s : Statement) (params : List Value)
  | note (e : TraceEntry)
deriving DecidableEq

/-- What each step is answered with. -/
def DatabaseCall.Reply : DatabaseCall → Type
  | execute _ _ => Except DatabaseError Outcome
  | note _ => Unit

/-- The interface between queries and the database that executes them. -/
def database : Interface := ⟨DatabaseCall, DatabaseCall.Reply⟩

/-! ## Queries -/

/-- Why a query has no result. -/
inductive QueryError where
  | database (e : DatabaseError)
  | rowNotFound
  | column (index : Nat) (text : String)
deriving DecidableEq, Repr

/-- The text of a query error. -/
def QueryError.message : QueryError → String
  | database e => s!"error returned from database: {e.message}"
  | rowNotFound => "no rows returned by a query that expected to return at least one row"
  | column index text => s!"error occurred while decoding column {index}: {text}"

namespace QueryError

/-- Whether a statement was refused because a row like the new one exists. -/
def isUniqueViolation : QueryError → Bool
  | database e => e.code = "23505"
  | _ => false

/-- Whether a statement was refused because a row that the new one refers to does not exist. -/
def isForeignKeyViolation : QueryError → Bool
  | database e => e.code = "23503"
  | _ => false

end QueryError

/-- A computation over a database that may end in an error. -/
abbrev Query (α : Type) := ExceptT QueryError (Program database) α

namespace Query

/-- Executes a statement. -/
def execute (s : Statement) (params : List Value) : Query Outcome :=
  ExceptT.mk do
    let reply : Except DatabaseError Outcome ←
      Program.query (I := database) (.execute s params)
    return reply.mapError .database

/-- Executes a statement for the rows that it gives back. -/
def all {α : Type} (decode : Row → Except QueryError α) (s : Statement) (params : List Value) :
    Query (List α) := do
  let outcome ← execute s params
  ExceptT.mk (return outcome.rows.mapM decode)

/-- Executes a statement for the first row that it gives back. -/
def first {α : Type} (decode : Row → Except QueryError α) (s : Statement) (params : List Value) :
    Query (Option α) := do
  let outcome ← execute s params
  ExceptT.mk (return outcome.rows.head?.mapM decode)

/-- Executes a statement for a row that it must give back. -/
def one {α : Type} (decode : Row → Except QueryError α) (s : Statement) (params : List Value) :
    Query α := do
  match ← first decode s params with
  | some a => return a
  | none => throw .rowNotFound

end Query

/-! ## Columns -/

namespace Row

/-- What is said of a column that holds nothing. -/
def unexpectedNull : String := "unexpected null; try decoding as an `Option`"

/-- The value of a column by its position, as what it must be.  A column that is missing and one
that holds something else are one error. -/
def column {α : Type} (r : Row) (index : Nat) (meaning : Value → Option α) : Except QueryError α :=
  match (r[index]?).bind meaning with
  | some a => .ok a
  | none => .error (.column index unexpectedNull)

/-- The text of a column. -/
def text (r : Row) (index : Nat) : Except QueryError String :=
  r.column index fun
    | .text s => some s
    | _ => none

/-- The texts of a column. -/
def texts (r : Row) (index : Nat) : Except QueryError (List String) :=
  r.column index fun
    | .texts ss => some ss
    | _ => none

/-- The instant of a column. -/
def instant (r : Row) (index : Nat) : Except QueryError Timestamp :=
  r.column index fun
    | .instant t => some t
    | _ => none

/-- The integer of a column. -/
def integer (r : Row) (index : Nat) : Except QueryError Int :=
  r.column index fun
    | .integer n => some n
    | _ => none

/-- The text of a column that may hold nothing. -/
def optionalText (r : Row) (index : Nat) : Except QueryError (Option String) :=
  r.column index fun
    | .text s => some (some s)
    | .null => some none
    | _ => none

end Row

end Gatehouse.Sql
