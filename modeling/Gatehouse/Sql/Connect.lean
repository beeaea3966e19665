import Gatehouse.Sql.Database

/-!
# Gatehouse.Sql.Connect — reaching a database

A database is named by a URL and reached over a limited number of connections.  What can be told
without reaching it is told by `checkConnection`: a URL begins with a scheme, and without any
connection there is nothing to wait for.

The errors of a connection are texts in the end, since a command that cannot connect fails with the
text and nothing else is made of it; but they are kept apart here, because only some of them come
from a database.  A pool without connections is not refused when it is configured.  It times out at
the first use, and so it does here, without a clock.
-/

namespace Gatehouse.Sql

/-- Why a database was not reached. -/
inductive ConnectError where
  | configuration (text : String)
  | timedOut
  | unreachable (text : String)
  | refused (e : DatabaseError)
deriving DecidableEq, Repr

/-- The text of the error of a connection. -/
def ConnectError.message : ConnectError → String
  | configuration text => s!"error with configuration: {text}"
  | timedOut => "pool timed out while waiting for an open connection"
  | unreachable text => s!"error communicating with database: {text}"
  | refused e => (QueryError.database e).message

/-- Whether a URL begins with a scheme. -/
def hasScheme (url : String) : Bool :=
  let isSchemeChar (c : Char) : Bool := c.isAlphanum || c == '+' || c == '-' || c == '.'
  match url.toList.dropWhile isSchemeChar with
  | ':' :: _ => url.toList.head?.any Char.isAlpha
  | _ => false

/-- What can be told of a connection before it is tried. -/
def checkConnection (url : String) (maxConnections : Nat) : Except ConnectError Unit := do
  if !hasScheme url then throw (.configuration "relative URL without a base")
  if maxConnections = 0 then throw .timedOut

end Gatehouse.Sql
