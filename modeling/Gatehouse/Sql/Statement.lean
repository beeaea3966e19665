import Gatehouse.Time.Timestamp

/-!
# Gatehouse.Sql.Statement — what a database is told to do

A `Statement` is the shape of a request to a database: tables, columns and numbered placeholders,
and the numbers of a page.  The texts, times and other values that a request is about are no part of
it: they are bound to its placeholders when it is executed.  `Statement.render` writes a statement,
so what is written depends on nothing that a caller may choose but the page.

There are as many kinds of statements as the store and the log need.  Filters are lists of
conditions that all must hold, and a filter that is empty is left out with its keyword, as is an
empty list of columns to give back, or to order by.  Parameters are numbered from one in the order
in which values are bound, so that condition, placeholder and value of a parameter share its number.

A text that has been written can be read: `Gatehouse.Proofs.Sql.Grammar` has a reader for the
language of these statements that is written apart from the writer, and gets every statement back
from its text.
-/

namespace Gatehouse.Sql

open Gatehouse.Time

/-! ## Values -/

/-- A value that is bound to a placeholder or stands in a column. -/
inductive Value where
  | null
  | text (s : String)
  | texts (ss : List String)
  | instant (t : Timestamp)
  | integer (n : Int)
deriving DecidableEq, Repr

namespace Value

/-- An instant as it is bound: at the resolution of the database. -/
def ofTimestamp (t : Timestamp) : Value := .instant t.toMicroseconds

/-- A text that may be missing. -/
def ofOption : Option String → Value
  | some s => .text s
  | none => .null

end Value

/-! ## Statements -/

/-- A condition on a row; parameters are counted from one. -/
inductive Condition where
  | always
  | equals (column : String) (param : Nat)
  | contains (column : String) (param : Nat)
  | atMost (column : String) (param : Nat)
deriving DecidableEq, Repr

/-- What a column is set to: a parameter, or the time of the database. -/
inductive Assigned where
  | param (n : Nat)
  | now
deriving DecidableEq, Repr

/-- The numbers of a page: how many rows, after how many. -/
structure Page where
  limit : Nat
  offset : Nat
deriving DecidableEq, Repr

/-- A request to a database.  A row passes a filter if every condition of it holds. -/
inductive Statement where
  | ping
  | createTable (table : String) (items : List String)
  | createIndex (name table : String) (columns : List String)
  | insert (table : String) (columns returning : List String)
  | select (columns : List String) (table : String) (filter : List Condition)
      (order : List String) (page : Option Page)
  | count (table : String) (filter : List Condition)
  | update (table : String) (set : List (String × Assigned)) (filter : List Condition)
      (returning : List String)
  | delete (table : String) (filter : List Condition)
deriving DecidableEq, Repr

/-! ## Writing -/

/-- A numbered placeholder. -/
def placeholder (n : Nat) : String := s!"${n}"

/-- Names and the like, one after another. -/
def listed (items : List String) : String := String.intercalate ", " items

/-- A written condition. -/
def Condition.render : Condition → String
  | always => "TRUE"
  | equals column n => column ++ " = " ++ placeholder n
  | contains column n => placeholder n ++ " = ANY(" ++ column ++ ")"
  | atMost column n => column ++ " <= " ++ placeholder n

/-- What a column is set to, written. -/
def Assigned.render : Assigned → String
  | param n => placeholder n
  | now => "now()"

/-- A clause that is left out when it has nothing to say. -/
def clause {α : Type} (keyword : String) (items : List α) (body : String) : String :=
  if items.isEmpty then "" else keyword ++ body

/-- A written filter. -/
def renderFilter (filter : List Condition) : String :=
  clause " WHERE " filter (String.intercalate " AND " (filter.map Condition.render))

/-- A written list of columns to give back. -/
def renderReturning (columns : List String) : String :=
  clause " RETURNING " columns (listed columns)

/-- The written numbers of a page. -/
def Page.render (p : Page) : String := s!" LIMIT {p.limit} OFFSET {p.offset}"

namespace Statement

/-- A written statement. -/
def render : Statement → String
  | ping => "SELECT 1"
  | createTable table items =>
    "CREATE TABLE IF NOT EXISTS " ++ table ++ " ( " ++ listed items ++ " )"
  | createIndex name table columns =>
    "CREATE INDEX IF NOT EXISTS " ++ name ++ " ON " ++ table ++ " (" ++ listed columns ++ ")"
  | insert table columns returning =>
    "INSERT INTO " ++ table ++ " (" ++ listed columns ++ ") VALUES (" ++
      listed ((List.range columns.length).map fun i => placeholder (i + 1)) ++ ")" ++
      renderReturning returning
  | select columns table filter order page =>
    "SELECT " ++ listed columns ++ " FROM " ++ table ++ renderFilter filter ++
      clause " ORDER BY " order (listed order) ++ (page.map Page.render).getD ""
  | count table filter => "SELECT COUNT(*) FROM " ++ table ++ renderFilter filter
  | update table set filter returning =>
    "UPDATE " ++ table ++ " SET " ++
      listed (set.map fun (column, value) => column ++ " = " ++ value.render) ++
      renderFilter filter ++ renderReturning returning
  | delete table filter => "DELETE FROM " ++ table ++ renderFilter filter

/-- The columns of the rows that a statement gives back. -/
def columns : Statement → List String
  | ping | createTable _ _ | createIndex _ _ _ | delete _ _ => []
  | insert _ _ returning | update _ _ _ returning => returning
  | select columns _ _ _ _ => columns
  | count _ _ => ["count"]

end Statement

end Gatehouse.Sql
