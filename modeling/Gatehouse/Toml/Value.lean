/-!
# Gatehouse.Toml.Value — values and the tables that hold them

A document is a table whose entries may be tables again.  Every table knows how it came to be, for
that decides who may add to it: one that was written inline is closed, one that a header named may
not be named again, one that only lies on the way to another table may still be named, and one that
dotted keys made may get more of them.

`assign` adds a value under a path of keys, `openTable` and `openElement` name a table by a header;
each fails where the path or the name is taken.

Entries are kept in the order in which they were written, and a name is looked up in that order;
since no name is added twice, the order is never seen.  An array of tables grows at its end, and a
path that leads through one leads through its last element, the one that was named last.
-/

namespace Gatehouse.Toml

/-- How a table came to be: written inline, named by a header, on the way to a table that is named,
or on the way of a dotted key. -/
inductive Origin where
  | written
  | named
  | implied
  | dotted
deriving DecidableEq, Repr

/-- A value.  Nothing is kept of a number that is no integer, nor of a date or a time.  The elements
of `tables` are named by headers one after another. -/
inductive Value where
  | text (s : String)
  | integer (n : Int)
  | real
  | bool (b : Bool)
  | moment
  | array (items : List Value)
  | table (origin : Origin) (entries : List (String × Value))
  | tables (items : List (List (String × Value)))
deriving Repr, Inhabited

/-- The entries of a table, in the order in which they were added. -/
abbrev Entries := List (String × Value)

namespace Entries

/-- The value under a key. -/
def find? (es : Entries) (key : String) : Option Value := es.lookup key

/-- Replaces the value under a key. -/
def replace (es : Entries) (key : String) (v : Value) : Entries :=
  es.map fun e => if e.1 = key then (key, v) else e

/-- Adds a value under a key that is not taken. -/
def add (es : Entries) (key : String) (v : Value) : Option Entries :=
  if (es.find? key).isNone then some (es ++ [(key, v)]) else none

/-- Adds a value under a dotted key: the tables on its way are made, and the last of them must have
been made by dotted keys. -/
def assign : List String → String → Value → Entries → Option Entries
  | [], key, v, es => es.add key v
  | k :: path, key, v, es =>
    match es.find? k with
    | none => do
      let inner ← assign path key v []
      es.add k (.table .dotted inner)
    | some (.table .dotted inner) => do
      let inner ← assign path key v inner
      return es.replace k (.table .dotted inner)
    | some (.table .implied inner) =>
      -- a header made this table, so no key may be put into it directly
      if path.isEmpty then none
      else do
        let inner ← assign path key v inner
        return es.replace k (.table .implied inner)
    | some (.tables items) =>
      match path, items.reverse with
      | _ :: _, last :: before => do
        let inner ← assign path key v last
        return es.replace k (.tables (inner :: before).reverse)
      | _, _ => none
    | some _ => none

/-- Changes the table that the headers of a path lead to; the tables on its way are made, and of an
array of tables the last element is meant. -/
def modify (change : Entries → Option Entries) : List String → Entries → Option Entries
  | [], es => change es
  | k :: path, es =>
    match es.find? k with
    | none => do
      let inner ← modify change path []
      es.add k (.table .implied inner)
    | some (.table .written _) => none
    | some (.table origin inner) => do
      let inner ← modify change path inner
      return es.replace k (.table origin inner)
    | some (.tables items) =>
      match items.reverse with
      | last :: before => do
        let inner ← modify change path last
        return es.replace k (.tables (inner :: before).reverse)
      | [] => none
    | some _ => none

/-- Names a table by a header. -/
def openTable (key : String) (es : Entries) : Option Entries :=
  match es.find? key with
  | none => es.add key (.table .named [])
  | some (.table .implied inner) => some (es.replace key (.table .named inner))
  | some _ => none

/-- Names one more element of an array of tables by a header. -/
def openElement (key : String) (es : Entries) : Option Entries :=
  match es.find? key with
  | none => es.add key (.tables [[]])
  | some (.tables items) => some (es.replace key (.tables (items ++ [[]])))
  | some _ => none

end Entries

end Gatehouse.Toml
