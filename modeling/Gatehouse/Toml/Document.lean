import Gatehouse.Toml.Scalar
import Gatehouse.Toml.Token

/-!
# Gatehouse.Toml.Document — texts as tables

A document is a row of lines: headers, each of which names a table, and assignments, which add to
the table that was named last.  `linesOf` reads the lines from tokens, `Entries.ofLines` builds the
table that they describe, and `parse` does both.

Lines are read without regard to what they are added to, but for the inline tables in them, which
are built at once: `a.b` and `a . "b"` are one path by the time that tables are built.  A text is a
document only if both stages succeed, so a name that is taken twice is as bad as a bracket that is
missing, and nothing of either is told apart; a settings file that cannot be read is refused as a
whole.

Values and inline tables nest, and how deep they may do so is bounded.  The fuel of the readers is
counted in tokens, of which every step takes one at least or hands on to a step that does.
-/

namespace Gatehouse.Toml

/-- How deep arrays and inline tables may be nested, and how many keys a dotted key may have. -/
def maxDepth : Nat := 79

/-- A line that is not blank. -/
inductive Line where
  | header (path : List String) (key : String)
  | element (path : List String) (key : String)
  | assignment (path : List String) (key : String) (v : Value)
deriving Repr

/-! ## Keys -/

/-- Drops blanks within a line. -/
def skipBlanks (ts : List Token) : List Token := ts.dropWhile Token.isBlank

/-- Drops blanks and ends of lines. -/
def skipMargin (ts : List Token) : List Token := ts.dropWhile fun t => t.isBlank || t == .newline

/-- The keys of a dotted key after the reversed keys before them, and what follows; `due` says
whether a key must come next.  Blanks may stand around every key. -/
def takeKeysAfter (acc : List String) (due : Bool) : List Token → Option (List String × List Token)
  | [] => if due then none else some (acc, [])
  | t :: rest =>
    match t with
    | .blank _ => takeKeysAfter acc due rest
    | .bare cs => if due then takeKeysAfter (String.ofList cs :: acc) false rest else none
    | .quoted s false => if due then takeKeysAfter (s :: acc) false rest else none
    | .symbol '.' => if due then none else takeKeysAfter acc true rest
    | t => if due then none else some (acc, t :: rest)

/-- The keys on the way of a dotted key, its last key, and what follows. -/
def takeKey (ts : List Token) : Option (List String × String × List Token) :=
  match takeKeysAfter [] true ts with
  | some (key :: path, rest) =>
    if path.length < maxDepth then some (path.reverse, key, rest) else none
  | _ => none

/-! ## Values -/

/-- The characters of a token that may belong to a value without quotes. -/
def wordChars : Token → Option (List Char)
  | .bare cs => some cs
  | .symbol c => if c = '.' ∨ c = '+' ∨ c = ':' then some [c] else none
  | _ => none

/-- The characters without quotes at the front, and what follows. -/
def takeWord (ts : List Token) : List Char × List Token :=
  let isWord (t : Token) : Bool := (wordChars t).isSome
  (((ts.takeWhile isWord).filterMap wordChars).flatten, ts.dropWhile isWord)

/-- A value without quotes, and what follows.  Between a date and a time of day one space may stand;
if what follows it is no time, or the blank is another one, the date is a value of its own. -/
def takeScalar (ts : List Token) : Option (Value × List Token) :=
  let (word, rest) := takeWord ts
  let apart : Option (Value × List Token) :=
    -- any other blank here, a tab or several of them, ends the value
    match rest with
    | .blank [' '] :: rest =>
      let (time, rest) := takeWord rest
      if time ≠ [] ∧ isMoment (word ++ ' ' :: time) then some (.moment, rest) else none
    | _ => none
  apart <|> (Value.ofWord? word).map fun v => (v, rest)

mutual

/-- A value, and what follows.  It takes at most two units of fuel for each token. -/
def takeValue (fuel depth : Nat) (ts : List Token) : Option (Value × List Token) :=
  match fuel with
  | 0 => none
  | fuel + 1 =>
    match ts with
    | .quoted s _ :: rest => some (.text s, rest)
    | .symbol '[' :: rest =>
      if depth = 0 then none
      else (takeItems fuel (depth - 1) [] rest).map fun (vs, rest) => (.array vs, rest)
    | .symbol '\x7b' :: rest =>
      if depth = 0 then none
      else match skipBlanks rest with
        | .symbol '\x7d' :: rest => some (.table .written [], rest)
        | rest =>
          (takeMembers fuel (depth - 1) [] rest).map fun (es, rest) => (.table .written es, rest)
    | ts => takeScalar ts

/-- The elements of an array after the reversed elements before them.  Blanks, comments and ends of
lines may stand between them, and a comma behind the last. -/
def takeItems (fuel depth : Nat) (acc : List Value) (ts : List Token) :
    Option (List Value × List Token) :=
  match fuel with
  | 0 => none
  | fuel + 1 =>
    match skipMargin ts with
    | .symbol ']' :: rest => some (acc.reverse, rest)
    | ts =>
      match takeValue fuel depth ts with
      | some (v, rest) =>
        match skipMargin rest with
        | .symbol ',' :: rest => takeItems fuel depth (v :: acc) rest
        | .symbol ']' :: rest => some ((v :: acc).reverse, rest)
        | _ => none
      | none => none

/-- The entries of an inline table, of which there is at least one, added to those before them. -/
def takeMembers (fuel depth : Nat) (es : Entries) (ts : List Token) :
    Option (Entries × List Token) :=
  match fuel with
  | 0 => none
  | fuel + 1 =>
    match takeKey ts with
    | some (path, key, .symbol '=' :: rest) =>
      match takeValue fuel depth (skipBlanks rest) with
      | some (v, rest) =>
        match es.assign path key v with
        | some es =>
          match skipBlanks rest with
          | .symbol ',' :: rest => takeMembers fuel depth es rest
          | .symbol '\x7d' :: rest => some (es, rest)
          | _ => none
        | none => none
      | none => none
    | _ => none

end

/-! ## Lines -/

/-- What follows the end of a line. -/
def takeLineEnd (ts : List Token) : Option (List Token) :=
  match skipBlanks ts with
  | [] => some []
  | .newline :: rest => some rest
  | _ => none

/-- The line at the front, and what follows its end. -/
def takeLine : List Token → Option (Line × List Token)
  | .symbol '[' :: .symbol '[' :: rest =>
    match takeKey rest with
    | some (path, key, .symbol ']' :: .symbol ']' :: rest) =>
      (takeLineEnd rest).map fun rest => (.element path key, rest)
    | _ => none
  | .symbol '[' :: rest =>
    match takeKey rest with
    | some (path, key, .symbol ']' :: rest) =>
      (takeLineEnd rest).map fun rest => (.header path key, rest)
    | _ => none
  | ts =>
    match takeKey ts with
    | some (path, key, .symbol '=' :: rest) => do
      let (v, rest) ← takeValue (2 * ts.length + 2) maxDepth (skipBlanks rest)
      let rest ← takeLineEnd rest
      return (.assignment path key v, rest)
    | _ => none

/-- The lines after the reversed lines before them, one for each unit of fuel at most. -/
def linesAfter (acc : List Line) : Nat → List Token → Option (List Line)
  | 0, ts => if (skipMargin ts).isEmpty then some acc.reverse else none
  | fuel + 1, ts =>
    match skipMargin ts with
    | [] => some acc.reverse
    | ts =>
      match takeLine ts with
      | some (line, rest) => linesAfter (line :: acc) fuel rest
      | none => none

/-- The lines of a text in tokens, of which every one takes at least one. -/
def linesOf (ts : List Token) : Option (List Line) := linesAfter [] ts.length ts

/-! ## Tables -/

/-- A document that is being built: its entries, and the path to the table that was named last. -/
structure Draft where
  entries : Entries
  path : List String
deriving Repr

/-- The document after one more line. -/
def Draft.add (d : Draft) : Line → Option Draft
  | .header path key => do
    let entries ← d.entries.modify (Entries.openTable key) path
    return ⟨entries, path ++ [key]⟩
  | .element path key => do
    let entries ← d.entries.modify (Entries.openElement key) path
    return ⟨entries, path ++ [key]⟩
  | .assignment path key v => do
    let entries ← d.entries.modify (Entries.assign path key v) d.path
    return { d with entries }

/-- The table that lines describe. -/
def Entries.ofLines (lines : List Line) : Option Entries :=
  (lines.foldlM Draft.add ⟨[], []⟩).map (·.entries)

/-- The table that a text describes, if it is a document. -/
def parse (text : String) : Option Entries := do
  Entries.ofLines (← linesOf (← tokens text.toList))

end Gatehouse.Toml
