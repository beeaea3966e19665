import Gatehouse.Json.Shape

/-!
# Gatehouse.Json.Schema — records as values of a type

The last stage of reading.  A `Schema` says which fields a record has and what value of a type the
fields spell out.  Because a row of fields only exists once every value has been read by its shape,
spelling out cannot fail.

A `Row` is asked for a field by name and by what it should hold, and each question has an answer
where the row has nothing under the name: this is the default of a field that may be missing.  A
field that must not be missing is refused by its shape and never gets here.  A row that held a datum
of another kind under a name would give the default as well, but no schema builds one, since the
fields and what is built from them are written side by side.
-/

namespace Gatehouse.Json

open Gatehouse.Time

/-- The fields of a record that has been read, by name. -/
abbrev Row := String → Option Datum

namespace Row

/-- The text of a field, if the record has one. -/
def text? (r : Row) (name : String) : Option String :=
  match r name with
  | some (.text s) => some s
  | _ => none

/-- The text of a field; one that is missing is empty. -/
def text (r : Row) (name : String) : String := (r.text? name).getD ""

/-- The texts of a field. -/
def texts (r : Row) (name : String) : List String :=
  match r name with
  | some (.texts ss) => ss
  | _ => []

/-- The number of a field; one that is missing is zero. -/
def natural (r : Row) (name : String) : Nat :=
  match r name with
  | some (.natural n) => n
  | _ => 0

/-- The integer of a field; one that is missing is zero. -/
def integer (r : Row) (name : String) : Int :=
  match r name with
  | some (.integer i) => i
  | _ => 0

/-- The instant of a field, or another in its place. -/
def instant (r : Row) (name : String) (missing : Timestamp) : Timestamp :=
  match r name with
  | some (.instant t) => t
  | _ => missing

/-- The meaning of a field's text, or another value in its place. -/
def choice {α : Type} (r : Row) (name : String) (meaning : String → Option α) (missing : α) : α :=
  ((r.text? name).bind meaning).getD missing

end Row

/-- The fields of a record and the value that they spell out. -/
structure Schema (α : Type) where
  fields : List Field
  build : Row → α

namespace Schema

variable {α : Type}

/-- Reads a record from tokens that hold nothing else. -/
def ofTokens (s : Schema α) (ts : List Token) : Except Fault α := do
  let (slots, rest) ← readRecord s.fields ts
  if rest.isEmpty then return s.build (slots.get s.fields) else throw .malformed

/-- Reads a record from a text that holds nothing else. -/
def ofText (s : Schema α) (text : String) : Except Fault α := s.ofTokens (tokensOf text)

end Schema

/-- A field with a text. -/
def textField (name : String) (missing : Missing := .default) : Field := ⟨name, .text, missing⟩

/-- A field with an instant, which is the present one if it is missing. -/
def instantField (name : String) : Field := ⟨name, .instant, .default⟩

/-- A field with a number of 64 bits, which is zero if it is missing. -/
def naturalField (name : String) : Field := ⟨name, .natural (Word.bound 64), .default⟩

/-- A field with a text or null. -/
def optionalField (name : String) : Field := ⟨name, .optional .text, .default⟩

end Gatehouse.Json
