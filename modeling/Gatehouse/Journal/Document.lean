import Gatehouse.Journal
import Gatehouse.Json.Reader

/-!
# Gatehouse.Journal.Document — records in JSON

A record is written as an object of texts, its fields in increasing order, and read back from any
object of texts.

This is the form in which an event log keeps records that is held in a database: one column of a row
is the text of the record.  `Record.toJson` is what is written there.  `Record.ofJson?` says what
such a text means to whoever reads the log, and that it means the record that was written is a
theorem of `Gatehouse.Proofs.Journal.Document`; the reader takes the members in any order, and of
two with one name the later.
-/

namespace Gatehouse

open Gatehouse.Json

/-- A record in JSON. -/
def Record.toJson (r : Record) : Value :=
  .object (r.entries.map fun (name, s) => (name, .text s))

/-- A member of an object that is a text. -/
def textMember? : String × Value → Option (String × String)
  | (name, .text s) => some (name, s)
  | _ => none

/-- The record of an object of texts. -/
def Record.ofJson? : Value → Option Record
  | .object ms => (ms.mapM textMember?).map Table.ofList
  | _ => none

end Gatehouse
