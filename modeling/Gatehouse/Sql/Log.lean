import Gatehouse.Journal.Document
import Gatehouse.Sql.Layout
import Gatehouse.Word

/-!
# Gatehouse.Sql.Log — an event log kept by a database

A record is written as a JSON object into one row, whose sequence number comes from the database.
After an append the rows of the stream whose numbers lie `maxLen` or more before the new one are
removed; numbers may have gaps, so fewer rows than `maxLen` may be left.  An append that could not
remove them has succeeded all the same.

An append is two statements, and the second is sent only if there is something to remove.  Since the
number that a row has been given comes back with it, the bound can be computed without another
question; it is kept within 64 bits, as the database counts.  That such a log keeps the records that
a log in memory keeps, if numbers come without gaps, is proved in `Gatehouse.Proofs.Sql.Trimming`,
where each stored text is read back as the record that it was written for.
-/

namespace Gatehouse.Sql.Log

open Layout

/-- The target of the remarks of the log. -/
def target : String := "corral_events::postgres"

/-- The largest sequence number. -/
def maxSequence : Int := Word.bound 63 - 1

/-- A record as a JSON object, its fields in increasing order. -/
def payload (r : Record) : String := (Record.toJson r).render

/-- The largest sequence number that is removed when a new one is given out, if any. -/
def trimBound (maxLen : Nat) (seq : Int) : Option Int :=
  let kept : Int := min maxLen maxSequence
  if 0 < kept ∧ kept < seq then some (seq - kept) else none

/-- Adds a row to a stream. -/
def insertStatement : Statement := .insert eventLog ["stream", "payload"] ["seq"]

/-- Removes the rows of a stream up to a number. -/
def trimStatement : Statement := .delete eventLog [.equals "stream" 1, .atMost "seq" 2]

/-- Asks whether the database is there. -/
def probe : Program database (Except EventError Unit) := do
  match ← (Query.execute .ping []).run with
  | .ok _ => return .ok ()
  | .error e => return .error (.unavailable e.message)

/-- Removes rows; that it failed is only remarked on. -/
def trim (stream : String) (bound : Int) : Program database Unit := do
  match ← (Query.execute trimStatement [.text stream, .integer bound]).run with
  | .ok _ => return ()
  | .error e =>
    Program.query (I := database) (.note (.remark .warn target "event log trim failed"
      [("stream", .text stream), ("error", .text e.message)]))

/-- Appends a record to a stream that is to keep `maxLen` records, or all if that is zero. -/
def append (stream : String) (r : Record) (maxLen : Nat) :
    Program database (Except EventError Unit) := do
  match ← (Query.one (·.integer 0) insertStatement [.text stream, .text (payload r)]).run with
  | .error e => return .error (.append e.message)
  | .ok seq =>
    if let some bound := trimBound maxLen seq then trim stream bound
    return .ok ()

end Gatehouse.Sql.Log
