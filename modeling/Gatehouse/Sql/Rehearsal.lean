import Gatehouse.Sql.Database

/-!
# Gatehouse.Sql.Rehearsal — a database that only answers

A `Script` is a database that executes nothing: it keeps the statements with the values bound to
them, and answers each with the next of its replies.  When there are none left, no row is given back
and none is affected.

Replies are functions of the statement, so that a row can be made for whatever columns were asked
for.  What was executed is kept with its values: this is where it can be seen that no value of a
caller ever gets into the text of a statement.
-/

namespace Gatehouse.Sql

/-- A reply, which may depend on the statement that it answers. -/
abbrev Reply := Statement → Except DatabaseError Outcome

/-- The replies that are left, and what was executed and remarked so far, newest first. -/
structure Script where
  replies : List Reply
  executed : List (Statement × List Value)
  trace : List TraceEntry

namespace Script

/-- A database that will give some replies. -/
def ofReplies (replies : List Reply) : Script := ⟨replies, [], []⟩

/-- The next reply to a statement. -/
def reply (d : Script) (s : Statement) : Except DatabaseError Outcome :=
  match d.replies with
  | r :: _ => r s
  | [] => .ok ⟨[], 0⟩

/-- The answer to a step of a query. -/
def answer : (c : DatabaseCall) → Script → c.Reply × Script
  | .execute s params, d =>
    (d.reply s, { d with replies := d.replies.tail, executed := (s, params) :: d.executed })
  | .note e, d => ((), { d with trace := e :: d.trace })

/-- Runs a program over a database. -/
def run {α : Type} (p : Program database α) (d : Script) : α × Script := p.run answer d

end Script

end Gatehouse.Sql
