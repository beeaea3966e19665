import Gatehouse.Entity
import Gatehouse.Http.Percent
import Gatehouse.Policy
import Gatehouse.Text.Digits

/-!
# Gatehouse.Http.Query — queries in query strings

The entries of a query string as a query for policies or for groups.  Entries with other names are
ignored; a name that occurs twice, a number out of range and a word that is no status are refused.

Every field of a query is read in one way, `Form.entry`, which takes the name, what stands for a
field that is missing, and the meaning of its text; the fields differ in these three only.  An entry
without a value has the empty text, which is a text but no number.  Escapes have been decoded
before, so two spellings of one name count as that name twice.
-/

namespace Gatehouse.Http

open Gatehouse.Text

/-- The entries of a query string. -/
abbrev Form := List (String × String)

namespace Form

/-- The meaning of the entry of a name, or a default if there is none; the query string is refused
if there are several or the one has no meaning. -/
def entry {α : Type} (f : Form) (name : String) (missing : α) (meaning : String → Option α) :
    Option α :=
  match f.filter fun e => e.1 = name with
  | [] => some missing
  | [(_, value)] => meaning value
  | _ => none

/-- A number of 64 bits. -/
def natural (f : Form) (name : String) : Option Nat :=
  f.entry name 0 fun s => unsigned? (Word.bound 64) s.toList

/-- A text, if there is one. -/
def text? (f : Form) (name : String) : Option (Option String) := f.entry name none fun s => some s

/-- The query for policies that a form spells out. -/
def policyQuery? (f : Form) : Option PolicyQuery := do
  return {
    offset := ← f.natural "offset", limit := ← f.natural "limit", owner := ← f.text? "owner_id"
    subject := ← f.text? "subject", object := ← f.text? "object", action := ← f.text? "action" }

/-- The query for groups that a form spells out. -/
def groupQuery? (f : Form) : Option GroupQuery := do
  return {
    id := ← f.text? "id", level := ← f.natural "level"
    direction := ← f.entry "direction" 0 fun s => signed64? s.toList
    status := ← f.entry "status" .all Status.ofName?, offset := ← f.natural "offset"
    limit := ← f.natural "limit" }

end Form

end Gatehouse.Http
