import Gatehouse.Journal.Document
import Gatehouse.Proofs.Json.Reader

/-!
# Gatehouse.Proofs.Journal.Document — records are read back from their JSON

A record is a table of texts, and it is written as an object whose members stand in the order of the
table.  Nothing of it is lost: texts have no bounds that a reader could refuse, and the names of a
table are distinct, so the object gives the same table back (`ofJson?_toJson`, `ofText?_render`).

This is what makes the text that a log stores for a record a way to store the record.  Two logs that
store the same texts have stored the same records, and a reader who knows nothing of the program can
tell what was recorded from what is stored.
-/

namespace Gatehouse.Record

open Gatehouse.Json

/-- The record that a JSON text spells out. -/
def ofText? (s : String) : Option Record := (Value.ofText? s).bind ofJson?

/-- A record has no number in it that could be too large. -/
theorem fits_toJson (r : Record) : (toJson r).Fits := by
  refine Value.membersFit_iff.2 fun m hm => ?_
  obtain ⟨entry, -, rfl⟩ := List.mem_map.1 hm
  trivial

/-- The value of a record is the value of that record.  The members are read back in the order in
which they are written, which is that of their names, and a table that is filled in this order is
the one that was written. -/
theorem ofJson?_toJson (r : Record) : ofJson? (toJson r) = some r := by
  have hmembers :
      (r.entries.map fun e => (e.1, Value.text e.2)).mapM textMember? = some r.entries := by
    rw [List.mapM_map]
    exact List.mapM_pure.trans (congrArg some (List.map_id _))
  -- the members come back as they were listed, and a table is the table of its own entries
  exact (congrArg (Option.map Table.ofList) hmembers).trans (congrArg some r.ofList_entries)

/-- **Records are read back.**  The text of a record spells out that record and no other. -/
theorem ofText?_render (r : Record) : ofText? (toJson r).render = some r := by
  rw [ofText?, Value.ofText?_render (fits_toJson r), Option.bind_some, ofJson?_toJson]

end Gatehouse.Record
