import Gatehouse.Json.Value
import Gatehouse.Time.Timestamp
import Gatehouse.Trace

/-!
# Gatehouse.Trace.Document — remarks in JSON

A remark is written as an object with its time, its level, its fields and its target.

The fields are an object within, in the order in which the remark has them, so the text of a remark
comes first there.  The time is the one at which the remark is written; a `TraceEntry` has none of
its own.
-/

namespace Gatehouse

open Gatehouse.Json Gatehouse.Time

/-- The value of a field in JSON. -/
def FieldValue.toJson : FieldValue → Value
  | text s => .text s
  | number n => .integer n
  | flag b => .bool b

/-- The fields of a remark in JSON. -/
def TraceEntry.fieldsToJson (e : TraceEntry) : Value :=
  .object (e.fields.map fun (name, v) => (name, v.toJson))

/-- A remark that was made at a time, in JSON. -/
def TraceEntry.toJson (e : TraceEntry) (time : Timestamp) : Value :=
  .object
    [("timestamp", .text time.render), ("level", .text e.level.name),
     ("fields", e.fieldsToJson), ("target", .text e.target)]

end Gatehouse
