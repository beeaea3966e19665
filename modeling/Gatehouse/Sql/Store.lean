import Gatehouse.Sql.Layout
import Gatehouse.Store

/-!
# Gatehouse.Sql.Store — a store kept by a database

Every call to a store becomes one statement, or two for a page of policies.  Values are bound to
placeholders in the order of the columns that they stand for, and rows are read by position in the
order of the columns that were asked for.

A violation of uniqueness is a conflict, and a reference to a row that does not exist is `notFound`;
a statement that changes no row is `notFound` as well.

No call looks before it writes.  Whether a key is free, a secret is in use or a parent exists is
left to the constraints of the tables, and the answer to a call that adds something is made of the
code of the refusal.  So a call is as atomic as a statement is, and a conflict that only the
database can see is found all the same.

Statuses are stored by their names, and a row whose name is none cannot be read.  Times are stored
at the resolution of the database, and when a status was changed is told by its clock.  In what is
read back from such a store nothing else differs from one in memory, as
`Gatehouse.Proofs.Sql.Fidelity` says.
-/

namespace Gatehouse.Sql

open Layout

/-- A request to a store that is kept by a database. -/
abbrev Stored (α : Type) := ExceptT StorageError (Program database) α

namespace Stored

/-- The outcome of a query, whose errors are errors of the store. -/
def ofQuery {α : Type} (convert : QueryError → StorageError) (q : Query α) : Stored α :=
  ExceptT.mk do
    let outcome ← q.run
    return outcome.mapError convert

/-- The error of a query that reads. -/
def readError (e : QueryError) : StorageError := .internal e.message

/-- The error of a query that adds something. -/
def writeError (what : String) (e : QueryError) : StorageError :=
  if e.isUniqueViolation then .conflict what
  else if e.isForeignKeyViolation then .notFound
  else readError e

/-- The outcome of a query that reads. -/
def reading {α : Type} (q : Query α) : Stored α := ofQuery readError q

/-- A value that does not depend on the database. -/
def ofExcept {α : Type} (r : Except StorageError α) : Stored α := ExceptT.mk (return r)

end Stored

/-! ## Rows -/

/-- The values of a policy in the order of its columns. -/
def policyRow (p : Policy) : Row :=
  [.text p.owner, .text p.subject, .text p.object, .texts p.actions, .ofTimestamp p.createdAt,
   .ofTimestamp p.updatedAt, .text p.updatedBy]

/-- The policy of a row. -/
def readPolicy (r : Row) : Except QueryError Policy := do
  return {
    owner := ← r.text 0
    subject := ← r.text 1
    object := ← r.text 2
    actions := ← r.texts 3
    createdAt := ← r.instant 4
    updatedAt := ← r.instant 5
    updatedBy := ← r.text 6 }

/-- The status of a written name. -/
def readStatus (name : String) : Except StorageError Status :=
  match Status.ofName? name with
  | some status => .ok status
  | none => .error (.internal (Status.unknownMessage name))

/-- The values of a client in the order of its columns. -/
def clientRow (c : Client) : Row :=
  [.text c.id, .text c.name, .text c.owner, .text c.secret, .text c.status.name,
   .ofTimestamp c.createdAt, .ofTimestamp c.updatedAt]

/-- The client of a row, but for its status, which is still a name. -/
def readClient (r : Row) : Except QueryError (Except StorageError Client) := do
  let id ← r.text 0
  let name ← r.text 1
  let owner ← r.text 2
  let secret ← r.text 3
  let status ← r.text 4
  let createdAt ← r.instant 5
  let updatedAt ← r.instant 6
  return do
    let status ← readStatus status
    return { id, name, owner, secret, status, createdAt, updatedAt }

/-- The values of a group in the order of its columns. -/
def groupRow (g : Group) : Row :=
  [.text g.id, .text g.name, .text g.description, .text g.owner, .ofOption g.parent,
   .text g.status.name, .ofTimestamp g.createdAt, .ofTimestamp g.updatedAt]

/-- The group of a row, but for its status, which is still a name. -/
def readGroup (r : Row) : Except QueryError (Except StorageError Group) := do
  let id ← r.text 0
  let name ← r.text 1
  let description ← r.text 2
  let owner ← r.text 3
  let parent ← r.optionalText 4
  let status ← r.text 5
  let createdAt ← r.instant 6
  let updatedAt ← r.instant 7
  return do
    let status ← readStatus status
    return { id, name, description, owner, parent, status, createdAt, updatedAt,
             level := 0, path := "" }

/-! ## Requests -/

/-- Adds a row. -/
def insertRow (table : String) (columns : List String) (r : Row) (what : String) : Stored Unit := do
  let _ ← Stored.ofQuery (Stored.writeError what) (Query.execute (.insert table columns []) r)
  return ()

/-- Changes or removes rows, of which there must be one. -/
def changeRow (s : Statement) (params : List Value) : Stored Unit := do
  let outcome ← Stored.reading (Query.execute s params)
  if outcome.affected = 0 then throw .notFound

/-- The first row that a statement gives back. -/
def firstRow {α : Type} (read : Row → Except QueryError (Except StorageError α)) (s : Statement)
    (params : List Value) : Stored (Option α) := do
  match ← Stored.reading (Query.first read s params) with
  | some a => some <$> Stored.ofExcept a
  | none => return none

/-- Sets the status of the row with an id and gives back the row. -/
def setStatus {α : Type} (read : Row → Except QueryError (Except StorageError α)) (table : String)
    (columns : List String) (id : String) (status : Status) : Stored α := do
  let s : Statement :=
    .update table [("status", .param 2), ("updated_at", .now)] [.equals "id" 1] columns
  match ← firstRow read s [.text id, .text status.name] with
  | some a => return a
  | none => throw .notFound

/-- The condition that a row has a key. -/
def hasKey : List Condition := [.equals "subject" 1, .equals "object" 2]

/-- The conditions of a query, each on the next parameter.  The first always holds, which makes a
filter of no conditions one that can be written like any other. -/
def filterConditions (q : PolicyQuery) : List Condition :=
  let given : List (Nat → Condition) :=
    (q.owner.toList.map fun _ => Condition.equals "owner_id") ++
    (q.subject.toList.map fun _ => Condition.equals "subject") ++
    (q.object.toList.map fun _ => Condition.equals "object") ++
    (q.action.toList.map fun _ => Condition.contains "actions")
  .always :: given.zipIdx.map fun (condition, i) => condition (i + 1)

/-- The parameters of a query. -/
def filterParams (q : PolicyQuery) : List Value :=
  (q.owner.toList ++ q.subject.toList ++ q.object.toList ++ q.action.toList).map .text

/-- A page of policies: how many there are, and then those that are shown. -/
def policyPage (q : PolicyQuery) : Stored PolicyPage := do
  let filter := filterConditions q
  let params := filterParams q
  let total ← Stored.reading (Query.one (·.integer 0) (.count policies filter) params)
  let rows ← Stored.reading (Query.all readPolicy
    (.select policyColumns policies filter ["subject", "object"]
      (some ⟨q.effectiveLimit, q.offset⟩)) params)
  return { total := total.toNat, offset := q.offset, limit := q.effectiveLimit, policies := rows }

/-- The request that a call to a store becomes. -/
def request : (c : StoreCall) → Stored c.Value
  | .policy key =>
    Stored.reading (Query.first readPolicy (.select policyColumns policies hasKey [] none)
      [.text key.subject, .text key.object])
  | .policiesOf subject =>
    Stored.reading (Query.all readPolicy
      (.select policyColumns policies [.equals "subject" 1] ["object"] none) [.text subject])
  | .policyPage q => policyPage q
  | .addPolicy p => insertRow policies policyColumns (policyRow p) p.key.render
  | .updatePolicy p =>
    changeRow
      (.update policies
        [("actions", .param 3), ("updated_at", .param 4), ("updated_by", .param 5)] hasKey [])
      [.text p.subject, .text p.object, .texts p.actions, .ofTimestamp p.updatedAt,
       .text p.updatedBy]
  | .deletePolicy key => changeRow (.delete policies hasKey) [.text key.subject, .text key.object]
  | .addClient c => insertRow clients clientColumns (clientRow c) (clientConflict c.id)
  | .client id =>
    firstRow readClient (.select clientColumns clients [.equals "id" 1] [] none) [.text id]
  | .clientBySecret secret =>
    firstRow readClient (.select clientColumns clients [.equals "secret" 1] [] none) [.text secret]
  | .setClientStatus id status => setStatus readClient clients clientColumns id status
  | .addGroup g => insertRow groups groupColumns (groupRow g) (groupConflict g.id)
  | .group id =>
    firstRow readGroup (.select groupColumns groups [.equals "id" 1] [] none) [.text id]
  | .groups => do
    let rows ← Stored.reading (Query.all readGroup (.select groupColumns groups [] ["id"] none) [])
    Stored.ofExcept (rows.mapM id)
  | .setGroupStatus id status => setStatus readGroup groups groupColumns id status

/-- The answer of a store that is kept by a database. -/
def answerStore (c : StoreCall) : Program database c.Reply := (request c).run

end Gatehouse.Sql
