import Gatehouse.Entity
import Gatehouse.Json.Schema
import Gatehouse.Json.Value

/-!
# Gatehouse.Entity.Document — clients and groups in JSON

How clients, groups, pages and queries are written and read.  The path of a group is written only
if it has one.

What is written of an entity and what is read of it need not agree on the face of it: a writer says
every field in one order, while a reader takes them in any order, passes over names that it does not
know, and has a default for most that are missing.  Both are data here.  The writer is a `Value`,
and the reader a `Schema`, a list of fields with their shapes and defaults and what is built from
them; that the second undoes the first is proved in `Gatehouse.Proofs.Entity`.

The readers of clients and of groups take the time at which they read, since the two times of an
entity default to it.
-/

namespace Gatehouse

open Gatehouse.Json Gatehouse.Time

/-- A field with a status, which has a default if it is missing. -/
def statusField : Field := ⟨"status", .choice Status.names, .default⟩

/-- A client in JSON. -/
def Client.toJson (c : Client) : Value :=
  .object
    [("id", .text c.id), ("name", .text c.name), ("owner_id", .text c.owner),
     ("secret", .text c.secret), ("status", .text c.status.name),
     ("created_at", .text c.createdAt.render), ("updated_at", .text c.updatedAt.render)]

/-- The reader of clients at a time. -/
def Client.schema (now : Timestamp) : Schema Client where
  fields :=
    [textField "id", textField "name", textField "owner_id", textField "secret", statusField,
     instantField "created_at", instantField "updated_at"]
  build r :=
    { id := r.text "id", name := r.text "name", owner := r.text "owner_id"
      secret := r.text "secret", status := r.choice "status" Status.ofName? .enabled
      createdAt := r.instant "created_at" now, updatedAt := r.instant "updated_at" now }

/-- A group in JSON. -/
def Group.toJson (g : Group) : Value :=
  .object <|
    [("id", .text g.id), ("name", .text g.name), ("description", .text g.description),
     ("owner_id", .text g.owner), ("parent_id", .optional g.parent),
     ("status", .text g.status.name), ("created_at", .text g.createdAt.render),
     ("updated_at", .text g.updatedAt.render), ("level", .integer g.level)] ++
    if g.path = "" then [] else [("path", .text g.path)]

/-- The reader of groups at a time. -/
def Group.schema (now : Timestamp) : Schema Group where
  fields :=
    [textField "id", textField "name", textField "description", textField "owner_id",
     optionalField "parent_id", statusField, instantField "created_at", instantField "updated_at",
     naturalField "level", textField "path"]
  build r :=
    { id := r.text "id", name := r.text "name", description := r.text "description"
      owner := r.text "owner_id", parent := r.text? "parent_id"
      status := r.choice "status" Status.ofName? .enabled
      createdAt := r.instant "created_at" now, updatedAt := r.instant "updated_at" now
      level := r.natural "level", path := r.text "path" }

/-- A page of groups in JSON. -/
def GroupsPage.toJson (p : GroupsPage) : Value :=
  .object
    [("total", .integer p.total), ("offset", .integer p.offset), ("limit", .integer p.limit),
     ("groups", .array (p.groups.map Group.toJson))]

/-- The reader of queries for groups.  A status that is missing asks for groups of either, where
that of an entity is `enabled`. -/
def GroupQuery.schema : Schema GroupQuery where
  fields :=
    [optionalField "id", naturalField "level", ⟨"direction", .integer64, .default⟩, statusField,
     naturalField "offset", naturalField "limit"]
  build r :=
    { id := r.text? "id", level := r.natural "level", direction := r.integer "direction"
      status := r.choice "status" Status.ofName? .all, offset := r.natural "offset"
      limit := r.natural "limit" }

end Gatehouse
