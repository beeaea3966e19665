import Gatehouse.Json.Schema
import Gatehouse.Json.Value
import Gatehouse.Policy

/-!
# Gatehouse.Policy.Document — policies and their listings in JSON

How policies, pages and queries are written and read.  A policy that does not say when it was
created was created now.

The subject, the object and the actions of a policy must be there, and all else may be missing: what
is missing is what a caller need not say, and it is filled in before a policy is stored.  Keys and
requests for access have no field that may be missing.  A policy in JSON that has been written here
is read back as it was, which `Gatehouse.Proofs.Entity` proves together with the same for clients
and groups.
-/

namespace Gatehouse

open Gatehouse.Json Gatehouse.Time

/-- A policy in JSON. -/
def Policy.toJson (p : Policy) : Value :=
  .object
    [("owner_id", .text p.owner), ("subject", .text p.subject), ("object", .text p.object),
     ("actions", .texts p.actions), ("created_at", .text p.createdAt.render),
     ("updated_at", .text p.updatedAt.render), ("updated_by", .text p.updatedBy)]

/-- The reader of policies at a time. -/
def Policy.schema (now : Timestamp) : Schema Policy where
  fields :=
    [textField "owner_id", textField "subject" .fault, textField "object" .fault,
     ⟨"actions", .texts, .fault⟩, instantField "created_at", instantField "updated_at",
     textField "updated_by"]
  build r :=
    { owner := r.text "owner_id", subject := r.text "subject", object := r.text "object"
      actions := r.texts "actions", createdAt := r.instant "created_at" now
      updatedAt := r.instant "updated_at" now, updatedBy := r.text "updated_by" }

/-- A page of policies in JSON. -/
def PolicyPage.toJson (p : PolicyPage) : Value :=
  .object
    [("total", .integer p.total), ("offset", .integer p.offset), ("limit", .integer p.limit),
     ("policies", .array (p.policies.map Policy.toJson))]

/-- A query for policies in JSON. -/
def PolicyQuery.toJson (q : PolicyQuery) : Value :=
  .object
    [("offset", .integer q.offset), ("limit", .integer q.limit), ("owner_id", .optional q.owner),
     ("subject", .optional q.subject), ("object", .optional q.object),
     ("action", .optional q.action)]

/-- The reader of queries for policies. -/
def PolicyQuery.schema : Schema PolicyQuery where
  fields :=
    [naturalField "offset", naturalField "limit", optionalField "owner_id",
     optionalField "subject", optionalField "object", optionalField "action"]
  build r :=
    { offset := r.natural "offset", limit := r.natural "limit", owner := r.text? "owner_id"
      subject := r.text? "subject", object := r.text? "object", action := r.text? "action" }

/-- Asks whether an action on an object is granted. -/
structure AccessRequest where
  object : String
  action : String
deriving DecidableEq, Repr

/-- A request for access in JSON. -/
def AccessRequest.toJson (a : AccessRequest) : Value :=
  .object [("object", .text a.object), ("action", .text a.action)]

/-- The reader of requests for access. -/
def AccessRequest.schema : Schema AccessRequest where
  fields := [textField "object" .fault, textField "action" .fault]
  build r := ⟨r.text "object", r.text "action"⟩

/-- The key of a policy in JSON. -/
def PolicyKey.schema : Schema PolicyKey where
  fields := [textField "subject" .fault, textField "object" .fault]
  build r := ⟨r.text "subject", r.text "object"⟩

end Gatehouse
