import Gatehouse.Journal
import Gatehouse.Service.Operation
import Gatehouse.Time.Timestamp

/-!
# Gatehouse.Service.Event — the record of a change

Every operation that changes something and succeeds leaves one `Event`, made of what was asked and
what was answered; operations that only read leave none.  `Event.encode` writes an event as a
record, whose fields are all texts.

An event says what is so now, not what was different before: of a policy all that a reader needs to
decide by it, of a status the new one.  It is enough to rebuild who may do what from the records of
a stream, oldest first, which `Gatehouse.Proofs.Service.Replay` proves.  Secrets and tokens are in
no record, and neither is the description of a group.

Fields that would hold nothing are left out, so a record may lack a parent or a name; a reader that
does not find one knows that there was none.
-/

namespace Gatehouse

open Gatehouse.Time

/-- A change that took place. -/
inductive Event where
  | tokenIssued (subject : String)
  | tokenRefreshed
  | policyAdded (p : Policy)
  | policyUpdated (p : Policy)
  | policyDeleted (key : PolicyKey)
  | groupCreated (g : Group)
  | clientRegistered (c : Client)
  | statusChanged (entityType : EntityType) (toEnabled : Bool) (id : String) (status : Status)
deriving DecidableEq, Repr

namespace Event

/-- The name of the operation that an event is the record of. -/
def operation : Event → String
  | tokenIssued _ => "token.issue"
  | tokenRefreshed => "token.refresh"
  | policyAdded _ => "policy.add"
  | policyUpdated _ => "policy.update"
  | policyDeleted _ => "policy.delete"
  | groupCreated _ => "group.create"
  | clientRegistered _ => "client.register"
  | statusChanged entityType toEnabled _ _ =>
    entityType.name ++ (if toEnabled then ".enable" else ".disable")

/-- The fields of a policy in a record. -/
def policyFields (p : Policy) : List (String × String) :=
  [("subject", p.subject), ("object", p.object), ("actions", String.intercalate "," p.actions),
   ("owner_id", p.owner), ("updated_by", p.updatedBy)]

/-- The fields of an event beside its operation and its time. -/
def fields : Event → List (String × String)
  | tokenIssued subject => [("subject_id", subject)]
  | tokenRefreshed => []
  | policyAdded p | policyUpdated p => policyFields p
  | policyDeleted key => [("subject", key.subject), ("object", key.object)]
  | groupCreated g =>
    [("id", g.id), ("owner_id", g.owner)] ++
      (g.parent.toList.map fun parent => ("parent_id", parent)) ++
      (if g.name = "" then [] else [("name", g.name)])
  | clientRegistered c => [("id", c.id), ("owner_id", c.owner)]
  | statusChanged _ _ id status => [("id", id), ("status", status.name)]

/-- The record of an event that took place at a time. -/
def encode (e : Event) (time : Timestamp) : Record :=
  .ofList ([("operation", e.operation), ("occurred_at", time.renderOffset)] ++ e.fields)

theorem lookup_encode (e : Event) (time : Timestamp) (k : String) : (e.encode time).lookup k =
    ([("operation", e.operation), ("occurred_at", time.renderOffset)] ++ e.fields).foldl
      (fun found f => if k = f.1 then some f.2 else found) none :=
  Table.lookup_ofList _ _

theorem lookup_encode_operation (e : Event) (time : Timestamp) :
    (e.encode time).lookup "operation" = some e.operation := by
  rw [lookup_encode]
  cases e with
  | groupCreated g =>
      -- a parent and a name are only there if the group has them
      cases hparent : g.parent <;> by_cases hname : g.name = "" <;> simp [fields, hparent, hname]
  | _ => simp [fields, policyFields]

end Event

/-- The event of an operation that was answered. -/
def Operation.event : (op : Operation) → op.Answer → Option Event
  | issue request, _ => some (.tokenIssued request.subject)
  | refresh _, _ => some .tokenRefreshed
  | identify _, _ => none
  | authorize _ _ _ _, _ => none
  | addPolicy _ _, p => some (.policyAdded p)
  | updatePolicy _ _, p => some (.policyUpdated p)
  | deletePolicy _ key, _ => some (.policyDeleted key)
  | listPolicies _ _, _ => none
  | canAccessByKey _ _, _ => none
  | canAccessById _ _, _ => none
  | identifyThing _, _ => none
  | createGroup _ _, g => some (.groupCreated g)
  | registerClient _ _, c => some (.clientRegistered c)
  | listGroups _ _, _ => none
  | listMemberships _ _ _, _ => none
  | enableGroup _ id, g => some (.statusChanged .group true id (Group.status g))
  | disableGroup _ id, g => some (.statusChanged .group false id (Group.status g))
  | enableClient _ id, c => some (.statusChanged .client true id (Client.status c))
  | disableClient _ id, c => some (.statusChanged .client false id (Client.status c))

end Gatehouse
