import Gatehouse.Proofs.Store.Writes
import Gatehouse.Service.Event
import Gatehouse.Text.Split

/-!
# Gatehouse.Proofs.Journal.Ledger — what a stream of records tells

A `Ledger` is what the records of a stream tell of a store: who owns which policy and which actions
it grants, who owns which group, inside which parent and in which status, and who owns which client
and in which status.  `Ledger.replay` reads a stream from its oldest record on, and `Store.ledger`
reads the same off a store.

A record is read by nothing but its fields: lists of actions are cut at their commas, and records of
tokens tell nothing.

* `apply_encode` : the record of an event tells what the event does, as long as its actions can be
  told apart, which those of a policy that was checked can (`readable_normalizeActions`).
* `ledger_of_carried` : what a call that is carried out does to the ledger of a store.

Between the two stands `Ledger.enter`, which says what an event does without a record of it.  The
one theorem is about texts and the other about tables, and the two meet only in
`Gatehouse.Proofs.Service.Replay`, where the events of a service are those of the calls it has
carried out.

Not everything is told.  Times, names, descriptions and secrets are not part of a ledger: secrets
and descriptions are in no record, and of the others no decision depends on any.
-/

namespace Gatehouse

open Gatehouse.Time

/-! ## Tables with other values -/

namespace Table

universe u v w

variable {κ : Type u} {α : Type v} {β : Type w} [Ord κ]

/-- The table with every value changed. -/
def mapValues (t : Table κ α) (f : α → β) : Table κ β :=
  ⟨t.entries.map fun e => (e.1, f e.2), by
    rw [List.pairwise_map]
    exact t.sorted⟩

variable [DecidableEq κ]

@[simp] theorem lookup_mapValues (t : Table κ α) (f : α → β) (k : κ) :
    (t.mapValues f).lookup k = (t.lookup k).map f := by
  show (t.entries.map fun e => (e.1, f e.2)).lookup k = (t.entries.lookup k).map f
  induction t.entries with
  | nil => rfl
  | cons e rest ih =>
      rw [List.map_cons, lookup_entries_cons, lookup_entries_cons, ih, apply_ite (Option.map f)]
      rfl

variable [Std.TransOrd κ] [Std.LawfulEqOrd κ]

/-- To put an entry and to change all values may be done in either order. -/
theorem mapValues_insert (t : Table κ α) (f : α → β) (k : κ) (a : α) :
    (t.insert k a).mapValues f = (t.mapValues f).insert k (f a) := by
  refine ext_lookup fun k' => ?_
  rw [lookup_mapValues, lookup_insert, lookup_insert, lookup_mapValues, apply_ite (Option.map f)]
  rfl

/-- To remove an entry and to change all values may be done in either order. -/
theorem mapValues_erase (t : Table κ α) (f : α → β) (k : κ) :
    (t.erase k).mapValues f = (t.mapValues f).erase k := by
  refine ext_lookup fun k' => ?_
  rw [lookup_mapValues, lookup_erase, lookup_erase, lookup_mapValues, apply_ite (Option.map f)]
  rfl

/-- A change `g` that `f` carries over to `g'`. -/
theorem mapValues_modify (t : Table κ α) (f : α → β) (g : α → α) (g' : β → β)
    (h : ∀ a, f (g a) = g' (f a)) (k : κ) :
    (t.modify k g).mapValues f = (t.mapValues f).modify k g' := by
  refine ext_lookup fun k' => ?_
  rw [lookup_mapValues, lookup_modify, lookup_modify, lookup_mapValues, apply_ite (Option.map f)]
  have hcomp : f ∘ g = g' ∘ f := funext h
  rw [Option.map_map, Option.map_map, hcomp]

/-- An entry that replaces another one is a change of it. -/
theorem mapValues_replace (t : Table κ α) (f : α → β) (g : β → β) {k : κ} {a a' : α}
    (hold : t.lookup k = some a) (h : f a' = g (f a)) :
    (t.insert k a').mapValues f = (t.mapValues f).modify k g := by
  refine ext_lookup fun k' => ?_
  rw [lookup_mapValues, lookup_insert, lookup_modify, lookup_mapValues, apply_ite (Option.map f)]
  by_cases hk : k' = k
  · rw [if_pos hk, if_pos hk, hk, hold]
    exact congrArg some h
  · rw [if_neg hk, if_neg hk]

end Table

/-! ## Ledgers -/

/-- What is told of a policy beside its key. -/
structure PolicyRow where
  owner : String
  actions : List String
deriving DecidableEq, Repr

/-- What is told of a group beside its id. -/
structure GroupRow where
  owner : String
  parent : Option String
  status : Status
deriving DecidableEq, Repr

/-- What is told of a client beside its id. -/
structure ClientRow where
  owner : String
  status : Status
deriving DecidableEq, Repr

/-- The row of a policy. -/
def Policy.row (p : Policy) : PolicyRow := ⟨p.owner, p.actions⟩

/-- The row of a group. -/
def Group.row (g : Group) : GroupRow := ⟨g.owner, g.parent, g.status⟩

/-- The row of a client. -/
def Client.row (c : Client) : ClientRow := ⟨c.owner, c.status⟩

/-- What a stream tells of a store. -/
structure Ledger where
  policies : Table PolicyKey PolicyRow
  groups : Table String GroupRow
  clients : Table String ClientRow
deriving DecidableEq

namespace Ledger

/-- The ledger of a stream without records. -/
def empty : Ledger := ⟨∅, ∅, ∅⟩

/-- Sets who owns a policy and what it grants. -/
def setPolicy (l : Ledger) (key : PolicyKey) (row : PolicyRow) : Ledger :=
  { l with policies := l.policies.insert key row }

/-- Replaces what a policy grants. -/
def setActions (l : Ledger) (key : PolicyKey) (actions : List String) : Ledger :=
  { l with policies := l.policies.modify key fun row => { row with actions } }

/-- Drops a policy. -/
def dropPolicy (l : Ledger) (key : PolicyKey) : Ledger :=
  { l with policies := l.policies.erase key }

/-- Sets who owns a group, inside which parent and in which status. -/
def setGroup (l : Ledger) (id : String) (row : GroupRow) : Ledger :=
  { l with groups := l.groups.insert id row }

/-- Sets who owns a client and in which status. -/
def setClient (l : Ledger) (id : String) (row : ClientRow) : Ledger :=
  { l with clients := l.clients.insert id row }

/-- Adds a group with the policy of its owner. -/
def addGroup (l : Ledger) (id owner : String) (parent : Option String) : Ledger :=
  (l.setGroup id ⟨owner, parent, .enabled⟩).setPolicy ⟨owner, id⟩ ⟨owner, groupActions⟩

/-- Adds a client with the policy of its owner. -/
def addClient (l : Ledger) (id owner : String) : Ledger :=
  (l.setClient id ⟨owner, .enabled⟩).setPolicy ⟨owner, id⟩ ⟨owner, clientActions⟩

/-- Sets the status of a group. -/
def setGroupStatus (l : Ledger) (id : String) (status : Status) : Ledger :=
  { l with groups := l.groups.modify id fun row => { row with status } }

/-- Sets the status of a client. -/
def setClientStatus (l : Ledger) (id : String) (status : Status) : Ledger :=
  { l with clients := l.clients.modify id fun row => { row with status } }

/-! ## Reading records -/

/-- The text of a field of a record. -/
def field (r : Record) (name : String) : String := (r.lookup name).getD ""

/-- The key of the policy that a record is about. -/
def keyOf (r : Record) : PolicyKey := ⟨field r "subject", field r "object"⟩

/-- The pieces of a text between its commas. -/
def splitActions (s : String) : List String := (Text.splitAt ',' s.toList).map String.ofList

/-- The list of actions in a record. -/
def actionsOf (r : Record) : List String := splitActions (field r "actions")

/-- The status in a record. -/
def statusOf (r : Record) : Status := (Status.ofName? (field r "status")).getD default

/-- The ledger after one more record.  A record whose operation is not known changes nothing, so a
stream may hold records of a later version. -/
def apply (l : Ledger) (r : Record) : Ledger :=
  match field r "operation" with
  | "policy.add" => l.setPolicy (keyOf r) ⟨field r "owner_id", actionsOf r⟩
  | "policy.update" => l.setActions (keyOf r) (actionsOf r)
  | "policy.delete" => l.dropPolicy (keyOf r)
  | "group.create" => l.addGroup (field r "id") (field r "owner_id") (r.lookup "parent_id")
  | "client.register" => l.addClient (field r "id") (field r "owner_id")
  | "group.enable" | "group.disable" => l.setGroupStatus (field r "id") (statusOf r)
  | "client.enable" | "client.disable" => l.setClientStatus (field r "id") (statusOf r)
  | _ => l

/-- The ledger of a stream, whose records are oldest first. -/
def replay (records : List Record) : Ledger := records.foldl apply empty

theorem replay_snoc (records : List Record) (r : Record) :
    replay (records ++ [r]) = (replay records).apply r := by
  unfold replay
  rw [List.foldl_append]
  rfl

/-- The ledger after one more event. -/
def enter (l : Ledger) : Event → Ledger
  | .tokenIssued _ | .tokenRefreshed => l
  | .policyAdded p => l.setPolicy p.key p.row
  | .policyUpdated p => l.setActions p.key p.actions
  | .policyDeleted key => l.dropPolicy key
  | .groupCreated g => l.addGroup g.id g.owner g.parent
  | .clientRegistered c => l.addClient c.id c.owner
  | .statusChanged .group _ id status => l.setGroupStatus id status
  | .statusChanged .client _ id status => l.setClientStatus id status

/-- The ledger after one more call that a store carried out. -/
def carry (l : Ledger) : StoreCall → Ledger
  | .addPolicy p => l.setPolicy p.key p.row
  | .updatePolicy p => l.setActions p.key p.actions
  | .deletePolicy key => l.dropPolicy key
  | .addClient c => l.setClient c.id c.row
  | .setClientStatus id status => l.setClientStatus id status
  | .addGroup g => l.setGroup g.id g.row
  | .setGroupStatus id status => l.setGroupStatus id status
  | _ => l

end Ledger

/-! ## Actions in a record -/

/-- Whether some actions can be told apart when they stand in one text. -/
def Readable (actions : List String) : Prop := actions ≠ [] ∧ ∀ a ∈ actions, ',' ∉ a.toList

/-- No action that exists has a comma in it. -/
theorem comma_notMem_of_isAction {a : String} (h : isAction a = true) : ',' ∉ a.toList := by
  have hvocabulary : ∀ a ∈ groupActions ++ clientActions, ',' ∉ a.toList := by decide
  refine hvocabulary a ?_
  simpa [isAction] using h

/-- The actions of a policy that was checked. -/
theorem readable_normalizeActions {p : Policy} (h : p.validate = .ok ()) :
    Readable (Policy.normalizeActions p.actions) := by
  obtain ⟨hne, hactions⟩ := Policy.actions_of_validate h
  refine ⟨Policy.normalizeActions_ne_nil hne, ?_⟩
  intro a ha
  exact comma_notMem_of_isAction (hactions a (Policy.mem_of_mem_normalizeActions ha))

/-- Actions that can be told apart are found again between the commas. -/
theorem splitActions_intercalate {actions : List String} (h : Readable actions) :
    Ledger.splitActions (String.intercalate "," actions) = actions := by
  unfold Ledger.splitActions
  rw [String.toList_intercalate, show ",".toList = [','] from rfl, Text.splitAt_intercalate]
  · rw [List.map_map]
    exact (List.map_congr_left fun a _ => String.ofList_toList).trans (List.map_id actions)
  · simpa using h.1
  · simpa using h.2

/-- Whether the record of an event tells it. -/
def Event.Readable : Event → Prop
  | .policyAdded p | .policyUpdated p => Gatehouse.Readable p.actions
  | _ => True

namespace Ledger

/-- A field of a record is the last one of that name among those that were put into it. -/
theorem field_encode (e : Event) (time : Timestamp) (name : String) :
    field (e.encode time) name =
      (([("operation", e.operation), ("occurred_at", time.renderOffset)] ++ e.fields).foldl
        (fun found f => if name = f.1 then some f.2 else found) none).getD "" :=
  congrArg (Option.getD · "") (e.lookup_encode time name)

/-- **What a record tells.**  The record of an event tells what the event does. -/
theorem apply_encode {e : Event} (h : e.Readable) (time : Timestamp) (l : Ledger) :
    l.apply (e.encode time) = l.enter e := by
  have hoperation : field (e.encode time) "operation" = e.operation := by
    unfold field
    rw [e.lookup_encode_operation]
    rfl
  unfold apply
  rw [hoperation]
  cases e with
  | tokenIssued | tokenRefreshed => rfl
  | policyAdded p =>
      simp [Event.operation, enter, keyOf, actionsOf, field_encode, Event.fields,
        Event.policyFields, splitActions_intercalate h, Policy.key, Policy.row]
  | policyUpdated p =>
      simp [Event.operation, enter, keyOf, actionsOf, field_encode, Event.fields,
        Event.policyFields, splitActions_intercalate h, Policy.key]
  | policyDeleted key =>
      simp [Event.operation, enter, keyOf, field_encode, Event.fields]
  | groupCreated g =>
      -- a parent and a name are only in the record if there are any
      cases hparent : g.parent <;> by_cases hname : g.name = "" <;>
        simp [Event.operation, enter, field_encode, Event.lookup_encode, Event.fields, hparent,
          hname]
  | clientRegistered c => simp [Event.operation, enter, field_encode, Event.fields]
  | statusChanged entityType toEnabled id status =>
      have hstatus : statusOf ((Event.statusChanged entityType toEnabled id status).encode time) =
          status := by
        simp [statusOf, field_encode, Event.fields, Status.ofName?_name]
      cases entityType <;> cases toEnabled <;>
        simp [Event.operation, EntityType.name, enter, field_encode, Event.fields, hstatus]

end Ledger

/-! ## The ledger of a store -/

namespace Store

/-- What is told of a store. -/
def ledger (s : Store) : Ledger where
  policies := s.policies.mapValues Policy.row
  groups := s.groups.mapValues Group.row
  clients := s.clients.mapValues Client.row

/-- A ledger is read off nothing but the tables. -/
theorem ledger_of_sameTables {s t : Store} (h : s.SameTables t) : t.ledger = s.ledger := by
  unfold ledger
  rw [h.1, h.2.1, h.2.2]

/-- **Writes.**  A call that is carried out does the same to the ledger of the store. -/
theorem ledger_of_carried {now : Timestamp} {s t : Store} {c : StoreCall} {value : c.Value}
    (h : s.Carried now c value t) : t.ledger = s.ledger.carry c := by
  cases c with
  | addPolicy p =>
      obtain ⟨-, rfl⟩ := h
      exact congrArg (Ledger.mk · _ _) (Table.mapValues_insert s.policies Policy.row p.key p)
  | updatePolicy p =>
      obtain rfl := h
      exact congrArg (Ledger.mk · _ _) (Table.mapValues_modify s.policies Policy.row (amend · p)
        (fun row => { row with actions := p.actions }) (fun _ => rfl) p.key)
  | deletePolicy key =>
      obtain rfl := h
      exact congrArg (Ledger.mk · _ _) (Table.mapValues_erase s.policies Policy.row key)
  | addClient c =>
      obtain rfl := h
      exact congrArg (Ledger.mk _ _ ·) (Table.mapValues_insert s.clients Client.row c.id c)
  | setClientStatus id status =>
      obtain ⟨⟨old, hold, rfl⟩, rfl⟩ := h
      exact congrArg (Ledger.mk _ _ ·) (Table.mapValues_replace s.clients Client.row
        (fun row => { row with status }) hold rfl)
  | addGroup g =>
      obtain rfl := h
      exact congrArg (Ledger.mk _ · _) (Table.mapValues_insert s.groups Group.row g.id g)
  | setGroupStatus id status =>
      obtain ⟨⟨old, hold, rfl⟩, rfl⟩ := h
      exact congrArg (Ledger.mk _ · _) (Table.mapValues_replace s.groups Group.row
        (fun row => { row with status }) hold rfl)
  | policy | policiesOf | policyPage | client | clientBySecret | group | groups =>
      obtain rfl := h
      rfl

end Store

end Gatehouse
