import Gatehouse.Entity
import Gatehouse.Policy
import Gatehouse.Program

/-!
# Gatehouse.Store — what is asked of a store

A store keeps policies, clients and groups.  It is asked one `StoreCall` at a time, each of which is
atomic and may fail with a `StorageError`.  The calls are the same whether the store is held in
memory or kept by a database.

There are no transactions: what takes two calls may be half done, and another caller may come
between them.  Each call therefore carries its own check, and refuses by itself what would break the
store, a key that is taken or a group without its parent.

Clients and groups are never removed and keep their owner and their place; only their status
changes.  Policies are added, have their actions replaced, and are removed.  This is all that can
happen to a store, and the theory of its states is an induction over it.
-/

namespace Gatehouse

/-! ## Errors -/

/-- Why a store did not do what it was asked. -/
inductive StorageError where
  | notFound
  | conflict (what : String)
  | internal (text : String)
deriving DecidableEq, Repr

/-- The text of a storage error. -/
def StorageError.message : StorageError → String
  | notFound => "entity not found"
  | conflict what => s!"entity already exists: {what}"
  | internal text => s!"internal storage error: {text}"

/-- What a conflict over a client's id is about. -/
def clientConflict (id : String) : String := s!"client {id}"

/-- What a conflict over a client's secret is about. -/
def secretConflict : String := "client key"

/-- What a conflict over a group's id is about. -/
def groupConflict (id : String) : String := s!"group {id}"

/-! ## Calls -/

/-- One request to a store. -/
inductive StoreCall where
  | policy (key : PolicyKey)
  | policiesOf (subject : String)
  | policyPage (query : PolicyQuery)
  | addPolicy (p : Policy)
  | updatePolicy (p : Policy)
  | deletePolicy (key : PolicyKey)
  | addClient (c : Client)
  | client (id : String)
  | clientBySecret (secret : String)
  | setClientStatus (id : String) (status : Status)
  | addGroup (g : Group)
  | group (id : String)
  | groups
  | setGroupStatus (id : String) (status : Status)
deriving DecidableEq, Repr

namespace StoreCall

/-- What a store answers when it does what it was asked. -/
def Value : StoreCall → Type
  | policy _ => Option Policy
  | policiesOf _ => List Policy
  | policyPage _ => PolicyPage
  | addPolicy _ | updatePolicy _ | deletePolicy _ => Unit
  | addClient _ => Unit
  | client _ | clientBySecret _ => Option Client
  | setClientStatus _ _ => Client
  | addGroup _ => Unit
  | group _ => Option Group
  | groups => List Group
  | setGroupStatus _ _ => Group

/-- What a store answers. -/
abbrev Reply (c : StoreCall) : Type := Except StorageError c.Value

/-- The name under which a call is known to those who make it fail. -/
def name : StoreCall → String
  | policy _ => "retrieve"
  | policiesOf _ => "retrieve_by_subject"
  | policyPage _ => "retrieve_all"
  | addPolicy _ => "save"
  | updatePolicy _ => "update"
  | deletePolicy _ => "delete"
  | addClient _ => "save_client"
  | client _ => "retrieve_client"
  | clientBySecret _ => "retrieve_client_by_secret"
  | setClientStatus _ _ => "change_client_status"
  | addGroup _ => "save_group"
  | group _ => "retrieve_group"
  | groups => "retrieve_all_groups"
  | setGroupStatus _ _ => "change_group_status"

/-- Whether a call only reads. -/
def isRead : StoreCall → Bool
  | policy _ | policiesOf _ | policyPage _ | client _ | clientBySecret _ | group _ | groups => true
  | _ => false

end StoreCall

/-- The interface of a store. -/
def storage : Interface := ⟨StoreCall, StoreCall.Reply⟩

end Gatehouse
