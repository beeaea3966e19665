import Gatehouse.Entity
import Gatehouse.Policy
import Gatehouse.Token

/-!
# Gatehouse.Service.Operation — what the service is asked for

Every request to the service is an `Operation`, and `Operation.Answer` is what it is answered with
when it is not refused.  Who asks is said by a token, and by nothing else; three operations are for
devices and take no token.

Operations are data, and a `Service` is a function on them, so that what is said of the service can
be said of all operations at once and split by cases where they differ.  The answer depends on the
operation, hence the type of a service is a dependent one.  A pair of tokens is issued without a
token as well: that operation is reached from the command line only, not over HTTP.
-/

namespace Gatehouse

/-- One request to the service. -/
inductive Operation where
  | issue (request : IssueRequest)
  | refresh (token : String)
  | identify (token : String)
  | authorize (token entityType object action : String)
  | addPolicy (token : String) (p : Policy)
  | updatePolicy (token : String) (p : Policy)
  | deletePolicy (token : String) (key : PolicyKey)
  | listPolicies (token : String) (query : PolicyQuery)
  | canAccessByKey (channel key : String)
  | canAccessById (channel client : String)
  | identifyThing (key : String)
  | createGroup (token : String) (g : Group)
  | registerClient (token : String) (c : Client)
  | listGroups (token : String) (query : GroupQuery)
  | listMemberships (token client : String) (query : GroupQuery)
  | enableGroup (token id : String)
  | disableGroup (token id : String)
  | enableClient (token id : String)
  | disableClient (token id : String)
deriving DecidableEq, Repr

namespace Operation

/-- What an operation is answered with. -/
def Answer : Operation → Type
  | issue _ | refresh _ => TokenPair
  | identify _ => String
  | authorize _ _ _ _ => Unit
  | addPolicy _ _ | updatePolicy _ _ => Policy
  | deletePolicy _ _ => Unit
  | listPolicies _ _ => PolicyPage
  | canAccessByKey _ _ => String
  | canAccessById _ _ => Unit
  | identifyThing _ => String
  | createGroup _ _ => Group
  | registerClient _ _ => Client
  | listGroups _ _ | listMemberships _ _ _ => GroupsPage
  | enableGroup _ _ | disableGroup _ _ => Group
  | enableClient _ _ | disableClient _ _ => Client

/-- The name under which an operation is counted and remarked on. -/
def method : Operation → String
  | issue _ => "issue"
  | refresh _ => "refresh"
  | identify _ => "identify"
  | authorize _ _ _ _ => "authorize"
  | addPolicy _ _ => "add_policy"
  | updatePolicy _ _ => "update_policy"
  | deletePolicy _ _ => "delete_policy"
  | listPolicies _ _ => "list_policies"
  | canAccessByKey _ _ => "can_access_by_key"
  | canAccessById _ _ => "can_access_by_id"
  | identifyThing _ => "identify_thing"
  | createGroup _ _ => "create_group"
  | registerClient _ _ => "register_client"
  | listGroups _ _ => "list_groups"
  | listMemberships _ _ _ => "list_memberships"
  | enableGroup _ _ => "enable_group"
  | disableGroup _ _ => "disable_group"
  | enableClient _ _ => "enable_client"
  | disableClient _ _ => "disable_client"

/-- The names of all operations. -/
def methods : List String :=
  ["issue", "refresh", "identify", "authorize", "add_policy", "update_policy", "delete_policy",
   "list_policies", "can_access_by_key", "can_access_by_id", "identify_thing", "create_group",
   "register_client", "list_groups", "list_memberships", "enable_group", "disable_group",
   "enable_client", "disable_client"]

/-- The token that an operation is asked with. -/
def token? : Operation → Option String
  | issue _ => none
  | refresh token | identify token | authorize token _ _ _ | addPolicy token _
  | updatePolicy token _ | deletePolicy token _ | listPolicies token _ => some token
  | canAccessByKey _ _ | canAccessById _ _ | identifyThing _ => none
  | createGroup token _ | registerClient token _ | listGroups token _ | listMemberships token _ _
  | enableGroup token _ | disableGroup token _ | enableClient token _ | disableClient token _ =>
    some token

end Operation

/-- Whoever answers operations. -/
abbrev Service (M : Type → Type) := (op : Operation) → M op.Answer

end Gatehouse
