import Gatehouse.Time.Timestamp
import Gatehouse.Vocabulary

/-!
# Gatehouse.Entity — clients and groups

A client acts under a secret key of its own; a group may lie inside a parent group.  `level` and
`path` of a group are filled in by walks through the nesting and are never stored.

`GroupsPage.paginate` shows a part of a list that has been filtered before.

Ids are texts, and the two kinds of entities draw them from one space: a policy names its object by
an id alone and does not say of which kind it is.  A store takes an id once for each kind, so a
group and a client may share one, and a policy on it is then about both.

A `GroupQuery` is used in two ways.  With an id it asks for the walk from that group, `direction`
and `level` saying where and how far; without one it asks for all groups of which the caller may see
something.  The status, the offset and the limit choose among what was found then.
-/

namespace Gatehouse

open Gatehouse.Time

/-- A device or a user that may act. -/
structure Client where
  id : String
  name : String
  owner : String
  secret : String
  status : Status
  createdAt : Timestamp
  updatedAt : Timestamp
deriving DecidableEq, Repr

/-- A channel or any other resource that nests.  A group that is stored has level zero and no
path. -/
structure Group where
  id : String
  name : String
  description : String
  owner : String
  parent : Option String
  status : Status
  createdAt : Timestamp
  updatedAt : Timestamp
  level : Nat
  path : String
deriving DecidableEq, Repr

/-- Asks for a page of groups: those of a walk from `id`, or all that the caller may see. -/
structure GroupQuery where
  id : Option String := none
  level : Nat := 0
  direction : Int := 0
  status : Status := .all
  offset : Nat := 0
  limit : Nat := 0
deriving DecidableEq, Repr

namespace GroupQuery

/-- Where the walk of a query leads. -/
def walkDirection (q : GroupQuery) : Direction := .ofInt q.direction

/-- The size of the page that is shown. -/
def effectiveLimit (q : GroupQuery) : Nat := Gatehouse.effectiveLimit q.limit

end GroupQuery

/-- One page of a listing of groups, and the number of groups in all of it. -/
structure GroupsPage where
  total : Nat
  offset : Nat
  limit : Nat
  groups : List Group
deriving DecidableEq, Repr

/-- The page of a filtered list at an offset. -/
def GroupsPage.paginate (groups : List Group) (offset limit : Nat) : GroupsPage :=
  { total := groups.length, offset, limit, groups := (groups.drop offset).take limit }

end Gatehouse
