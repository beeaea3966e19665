/-!
# Gatehouse.Vocabulary — the closed word lists of access control

Actions, entity types, statuses and directions, with the names under which they are written and
read.  A client is a device or a user that may act; a group is a channel or any other resource that
nests.  Every entity type has its own list of actions, and the two lists share the messaging ones.

Names are compared letter by letter, case included.  Actions stay texts, since policies and requests
hold them as texts, and a list may hold words that are none until it is validated; the other words
are types, and a text that is none of them is refused where it is read.

Sizes of pages are bounded here as well, for policies and groups alike: whatever is asked for, a
page has at least one place and at most `maxLimit`.
-/

namespace Gatehouse

/-! ## Actions -/

/-- The object that stands for every client: an action held on it is held on each of them. -/
def everyClient : String := "things"

/-- The actions on a group. -/
def groupActions : List String := ["g_add", "g_delete", "g_update", "g_list", "m_write", "m_read"]

/-- The actions on a client. -/
def clientActions : List String :=
  ["c_delete", "c_update", "c_list", "c_share", "m_write", "m_read"]

/-- Whether a word is an action of some entity type. -/
def isAction (a : String) : Bool := groupActions.contains a || clientActions.contains a

/-! ## Entity types -/

/-- What a policy can be about. -/
inductive EntityType where
  | client
  | group
deriving DecidableEq, Repr

namespace EntityType

/-- The written name of an entity type. -/
def name : EntityType → String
  | client => "client"
  | group => "group"

/-- The entity type of a written name. -/
def ofName? (s : String) : Option EntityType :=
  if s = "client" then some client else if s = "group" then some group else none

/-- The actions on entities of a type. -/
def actions : EntityType → List String
  | client => clientActions
  | group => groupActions

/-- Whether a word is an action on entities of a type. -/
def isAction (t : EntityType) (a : String) : Bool := t.actions.contains a

theorem ofName?_name (t : EntityType) : ofName? t.name = some t := by cases t <;> rfl

end EntityType

/-! ## Statuses -/

/-- Whether an entity takes part; `all` only occurs in queries, where it admits every status. -/
inductive Status where
  | enabled
  | disabled
  | all
deriving DecidableEq, Repr, Inhabited

namespace Status

/-- The written name of a status. -/
def name : Status → String
  | enabled => "enabled"
  | disabled => "disabled"
  | all => "all"

/-- The written names, in declared order. -/
def names : List String := ["enabled", "disabled", "all"]

/-- The status of a written name. -/
def ofName? (s : String) : Option Status :=
  if s = "enabled" then some enabled
  else if s = "disabled" then some disabled
  else if s = "all" then some all
  else none

/-- What is said of a name that is no status. -/
def unknownMessage (s : String) : String := s!"unknown status: {s}"

/-- Whether a query for one status lets an entity of another through. -/
def admits (query status : Status) : Bool := query = .all || query = status

theorem ofName?_name (s : Status) : ofName? s.name = some s := by cases s <;> rfl

end Status

/-! ## Directions of a walk -/

/-- Where a walk through nested groups leads. -/
inductive Direction where
  | ancestors
  | descendants
deriving DecidableEq, Repr

/-- The direction of a number: descendants for a negative one, ancestors otherwise. -/
def Direction.ofInt (n : Int) : Direction := if 0 ≤ n then .ancestors else .descendants

/-! ## Page sizes -/

/-- The size of a page for which no size was asked. -/
def defaultLimit : Nat := 10

/-- The largest size of a page. -/
def maxLimit : Nat := 100

/-- The size of a page for which `limit` was asked; zero asks for the default. -/
def effectiveLimit (limit : Nat) : Nat := if limit = 0 then defaultLimit else min limit maxLimit

theorem effectiveLimit_pos (limit : Nat) : 0 < effectiveLimit limit := by
  unfold effectiveLimit defaultLimit maxLimit; split <;> omega

theorem effectiveLimit_le (limit : Nat) : effectiveLimit limit ≤ maxLimit := by
  unfold effectiveLimit defaultLimit maxLimit; split <;> omega

end Gatehouse
