import Gatehouse.Policy
import Gatehouse.Program

/-!
# Gatehouse.Decision — who may do what

A decision is a program over a reader of relations.  On a client, an action is granted by a policy
of the subject on the client itself, by one on every client, through a group that the subject holds
the action on and the client is connected to, or by ownership.  On a group it is granted by a policy
on the group or by ownership.  The first that grants it ends the questions.

* `evaluate` asks no question about an action that the entity type does not have.
* A reader that fails ends the decision with its error: a failure is never a decision.

The engine knows nothing of a store.  What it may ask is `RelationCall`, four questions that only
look, and who answers them is left open: the service answers from its store, and a rehearsal from
lists.  So a decision is one value, `Decision.evaluate`, of which it can be said what it asks, in
which order, and what follows from the answers, without saying where these come from.

Questions are asked one after the other and none in advance.  A grant that is found early spares the
questions behind it, and with them their failures; this is why a decision may be `true` although the
store would fail at a later question.  What decisions depend on is stated in
`Gatehouse.Proofs.Decision.Grounds`, and what failures do in `Gatehouse.Proofs.Decision.Failure`.
-/

namespace Gatehouse

/-! ## Readers of relations -/

/-- Why there is no decision. -/
inductive DecisionError where
  | invalidAction (entityType : EntityType) (action : String)
  | storage (text : String)
deriving DecidableEq, Repr

/-- What is said of an action that an entity type does not have. -/
def invalidActionMessage (entityType : EntityType) (action : String) : String :=
  s!"action '{action}' is not valid for entity type '{entityType.name}'"

/-- The text of a decision error. -/
def DecisionError.message : DecisionError → String
  | invalidAction t a => invalidActionMessage t a
  | storage text => s!"storage error: {text}"

/-- The questions of a decision. -/
inductive RelationCall where
  | policy (key : PolicyKey)
  | policiesOf (subject : String)
  | clientOwner (id : String)
  | groupOwner (id : String)
deriving DecidableEq, Repr

/-- What a question of a decision is answered with when nothing fails. -/
def RelationCall.Value : RelationCall → Type
  | policy _ => Option Policy
  | policiesOf _ => List Policy
  | clientOwner _ => Option String
  | groupOwner _ => Option String

/-- The surroundings of a decision: every question may fail. -/
def relations : Interface where
  Call := RelationCall
  Reply c := Except DecisionError c.Value

/-! ## Decisions -/

/-- A computation over a reader of relations that may end in an error. -/
abbrev Reading (α : Type) := ExceptT DecisionError (Program relations) α

namespace Decision

/-- Asks one question. -/
def ask (c : RelationCall) : Reading c.Value := ExceptT.mk (Program.query (I := relations) c)

/-- Whether a policy of the subject on the object grants an action. -/
def holds (subject object action : String) : Reading Bool := do
  match ← ask (.policy ⟨subject, object⟩) with
  | some p => return p.hasAction action
  | none => return false

/-- Whether `object` is connected to one of the objects of some policies. -/
def anyConnected (object : String) : List Policy → Reading Bool
  | [] => return false
  | p :: rest => do
    match ← ask (.policy ⟨object, p.object⟩) with
    | some _ => return true
    | none => anyConnected object rest

/-- Whether a policy of the subject could grant an action on `object` through a group.  A policy on
`object` itself or on every client has been asked for before and names no group. -/
def isBridge (object action : String) (p : Policy) : Bool :=
  p.hasAction action && p.object != object && p.object != everyClient

/-- Whether the subject holds an action on a group that `object` is connected to. -/
def sharesGroup (subject object action : String) : Reading Bool := do
  let policies : List Policy ← ask (.policiesOf subject)
  anyConnected object (policies.filter (isBridge object action))

/-- The decision on a client. -/
def onClient (subject object action : String) : Reading Bool := do
  if ← holds subject object action then return true
  if ← holds subject everyClient action then return true
  if ← sharesGroup subject object action then return true
  let owner : Option String ← ask (.clientOwner object)
  return owner == some subject

/-- The decision on a group. -/
def onGroup (subject object action : String) : Reading Bool := do
  if ← holds subject object action then return true
  let owner : Option String ← ask (.groupOwner object)
  return owner == some subject

/-- Whether a subject may do something to an object.  The action is checked against the entity type
first, so that no answer of the reader can make sense of one that the type does not have. -/
def evaluate (entityType : EntityType) (subject object action : String) : Reading Bool :=
  if entityType.isAction action then
    match entityType with
    | .client => onClient subject object action
    | .group => onGroup subject object action
  else throw (.invalidAction entityType action)

end Decision

end Gatehouse
