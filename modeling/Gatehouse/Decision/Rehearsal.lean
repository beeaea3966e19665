import Gatehouse.Decision

/-!
# Gatehouse.Decision.Rehearsal — relations held in lists

A reader of relations that answers from lists, keeps the questions it was asked, and can be told at
which of them to fail.  A policy is the first that has the key; the policies of a subject keep their
order.

Questions are counted from zero over the whole of a decision, and the plan to fail names one of
them.  A question after it is answered again, but a decision that is told of a failure asks none.
What becomes of a decision here is stated in `Gatehouse.Proofs.Decision.Rehearsal` by what becomes
of it with any reader of the same relations.
-/

namespace Gatehouse

/-- Relations in lists, and the questions so far, newest first. -/
structure RehearsalRelations where
  policies : List Policy
  clientOwners : List (String × String)
  groupOwners : List (String × String)
  failAt : Option Nat
  calls : List RelationCall

namespace RehearsalRelations

/-- The answer to a question when nothing fails. -/
def find (r : RehearsalRelations) : (c : RelationCall) → c.Value
  | .policy key => r.policies.find? fun p => p.key = key
  | .policiesOf s => r.policies.filter fun p => p.subject = s
  | .clientOwner id => r.clientOwners.lookup id
  | .groupOwner id => r.groupOwners.lookup id

/-- The answer to a question, which fails if it is the one that was planned to fail. -/
def answer (c : RelationCall) (r : RehearsalRelations) :
    Except DecisionError c.Value × RehearsalRelations :=
  let n := r.calls.length
  let reply := if r.failAt = some n then .error (.storage s!"call {n} failed") else .ok (r.find c)
  (reply, { r with calls := c :: r.calls })

/-- A decision, and the questions that were asked for it, oldest first. -/
def evaluate (r : RehearsalRelations) (t : EntityType) (subject object action : String) :
    Except DecisionError Bool × List RelationCall :=
  let (decision, r) :=
    Program.run RehearsalRelations.answer (I := relations)
      (Decision.evaluate t subject object action).run r
  (decision, r.calls.reverse)

end RehearsalRelations

end Gatehouse
