import Gatehouse.Decision
import Gatehouse.Proofs.Program

/-!
# Gatehouse.Proofs.Decision — what a decision comes to

`Facts` are the answers to every question that a decision may put.  `Facts.evaluate` is the decision
on them, and `evaluate_client` and `evaluate_group` say what it comes to: a disjunction of grounds,
of which a policy on the object itself is the first.  Clients have four grounds, since rights on
them may also come from a policy on every client or from a group that both are connected to; groups
have two.

A decision asks as it goes and stops at the first ground that holds.  On facts no question fails, so
nothing of this order is left in the result, and the disjunction may be read in any order.  What
remains of the order when questions do fail is the subject of `Gatehouse.Proofs.Decision.Failure`,
and `Gatehouse.Proofs.Decision.Grounds` says what the grounds are in terms of a relation.
-/

namespace Gatehouse

namespace Decision

/-- The policies, and the owners of clients and of groups. -/
structure Facts where
  policy : PolicyKey → Option Policy
  policiesOf : String → List Policy
  clientOwner : String → Option String
  groupOwner : String → Option String

namespace Facts

variable (facts : Facts)

/-- The answer to a question; no question fails. -/
def answer : (c : RelationCall) → relations.Reply c
  | .policy key => .ok (facts.policy key)
  | .policiesOf subject => .ok (facts.policiesOf subject)
  | .clientOwner id => .ok (facts.clientOwner id)
  | .groupOwner id => .ok (facts.groupOwner id)

/-- The value of a computation over relations. -/
def value {α : Type} (x : Reading α) : Except DecisionError α := x.run.eval facts.answer

/-- The decision on some facts. -/
def evaluate (entityType : EntityType) (subject object action : String) :
    Except DecisionError Bool :=
  facts.value (Decision.evaluate entityType subject object action)

/-- Whether a policy of the subject on the object grants an action.  There is at most one policy for
both, since they are its key. -/
def grants (subject object action : String) : Bool :=
  (facts.policy ⟨subject, object⟩).any (·.hasAction action)

/-- Whether the subject holds an action on a group that the object is connected to.  A connection is
a policy of the object on the group, and what that policy grants does not matter. -/
def shares (subject object action : String) : Bool :=
  ((facts.policiesOf subject).filter (isBridge object action)).any fun p =>
    (facts.policy ⟨object, p.object⟩).isSome

/-! ## The value of each part -/

variable {facts} {α β : Type} {x : Reading α} {f : α → Reading β}

/-- A computation that has a value goes on with it. -/
theorem value_bind_of_ok {a : α} (h : facts.value x = .ok a) :
    facts.value (x >>= f) = facts.value (f a) := by
  refine (Program.eval_bind facts.answer x.run (ExceptT.bindCont f)).trans ?_
  show Program.eval facts.answer (ExceptT.bindCont f (facts.value x)) = _
  rw [h]
  rfl

theorem value_holds (subject object action : String) :
    facts.value (holds subject object action) = .ok (facts.grants subject object action) := by
  refine (value_bind_of_ok (a := facts.policy ⟨subject, object⟩) rfl).trans ?_
  unfold grants
  cases facts.policy ⟨subject, object⟩ with
  | none => rfl
  | some p => rfl

/-- The search for a connection ends at the first policy that has one, which is to say that there is
one. -/
theorem value_anyConnected (object : String) (policies : List Policy) :
    facts.value (anyConnected object policies) =
      .ok (policies.any fun p => (facts.policy ⟨object, p.object⟩).isSome) := by
  induction policies with
  | nil => rfl
  | cons p rest ih =>
      refine (value_bind_of_ok (a := facts.policy ⟨object, p.object⟩) rfl).trans ?_
      rw [List.any_cons]
      cases facts.policy ⟨object, p.object⟩ with
      | none => exact ih
      | some q => rfl

theorem value_sharesGroup (subject object action : String) :
    facts.value (sharesGroup subject object action) = .ok (facts.shares subject object action) := by
  refine (value_bind_of_ok (a := facts.policiesOf subject) rfl).trans ?_
  exact value_anyConnected object _

/-- A choice on a part ends the questions if the part is so. -/
theorem value_or {x y : Reading Bool} {a b : Bool} (hx : facts.value x = .ok a)
    (hy : facts.value y = .ok b) :
    facts.value (do if ← x then return true else y) = .ok (a || b) := by
  rw [value_bind_of_ok hx]
  cases a with
  | true => rfl
  | false => exact hy

/-! ## The decisions -/

/-- **The decision on a client.**  The action has to be one that clients have; then there is a
decision, and it is granted on one of four grounds: a policy on the client, a policy on every
client, a group that is shared, or ownership. -/
theorem evaluate_client {action : String} (h : EntityType.client.isAction action = true)
    (subject object : String) : facts.evaluate .client subject object action =
      .ok (facts.grants subject object action || (facts.grants subject everyClient action ||
        (facts.shares subject object action || facts.clientOwner object == some subject))) := by
  unfold evaluate Decision.evaluate
  rw [if_pos h]
  refine value_or (value_holds _ _ _) (value_or (value_holds _ _ _) (value_or
    (value_sharesGroup _ _ _) ?_))
  exact value_bind_of_ok (a := facts.clientOwner object) rfl

/-- **The decision on a group.**  It is granted by a policy on the group or by ownership, and there
is no policy on every group. -/
theorem evaluate_group {action : String} (h : EntityType.group.isAction action = true)
    (subject object : String) : facts.evaluate .group subject object action =
      .ok (facts.grants subject object action || facts.groupOwner object == some subject) := by
  unfold evaluate Decision.evaluate
  rw [if_pos h]
  refine value_or (value_holds _ _ _) ?_
  exact value_bind_of_ok (a := facts.groupOwner object) rfl

variable {entityType : EntityType} {action : String} {subject object : String}

/-- On an action that the entity type has there is a decision. -/
theorem exists_evaluate (h : entityType.isAction action = true) :
    ∃ b, facts.evaluate entityType subject object action = .ok b := by
  cases entityType with
  | client => exact ⟨_, evaluate_client h subject object⟩
  | group => exact ⟨_, evaluate_group h subject object⟩

/-- A policy that grants the action decides. -/
theorem evaluate_of_grants (h : entityType.isAction action = true)
    (hgrants : facts.grants subject object action = true) :
    facts.evaluate entityType subject object action = .ok true := by
  cases entityType with
  | client => rw [evaluate_client h, hgrants, Bool.true_or]
  | group => rw [evaluate_group h, hgrants, Bool.true_or]

end Facts

end Decision

end Gatehouse
