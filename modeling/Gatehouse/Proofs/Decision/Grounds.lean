import Gatehouse.Decision
import Gatehouse.Proofs.Program
import Mathlib.Data.List.Nodup

/-!
# Gatehouse.Proofs.Decision.Grounds — the grounds of a decision

`Relations` are one set of policies and the owners of clients and of groups.  A reader answers from
them (`Relations.Answers`) if it never fails and says of each question what they say; in which order
it lists the policies of a subject, how often it lists one, and whether it does so alike each time,
is left to it.

`Gives` says what a part of a decision comes to, whoever answers so.  There is one lemma of it for
each part, and `decision_iff_grounds` is what they come to together: an action is allowed exactly if
one of the grounds for it is there.

The grounds are stated of the relations and not of lists, so nothing of the search is left in them.
A decision on a client searches the policies of the subject for one on another object that carries
the action, and asks of each whether the client has a policy there; what it finds is that there is
such an object (`Bridges`), whichever of them came first.

The exclusions belong to the statement.  The object itself is no group of its own, and the name that
stands for every client is none either, so a policy on it is a ground in its own right and no
bridge.
-/

namespace Gatehouse

namespace Decision

/-- Policies, at most one of a subject on an object, and the owners of clients and of groups. -/
structure Relations where
  policy : PolicyKey → Option Policy
  clientOwner : String → Option String
  groupOwner : String → Option String
  keyed : ∀ {key p}, policy key = some p → p.key = key

namespace Relations

variable (r : Relations)

/-- Whether a reply to a question is what the relations say. -/
def Answers : (c : RelationCall) → relations.Reply c → Prop
  | .policy key, reply => reply = .ok (r.policy key)
  | .policiesOf subject, reply => ∃ policies : List Policy, reply = .ok policies ∧
      ∀ p, p ∈ policies ↔ p.subject = subject ∧ r.policy p.key = some p
  | .clientOwner id, reply => reply = .ok (r.clientOwner id)
  | .groupOwner id, reply => reply = .ok (r.groupOwner id)

/-- Whether the policy of a subject on an object carries an action. -/
def Carries (subject object action : String) : Prop :=
  ∃ p, r.policy ⟨subject, object⟩ = some p ∧ action ∈ p.actions

/-- Whether the subject holds an action on a group that `object` is connected to. -/
def Bridges (subject object action : String) : Prop :=
  ∃ group, group ≠ object ∧ group ≠ everyClient ∧ r.Carries subject group action ∧
    ∃ p, r.policy ⟨object, group⟩ = some p

/-- Whether a computation over a reader ends without an error and in a value as promised, if all its
questions are answered from the relations. -/
def Gives {α : Type} (x : Reading α) (P : α → Prop) : Prop :=
  x.run.ReturnsIf r.Answers fun outcome => ∃ a, outcome = .ok a ∧ P a

/-! ## The parts of a decision -/

variable {r} {α β : Type}

theorem gives_pure {P : α → Prop} {a : α} (ha : P a) : r.Gives (pure a) P := ⟨a, rfl, ha⟩

/-- What is promised of the first part is all that the second may count on. -/
theorem gives_bind {x : Reading α} {f : α → Reading β} {P : α → Prop} {Q : β → Prop}
    (hx : r.Gives x P) (hf : ∀ a, P a → r.Gives (f a) Q) : r.Gives (x >>= f) Q := by
  apply Program.returnsIf_bind hx
  rintro _ ⟨a, rfl, ha⟩
  exact hf a ha

/-! ### Questions -/

theorem gives_policy (key : PolicyKey) :
    r.Gives (ask (.policy key)) fun found : Option Policy => found = r.policy key :=
  fun _ hreply => ⟨_, hreply, rfl⟩

theorem gives_policiesOf (subject : String) :
    r.Gives (ask (.policiesOf subject)) fun policies : List Policy =>
      ∀ p, p ∈ policies ↔ p.subject = subject ∧ r.policy p.key = some p :=
  fun _ hreply => hreply

theorem gives_clientOwner (id : String) :
    r.Gives (ask (.clientOwner id)) fun owner : Option String => owner = r.clientOwner id :=
  fun _ hreply => ⟨_, hreply, rfl⟩

theorem gives_groupOwner (id : String) :
    r.Gives (ask (.groupOwner id)) fun owner : Option String => owner = r.groupOwner id :=
  fun _ hreply => ⟨_, hreply, rfl⟩

/-! ### Grounds -/

/-- A question for one policy decides whether the subject holds the action on the object. -/
theorem gives_holds (subject object action : String) :
    r.Gives (holds subject object action) fun held =>
      held = true ↔ r.Carries subject object action := by
  apply gives_bind (gives_policy ⟨subject, object⟩)
  rintro _ rfl
  unfold Carries
  cases r.policy ⟨subject, object⟩ with
  | none => exact gives_pure (by simp)
  | some p => exact gives_pure (by simp [Policy.hasAction])

/-- The search ends at the first policy on whose object there is a connection, and it finds one
exactly if there is one. -/
theorem gives_anyConnected (object : String) (policies : List Policy) :
    r.Gives (anyConnected object policies) fun connected =>
      connected = true ↔ ∃ p ∈ policies, ∃ q, r.policy ⟨object, p.object⟩ = some q := by
  induction policies with
  | nil => exact gives_pure (by simp)
  | cons p rest ih =>
      apply gives_bind (gives_policy ⟨object, p.object⟩)
      rintro _ rfl
      cases hq : r.policy ⟨object, p.object⟩ with
      | none => simpa [hq] using ih
      | some q => exact gives_pure (by simp [hq])

theorem isBridge_eq_true_iff {object action : String} {p : Policy} :
    isBridge object action p = true ↔
      action ∈ p.actions ∧ p.object ≠ object ∧ p.object ≠ everyClient := by
  simp [isBridge, Policy.hasAction, and_assoc]

/-- What the policies of a subject lead to is what its policies on other objects lead to. -/
theorem bridges_iff {policies : List Policy} {subject object action : String}
    (hlisted : ∀ p, p ∈ policies ↔ p.subject = subject ∧ r.policy p.key = some p) :
    r.Bridges subject object action ↔
      ∃ p ∈ policies.filter (isBridge object action),
        ∃ q, r.policy ⟨object, p.object⟩ = some q := by
  simp only [List.mem_filter, isBridge_eq_true_iff, hlisted]
  constructor
  · rintro ⟨group, hobject, hevery, ⟨p, hp, haction⟩, hconnected⟩
    have hkey : p.key = ⟨subject, group⟩ := r.keyed hp
    obtain ⟨rfl, rfl⟩ := PolicyKey.mk.inj hkey
    exact ⟨p, ⟨⟨rfl, hp⟩, haction, hobject, hevery⟩, hconnected⟩
  · rintro ⟨p, ⟨⟨rfl, hp⟩, haction, hobject, hevery⟩, hconnected⟩
    exact ⟨p.object, hobject, hevery, ⟨p, hp, haction⟩, hconnected⟩

/-- The list of policies is whatever the reader makes of it; as a set it is what the relations have,
and the search asks no more of it. -/
theorem gives_sharesGroup (subject object action : String) :
    r.Gives (sharesGroup subject object action) fun shared =>
      shared = true ↔ r.Bridges subject object action := by
  apply gives_bind (gives_policiesOf subject)
  intro policies hlisted
  simp only [bridges_iff hlisted]
  exact gives_anyConnected object _

theorem gives_owned {x : Reading (Option String)} {owner : Option String}
    (hx : r.Gives x (· = owner)) (subject : String) :
    r.Gives (do return (← x) == some subject) fun owned =>
      owned = true ↔ owner = some subject := by
  apply gives_bind hx
  rintro _ rfl
  exact gives_pure beq_iff_eq

/-- A choice on a part ends the questions if the part is so. -/
theorem gives_or {x y : Reading Bool} {A B : Prop} (hx : r.Gives x (· = true ↔ A))
    (hy : r.Gives y (· = true ↔ B)) :
    r.Gives (do if ← x then return true else y) (· = true ↔ A ∨ B) := by
  apply gives_bind hx
  intro a ha
  cases a with
  | true =>
      have hA : A := ha.1 rfl
      exact gives_pure (by simp [hA])
  | false =>
      have hA : ¬A := fun hA => absurd (ha.2 hA) Bool.false_ne_true
      simpa [hA] using hy

/-! ## Decisions -/

/-- **The decision on a client** comes to one of four grounds, in the order in which they are asked
about. -/
theorem gives_onClient (subject object action : String) :
    r.Gives (onClient subject object action) fun allowed => allowed = true ↔
      r.Carries subject object action ∨ r.Carries subject everyClient action ∨
        r.Bridges subject object action ∨ r.clientOwner object = some subject := by
  apply gives_or (gives_holds _ _ _)
  apply gives_or (gives_holds _ _ _)
  apply gives_or (gives_sharesGroup _ _ _)
  exact gives_owned (gives_clientOwner object) subject

/-- **The decision on a group** comes to one of two grounds. -/
theorem gives_onGroup (subject object action : String) :
    r.Gives (onGroup subject object action) fun allowed => allowed = true ↔
      r.Carries subject object action ∨ r.groupOwner object = some subject := by
  apply gives_or (gives_holds _ _ _)
  exact gives_owned (gives_groupOwner object) subject

end Relations

/-! ## Readers -/

/-- What a decision ends in if a reader answers its questions from a state. -/
def outcome {σ : Type} (reader : (c : RelationCall) → σ → relations.Reply c × σ) (s : σ)
    (entityType : EntityType) (subject object action : String) : Except DecisionError Bool :=
  ((evaluate entityType subject object action).run.run reader s).1

variable {σ : Type} {reader : (c : RelationCall) → σ → relations.Reply c × σ} {s : σ}
  {subject object action : String}

/-- An action that the entity type does not have is refused, whatever the reader answers, and on any
other one the decision is what its grounds come to. -/
theorem outcome_of_gives {r : Relations} (hanswers : ∀ c s, r.Answers c (reader c s).1)
    (entityType : EntityType) {P : Bool → Prop} (hgives : entityType.isAction action = true →
      r.Gives (evaluate entityType subject object action) P) :
    (outcome reader s entityType subject object action =
        .error (.invalidAction entityType action) ↔ action ∉ entityType.actions) ∧
      (action ∈ entityType.actions → ∃ allowed,
        outcome reader s entityType subject object action = .ok allowed ∧ P allowed) := by
  have hdecided : action ∈ entityType.actions → ∃ allowed,
      outcome reader s entityType subject object action = .ok allowed ∧ P allowed := by
    intro hmem
    exact Program.run_returnsIf hanswers (hgives (List.contains_iff_mem.2 hmem)) s
  refine ⟨⟨?_, ?_⟩, hdecided⟩
  · intro hrefused hmem
    obtain ⟨allowed, hallowed, -⟩ := hdecided hmem
    rw [hrefused] at hallowed
    cases hallowed
  · intro hmem
    have haction : entityType.isAction action = false := by
      simpa [EntityType.isAction] using hmem
    unfold outcome evaluate
    rw [haction]
    rfl

/-- **The grounds of a decision.**  For every reader that answers from one set of policies and
owners, every state of it, every subject, object and action: a decision is refused exactly if the
action is none of the entity type.  Otherwise there is a decision.  On a client it is to allow the
action exactly if the subject has it on the client, or on every client, or on another object that
the client is connected to, or owns the client; on a group, if the subject has it on the group or
owns it. -/
theorem decision_iff_grounds {r : Relations} (hanswers : ∀ c s, r.Answers c (reader c s).1) (s : σ)
    (subject object action : String) :
    ((outcome reader s .client subject object action = .error (.invalidAction .client action) ↔
        action ∉ clientActions) ∧
      (action ∈ clientActions → ∃ allowed,
        outcome reader s .client subject object action = .ok allowed ∧
        (allowed = true ↔
          r.Carries subject object action ∨ r.Carries subject everyClient action ∨
          (∃ group, group ≠ object ∧ group ≠ everyClient ∧ r.Carries subject group action ∧
            ∃ p, r.policy ⟨object, group⟩ = some p) ∨
          r.clientOwner object = some subject))) ∧
    (outcome reader s .group subject object action = .error (.invalidAction .group action) ↔
        action ∉ groupActions) ∧
      (action ∈ groupActions → ∃ allowed,
        outcome reader s .group subject object action = .ok allowed ∧
        (allowed = true ↔
          r.Carries subject object action ∨ r.groupOwner object = some subject)) := by
  constructor
  · apply outcome_of_gives hanswers .client
    intro haction
    unfold evaluate
    rw [if_pos haction]
    exact Relations.gives_onClient subject object action
  · apply outcome_of_gives hanswers .group
    intro haction
    unfold evaluate
    rw [if_pos haction]
    exact Relations.gives_onGroup subject object action

/-! ## A reader over a list -/

/-- The relations of a list of policies, without owners. -/
def Relations.ofPolicies (policies : List Policy) : Relations where
  policy key := policies.find? fun p => p.key = key
  clientOwner _ := none
  groupOwner _ := none
  keyed hp := by simpa using List.find?_some hp

/-- A reader over a list of policies that lists them backwards every second time. -/
def turning (policies : List Policy) : (c : RelationCall) → Bool → relations.Reply c × Bool
  | .policy key, turned => (.ok (policies.find? fun p => p.key = key), turned)
  | .policiesOf subject, turned =>
    let listed := policies.filter fun p => p.subject = subject
    (.ok (if turned then listed.reverse else listed), !turned)
  | .clientOwner _, turned => (.ok none, turned)
  | .groupOwner _, turned => (.ok none, turned)

theorem policy_ofPolicies {policies : List Policy} (hkeys : (policies.map Policy.key).Nodup)
    (p : Policy) : (Relations.ofPolicies policies).policy p.key = some p ↔ p ∈ policies := by
  show (policies.find? fun q => q.key = p.key) = some p ↔ p ∈ policies
  constructor
  · exact List.mem_of_find?_eq_some
  · intro hp
    cases hq : policies.find? fun q => q.key = p.key with
    | none => simpa using List.find?_eq_none.1 hq p hp
    | some q =>
        have hkey : q.key = p.key := by simpa using List.find?_some hq
        have hmem : q ∈ policies := List.mem_of_find?_eq_some hq
        rw [List.inj_on_of_nodup_map hkeys hmem hp hkey]

theorem answers_turning {policies : List Policy} (hkeys : (policies.map Policy.key).Nodup)
    (c : RelationCall) (turned : Bool) :
    (Relations.ofPolicies policies).Answers c (turning policies c turned).1 := by
  cases c with
  | policy key => rfl
  | clientOwner id => rfl
  | groupOwner id => rfl
  | policiesOf subject =>
      refine ⟨_, rfl, ?_⟩
      intro p
      rw [policy_ofPolicies hkeys]
      cases turned <;> simp [and_comm]

/-- Of three groups that ann may read, the pump is in the last; and no group can be updated as a
client can. -/
theorem decision_iff_grounds_lastGroup :
    let policy (subject object : String) (actions : List String) : Policy :=
      ⟨"ann", subject, object, actions, ⟨0, 0⟩, ⟨0, 0⟩, "ann"⟩
    let policies := [policy "ann" "hall" ["m_read"], policy "ann" "pump" ["m_write"],
      policy "ann" "roof" ["m_read"], policy "ann" "attic" ["c_update", "m_read"],
      policy "pump" "attic" ["m_write"], policy "pump" "pump" ["m_read"]]
    (∀ c turned, (Relations.ofPolicies policies).Answers c (turning policies c turned).1) ∧
      outcome (turning policies) false .client "ann" "pump" "m_read" = .ok true ∧
      outcome (turning policies) true .group "ann" "attic" "c_update" =
        .error (.invalidAction .group "c_update") := by
  intro policy policies
  have hanswers : ∀ c turned,
      (Relations.ofPolicies policies).Answers c (turning policies c turned).1 :=
    answers_turning (by decide)
  refine ⟨hanswers, ?_, ?_⟩
  · obtain ⟨allowed, hallowed, hgrounds⟩ :=
      (decision_iff_grounds hanswers false "ann" "pump" "m_read").1.2 (by decide)
    have hattic : allowed = true := by
      apply hgrounds.2
      refine Or.inr (Or.inr (Or.inl ⟨"attic", by decide, by decide, ?_, ?_⟩))
      · exact ⟨policy "ann" "attic" ["c_update", "m_read"], by decide, by decide⟩
      · exact ⟨policy "pump" "attic" ["m_write"], by decide⟩
    rw [hallowed, hattic]
  · exact (decision_iff_grounds hanswers true "ann" "attic" "c_update").2.1.2 (by decide)

end Decision

end Gatehouse
