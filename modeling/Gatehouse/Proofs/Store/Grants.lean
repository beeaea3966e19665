import Gatehouse.Proofs.Cache.Authorization

/-!
# Gatehouse.Proofs.Store.Grants — what a new policy grants

A client may be acted upon by who holds the action on it, on every client, or on something that the
client is connected to, and by its owner (`evaluate_client_eq_true_iff`).  To be held and to be
connected are both said by policies, and by nothing else: whether something is a client, a group or
merely a name does not matter to them.

So a policy that is added says two things, whatever it is meant for.  Its subject holds its actions
on its object, and its subject is connected to its object.  The first opens to the subject whatever
is connected to the object; the second, if the subject has the id of a client, opens that client to
everybody who holds something on the object.  `Store.opens` is what comes of both for a client, and
`evaluate_client_of_added` says that nothing else does.  A group is simpler, since nothing is
connected to it (`evaluate_group_of_added`).

The statements are about decisions as a whole, with their errors: a decision after the policy was
added is the one before it, with what the policy opens.
-/

namespace Gatehouse

namespace Store

variable {s t : Store}

/-! ## The grounds of a decision -/

/-- The policies of a subject are those that stand under its name. -/
theorem mem_policiesOf (h : s.Sound) {subject : String} {p : Policy} :
    p ∈ s.policiesOf subject ↔ s.policies.lookup ⟨subject, p.object⟩ = some p := by
  unfold policiesOf
  rw [List.mem_filter, Table.mem_values, decide_eq_true_iff]
  constructor
  · rintro ⟨⟨key, hkey⟩, rfl⟩
    rw [← h.policy_key hkey] at hkey
    exact hkey
  · intro hp
    exact ⟨⟨_, hp⟩, congrArg PolicyKey.subject (h.policy_key hp)⟩

/-- An action is held on an object by a policy between the two that names it. -/
theorem grants_eq_true_iff {subject object action : String} :
    s.facts.grants subject object action = true ↔
      ∃ p, s.policies.lookup ⟨subject, object⟩ = some p ∧ p.hasAction action = true :=
  Option.any_eq_true _ _

/-- To share a group with a client is to hold the action on something else that the client is
connected to, and that is not every client. -/
theorem shares_eq_true_iff (h : s.Sound) {subject object action : String} :
    s.facts.shares subject object action = true ↔
      ∃ group, group ≠ object ∧ group ≠ everyClient ∧
        s.facts.grants subject group action = true ∧
          s.policies.contains ⟨object, group⟩ = true := by
  unfold Decision.Facts.shares
  rw [List.any_eq_true]
  constructor
  · rintro ⟨p, hp, hconnected⟩
    obtain ⟨hmem, hbridge⟩ := List.mem_filter.1 hp
    simp only [Decision.isBridge, Bool.and_eq_true, bne_iff_ne] at hbridge
    obtain ⟨⟨haction, hobject⟩, hevery⟩ := hbridge
    exact ⟨p.object, hobject, hevery,
      grants_eq_true_iff.2 ⟨p, (mem_policiesOf h).1 hmem, haction⟩, hconnected⟩
  · rintro ⟨group, hobject, hevery, hgrants, hconnected⟩
    obtain ⟨p, hp, haction⟩ := grants_eq_true_iff.1 hgrants
    obtain rfl : p.object = group := congrArg PolicyKey.object (h.policy_key hp)
    refine ⟨p, List.mem_filter.2 ⟨(mem_policiesOf h).2 hp, ?_⟩, hconnected⟩
    simp only [Decision.isBridge, Bool.and_eq_true, bne_iff_ne]
    exact ⟨⟨haction, hobject⟩, hevery⟩

/-- **The grounds of a decision on a client.** -/
theorem evaluate_client_eq_true_iff (h : s.Sound) {action : String}
    (haction : EntityType.client.isAction action = true) {subject object : String} :
    s.evaluate .client subject object action = .ok true ↔
      s.facts.grants subject object action = true ∨
      s.facts.grants subject everyClient action = true ∨
      (∃ group, s.facts.grants subject group action = true ∧
        s.policies.contains ⟨object, group⟩ = true) ∨
      s.facts.clientOwner object = some subject := by
  unfold evaluate
  rw [Decision.Facts.evaluate_client haction, Except.ok.injEq]
  simp only [Bool.or_eq_true, shares_eq_true_iff h, beq_iff_eq]
  constructor
  · rintro (hobject | hevery | ⟨group, -, -, hgroup⟩ | howner)
    · exact Or.inl hobject
    · exact Or.inr (Or.inl hevery)
    · exact Or.inr (Or.inr (Or.inl ⟨group, hgroup⟩))
    · exact Or.inr (Or.inr (Or.inr howner))
  · rintro (hobject | hevery | ⟨group, hgrants, hconnected⟩ | howner)
    · exact Or.inl hobject
    · exact Or.inr (Or.inl hevery)
    · -- a policy on the client itself or on every client grants by itself
      by_cases hobject : group = object
      · exact Or.inl (hobject ▸ hgrants)
      by_cases hevery : group = everyClient
      · exact Or.inr (Or.inl (hevery ▸ hgrants))
      exact Or.inr (Or.inr (Or.inl ⟨group, hobject, hevery, hgrants, hconnected⟩))
    · exact Or.inr (Or.inr (Or.inr howner))

/-! ## A policy that is added -/

/-- Whether the policies of a store are those of another one and one more, under a key that was
free. -/
structure Adds (s : Store) (p : Policy) (t : Store) : Prop where
  free : s.policies.lookup p.key = none
  policies : t.policies = s.policies.insert p.key p

variable {p : Policy}

/-- After a policy was added its subject holds its actions on its object, and everybody holds what
they held. -/
theorem Adds.grants (h : s.Adds p t) (subject object action : String) :
    t.facts.grants subject object action = true ↔
      s.facts.grants subject object action = true ∨
        subject = p.subject ∧ object = p.object ∧ p.hasAction action = true := by
  rw [grants_eq_true_iff, grants_eq_true_iff, h.policies, Table.lookup_insert]
  by_cases hkey : (⟨subject, object⟩ : PolicyKey) = p.key
  · obtain ⟨rfl, rfl⟩ := PolicyKey.mk.inj hkey
    have hfree : s.policies.lookup ⟨p.subject, p.object⟩ = none := h.free
    rw [if_pos hkey, hfree]
    simp
  · have hne : ¬ (subject = p.subject ∧ object = p.object ∧ p.hasAction action = true) := by
      rintro ⟨rfl, rfl, -⟩
      exact hkey rfl
    rw [if_neg hkey, or_iff_left hne]

/-- After a policy was added its subject is connected to its object, and nothing else has
changed. -/
theorem Adds.contains (h : s.Adds p t) (a b : String) :
    t.policies.contains ⟨a, b⟩ = true ↔
      s.policies.contains ⟨a, b⟩ = true ∨ a = p.subject ∧ b = p.object := by
  have hkey : (⟨a, b⟩ : PolicyKey) = p.key ↔ a = p.subject ∧ b = p.object := by
    rw [Policy.key, PolicyKey.mk.injEq]
  rw [h.policies, Table.contains_insert_iff, hkey, or_comm]

/-- What a new policy of a holder on an object opens on a client: its actions to the holder, if the
client has the id of the object, or the object stands for every client, or the client is the holder
or is connected to the object; and to everybody what they hold on the object, if the client is the
holder, which the policy connects to it. -/
def opens (s : Store) (holder entity : String) (actions : List String)
    (subject object action : String) : Bool :=
  (subject == holder && actions.contains action &&
    (object == entity || entity == everyClient || object == holder ||
      s.policies.contains ⟨object, entity⟩)) ||
  (object == holder && s.facts.grants subject entity action)

/-- What a policy opens, as a proposition. -/
theorem opens_eq_true_iff {holder entity subject object action : String} {actions : List String} :
    s.opens holder entity actions subject object action = true ↔
      (subject = holder ∧ actions.contains action = true ∧
        (object = entity ∨ entity = everyClient ∨ object = holder ∨
          s.policies.contains ⟨object, entity⟩ = true)) ∨
      object = holder ∧ s.facts.grants subject entity action = true := by
  simp only [opens, Bool.or_eq_true, Bool.and_eq_true, beq_iff_eq, and_assoc, or_assoc]

/-- A decision after another one, if it grants what that does and what `opened` says. -/
theorem evaluate_eq_map_or {kind : EntityType} {subject object action : String} {opened : Bool}
    (h : kind.isAction action = true → (t.evaluate kind subject object action = .ok true ↔
      s.evaluate kind subject object action = .ok true ∨ opened = true)) :
    t.evaluate kind subject object action =
      (s.evaluate kind subject object action).map (· || opened) := by
  by_cases haction : kind.isAction action = true
  · obtain ⟨before, hbefore⟩ : ∃ b, s.evaluate kind subject object action = .ok b :=
      Decision.Facts.exists_evaluate haction
    obtain ⟨after, hafter⟩ : ∃ b, t.evaluate kind subject object action = .ok b :=
      Decision.Facts.exists_evaluate haction
    have hiff := h haction
    rw [hbefore, hafter, Except.ok.injEq, Except.ok.injEq, ← Bool.or_eq_true] at hiff
    rw [hbefore, hafter, Bool.eq_iff_iff.2 hiff]
    rfl
  · -- of an action that the type does not have there is no decision
    have hnone : ∀ u : Store, u.evaluate kind subject object action =
        .error (.invalidAction kind action) := by
      intro u
      unfold evaluate Decision.Facts.evaluate Decision.evaluate
      rw [if_neg haction]
      rfl
    rw [hnone, hnone]
    rfl

/-- **A client after a policy was added.**  Whoever owned it before, the policy opens what it opens,
and nothing else. -/
theorem evaluate_client_of_added (hs : s.Sound) (ht : t.Sound) (h : s.Adds p t) {object : String}
    (howner : t.facts.clientOwner object = s.facts.clientOwner object) (subject action : String) :
    t.evaluate .client subject object action = (s.evaluate .client subject object action).map
      (· || s.opens p.subject p.object p.actions subject object action) := by
  refine evaluate_eq_map_or fun haction => ?_
  rw [evaluate_client_eq_true_iff ht haction, evaluate_client_eq_true_iff hs haction,
    opens_eq_true_iff, howner]
  simp only [h.grants, h.contains]
  constructor
  -- a ground afterwards is one from before, or the new policy is the right on the client, the one
  -- on every client, the right on a group or the connection to one, or both of these
  · rintro ((hobject | ⟨rfl, rfl, hnew⟩) | (hevery | ⟨rfl, hevery, hnew⟩) |
      ⟨group, hgrants | ⟨rfl, rfl, hnew⟩, hconnected | ⟨rfl, hgroup⟩⟩ | howner)
    · exact Or.inl (Or.inl hobject)
    · exact Or.inr (Or.inl ⟨rfl, hnew, Or.inl rfl⟩)
    · exact Or.inl (Or.inr (Or.inl hevery))
    · exact Or.inr (Or.inl ⟨rfl, hnew, Or.inr (Or.inl hevery.symm)⟩)
    · exact Or.inl (Or.inr (Or.inr (Or.inl ⟨group, hgrants, hconnected⟩)))
    · exact Or.inr (Or.inr ⟨rfl, hgroup ▸ hgrants⟩)
    · exact Or.inr (Or.inl ⟨rfl, hnew, Or.inr (Or.inr (Or.inr hconnected))⟩)
    · exact Or.inr (Or.inl ⟨rfl, hnew, Or.inr (Or.inr (Or.inl rfl))⟩)
    · exact Or.inl (Or.inr (Or.inr (Or.inr howner)))
  · rintro ((hobject | hevery | ⟨group, hgrants, hconnected⟩ | howner) |
      ⟨rfl, hnew, hobject | hevery | hself | hconnected⟩ | ⟨rfl, hgrants⟩)
    · exact Or.inl (Or.inl hobject)
    · exact Or.inr (Or.inl (Or.inl hevery))
    · exact Or.inr (Or.inr (Or.inl ⟨group, Or.inl hgrants, Or.inl hconnected⟩))
    · exact Or.inr (Or.inr (Or.inr howner))
    · exact Or.inl (Or.inr ⟨rfl, hobject, hnew⟩)
    · exact Or.inr (Or.inl (Or.inr ⟨rfl, hevery.symm, hnew⟩))
    · exact Or.inr (Or.inr (Or.inl ⟨p.object, Or.inr ⟨rfl, rfl, hnew⟩, Or.inr ⟨hself, rfl⟩⟩))
    · exact Or.inr (Or.inr (Or.inl ⟨p.object, Or.inr ⟨rfl, rfl, hnew⟩, Or.inl hconnected⟩))
    · exact Or.inr (Or.inr (Or.inl ⟨p.object, Or.inl hgrants, Or.inr ⟨rfl, rfl⟩⟩))

/-- **A group after a policy was added.**  The policy opens its own actions on its own object to its
own subject. -/
theorem evaluate_group_of_added (h : s.Adds p t) {object : String}
    (howner : t.facts.groupOwner object = s.facts.groupOwner object) (subject action : String) :
    t.evaluate .group subject object action = (s.evaluate .group subject object action).map
      (· || (subject == p.subject && object == p.object && p.actions.contains action)) := by
  refine evaluate_eq_map_or fun haction => ?_
  unfold evaluate
  rw [Decision.Facts.evaluate_group haction, Decision.Facts.evaluate_group haction, howner]
  simp only [Except.ok.injEq, Bool.or_eq_true, Bool.and_eq_true, beq_iff_eq, h.grants, and_assoc]
  rw [or_right_comm]
  rfl

end Store

end Gatehouse
