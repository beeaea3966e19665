import Gatehouse.Proofs.Store.Forest

/-!
# Gatehouse.Proofs.Store.WellFormed — what a store should hold

A `WellFormed` store holds only policies, clients and groups in which nothing is missing or wrong:
the policies pass their check, repeat no action and have an owner, clients and groups have an id and
a status that an entity can have, and no group has the marks that a walk over the groups leaves on
it.  The store itself does not see to it: it takes what it is given, and what it is given is up to
the operations.

What the store does see to is said here too.  No call removes a client or a group, or changes more
of it than its status and the time of that (`keeps_answer`).

`Step` is what may change from one store to the next while one operation runs: one policy, one
client and one group at most, and no policy that remains gets another owner or another time of its
creation.  An operation may write twice, so the parts of it are proved about each write and put
together about the operation.

The lemmas on `Table.All` and `Table.Close` have no model in them.  They say how each way of
changing a table keeps what holds throughout it, and in how many places it changes it.
-/

namespace Gatehouse

open Gatehouse.Time

/-! ## Tables of which something holds throughout -/

namespace Table

universe u v

variable {κ : Type u} {α : Type v} [Ord κ] [DecidableEq κ] {t : Table κ α} {P : κ → α → Prop}

/-- Whether every entry of a table satisfies `P`. -/
def All (P : κ → α → Prop) (t : Table κ α) : Prop := ∀ ⦃k a⦄, t.lookup k = some a → P k a

/-- Anything holds throughout an empty table. -/
theorem all_empty : All P ∅ := fun _ _ h => nomatch h

variable [Std.LawfulEqOrd κ]

/-- What holds of all entries and of a new one holds of all entries afterwards. -/
theorem All.insert [Std.TransOrd κ] (h : t.All P) {k : κ} {a : α} (ha : P k a) :
    (t.insert k a).All P := by
  intro k' a' ha'
  rw [lookup_insert] at ha'
  split at ha'
  · next hk => cases ha'; exact hk ▸ ha
  · exact h ha'

/-- What holds of all entries holds of those that remain. -/
theorem All.erase (h : t.All P) (k : κ) : (t.erase k).All P := by
  intro k' a' ha'
  rw [lookup_erase] at ha'
  split at ha'
  · cases ha'
  · exact h ha'

omit [Std.LawfulEqOrd κ] in
/-- What holds of all entries holds of all afterwards, if the change keeps it. -/
theorem All.modify (h : t.All P) {k : κ} {f : α → α} (hf : ∀ a, P k a → P k (f a)) :
    (t.modify k f).All P := by
  intro k' a' ha'
  rw [lookup_modify] at ha'
  split at ha'
  · next hk =>
    obtain ⟨a, ha, rfl⟩ := Option.map_eq_some_iff.1 ha'
    subst hk
    exact hf a (h ha)
  · exact h ha'

/-- Whether two tables differ under one key at most. -/
def Close (s t : Table κ α) : Prop :=
  ∀ k k', t.lookup k ≠ s.lookup k → t.lookup k' ≠ s.lookup k' → k = k'

variable {s : Table κ α}

omit [Std.LawfulEqOrd κ] in
/-- A table does not differ from itself. -/
theorem close_of_eq (h : t = s) : s.Close t := by
  subst h
  exact fun _ _ hk _ => absurd rfl hk

omit [Std.LawfulEqOrd κ] in
/-- Tables that agree but under one key differ under one key at most. -/
theorem close_of_agree {k : κ} (h : ∀ k', k' ≠ k → t.lookup k' = s.lookup k') : s.Close t := by
  intro k₁ k₂ h₁ h₂
  have hk₁ : k₁ = k := not_imp_comm.1 (h k₁) h₁
  have hk₂ : k₂ = k := not_imp_comm.1 (h k₂) h₂
  rw [hk₁, hk₂]

theorem close_insert [Std.TransOrd κ] (t : Table κ α) (k : κ) (a : α) : t.Close (t.insert k a) :=
  close_of_agree fun _ hk => by rw [lookup_insert, if_neg hk]

theorem close_erase (t : Table κ α) (k : κ) : t.Close (t.erase k) :=
  close_of_agree fun _ hk => by rw [lookup_erase, if_neg hk]

omit [Std.LawfulEqOrd κ] in
theorem close_modify (t : Table κ α) (k : κ) (f : α → α) : t.Close (t.modify k f) :=
  close_of_agree fun _ hk => by rw [lookup_modify, if_neg hk]

end Table

/-! ## Well-formed entries -/

/-- A policy that passes its check, repeats no action and belongs to somebody. -/
structure Policy.WellFormed (p : Policy) : Prop where
  valid : p.validate = .ok ()
  nodup : p.actions.Nodup
  owned : p.owner ≠ ""

/-- A client with an id and a secret, and with a status that an entity can have. -/
structure Client.WellFormed (c : Client) : Prop where
  named : c.id ≠ ""
  secret : c.secret ≠ ""
  status : c.status = .enabled ∨ c.status = .disabled

/-- A group with an id and a status that an entity can have, and without the marks of a walk. -/
structure Group.WellFormed (g : Group) : Prop where
  named : g.id ≠ ""
  status : g.status = .enabled ∨ g.status = .disabled
  level : g.level = 0
  path : g.path = ""

/-- A well-formed policy stays so with other actions that are as they should be. -/
theorem Policy.WellFormed.amend {old p : Policy} (h : old.WellFormed) (hactions : p.actions ≠ [])
    (hvalid : ∀ a ∈ p.actions, isAction a = true) (hnodup : p.actions.Nodup) :
    (Store.amend old p).WellFormed := by
  obtain ⟨hsubject, hobject, -⟩ := Policy.validate_eq_ok_iff.1 h.valid
  refine ⟨?_, hnodup, h.owned⟩
  exact Policy.validate_eq_ok_iff.2 ⟨hsubject, hobject, hactions, hvalid⟩

namespace Store

variable {s t u : Store}

/-- A sound store in which everything is well-formed and stands under its own name. -/
structure WellFormed (s : Store) : Prop extends s.Sound where
  policies : s.policies.All fun _ p => p.WellFormed
  clients : s.clients.All fun _ c => c.WellFormed
  groups : s.groups.All fun id g => g.id = id ∧ g.WellFormed

/-- An empty store is well-formed. -/
theorem wellFormed_empty : WellFormed ∅ where
  toSound := sound_empty
  policies := Table.all_empty
  clients := Table.all_empty
  groups := Table.all_empty

/-- A store is well-formed whatever was read from it. -/
theorem WellFormed.of_sameTables (h : s.WellFormed) (hsame : s.SameTables t) : t.WellFormed := by
  obtain ⟨hpolicies, hclients, hgroups⟩ := hsame
  refine ⟨⟨?_, ?_, ?_⟩, ?_, ?_, ?_⟩
  · rw [hpolicies]; exact h.policy_key
  · rw [hclients]; exact h.client_id
  · rw [hclients]; exact h.secret_unique
  · rw [hpolicies]; exact h.policies
  · rw [hclients]; exact h.clients
  · rw [hgroups]; exact h.groups

/-! ## What no call takes back -/

/-- Whether all clients and groups remain, each with everything but its status and the time of its
last update. -/
structure Keeps (s t : Store) : Prop where
  clients : ∀ {id c}, s.clients.lookup id = some c →
    ∃ status time, t.clients.lookup id = some { c with status, updatedAt := time }
  groups : ∀ {id g}, s.groups.lookup id = some g →
    ∃ status time, t.groups.lookup id = some { g with status, updatedAt := time }

/-- A store keeps what it has. -/
theorem Keeps.refl (s : Store) : s.Keeps s := ⟨fun h => ⟨_, _, h⟩, fun h => ⟨_, _, h⟩⟩

/-- What is kept twice is kept. -/
theorem Keeps.trans (h : s.Keeps t) (h' : t.Keeps u) : s.Keeps u := by
  constructor
  · intro id c hc
    obtain ⟨_, _, hc'⟩ := h.clients hc
    obtain ⟨_, _, hc''⟩ := h'.clients hc'
    exact ⟨_, _, hc''⟩
  · intro id g hg
    obtain ⟨_, _, hg'⟩ := h.groups hg
    obtain ⟨_, _, hg''⟩ := h'.groups hg'
    exact ⟨_, _, hg''⟩

/-- No call takes a client back. -/
theorem keeps_clients_answer (s : Store) (now : Timestamp) (c : StoreCall) {id : String}
    {old : Client} (hold : s.clients.lookup id = some old) : ∃ status time,
      (s.answer now c).2.clients.lookup id = some { old with status, updatedAt := time } := by
  refine answer_cases (P := fun _ _ t => ∃ status time,
    t.clients.lookup id = some { old with status, updatedAt := time }) ?_ ?_ ?_ ?_ ?_ ?_ c
  · intro _ _ t _ hclients
    rw [hclients]
    exact ⟨_, _, hold⟩
  · exact fun _ _ => ⟨_, _, hold⟩
  · exact fun _ _ _ => ⟨_, _, hold⟩
  · exact fun _ _ _ => ⟨_, _, hold⟩
  · exact fun _ hfree _ => ⟨_, _, Table.lookup_insert_of_free hfree hold⟩
  · intro id' status old' hold'
    rcases Table.lookup_insert_of_stored hold' hold with h | ⟨rfl, h⟩
    · exact ⟨_, _, h⟩
    · exact ⟨_, _, h⟩

/-- No call takes a group back. -/
theorem keeps_groups_answer (s : Store) (now : Timestamp) (c : StoreCall) {id : String}
    {old : Group} (hold : s.groups.lookup id = some old) : ∃ status time,
      (s.answer now c).2.groups.lookup id = some { old with status, updatedAt := time } := by
  refine groups_cases (P := fun _ groups => ∃ status time,
    groups.lookup id = some { old with status, updatedAt := time }) ?_ ?_ ?_ c
  · exact fun _ => ⟨_, _, hold⟩
  · exact fun _ hfree _ => ⟨_, _, Table.lookup_insert_of_free hfree hold⟩
  · intro id' status old' hold'
    rcases Table.lookup_insert_of_stored hold' hold with h | ⟨rfl, h⟩
    · exact ⟨_, _, h⟩
    · exact ⟨_, _, h⟩

/-- **Calls.**  No call takes a client or a group back, or changes more of it than its status and
the time of its last update. -/
theorem keeps_answer (s : Store) (now : Timestamp) (c : StoreCall) :
    s.Keeps (s.answer now c).2 :=
  ⟨keeps_clients_answer s now c, keeps_groups_answer s now c⟩

/-! ## What one operation may change -/

/-- Whether policies that are in two stores have their owner and the time of their creation in
common. -/
def SameOrigin (s t : Store) : Prop :=
  ∀ {key p p'}, s.policies.lookup key = some p → t.policies.lookup key = some p' →
    p'.owner = p.owner ∧ p'.createdAt = p.createdAt

/-- Policies that are the same have the same origin. -/
theorem sameOrigin_of_eq (h : t.policies = s.policies) : s.SameOrigin t := by
  intro key p p' hp hp'
  rw [h, hp] at hp'
  cases hp'
  exact ⟨rfl, rfl⟩

/-- A new policy has no origin in the store before. -/
theorem sameOrigin_of_insert {added : Policy} (hfree : s.policies.lookup added.key = none)
    (h : t.policies = s.policies.insert added.key added) : s.SameOrigin t := by
  intro key p p' hp hp'
  rw [h, Table.lookup_insert_of_free hfree hp] at hp'
  cases hp'
  exact ⟨rfl, rfl⟩

/-- To amend a policy leaves its owner and the time of its creation. -/
theorem sameOrigin_of_amend {updated : Policy}
    (h : t.policies = s.policies.modify updated.key (amend · updated)) : s.SameOrigin t := by
  intro key p p' hp hp'
  rw [h, Table.lookup_modify, hp] at hp'
  split at hp'
  · cases hp'
    exact ⟨rfl, rfl⟩
  · cases hp'
    exact ⟨rfl, rfl⟩

/-- To remove a policy leaves the others. -/
theorem sameOrigin_of_erase {removed : PolicyKey} (h : t.policies = s.policies.erase removed) :
    s.SameOrigin t := by
  intro key p p' hp hp'
  rw [h, Table.lookup_erase, hp] at hp'
  split at hp'
  · cases hp'
  · cases hp'
    exact ⟨rfl, rfl⟩

/-- Whether two stores differ in one policy, one client and one group at most, clients and groups
remain, and policies keep their origin. -/
structure Step (s t : Store) : Prop extends s.Keeps t where
  one_policy : s.policies.Close t.policies
  one_client : s.clients.Close t.clients
  one_group : s.groups.Close t.groups
  origin : s.SameOrigin t

/-- Nothing but reads is a step. -/
theorem Keeps.step_of_sameTables (h : s.Keeps t) (hsame : s.SameTables t) : s.Step t :=
  ⟨h, Table.close_of_eq hsame.1, Table.close_of_eq hsame.2.1, Table.close_of_eq hsame.2.2,
    sameOrigin_of_eq hsame.1⟩

end Store

end Gatehouse
