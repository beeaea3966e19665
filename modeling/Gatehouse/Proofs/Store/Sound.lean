import Gatehouse.Store.Memory

/-!
# Gatehouse.Proofs.Store.Sound — the stores that calls can reach

A store begins empty and changes by calls only.  `Built` is the set of stores that arise so, and
`Sound` is what is true of all of them: policies stand under their own keys, clients under their own
ids, and no secret belongs to two clients.  The first two are what lets a value be found again by
what it says of itself, and the third is what makes the connection of a client by its secret
unambiguous.

`answer_cases` says once what a call may leave behind, of policies and of clients.  There are five
writes that change either, each with the condition under which it succeeds, and everything else
keeps both.  Whatever is kept by every call follows from it, without a look at the single calls:
`Sound.answer` is the first example, and what the caches may say of a store goes through it too.
The groups have a rule of their own in `Proofs.Store.Forest`.

`SameTables` is the relation between a store and itself after reads.  It differs from equality in
the count of reads only, which no decision looks at.
-/

namespace Gatehouse

open Gatehouse.Time

namespace Store

@[simp] theorem countRead_policies (s : Store) : s.countRead.policies = s.policies := rfl

@[simp] theorem countRead_clients (s : Store) : s.countRead.clients = s.clients := rfl

/-- Whether two stores hold the same; the count of reads may differ. -/
def SameTables (s t : Store) : Prop :=
  t.policies = s.policies ∧ t.clients = s.clients ∧ t.groups = s.groups

/-- Holding the same is transitive. -/
theorem SameTables.trans {s t u : Store} (h : s.SameTables t) (h' : t.SameTables u) :
    s.SameTables u :=
  ⟨h'.1.trans h.1, h'.2.1.trans h.2.1, h'.2.2.trans h.2.2⟩

/-- A store holds the same as itself. -/
theorem sameTables_of_eq {s t : Store} (h : t = s) : s.SameTables t := by
  subst h
  exact ⟨rfl, rfl, rfl⟩

/-! ## Looking up a client by its secret -/

/-- A client that is found by a secret is stored and has it. -/
theorem clientBySecret_eq_some {s : Store} {secret : String} {c : Client}
    (h : s.clientBySecret secret = some c) :
    (∃ id, s.clients.lookup id = some c) ∧ c.secret = secret := by
  unfold clientBySecret at h
  refine ⟨Table.mem_values.1 (List.mem_of_find?_eq_some h), ?_⟩
  simpa using List.find?_some h

/-- If no client is found by a secret, none has it. -/
theorem clientBySecret_eq_none {s : Store} {secret : String} (h : s.clientBySecret secret = none)
    {id : String} {c : Client} (hc : s.clients.lookup id = some c) : c.secret ≠ secret := by
  unfold clientBySecret at h
  rw [List.find?_eq_none] at h
  have hno := h c (Table.mem_values.2 ⟨id, hc⟩)
  simpa using hno

/-! ## What a call may leave behind -/

/-- A policy with the actions and the record of the update of another. -/
def amend (old p : Policy) : Policy :=
  { old with actions := p.actions, updatedAt := p.updatedAt, updatedBy := p.updatedBy }

@[simp] theorem amend_key (old p : Policy) : (amend old p).key = old.key := rfl

@[simp] theorem amend_self (p : Policy) : amend p p = p := rfl

variable {now : Timestamp} {s : Store}

/-- **The writes.**  A call leaves the policies and the clients as they are, or it is one of five
writes that succeeded, and what it answers and leaves behind is known. -/
theorem answer_cases {P : (c : StoreCall) → c.Reply → Store → Prop}
    (kept : ∀ c reply t, t.policies = s.policies → t.clients = s.clients → P c reply t)
    (added : ∀ p, s.policies.lookup p.key = none →
      P (.addPolicy p) (.ok ()) { s with policies := s.policies.insert p.key p })
    (amended : ∀ p old, s.policies.lookup p.key = some old →
      P (.updatePolicy p) (.ok ()) { s with policies := s.policies.modify p.key (amend · p) })
    (deleted : ∀ key old, s.policies.lookup key = some old →
      P (.deletePolicy key) (.ok ()) { s with policies := s.policies.erase key })
    (registered : ∀ c, s.clients.lookup c.id = none →
      (∀ id c', s.clients.lookup id = some c' → c'.secret ≠ c.secret) →
      P (.addClient c) (.ok ()) { s with clients := s.clients.insert c.id c })
    (switched : ∀ id status old, s.clients.lookup id = some old →
      P (.setClientStatus id status) (.ok { old with status, updatedAt := now })
        { s with clients := s.clients.insert id { old with status, updatedAt := now } })
    (c : StoreCall) : P c (s.answer now c).1 (s.answer now c).2 := by
  cases c with
  | policy | policiesOf | policyPage | client | clientBySecret | group | groups =>
      exact kept _ _ _ rfl rfl
  | addPolicy p =>
      show P (.addPolicy p) (s.written (s.addPolicy p)).1 (s.written (s.addPolicy p)).2
      unfold addPolicy Table.contains
      cases hp : s.policies.lookup p.key with
      | some old => exact kept _ _ _ rfl rfl
      | none => exact added p hp
  | updatePolicy p =>
      show P (.updatePolicy p) (s.written (s.updatePolicy p)).1 (s.written (s.updatePolicy p)).2
      unfold updatePolicy Table.contains
      cases hp : s.policies.lookup p.key with
      | some old => exact amended p old hp
      | none => exact kept _ _ _ rfl rfl
  | deletePolicy key =>
      show P (.deletePolicy key) (s.written (s.deletePolicy key)).1
        (s.written (s.deletePolicy key)).2
      unfold deletePolicy Table.contains
      cases hp : s.policies.lookup key with
      | some old => exact deleted key old hp
      | none => exact kept _ _ _ rfl rfl
  | addClient c =>
      show P (.addClient c) (s.written (s.addClient c)).1 (s.written (s.addClient c)).2
      unfold addClient Table.contains
      cases hid : s.clients.lookup c.id with
      | some old => exact kept _ _ _ rfl rfl
      | none =>
          cases hsecret : s.clientBySecret c.secret with
          | some old => exact kept _ _ _ rfl rfl
          | none => exact registered c hid fun id c' hc' => clientBySecret_eq_none hsecret hc'
  | setClientStatus id status =>
      show P (.setClientStatus id status) (s.changed (s.setClientStatus now id status)).1
        (s.changed (s.setClientStatus now id status)).2
      unfold setClientStatus
      cases hid : s.clients.lookup id with
      | none => exact kept _ _ _ rfl rfl
      | some old => exact switched id status old hid
  | addGroup g =>
      show P (.addGroup g) (s.written (s.addGroup g)).1 (s.written (s.addGroup g)).2
      unfold addGroup
      split
      · exact kept _ _ _ rfl rfl
      · split
        · exact kept _ _ _ rfl rfl
        · exact kept _ _ _ rfl rfl
  | setGroupStatus id status =>
      show P (.setGroupStatus id status) (s.changed (s.setGroupStatus now id status)).1
        (s.changed (s.setGroupStatus now id status)).2
      unfold setGroupStatus
      split
      · exact kept _ _ _ rfl rfl
      · exact kept _ _ _ rfl rfl

/-! ## Sound stores -/

/-- The stores that calls lead to. -/
inductive Built : Store → Prop where
  | empty : Built ∅
  | answer {s : Store} (h : Built s) (now : Timestamp) (c : StoreCall) : Built (s.answer now c).2

/-- Policies stand under their keys, clients under their ids, and secrets belong to one client. -/
structure Sound (s : Store) : Prop where
  policy_key : ∀ {key p}, s.policies.lookup key = some p → p.key = key
  client_id : ∀ {id c}, s.clients.lookup id = some c → c.id = id
  secret_unique : ∀ {id id' c c'}, s.clients.lookup id = some c → s.clients.lookup id' = some c' →
    c.secret = c'.secret → id = id'

/-- An empty store is sound. -/
theorem sound_empty : Sound ∅ where
  policy_key h := by cases h
  client_id h := by cases h
  secret_unique h := by cases h

/-- A store is sound whatever was read from it. -/
theorem Sound.countRead (h : s.Sound) : s.countRead.Sound :=
  ⟨h.policy_key, h.client_id, h.secret_unique⟩

/-- **Calls.**  Every call keeps a store sound. -/
theorem Sound.answer (h : s.Sound) (now : Timestamp) (c : StoreCall) :
    (s.answer now c).2.Sound := by
  refine answer_cases (P := fun _ _ t => t.Sound) ?_ ?_ ?_ ?_ ?_ ?_ c
  -- neither policies nor clients change
  · intro _ _ t hpolicies hclients
    constructor
    · rw [hpolicies]; exact h.policy_key
    · rw [hclients]; exact h.client_id
    · rw [hclients]; exact h.secret_unique
  -- a policy is added, under its key
  · intro p _
    refine ⟨?_, h.client_id, h.secret_unique⟩
    intro key q hq
    rw [Table.lookup_insert] at hq
    split at hq
    · next hkey => cases hq; exact hkey.symm
    · exact h.policy_key hq
  -- a policy is amended, which leaves its key
  · intro p old _
    refine ⟨?_, h.client_id, h.secret_unique⟩
    intro key q hq
    rw [Table.lookup_modify] at hq
    split at hq
    · obtain ⟨q', hq', rfl⟩ := Option.map_eq_some_iff.1 hq
      rw [amend_key]
      exact h.policy_key hq'
    · exact h.policy_key hq
  -- a policy is removed
  · intro key _ _
    refine ⟨?_, h.client_id, h.secret_unique⟩
    intro key' q hq
    rw [Table.lookup_erase] at hq
    split at hq
    · cases hq
    · exact h.policy_key hq
  -- a client is added, whose secret no other client has
  · intro c hfree hsecret
    refine ⟨h.policy_key, ?_, ?_⟩
    · intro id c' hc'
      rw [Table.lookup_insert] at hc'
      split at hc'
      · next hid => cases hc'; exact hid.symm
      · exact h.client_id hc'
    · intro id id' a b ha hb hab
      rw [Table.lookup_insert] at ha hb
      split at ha <;> split at hb
      · next hid hid' => rw [hid, hid']
      · cases ha; exact absurd hab.symm (hsecret id' b hb)
      · cases hb; exact absurd hab (hsecret id a ha)
      · exact h.secret_unique ha hb hab
  -- a client changes its status; with its id and its secret it counts as the one before
  · intro id status old hold
    have hbefore : ∀ {id' c}, (s.clients.insert id { old with status, updatedAt := now }).lookup id'
        = some c → ∃ c', s.clients.lookup id' = some c' ∧ c.id = c'.id ∧ c.secret = c'.secret := by
      intro id' c hc
      rw [Table.lookup_insert] at hc
      split at hc
      · next hid => cases hc; exact ⟨old, hid ▸ hold, rfl, rfl⟩
      · exact ⟨c, hc, rfl, rfl⟩
    refine ⟨h.policy_key, ?_, ?_⟩
    · intro id' c hc
      obtain ⟨c', hc', hid, -⟩ := hbefore hc
      rw [hid]
      exact h.client_id hc'
    · intro id₁ id₂ a b ha hb hab
      obtain ⟨a', ha', -, hsa⟩ := hbefore ha
      obtain ⟨b', hb', -, hsb⟩ := hbefore hb
      exact h.secret_unique ha' hb' (by rw [← hsa, ← hsb, hab])

/-- Every store that calls lead to is sound. -/
theorem Built.sound (h : s.Built) : s.Sound := by
  induction h with
  | empty => exact sound_empty
  | answer _ now c ih => exact ih.answer now c

end Store

end Gatehouse
