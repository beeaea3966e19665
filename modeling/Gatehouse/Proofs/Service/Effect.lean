import Gatehouse.Proofs.Service.Ownership

/-!
# Gatehouse.Proofs.Service.Effect — what an operation does to the tables

`Operation.Effect` says for every operation that is answered what the tables hold afterwards, in
terms of what they held before and of the answer.  An operation that fails leaves them as they are.
Whatever operations keep of a store is read off this one description (`World.changes_serve`).

It is a description of tables and says nothing of how they came to be changed.  The steps of an
operation are known from its notes; there each write is one call of the store, and what a call does
is said by `Store.Carried`.  Here the two are put together once, operation by operation
(`effect_of_leaves`), and after that no proof on well-formedness, on rights or on the status of
entities has to look at steps again.

A creation makes two writes, an entity and the policy of its owner, and its effect is both of them
(`Store.Adds`).  That the first is not left without the second is part of the effect only because it
holds of operations that are answered; what becomes of one that breaks off is another matter.
-/

namespace Gatehouse

open Gatehouse.Time

/-! ## Changes of a status -/

namespace Store

/-- Whether a store comes from another one by a change of the status of a group. -/
def SwitchesGroup (id : String) (status : Status) (g : Group) (s t : Store) : Prop :=
  (∃ old time, s.groups.lookup id = some old ∧ g = { old with status, updatedAt := time }) ∧
    t.policies = s.policies ∧ t.clients = s.clients ∧ t.groups = s.groups.insert id g

/-- Whether a store comes from another one by a change of the status of a client. -/
def SwitchesClient (id : String) (status : Status) (c : Client) (s t : Store) : Prop :=
  (∃ old time, s.clients.lookup id = some old ∧ c = { old with status, updatedAt := time }) ∧
    t.policies = s.policies ∧ t.clients = s.clients.insert id c ∧ t.groups = s.groups

variable {s t : Store}

/-- A change of the status of a group that was carried out. -/
theorem switchesGroup_of_follows {id : String} {status : Status} {g : Group} {entry : TraceEntry}
    (h : s.Follows [.wrote (.setGroupStatus id status) g, .audited entry] t) :
    SwitchesGroup id status g s t := by
  obtain ⟨time, u, _, ⟨hpolicies, hclients, hgroups⟩, ⟨⟨old, hold, hg⟩, rfl⟩, ht⟩ := h
  refine ⟨⟨old, time, ?_, hg⟩, ?_, ?_, ?_⟩
  · rw [← hgroups]; exact hold
  · rw [ht.1, ← hpolicies]
  · rw [ht.2.1, ← hclients]
  · rw [ht.2.2, ← hgroups]

/-- A change of the status of a client that was carried out. -/
theorem switchesClient_of_follows {id : String} {status : Status} {c : Client} {entry : TraceEntry}
    (h : s.Follows [.wrote (.setClientStatus id status) c, .audited entry] t) :
    SwitchesClient id status c s t := by
  obtain ⟨time, u, _, ⟨hpolicies, hclients, hgroups⟩, ⟨⟨old, hold, hc⟩, rfl⟩, ht⟩ := h
  refine ⟨⟨old, time, ?_, hc⟩, ?_, ?_, ?_⟩
  · rw [← hclients]; exact hold
  · rw [ht.1, ← hpolicies]
  · rw [ht.2.1, ← hclients]
  · rw [ht.2.2, ← hgroups]

end Store

/-! ## Operations -/

namespace Operation

open Engine

/-- What an operation that is answered makes of the tables. -/
def Effect : (op : Operation) → op.Answer → Store → Store → Prop
  | addPolicy _ p, (added : Policy), s, t =>
    p.validate = .ok () ∧ added.actions = Policy.normalizeActions p.actions ∧ s.Adds added t ∧
      t.clients = s.clients ∧ t.groups = s.groups
  | updatePolicy _ p, (updated : Policy), s, t =>
    p.validate = .ok () ∧ updated.actions = Policy.normalizeActions p.actions ∧
      t.policies = s.policies.modify updated.key (Store.amend · updated) ∧
      t.clients = s.clients ∧ t.groups = s.groups
  | deletePolicy _ key, _, s, t =>
    t.policies = s.policies.erase key ∧ t.clients = s.clients ∧ t.groups = s.groups
  | createGroup _ _, (g : Group), s, t => g.status = .enabled ∧
    (∃ time, s.Adds (ownerPolicy time g.owner g.id groupActions) t) ∧
      t.clients = s.clients ∧ t.groups = s.groups.insert g.id g
  | registerClient _ _, (c : Client), s, t => c.status = .enabled ∧
    (∃ time, s.Adds (ownerPolicy time c.owner c.id clientActions) t) ∧
      t.clients = s.clients.insert c.id c ∧ t.groups = s.groups
  | enableGroup _ id, (g : Group), s, t => Store.SwitchesGroup id .enabled g s t
  | disableGroup _ id, (g : Group), s, t => Store.SwitchesGroup id .disabled g s t
  | enableClient _ id, (c : Client), s, t => Store.SwitchesClient id .enabled c s t
  | disableClient _ id, (c : Client), s, t => Store.SwitchesClient id .disabled c s t
  | _, _, s, t => s.SameTables t

/-- What an operation makes of the tables, by what it ends in. -/
def Changes (op : Operation) : Except ApiError op.Answer → Store → Store → Prop
  | .ok a => op.Effect a
  | .error _ => Store.SameTables

variable {op : Operation} {a : op.Answer} {es : List Deed} {s t : Store}

/-- **From notes to tables.**  What is noted of an operation that is answered leads to what it makes
of the tables.  Each write is one change of one table, and the notes before and after it leave all
of them as they are. -/
theorem effect_of_leaves (hleaves : op.Leaves a es) (h : s.Follows es t) : op.Effect a s t := by
  cases op with
  | addPolicy token p =>
      obtain ⟨hvalid, hactions, rfl⟩ := hleaves
      -- the remark on the audit trail leaves the tables of the write as they are
      obtain ⟨_, u, _, ⟨hpolicies, hclients, hgroups⟩, ⟨hfree, rfl⟩, ht⟩ := h
      refine ⟨hvalid, hactions, ⟨?_, ?_⟩, ?_, ?_⟩
      · rw [← hpolicies]; exact hfree
      · rw [ht.1, ← hpolicies]
      · rw [ht.2.1, ← hclients]
      · rw [ht.2.2, ← hgroups]
  | updatePolicy token p =>
      obtain ⟨hvalid, hactions, rfl⟩ := hleaves
      obtain ⟨_, u, _, ⟨hpolicies, hclients, hgroups⟩, rfl, ht⟩ := h
      refine ⟨hvalid, hactions, ?_, ?_, ?_⟩
      · rw [ht.1, ← hpolicies]
      · rw [ht.2.1, ← hclients]
      · rw [ht.2.2, ← hgroups]
  | deletePolicy token key =>
      obtain ⟨_, rfl⟩ := hleaves
      obtain ⟨_, u, _, ⟨hpolicies, hclients, hgroups⟩, rfl, ht⟩ := h
      refine ⟨?_, ?_, ?_⟩
      · rw [ht.1, ← hpolicies]
      · rw [ht.2.1, ← hclients]
      · rw [ht.2.2, ← hgroups]
  -- two writes follow each other, of the entity and of the policy of its owner
  | createGroup token asked =>
      obtain ⟨hstatus, time, rfl⟩ := hleaves
      obtain ⟨hadds, hclients, hgroups⟩ :=
        Store.adds_of_group (p := ownerPolicy time a.owner a.id groupActions) h
      exact ⟨hstatus, ⟨time, hadds⟩, hclients, hgroups⟩
  | registerClient token asked =>
      obtain ⟨hstatus, time, rfl⟩ := hleaves
      obtain ⟨hadds, hclients, hgroups⟩ :=
        Store.adds_of_client (p := ownerPolicy time a.owner a.id clientActions) h
      exact ⟨hstatus, ⟨time, hadds⟩, hclients, hgroups⟩
  | enableGroup | disableGroup =>
      obtain ⟨_, rfl⟩ := hleaves
      exact Store.switchesGroup_of_follows h
  | enableClient | disableClient =>
      obtain ⟨_, rfl⟩ := hleaves
      exact Store.switchesClient_of_follows h
  -- nothing was written, so the tables are the same
  | issue =>
      obtain rfl := hleaves
      exact h
  | refresh =>
      obtain ⟨_, rfl⟩ := hleaves
      exact h
  | identify | authorize | listPolicies | canAccessByKey | canAccessById | identifyThing
  | listGroups | listMemberships =>
      obtain rfl := hleaves
      exact h

/-- An operation that fails leads to the tables before it, and one that is answered to its
effect. -/
theorem changes_of_told {r : Except ApiError op.Answer} (htold : op.Told es r)
    (h : s.Follows es t) : op.Changes r s t := by
  rcases r with e | a
  · exact sameTables_of_failed htold h
  · rcases htold with ⟨_, _, -, hr⟩ | ⟨looks, core, hlooks, rfl, hleaves | ⟨-, _, hr⟩⟩
    · cases hr
    · exact effect_of_leaves hleaves (Store.follows_of_looks hlooks h)
    · cases hr

end Operation

namespace World

variable {w : World}

/-- **What an operation does to the tables**, over a store that does not fail by itself.  That the
store still does not fail by itself afterwards is said with it, so that it can be said of one
operation after the other. -/
theorem changes_serve (tokens : TokenIssuer) (h : w.Reliable) (op : Operation) :
    op.Changes (w.run (Engine.serve tokens op)).1 w.store
        (w.run (Engine.serve tokens op)).2.store ∧
      (w.run (Engine.serve tokens op)).2.Reliable := by
  obtain ⟨es, htold, hfollows, hreliable⟩ := run_follows (Engine.tells_serve tokens op) h
  exact ⟨Operation.changes_of_told htold hfollows, hreliable⟩

/-- A run keeps a store sound, whatever it asks and whatever fails. -/
theorem sound_run {α : Type} (x : Procedure α) (h : w.store.Sound) : (w.run x).2.store.Sound :=
  run_store_of_answer (R := fun s t => s.Sound → t.Sound) (fun _ => id)
    (fun _ _ _ h h' hs => h' (h hs)) (fun _ now c hs => hs.answer now c) w x.run h

/-- What every operation keeps, a history keeps. -/
theorem Reliable.keeps_after {tokens : TokenIssuer} {P : Store → Prop} {w : World} (h : w.Reliable)
    (hP : P w.store) (hserve : ∀ (w : World) (op : Operation), w.Reliable → P w.store →
      P (w.run (Engine.serve tokens op)).2.store) (visits : List Visit) :
    (w.after tokens visits).Reliable ∧ P (w.after tokens visits).store := by
  induction visits generalizing w with
  | nil => exact ⟨h, hP⟩
  | cons v rest ih =>
      have helapsed : (w.elapse v.wait).Reliable := h
      exact ih (changes_serve tokens helapsed v.op).2 (hserve _ v.op helapsed hP)

end World

end Gatehouse
