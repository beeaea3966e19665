import Gatehouse.Proofs.Store.Sound

/-!
# Gatehouse.Proofs.Store.Writes — what a call that is carried out does

Every call to a store has a type of its own for the value that it answers with.  `Store.Carried`
says for every call which value it has and which tables it leaves behind when it is carried out, and
`carried_of_answer` that the answer of a store is such.  A call that is refused leaves the store as
it was (`Store.answer_error`), so nothing more has to be known of it.

This complements `answer_cases`, from which what every call keeps is proved: here a call is given
that is known to be carried out, and what came of it is wanted.

A call that adds something is carried out if and only if there is room for it, and leaves the store
with what it was to add (`answer_of_isSave`).  Room is said without a look at the call: the key is
free, no other client has the secret, and the parent is there.  That is how the same question can be
put to another store, whose constraints answer it.
-/

namespace Gatehouse

open Gatehouse.Time

/-- Whether a call adds something to a store. -/
def StoreCall.isSave : StoreCall → Bool
  | addPolicy _ | addClient _ | addGroup _ => true
  | _ => false

namespace Store

/-- Whether a call that is carried out has a value and leads from a store to another one. -/
def Carried (now : Timestamp) (s : Store) : (c : StoreCall) → c.Value → Store → Prop
  | .addPolicy p, _, t =>
    s.policies.lookup p.key = none ∧ t = { s with policies := s.policies.insert p.key p }
  | .updatePolicy p, _, t => t = { s with policies := s.policies.modify p.key (amend · p) }
  | .deletePolicy key, _, t => t = { s with policies := s.policies.erase key }
  | .addClient c, _, t => t = { s with clients := s.clients.insert c.id c }
  | .setClientStatus id status, (c : Client), t =>
    (∃ old, s.clients.lookup id = some old ∧ c = { old with status, updatedAt := now }) ∧
      t = { s with clients := s.clients.insert id c }
  | .addGroup g, _, t => t = { s with groups := s.groups.insert g.id g }
  | .setGroupStatus id status, (g : Group), t =>
    (∃ old, s.groups.lookup id = some old ∧ g = { old with status, updatedAt := now }) ∧
      t = { s with groups := s.groups.insert id g }
  | _, _, t => t = s.countRead

/-- **A call that is carried out** has the value and leaves the tables that are said of it. -/
theorem carried_of_answer {now : Timestamp} {s t : Store} {c : StoreCall} {value : c.Value}
    (h : s.answer now c = (.ok value, t)) : s.Carried now c value t := by
  cases c with
  | policy | policiesOf | policyPage | client | clientBySecret | group | groups =>
      exact (congrArg Prod.snd h).symm
  | addPolicy p =>
      simp only [answer, addPolicy] at h
      split at h
      · cases h
      · next hfree =>
        cases h
        exact ⟨Option.not_isSome_iff_eq_none.1 hfree, rfl⟩
  | updatePolicy p | deletePolicy key =>
      simp only [answer, updatePolicy, deletePolicy] at h
      split at h
      · cases h
        rfl
      · cases h
  -- something stands in the way, and something else may
  | addClient c | addGroup g =>
      simp only [answer, addClient, addGroup] at h
      split at h
      · cases h
      · split at h
        · cases h
        · cases h
          rfl
  | setClientStatus id status | setGroupStatus id status =>
      simp only [answer, setClientStatus, setGroupStatus] at h
      split at h
      · cases h
      · next old hold =>
        cases h
        exact ⟨⟨old, hold, rfl⟩, rfl⟩

/-- A policy whose key is free is not refused. -/
theorem lookup_of_addPolicy_error {now : Timestamp} {s : Store} {p : Policy} {e : StorageError}
    (h : (s.answer now (.addPolicy p)).1 = .error e) : s.policies.lookup p.key ≠ none := by
  intro hfree
  have hcontains : ¬s.policies.contains p.key = true := by
    unfold Table.contains
    rw [hfree]
    exact Bool.false_ne_true
  simp only [answer, addPolicy] at h
  rw [if_neg hcontains] at h
  cases h

/-- Whatever comes of adding a policy, its key is taken afterwards. -/
theorem lookup_answer_addPolicy (now : Timestamp) (s : Store) (p : Policy) :
    (s.answer now (.addPolicy p)).2.policies.lookup p.key ≠ none := by
  cases hanswer : (s.answer now (.addPolicy p)).1 with
  | error e =>
      rw [answer_error now _ s hanswer]
      exact lookup_of_addPolicy_error hanswer
  | ok =>
      simp only [answer, addPolicy] at hanswer ⊢
      split at hanswer
      · cases hanswer
      · next hfree =>
        rw [if_neg hfree]
        show (s.policies.insert p.key p).lookup p.key ≠ none
        rw [Table.lookup_insert, if_pos rfl]
        exact Option.some_ne_none p

/-! ## Room -/

/-- Whether there is room for what a call is to add: its key and its secret are free, and its parent
is there. -/
def hasRoom (s : Store) : StoreCall → Bool
  | .addPolicy p => !s.policies.contains p.key
  | .addClient c => !s.clients.contains c.id && (s.clientBySecret c.secret).isNone
  | .addGroup g => !s.groups.contains g.id && g.parent.all s.groups.contains
  | _ => false

/-- A store with what a call is to add. -/
def adding (s : Store) : StoreCall → Store
  | .addPolicy p => { s with policies := s.policies.insert p.key p }
  | .addClient c => { s with clients := s.clients.insert c.id c }
  | .addGroup g => { s with groups := s.groups.insert g.id g }
  | _ => s

/-- What is written if there is room is refused otherwise, and the store is left alone then. -/
theorem written_ite {s t : Store} {room : Bool} {r : Except StorageError Store} {e : StorageError}
    (h : r = if room then .ok t else .error e) :
    (s.written r).1.isOk = room ∧ (s.written r).2 = if room then t else s := by
  subst h
  cases room <;> exact ⟨rfl, rfl⟩

/-- **A call that adds something.**  It is carried out if and only if there is room for it. -/
theorem answer_of_isSave (now : Timestamp) (s : Store) {c : StoreCall} (hc : c.isSave = true) :
    (s.answer now c).1.isOk = s.hasRoom c ∧
      (s.answer now c).2 = if s.hasRoom c then s.adding c else s := by
  cases c with
  | policy | policiesOf | policyPage | client | clientBySecret | group | groups | updatePolicy
  | deletePolicy | setClientStatus | setGroupStatus => cases hc
  | addPolicy p =>
      have hwrite : s.addPolicy p = if s.hasRoom (.addPolicy p) then .ok (s.adding (.addPolicy p))
          else .error (.conflict p.key.render) := by
        cases hkey : s.policies.contains p.key <;> simp only [addPolicy, hasRoom, hkey] <;> rfl
      exact written_ite hwrite
  | addClient c =>
      have hwrite : s.addClient c = if s.hasRoom (.addClient c) then .ok (s.adding (.addClient c))
          else .error (.conflict (if s.clients.contains c.id then clientConflict c.id
            else secretConflict)) := by
        cases hid : s.clients.contains c.id <;> cases hsecret : s.clientBySecret c.secret <;>
          simp only [addClient, hasRoom, hid, hsecret] <;> rfl
      exact written_ite hwrite
  | addGroup g =>
      have hwrite : s.addGroup g = if s.hasRoom (.addGroup g) then .ok (s.adding (.addGroup g))
          else .error (if s.groups.contains g.id then .conflict (groupConflict g.id)
            else .notFound) := by
        -- a parent is missing if it is named and not there
        have hparent : (g.parent.any fun parent => !s.groups.contains parent) =
            !g.parent.all s.groups.contains := by
          cases g.parent <;> rfl
        cases hid : s.groups.contains g.id <;> cases hall : g.parent.all s.groups.contains <;>
          simp only [addGroup, hasRoom, hid, hparent, hall] <;> rfl
      exact written_ite hwrite

end Store

end Gatehouse
