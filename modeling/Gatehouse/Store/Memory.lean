import Gatehouse.Store
import Gatehouse.Table

/-!
# Gatehouse.Store.Memory — a store held in memory

Three tables and a count of the reads that were served.  A write that fails leaves the tables as
they are.

* `answer_error` : a call that fails changes neither policies, clients nor groups.
* `answer_read` : a call that reads changes nothing but the count.

The tables are keyed by what names their entries, and nothing else ties an entry to its key; that
every policy stands under its own key, and every client and group under its own id, is an invariant
(`Gatehouse.Proofs.Store.Sound`), kept because only the functions below write.  Secrets have no
table of their own: a client is found by its secret in the order of ids, and there is one at most.

The count of reads is no part of what a store means.  It is kept to tell which answers came from a
cache, and is left out wherever two stores are compared by what they hold.
-/

namespace Gatehouse

open Gatehouse.Time

/-- Policies by key, clients and groups by id, and the number of reads so far. -/
structure Store where
  policies : Table PolicyKey Policy
  clients : Table String Client
  groups : Table String Group
  reads : Nat
deriving DecidableEq

namespace Store

/-- The store that holds nothing and was never read. -/
def empty : Store := ⟨∅, ∅, ∅, 0⟩

instance : EmptyCollection Store := ⟨empty⟩
instance : Inhabited Store := ⟨empty⟩

/-! ## Reading -/

/-- The policies of a subject, ordered by object. -/
def policiesOf (s : Store) (subject : String) : List Policy :=
  s.policies.values.filter fun p => p.subject = subject

/-- The client with a secret. -/
def clientBySecret (s : Store) (secret : String) : Option Client :=
  s.clients.values.find? fun c => c.secret = secret

/-- The page of a query over all policies in key order. -/
def policyPage (s : Store) (q : PolicyQuery) : PolicyPage := q.page s.policies.values

/-! ## Writing -/

/-- Adds a policy under a key that is free. -/
def addPolicy (s : Store) (p : Policy) : Except StorageError Store :=
  if s.policies.contains p.key then throw (.conflict p.key.render)
  else return { s with policies := s.policies.insert p.key p }

/-- Replaces the actions of a policy and the record of its update. -/
def updatePolicy (s : Store) (p : Policy) : Except StorageError Store :=
  if s.policies.contains p.key then
    let change (old : Policy) :=
      { old with actions := p.actions, updatedAt := p.updatedAt, updatedBy := p.updatedBy }
    return { s with policies := s.policies.modify p.key change }
  else throw .notFound

/-- Removes a policy. -/
def deletePolicy (s : Store) (key : PolicyKey) : Except StorageError Store :=
  if s.policies.contains key then return { s with policies := s.policies.erase key }
  else throw .notFound

/-- Adds a client under an id and with a secret that are both free. -/
def addClient (s : Store) (c : Client) : Except StorageError Store :=
  if s.clients.contains c.id then throw (.conflict (clientConflict c.id))
  else if (s.clientBySecret c.secret).isSome then throw (.conflict secretConflict)
  else return { s with clients := s.clients.insert c.id c }

/-- Sets the status of a client. -/
def setClientStatus (s : Store) (now : Timestamp) (id : String) (status : Status) :
    Except StorageError (Client × Store) :=
  match s.clients.lookup id with
  | none => throw .notFound
  | some c =>
    let c := { c with status, updatedAt := now }
    return (c, { s with clients := s.clients.insert id c })

/-- Adds a group under a free id and inside a parent that exists, if it has one. -/
def addGroup (s : Store) (g : Group) : Except StorageError Store :=
  if s.groups.contains g.id then throw (.conflict (groupConflict g.id))
  else if g.parent.any fun parent => !s.groups.contains parent then throw .notFound
  else return { s with groups := s.groups.insert g.id g }

/-- Sets the status of a group. -/
def setGroupStatus (s : Store) (now : Timestamp) (id : String) (status : Status) :
    Except StorageError (Group × Store) :=
  match s.groups.lookup id with
  | none => throw .notFound
  | some g =>
    let g := { g with status, updatedAt := now }
    return (g, { s with groups := s.groups.insert id g })

/-! ## Answering calls -/

/-- The store after one more read. -/
def countRead (s : Store) : Store := { s with reads := s.reads + 1 }

/-- The answer to a write without a value, and the store after it. -/
def written (s : Store) : Except StorageError Store → Except StorageError Unit × Store
  | .ok s' => (.ok (), s')
  | .error e => (.error e, s)

/-- The answer to a write with a value, and the store after it. -/
def changed {α : Type} (s : Store) :
    Except StorageError (α × Store) → Except StorageError α × Store
  | .ok (a, s') => (.ok a, s')
  | .error e => (.error e, s)

/-- The answer to a call at a time, and the store after it. -/
def answer (now : Timestamp) : (c : StoreCall) → Store → c.Reply × Store
  | .policy key, s => (.ok (s.policies.lookup key), s.countRead)
  | .policiesOf subject, s => (.ok (s.policiesOf subject), s.countRead)
  | .policyPage query, s => (.ok (s.policyPage query), s.countRead)
  | .addPolicy p, s => s.written (s.addPolicy p)
  | .updatePolicy p, s => s.written (s.updatePolicy p)
  | .deletePolicy key, s => s.written (s.deletePolicy key)
  | .addClient c, s => s.written (s.addClient c)
  | .client id, s => (.ok (s.clients.lookup id), s.countRead)
  | .clientBySecret secret, s => (.ok (s.clientBySecret secret), s.countRead)
  | .setClientStatus id status, s => s.changed (s.setClientStatus now id status)
  | .addGroup g, s => s.written (s.addGroup g)
  | .group id, s => (.ok (s.groups.lookup id), s.countRead)
  | .groups, s => (.ok s.groups.values, s.countRead)
  | .setGroupStatus id status, s => s.changed (s.setGroupStatus now id status)

/-! ## What a call leaves unchanged -/

theorem written_error {s : Store} {r : Except StorageError Store} {e : StorageError}
    (h : (s.written r).1 = .error e) : (s.written r).2 = s := by
  cases r <;> simp_all [written]

theorem changed_error {α : Type} {s : Store} {r : Except StorageError (α × Store)}
    {e : StorageError} (h : (s.changed r).1 = .error e) : (s.changed r).2 = s := by
  cases r <;> simp_all [changed]

/-- A call that fails leaves the store as it was. -/
theorem answer_error (now : Timestamp) (c : StoreCall) (s : Store) {e : StorageError}
    (h : (s.answer now c).1 = .error e) : (s.answer now c).2 = s := by
  cases c with
  | policy | policiesOf | policyPage | client | clientBySecret | group | groups => cases h
  | addPolicy | updatePolicy | deletePolicy | addClient | addGroup => exact written_error h
  | setClientStatus | setGroupStatus => exact changed_error h

/-- A call that reads changes nothing but the count of reads. -/
theorem answer_read (now : Timestamp) (c : StoreCall) (s : Store) (h : c.isRead = true) :
    (s.answer now c).2 = s.countRead := by
  cases c <;> simp_all [answer, StoreCall.isRead]

end Store

end Gatehouse
