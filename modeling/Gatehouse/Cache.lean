import Gatehouse.Policy
import Gatehouse.Table
import Gatehouse.Word

/-!
# Gatehouse.Cache — answers remembered for a while

Three caches stand before the store: policies by key, client ids by secret, and marks that say which
client is connected to which channel.  An entry is live until its time to live has passed; looking
up an entry that is not live drops it.  Entries are never the truth, so a failed `CacheCall` is no
failure of the operation that made it.

All three are one `TtlMap` with keys and values of its own: a table of entries, each with the time
at which it expires.  That time is fixed when the entry is put, so a look-up never prolongs it, and
an entry that is put again under its key starts anew.  Nothing else removes an entry but the calls
that say so; there is no bound on how many there are.

The calls of an operation to the caches are steps of its program (`caching`), answered by
`Caches.answer` at the time that the clock shows then.  Which calls an operation makes, and in which
order with its calls to the store, is not decided here but in `Gatehouse.Service.Engine`; that these
orders keep every live entry in agreement with the store is the subject of
`Gatehouse.Proofs.Cache.Coherence`.

Times are nanoseconds on one clock.
-/

namespace Gatehouse

universe u v

/-! ## Maps with expiring entries -/

/-- A value and the time at which it expires. -/
structure CachedEntry (α : Type v) where
  value : α
  expiresAt : Nat
deriving DecidableEq, Repr

/-- Whether an entry has not expired. -/
def CachedEntry.isLive {α : Type v} (e : CachedEntry α) (now : Nat) : Bool := now < e.expiresAt

/-- Entries that expire a fixed time after they were put. -/
structure TtlMap (κ : Type u) (α : Type v) [Ord κ] where
  ttl : Nat
  entries : Table κ (CachedEntry α)
deriving DecidableEq

namespace TtlMap

open Std

variable {κ : Type u} {α : Type v} [Ord κ] [DecidableEq κ] [TransOrd κ] [LawfulEqOrd κ]

/-- The map without entries. -/
def empty (ttl : Nat) : TtlMap κ α := ⟨ttl, ∅⟩

/-- The live value under a key. -/
def peek (m : TtlMap κ α) (now : Nat) (k : κ) : Option α :=
  match m.entries.lookup k with
  | some e => if e.isLive now then some e.value else none
  | none => none

/-- The live value under a key; an entry that has expired is dropped.  Where there is no entry at
all, nothing changes, for there is nothing to erase. -/
def get (m : TtlMap κ α) (now : Nat) (k : κ) : Option α × TtlMap κ α :=
  match m.peek now k with
  | some a => (some a, m)
  | none => (none, { m with entries := m.entries.erase k })

/-- Whether the clock can tell when a value expires that is put at a time: it counts seconds in a
signed word of 64 bits. -/
def canExpire (m : TtlMap κ α) (now : Nat) : Bool := (now + m.ttl) / 1000000000 < Word.bound 63

/-- Puts a value under a key, to expire when the time to live has passed. -/
def insert (m : TtlMap κ α) (now : Nat) (k : κ) (a : α) : TtlMap κ α :=
  { m with entries := m.entries.insert k ⟨a, now + m.ttl⟩ }

/-- Drops the entry under a key. -/
def remove (m : TtlMap κ α) (k : κ) : TtlMap κ α := { m with entries := m.entries.erase k }

/-- Drops the entries whose key satisfies `p`. -/
def removeWhere (m : TtlMap κ α) (p : κ → Bool) : TtlMap κ α :=
  { m with entries := m.entries.eraseWhere fun k _ => p k }

end TtlMap

/-! ## The three caches -/

/-- Why a cache did not answer. -/
inductive CacheError where
  | unavailable (text : String)
deriving DecidableEq, Repr

/-- The text of a cache error. -/
def CacheError.message : CacheError → String
  | unavailable text => s!"cache unavailable: {text}"

/-- A connection of a client to a channel. -/
structure Connection where
  channel : String
  client : String
deriving DecidableEq, Repr

namespace Connection

/-- Connections are ordered by channel and then by client. -/
instance : Ord Connection where
  compare a b := (compare a.channel b.channel).then (compare a.client b.client)

instance : Std.TransOrd Connection := by
  have h : Std.TransCmp (compareLex (compareOn Connection.channel) (compareOn Connection.client)) :=
    inferInstance
  exact h

instance : Std.LawfulEqOrd Connection where
  eq_of_compare {a b} h := by
    change (compare a.channel b.channel).then (compare a.client b.client) = .eq at h
    rw [Ordering.then_eq_eq] at h
    cases a; cases b
    simpa using h

end Connection

/-- One request to the caches. -/
inductive CacheCall where
  | policy (key : PolicyKey)
  | putPolicy (p : Policy)
  | removePolicy (key : PolicyKey)
  | clientOf (secret : String)
  | putClient (secret id : String)
  | removeClient (secret : String)
  | isConnected (c : Connection)
  | connect (c : Connection)
  | disconnect (c : Connection)
  | disconnectAll (client : String)
deriving DecidableEq, Repr

namespace CacheCall

/-- What a cache answers when it is available. -/
def Value : CacheCall → Type
  | policy _ => Option Policy
  | clientOf _ => Option String
  | isConnected _ => Bool
  | _ => Unit

/-- What a cache answers. -/
abbrev Reply (c : CacheCall) : Type := Except CacheError c.Value

/-- The name under which a call is known to those who make it fail. -/
def name : CacheCall → String
  | policy _ => "policies.get"
  | putPolicy _ => "policies.put"
  | removePolicy _ => "policies.remove"
  | clientOf _ => "things.id_for_key"
  | putClient _ _ => "things.save"
  | removeClient _ => "things.remove"
  | isConnected _ => "channels.has_thing"
  | connect _ => "channels.connect"
  | disconnect _ => "channels.disconnect"
  | disconnectAll _ => "channels.remove_thing"

end CacheCall

/-- The three caches.  A connection is remembered as a key without a value: that it is not
remembered says nothing about whether it exists. -/
structure Caches where
  policies : TtlMap PolicyKey Policy
  clients : TtlMap String String
  connections : TtlMap Connection Unit
deriving DecidableEq

namespace Caches

/-- Empty caches with times to live in nanoseconds. -/
def empty (policyTtl clientTtl connectionTtl : Nat) : Caches :=
  ⟨.empty policyTtl, .empty clientTtl, .empty connectionTtl⟩

/-- The answer to a call at a time, and the caches after it. -/
def answer (now : Nat) : (c : CacheCall) → Caches → c.Value × Caches
  | .policy key, s =>
    let (found, policies) := s.policies.get now key
    (found, { s with policies })
  | .putPolicy p, s => ((), { s with policies := s.policies.insert now p.key p })
  | .removePolicy key, s => ((), { s with policies := s.policies.remove key })
  | .clientOf secret, s =>
    let (found, clients) := s.clients.get now secret
    (found, { s with clients })
  | .putClient secret id, s => ((), { s with clients := s.clients.insert now secret id })
  | .removeClient secret, s => ((), { s with clients := s.clients.remove secret })
  | .isConnected c, s =>
    -- only that there is a mark is told, not what is stored with it, which is nothing
    let (found, connections) := s.connections.get now c
    (found.isSome, { s with connections })
  | .connect c, s => ((), { s with connections := s.connections.insert now c () })
  | .disconnect c, s => ((), { s with connections := s.connections.remove c })
  | .disconnectAll client, s =>
    ((), { s with connections := s.connections.removeWhere fun c => c.client = client })

end Caches

end Gatehouse
