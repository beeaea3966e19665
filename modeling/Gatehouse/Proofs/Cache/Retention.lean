import Gatehouse.Proofs.Cache.Coherence
import Gatehouse.Proofs.Service.Failure

/-!
# Gatehouse.Proofs.Cache.Retention — how long a policy is remembered

A world *retains* a policy until a deadline if the store holds the policy, and the cache has an
entry of it that does not expire before the deadline.  Three kinds of steps could end that: the
store amends or removes the policy (`Deed.Revises`), the cache removes the entry, or it puts another
in its place.  The last does no harm, since operations put what the store confirms (`Timely`), and
under one key the store has only one policy; the entry that is put is then the same, and expires
later.

* `Retains.answer` : one step.
* `Procedure.Remembers` : no entry of a policy is removed unless the policy was revised before; and
  `Engine.remembers_serve` : this is so of every operation.
* `run_retains` : so a whole run in which the policy is not revised retains it.

Remembering is a property of programs rather than of runs.  Whether an operation removes an entry
depends on the answers that it got before, and these say whether the store has revised the policy,
so it can be read off the operation without a store.
-/

namespace Gatehouse

open Gatehouse.Time

/-! ## Revisions -/

/-- Whether the policy under a key is amended or removed by a deed. -/
def Deed.Revises (key : PolicyKey) : Deed → Prop
  | .wrote (.updatePolicy p) _ => p.key = key
  | .wrote (.deletePolicy key') _ => key' = key
  | _ => False

/-- What is withdrawn of a policy is a revision. -/
theorem StoreCall.revises_of_withdrawn {c : StoreCall} {reply : c.Reply} {key : PolicyKey}
    {p : Policy} (h : .policy key p ∈ c.withdrawn reply) :
    ∃ d ∈ c.deeds reply, Deed.Revises key d := by
  cases c with
  | updatePolicy q =>
      rcases reply with e | _
      · exact False.elim h
      · exact ⟨_, List.mem_singleton_self _, h.1.symm⟩
  | deletePolicy key' =>
      rcases reply with e | _
      · exact False.elim h
      · exact ⟨_, List.mem_singleton_self _, Eq.symm h⟩
  | policy | policiesOf | policyPage | addPolicy | addClient | client | clientBySecret
  | setClientStatus | addGroup | group | groups | setGroupStatus =>
      rcases reply with e | _ <;> exact False.elim h

/-! ## Entries that stay -/

namespace TtlMap

open Std

variable {κ α : Type} [Ord κ] [DecidableEq κ] [LawfulEqOrd κ] {m : TtlMap κ α}

/-- A look-up drops no entry that is live. -/
theorem lookup_get {now : Nat} {k k' : κ} {e : CachedEntry α} (h : m.entries.lookup k = some e)
    (hlive : now < e.expiresAt) : (m.get now k').2.entries.lookup k = some e := by
  unfold get
  cases hpeek : m.peek now k' with
  | some a => exact h
  | none =>
      show (m.entries.erase k').lookup k = some e
      rw [Table.lookup_erase, if_neg]
      · exact h
      · rintro rfl
        unfold peek CachedEntry.isLive at hpeek
        simp [h, hlive] at hpeek

end TtlMap

/-- The live entry of a policy stays, or another one of the same policy takes its place, if it is
not removed and no other policy is put in its place. -/
theorem Caches.lookup_answer {s : Caches} {now expiresAt : Nat} {c : CacheCall} {p : Policy}
    (h : s.policies.entries.lookup p.key = some ⟨p, expiresAt⟩) (hlive : now < expiresAt)
    (hremoves : c ≠ .removePolicy p.key) (hputs : ∀ q, c = .putPolicy q → q.key = p.key → q = p) :
    ∃ later, (later = expiresAt ∨ later = now + s.policies.ttl) ∧
      (s.answer now c).2.policies.entries.lookup p.key = some ⟨p, later⟩ := by
  cases c with
  | policy key => exact ⟨expiresAt, Or.inl rfl, TtlMap.lookup_get h hlive⟩
  -- a policy that is put again lives on from now
  | putPolicy q =>
      show ∃ later, _ ∧ (s.policies.entries.insert q.key ⟨q, _⟩).lookup p.key = _
      rw [Table.lookup_insert]
      split
      · next hkey =>
        obtain rfl : q = p := hputs q rfl hkey.symm
        exact ⟨_, Or.inr rfl, rfl⟩
      · exact ⟨expiresAt, Or.inl rfl, h⟩
  | removePolicy key =>
      refine ⟨expiresAt, Or.inl rfl, ?_⟩
      show (s.policies.entries.erase key).lookup p.key = _
      rw [Table.lookup_erase, if_neg]
      · exact h
      · rintro rfl
        exact hremoves rfl
  | clientOf | putClient | removeClient | isConnected | connect | disconnect | disconnectAll =>
      exact ⟨expiresAt, Or.inl rfl, h⟩

/-! ## Retention -/

namespace World

variable {w : World} {p : Policy} {deadline : Nat}

/-- Whether a policy is stored and remembered until a deadline that has not come.  Whatever is put
from now on will expire no sooner, which is why a policy that is put once more is still retained
until the same deadline. -/
structure Retains (w : World) (p : Policy) (deadline : Nat) : Prop extends w.Sound where
  stored : w.store.policies.lookup p.key = some p
  cached : ∃ expiresAt, deadline ≤ expiresAt ∧
    w.caches.policies.entries.lookup p.key = some ⟨p, expiresAt⟩
  early : w.clock < deadline
  renewable : deadline ≤ w.clock + w.caches.policies.ttl

/-- **One step** retains a policy, unless it revises it or removes its entry, if it puts what the
store confirms. -/
theorem Retains.answer (h : w.Retains p deadline) {c : ServiceCall}
    (hremoves : c ≠ .cache (.removePolicy p.key))
    (hputs : ∀ m, c.put? = some m → (w.answer c).2.store.Confirms m)
    (hrevises : ∀ d ∈ c.deeds (w.answer c).1, ¬d.Revises p.key) :
    (w.answer c).2.Retains p deadline := by
  have hsound : (w.answer c).2.Sound := h.toSound.answer c
  revert hremoves hputs hrevises hsound
  refine answer_cases h.toSound (P := fun c reply w' => c ≠ .cache (.removePolicy p.key) →
    (∀ m, c.put? = some m → w'.store.Confirms m) → (∀ d ∈ c.deeds reply, ¬d.Revises p.key) →
    w'.Sound → w'.Retains p deadline) ?_ ?_ ?_ c
  · intro c _ _ hrevises hsound
    refine ⟨hsound, ?_, h.cached, h.early, h.renewable⟩
    have hconfirmed : w.store.Confirms (.policy p.key p) := h.stored
    rcases Store.confirms_answer (c := c) hconfirmed with hstill | hwithdrawn
    · exact hstill
    · obtain ⟨d, hd, hrevised⟩ := StoreCall.revises_of_withdrawn hwithdrawn
      exact absurd hrevised (hrevises d hd)
  · intro c hremoves hputs _ hsound
    obtain ⟨expiresAt, hdeadline, hcached⟩ := h.cached
    -- what is put under the key is stored under it, so it is the policy itself
    have hsame : ∀ q, c = .putPolicy q → q.key = p.key → q = p := by
      rintro q rfl hkey
      have hconfirmed : w.store.policies.lookup q.key = some q := hputs _ rfl
      rw [hkey, h.stored] at hconfirmed
      exact (Option.some.inj hconfirmed).symm
    obtain ⟨later, hlater, hcached⟩ := Caches.lookup_answer hcached
      (Nat.lt_of_lt_of_le h.early hdeadline) (fun hc => hremoves (congrArg _ hc)) hsame
    refine ⟨hsound, h.stored, ⟨later, ?_, hcached⟩, h.early, ?_⟩
    · rcases hlater with rfl | rfl
      · exact hdeadline
      · exact h.renewable
    · show deadline ≤ w.clock + (w.caches.answer w.clock c).2.policies.ttl
      rw [(Caches.ttl_answer _ _ _).1]
      exact h.renewable
  · intro c reply w' _ hstore hcaches _ hclock _ _ _ hsound
    refine ⟨hsound, hstore ▸ h.stored, hcaches ▸ h.cached, hclock ▸ h.early, ?_⟩
    rw [hclock, hcaches]
    exact h.renewable

end World

/-! ## Forgetting -/

/-- Whether a program removes the entry of a policy only after the store has revised the policy. -/
def Program.Remembers {α : Type} (key : PolicyKey) : Program service α → Prop
  | .done _ => True
  | .ask c next => c ≠ .cache (.removePolicy key) ∧
    ∀ reply, (∀ d ∈ ServiceCall.deeds c reply, ¬d.Revises key) → (next reply).Remembers key

/-- **A run.**  A program that remembers a policy and puts what the store confirms retains the
policy, unless it notes that it revised it.  The deeds are those that the program tells of itself,
so nothing is assumed of the answers that the store gives. -/
theorem World.run_retains {α : Type} {x : Program service α} {Q : List Deed → α → Prop} {w : World}
    {p : Policy} {deadline : Nat} (htells : x.Tells ServiceCall.Inward ServiceCall.deeds Q)
    (htimely : x.Timely w) :
    ∃ es, Q es (x.run World.answer w).1 ∧
      (x.Remembers p.key → w.Retains p deadline → (∀ d ∈ es, ¬d.Revises p.key) →
        (x.run World.answer w).2.Retains p deadline) := by
  induction x generalizing Q w with
  | done a => exact ⟨[], htells, fun _ h _ => h⟩
  | ask c next ih =>
      obtain ⟨es, hes, hrun⟩ := ih _ (htells.2 (w.answer c).1) htimely.2
      refine ⟨_, hes, fun hremembers h hrevises => ?_⟩
      have hhead : ∀ d ∈ ServiceCall.deeds c (w.answer c).1, ¬d.Revises p.key :=
        fun d hd => hrevises d (List.mem_append_left _ hd)
      refine hrun (hremembers.2 _ hhead) (h.answer hremembers.1 htimely.1 hhead) ?_
      exact fun d hd => hrevises d (List.mem_append_right _ hd)

/-! ## Procedures -/

theorem Program.remembers_of_plain {α : Type} {key : PolicyKey} {x : Program service α}
    (hx : x.Asks ServiceCall.Plain) : x.Remembers key := by
  induction x with
  | done a => trivial
  | ask c next ih =>
      refine ⟨?_, fun reply _ => ih reply (hx.2 reply)⟩
      rintro rfl
      cases hx.1

theorem Program.remembers_bind {α β : Type} {key : PolicyKey} {x : Program service α}
    {f : α → Program service β} (hx : x.Remembers key) (hf : ∀ a, (f a).Remembers key) :
    (x.bind f).Remembers key := by
  induction x with
  | done a => exact hf a
  | ask c next ih => exact ⟨hx.1, fun reply hreply => ih reply (hx.2 reply hreply)⟩

namespace Procedure

variable {α β : Type} {key : PolicyKey} {x : Procedure α} {f : α → Procedure β}

/-- Whether a procedure removes the entry of a policy only after the store has revised the
policy. -/
def Remembers (key : PolicyKey) (x : Procedure α) : Prop := x.run.Remembers key

theorem remembers_of_plain (hx : x.Plain) : x.Remembers key := Program.remembers_of_plain hx

theorem remembers_bind (hx : x.Remembers key) (hf : ∀ a, (f a).Remembers key) :
    (x >>= f).Remembers key := by
  refine Program.remembers_bind hx ?_
  rintro (e | a)
  · trivial
  · exact hf a

/-- What the store is asked for leaves the entries alone; what follows may depend on whether it
revised the policy. -/
theorem remembers_store_bind {c : StoreCall} {f : c.Value → Procedure β}
    (hf : ∀ a, (∀ d ∈ c.deeds (.ok a), ¬d.Revises key) → (f a).Remembers key) :
    (store c >>= f).Remembers key := by
  refine ⟨nofun, ?_⟩
  rintro (e | a) hreply
  · trivial
  · exact hf a hreply

theorem remembers_store (c : StoreCall) : (store c).Remembers key := ⟨nofun, fun _ _ => trivial⟩

theorem remembers_ite {c : Prop} [Decidable c] {x y : Procedure α} (hy : y.Remembers key)
    (hx : y.Remembers key → x.Remembers key) : (if c then x else y).Remembers key := by
  split
  · exact hx hy
  · exact hy

/-- A name that is not given is a fresh one. -/
theorem remembers_name_bind {given : String} {f : String → Procedure α}
    (hf : ∀ name, (f name).Remembers key) :
    (if given = "" then freshId >>= f else pure given >>= f).Remembers key := by
  refine remembers_ite (hf given) fun _ => ?_
  exact remembers_bind (remembers_of_plain plain_freshId) hf

end Procedure

/-! ## Operations -/

namespace Engine

open Procedure

variable {key : PolicyKey} (tokens : TokenIssuer)

theorem remembers_tryCache {c : CacheCall} (hc : c ≠ .removePolicy key) (message : String)
    (fields : List (String × FieldValue)) : (tryCache c message fields).Remembers key := by
  refine ⟨fun h => hc (ServiceCall.cache.inj h), ?_⟩
  rintro (e | a) -
  · exact remembers_of_plain (plain_cacheRemark _ _ _)
  · trivial

theorem remembers_addPolicy (token : String) (p : Policy) :
    (addPolicy tokens token p).Remembers key := by
  refine remembers_bind (remembers_of_plain (plain_caller tokens token)) fun claims => ?_
  refine remembers_bind (remembers_of_plain (plain_ofExcept _ _)) fun _ => ?_
  refine remembers_bind (remembers_of_plain plain_now) fun time => ?_
  refine remembers_bind (remembers_store _) fun _ => ?_
  refine remembers_bind (remembers_tryCache (by nofun) _ _) fun _ => ?_
  exact remembers_of_plain (plain_bind (plain_note _) fun _ => plain_pure _)

theorem remembers_updatePolicy (token : String) (p : Policy) :
    (updatePolicy tokens token p).Remembers key := by
  refine remembers_bind (remembers_of_plain (plain_caller tokens token)) fun claims => ?_
  refine remembers_bind (remembers_of_plain (plain_ofExcept _ _)) fun _ => ?_
  refine remembers_ite ?_ fun hrest => ?_
  · refine remembers_bind (remembers_store _) ?_
    rintro (_ | existing)
    · trivial
    · refine remembers_ite ?_ fun _ => trivial
      refine remembers_bind (remembers_of_plain plain_now) fun time => ?_
      refine remembers_bind (remembers_store _) fun _ => ?_
      refine remembers_bind (remembers_tryCache (by nofun) _ _) fun _ => ?_
      exact remembers_of_plain (plain_bind (plain_note _) fun _ => plain_pure _)
  · refine remembers_bind (remembers_store _) fun own => ?_
    exact remembers_ite hrest fun _ => trivial

/-- The entry that is removed is that of a policy that was removed. -/
theorem remembers_deletePolicy (token : String) (key' : PolicyKey) :
    (deletePolicy tokens token key').Remembers key := by
  refine remembers_bind (remembers_of_plain (plain_caller tokens token)) fun claims => ?_
  refine remembers_ite ?_ fun _ => trivial
  refine remembers_store_bind fun _ hspared => ?_
  have hother : key' ≠ key := hspared _ (List.mem_singleton_self _)
  refine remembers_bind (remembers_tryCache (fun h => hother (CacheCall.removePolicy.inj h)) _ _)
    fun _ => ?_
  refine remembers_bind (remembers_tryCache (by nofun) _ _) fun _ => ?_
  exact remembers_of_plain (plain_note _)

theorem remembers_setClientStatus (token id : String) (status : Status) :
    (setClientStatus tokens token id status).Remembers key := by
  refine remembers_bind (remembers_of_plain (plain_caller tokens token)) fun claims => ?_
  refine remembers_bind (remembers_store _) ?_
  rintro (_ | client)
  · trivial
  · refine remembers_bind (remembers_of_plain (plain_mayChange _ _ _ _)) fun allowed => ?_
    refine remembers_ite (remembers_ite ?_ fun _ => trivial) fun _ => trivial
    refine remembers_bind (remembers_store _) fun client => ?_
    refine remembers_ite ?_ fun hrest => ?_
    · exact remembers_of_plain (plain_bind (plain_note _) fun _ => plain_pure _)
    · refine remembers_bind (remembers_tryCache (by nofun) _ _) fun _ => ?_
      exact remembers_bind (remembers_tryCache (by nofun) _ _) fun _ => hrest

theorem remembers_cache_bind {α : Type} {c : CacheCall}
    {f : Except CacheError c.Value → Procedure α} (hc : c.isLookup = true)
    (hok : ∀ cached, (f (.ok cached)).Remembers key)
    (herror : (∀ cached, (f (.ok cached)).Remembers key) → ∀ e, (f (.error e)).Remembers key) :
    (cache c >>= f).Remembers key := by
  refine remembers_bind (remembers_of_plain (plain_step hc)) ?_
  exact forall_reply hok herror

theorem remembers_identifyThing (secret : String) : (identifyThing secret).Remembers key := by
  refine remembers_ite ?_ fun _ => trivial
  refine remembers_cache_bind rfl (fun cached => ?_) fun hok e => ?_
  · refine remembers_bind (remembers_of_plain (plain_pure _)) ?_
    rintro (_ | id)
    · refine remembers_bind (remembers_store _) ?_
      rintro (_ | client)
      · trivial
      · refine remembers_ite ?_ fun _ => trivial
        exact remembers_bind (remembers_tryCache (by nofun) _ _) fun _ => trivial
    · trivial
  · refine remembers_bind (remembers_of_plain (plain_cacheRemark _ _ _)) fun _ => ?_
    exact hok none

theorem remembers_canAccessById (channel client : String) :
    (canAccessById channel client).Remembers key := by
  refine remembers_cache_bind rfl (fun cached => ?_) fun hok e => ?_
  · refine remembers_bind (remembers_of_plain (plain_pure _)) fun known => ?_
    refine remembers_ite ?_ fun _ => trivial
    refine remembers_bind (remembers_store _) fun connection => ?_
    refine remembers_ite ?_ fun _ => trivial
    refine remembers_bind (remembers_store _) fun found => ?_
    exact remembers_ite (remembers_tryCache (by nofun) _ _) fun _ => trivial
  · refine remembers_bind (remembers_of_plain (plain_cacheRemark _ _ _)) fun _ => ?_
    exact hok false

theorem remembers_canAccessByKey (channel secret : String) :
    (canAccessByKey channel secret).Remembers key := by
  refine remembers_bind (remembers_identifyThing secret) fun client => ?_
  exact remembers_bind (remembers_canAccessById channel client) fun _ => trivial

/-- An entity and the policy of its owner are created without a removal. -/
theorem remembers_creation {α : Type} {owner object : String} {actions : List String}
    {entity : StoreCall} {f : Unit → Procedure α} (hf : (f ()).Remembers key) :
    (ensureOwnerSlot owner object >>= fun _ => store entity >>= fun _ =>
      saveOwnerPolicy owner object actions >>= f).Remembers key := by
  refine remembers_bind (remembers_of_plain (plain_ensureOwnerSlot _ _)) fun _ => ?_
  refine remembers_bind (remembers_store _) fun _ => ?_
  refine remembers_bind ?_ fun _ => hf
  refine remembers_bind (remembers_of_plain plain_now) fun time => ?_
  exact remembers_bind (remembers_store _) fun _ => remembers_tryCache (by nofun) _ _

theorem remembers_createGroup (token : String) (g : Group) :
    (createGroup tokens token g).Remembers key := by
  refine remembers_bind (remembers_of_plain (plain_caller tokens token)) fun claims => ?_
  cases g.parent
  case' some parent =>
    refine remembers_bind (remembers_of_plain (plain_checkParent _ _)) fun _ => ?_
  -- with a parent or without one, the same steps follow
  all_goals
    refine remembers_bind (remembers_of_plain plain_now) fun time => ?_
    refine remembers_name_bind fun id => remembers_creation ?_
    exact remembers_of_plain (plain_bind (plain_note _) fun _ => plain_pure _)

theorem remembers_registerClient (token : String) (c : Client) :
    (registerClient tokens token c).Remembers key := by
  refine remembers_bind (remembers_of_plain (plain_caller tokens token)) fun claims => ?_
  refine remembers_bind (remembers_of_plain plain_now) fun time => ?_
  refine remembers_name_bind fun id => remembers_name_bind fun secret => remembers_creation ?_
  exact remembers_of_plain (plain_bind (plain_note _) fun _ => plain_pure _)

/-- **No operation forgets a policy that is not revised.** -/
theorem remembers_serve (op : Operation) : (serve tokens op).Remembers key := by
  cases op with
  | issue request => exact remembers_of_plain (plain_issue tokens _ _)
  | refresh token => exact remembers_of_plain (plain_refresh tokens token)
  | identify token =>
      exact remembers_of_plain (plain_bind (plain_caller tokens token) fun _ => plain_pure _)
  | authorize => exact remembers_of_plain (plain_authorize tokens _ _ _ _)
  | addPolicy token p => exact remembers_addPolicy tokens token p
  | updatePolicy token p => exact remembers_updatePolicy tokens token p
  | deletePolicy token key => exact remembers_deletePolicy tokens token key
  | listPolicies token query => exact remembers_of_plain (plain_listPolicies tokens token query)
  | canAccessByKey channel secret => exact remembers_canAccessByKey channel secret
  | canAccessById channel client => exact remembers_canAccessById channel client
  | identifyThing secret => exact remembers_identifyThing secret
  | createGroup token g => exact remembers_createGroup tokens token g
  | registerClient token c => exact remembers_registerClient tokens token c
  | listGroups token query => exact remembers_of_plain (plain_listGroups tokens token query)
  | listMemberships => exact remembers_of_plain (plain_listMemberships tokens _ _ _)
  | enableGroup | disableGroup => exact remembers_of_plain (plain_setGroupStatus tokens _ _ _)
  | enableClient | disableClient => exact remembers_setClientStatus tokens _ _ _

end Engine

end Gatehouse
