import Mathlib.Data.Set.Basic
import Gatehouse.Cache
import Gatehouse.Proofs.Store.Sound

/-!
# Gatehouse.Proofs.Cache.Memo — what a cache entry says, and when it is true

An entry of one of the three caches is a `Memo`: a policy under its key, the id that a secret stands
for, or a connection.  The caches *hold* a memo from the moment it is put until it is cleared or
dropped, and they *recall* it as long as it is live.  A store *confirms* a memo if what it says is
so.  Caches and store know nothing of each other; all that is said about stale answers later on is
said about the memos that the one side holds and the other does not confirm.

Two lemmas carry everything that follows.

* `Caches.holds_answer` : after a call the caches hold what the call put and what they held before
  and the call did not clear.
* `Store.confirms_answer` : a call to the store leaves a memo confirmed unless it withdraws it.

So a stale entry needs a call that withdraws it and is followed by no call that clears it, or a call
that puts it when it is not confirmed.

Holding is stated of entries whether or not they are live, although only live ones are ever given
for an answer.  Otherwise time would take part in every step, and a look-up, which drops what has
expired, would have to be told apart from a removal.
-/

namespace Gatehouse

open Gatehouse.Time

/-- What an entry of a cache says. -/
inductive Memo where
  | policy (key : PolicyKey) (p : Policy)
  | client (secret id : String)
  | connection (c : Connection)
deriving DecidableEq

/-! ## Entries of a map -/

namespace TtlMap

open Std

variable {κ : Type} {α : Type} [Ord κ] [DecidableEq κ] {m : TtlMap κ α}

/-- Whether there is an entry, live or not, that says `a` of a key. -/
def Has (m : TtlMap κ α) (k : κ) (a : α) : Prop :=
  ∃ e, m.entries.lookup k = some e ∧ e.value = a

theorem has_of_peek {now : Nat} {k : κ} {a : α} (h : m.peek now k = some a) : m.Has k a := by
  unfold peek at h
  split at h
  · next e he =>
      split at h
      · exact ⟨e, he, Option.some.inj h⟩
      · cases h
  · cases h

theorem get_fst (m : TtlMap κ α) (now : Nat) (k : κ) : (m.get now k).1 = m.peek now k := by
  unfold get
  cases m.peek now k with
  | none => rfl
  | some a => rfl

theorem ttl_get (m : TtlMap κ α) (now : Nat) (k : κ) : (m.get now k).2.ttl = m.ttl := by
  unfold get
  cases m.peek now k with
  | none => rfl
  | some a => rfl

variable [LawfulEqOrd κ]

theorem has_get {now : Nat} {k k' : κ} {a : α} (h : (m.get now k').2.Has k a) : m.Has k a := by
  unfold get at h
  split at h
  · exact h
  · obtain ⟨e, he, ha⟩ := h
    rw [Table.lookup_erase] at he
    split at he
    · cases he
    · exact ⟨e, he, ha⟩

theorem has_removeWhere {p : κ → Bool} {k : κ} {a : α} (h : (m.removeWhere p).Has k a) :
    p k = false ∧ m.Has k a := by
  obtain ⟨e, he, ha⟩ := h
  unfold removeWhere at he
  rw [Table.lookup_eraseWhere, Option.filter_eq_some_iff] at he
  exact ⟨by simpa using he.2, e, he.1, ha⟩

theorem has_remove {k k' : κ} {a : α} (h : (m.remove k').Has k a) : k ≠ k' ∧ m.Has k a := by
  obtain ⟨hk, hhas⟩ := has_removeWhere h
  exact ⟨by simpa using hk, hhas⟩

theorem has_insert [TransOrd κ] {now : Nat} {k k' : κ} {a a' : α}
    (h : (m.insert now k' a').Has k a) : k = k' ∧ a = a' ∨ k ≠ k' ∧ m.Has k a := by
  obtain ⟨e, he, ha⟩ := h
  unfold insert at he
  rw [Table.lookup_insert] at he
  split at he
  · next hk =>
      cases he
      exact Or.inl ⟨hk, ha.symm⟩
  · next hk => exact Or.inr ⟨hk, e, he, ha⟩

end TtlMap

/-! ## The caches -/

namespace Caches

/-- Whether the caches hold an entry, live or not. -/
def Holds (s : Caches) : Memo → Prop
  | .policy key p => s.policies.Has key p
  | .client secret id => s.clients.Has secret id
  | .connection c => s.connections.Has c ()

/-- Whether the caches would give an entry for an answer. -/
def Recalls (s : Caches) (now : Nat) : Memo → Prop
  | .policy key p => s.policies.peek now key = some p
  | .client secret id => s.clients.peek now secret = some id
  | .connection c => s.connections.peek now c = some ()

instance (s : Caches) (now : Nat) : (m : Memo) → Decidable (s.Recalls now m)
  | .policy key p => inferInstanceAs (Decidable (s.policies.peek now key = some p))
  | .client secret id => inferInstanceAs (Decidable (s.clients.peek now secret = some id))
  | .connection c => inferInstanceAs (Decidable (s.connections.peek now c = some ()))

theorem holds_of_recalls {s : Caches} (now : Nat) {m : Memo} (h : s.Recalls now m) : s.Holds m := by
  cases m with
  | policy | client | connection => exact TtlMap.has_of_peek h

theorem not_holds_empty (a b c : Nat) (m : Memo) : ¬ (empty a b c).Holds m := by
  cases m with
  | policy | client | connection =>
      rintro ⟨e, he, -⟩
      cases he

/-- No call changes how long entries last. -/
theorem ttl_answer (s : Caches) (now : Nat) (c : CacheCall) :
    (s.answer now c).2.policies.ttl = s.policies.ttl ∧
      (s.answer now c).2.clients.ttl = s.clients.ttl ∧
      (s.answer now c).2.connections.ttl = s.connections.ttl := by
  cases c with
  | policy key => exact ⟨TtlMap.ttl_get _ _ _, rfl, rfl⟩
  | clientOf secret => exact ⟨rfl, TtlMap.ttl_get _ _ _, rfl⟩
  | isConnected c => exact ⟨rfl, rfl, TtlMap.ttl_get _ _ _⟩
  | putPolicy | removePolicy | putClient | removeClient | connect | disconnect
  | disconnectAll => exact ⟨rfl, rfl, rfl⟩

end Caches

namespace CacheCall

/-- The entry that a call puts.  Look-ups and removals put nothing. -/
def put? : CacheCall → Option Memo
  | putPolicy p => some (.policy p.key p)
  | putClient secret id => some (.client secret id)
  | connect c => some (.connection c)
  | _ => none

/-- Whether a call clears an entry; one that is put takes the place of another.  A look-up clears
nothing that counts: what it drops has expired. -/
def Clears : CacheCall → Memo → Prop
  | putPolicy p, .policy key old => key = p.key ∧ old ≠ p
  | removePolicy key, .policy key' _ => key' = key
  | putClient secret id, .client secret' old => secret' = secret ∧ old ≠ id
  | removeClient secret, .client secret' _ => secret' = secret
  | disconnect c, .connection c' => c' = c
  | disconnectAll client, .connection c => c.client = client
  | _, _ => False

/-- The entries that a call clears. -/
def cleared (c : CacheCall) : Set Memo := {m | c.Clears m}

end CacheCall

/-- **A call to the caches.**  What they hold after it was put by it, or was there before it and not
cleared by it.  Each call is about one cache, so there is one case that says something in it for
each call, and the entries of the two other caches are where they were. -/
theorem Caches.holds_answer {now : Nat} {c : CacheCall} {s : Caches} {m : Memo}
    (h : (s.answer now c).2.Holds m) : c.put? = some m ∨ s.Holds m ∧ m ∉ c.cleared := by
  -- a call touches one of the three caches, so entries of the two others are as before
  cases c with
  | policy key =>
      refine Or.inr ⟨?_, fun hno => hno⟩
      cases m with
      | policy => exact TtlMap.has_get h
      | client | connection => exact h
  | clientOf secret =>
      refine Or.inr ⟨?_, fun hno => hno⟩
      cases m with
      | client => exact TtlMap.has_get h
      | policy | connection => exact h
  | isConnected c =>
      refine Or.inr ⟨?_, fun hno => hno⟩
      cases m with
      | connection => exact TtlMap.has_get h
      | policy | client => exact h
  | putPolicy q =>
      cases m with
      | policy key p =>
          rcases TtlMap.has_insert h with ⟨rfl, rfl⟩ | ⟨hkey, hhas⟩
          · exact Or.inl rfl
          · exact Or.inr ⟨hhas, fun hclears => hkey hclears.1⟩
      | client | connection => exact Or.inr ⟨h, fun hno => hno⟩
  | putClient secret id =>
      cases m with
      | client secret' id' =>
          rcases TtlMap.has_insert h with ⟨rfl, rfl⟩ | ⟨hsecret, hhas⟩
          · exact Or.inl rfl
          · exact Or.inr ⟨hhas, fun hclears => hsecret hclears.1⟩
      | policy | connection => exact Or.inr ⟨h, fun hno => hno⟩
  | connect c =>
      cases m with
      | connection c' =>
          rcases TtlMap.has_insert h with ⟨rfl, -⟩ | ⟨-, hhas⟩
          · exact Or.inl rfl
          · exact Or.inr ⟨hhas, fun hno => hno⟩
      | policy | client => exact Or.inr ⟨h, fun hno => hno⟩
  | removePolicy key =>
      cases m with
      | policy key' p =>
          obtain ⟨hkey, hhas⟩ := TtlMap.has_remove h
          exact Or.inr ⟨hhas, hkey⟩
      | client | connection => exact Or.inr ⟨h, fun hno => hno⟩
  | removeClient secret =>
      cases m with
      | client secret' id =>
          obtain ⟨hsecret, hhas⟩ := TtlMap.has_remove h
          exact Or.inr ⟨hhas, hsecret⟩
      | policy | connection => exact Or.inr ⟨h, fun hno => hno⟩
  | disconnect c =>
      cases m with
      | connection c' =>
          obtain ⟨hne, hhas⟩ := TtlMap.has_remove h
          exact Or.inr ⟨hhas, hne⟩
      | policy | client => exact Or.inr ⟨h, fun hno => hno⟩
  | disconnectAll client =>
      cases m with
      | connection c' =>
          obtain ⟨hother, hhas⟩ := TtlMap.has_removeWhere h
          have hne : c'.client ≠ client := by simpa using hother
          exact Or.inr ⟨hhas, hne⟩
      | policy | client => exact Or.inr ⟨h, fun hno => hno⟩

/-! ## The store -/

namespace Store

/-- Whether a store holds a client that is enabled. -/
def Enabled (s : Store) (id : String) : Prop :=
  ∃ c, s.clients.lookup id = some c ∧ c.status = .enabled

/-- Whether what an entry says is so: there is this policy under the key, the secret is that of an
enabled client with the id, or an enabled client has a policy on the channel.  The last two are what
the engine asks the store when the caches do not know. -/
def Confirms (s : Store) : Memo → Prop
  | .policy key p => s.policies.lookup key = some p
  | .client secret id =>
    ∃ c, s.clients.lookup id = some c ∧ c.secret = secret ∧ c.status = .enabled
  | .connection c => s.policies.contains ⟨c.client, c.channel⟩ = true ∧ s.Enabled c.client

end Store

/-- A policy that was added is there. -/
theorem Store.confirms_addPolicy {now : Timestamp} {s t : Store} {p : Policy}
    (h : s.answer now (.addPolicy p) = (.ok (), t)) : t.Confirms (.policy p.key p) := by
  have hwritten : s.written (s.addPolicy p) = (.ok (), t) := h
  unfold addPolicy at hwritten
  split at hwritten
  · cases hwritten
  · cases hwritten
    show (s.policies.insert p.key p).lookup p.key = some p
    rw [Table.lookup_insert, if_pos rfl]

/-- A policy that was amended is there as it was asked for, if it differs from the one before in
nothing that an update leaves. -/
theorem Store.confirms_updatePolicy {now : Timestamp} {s t : Store} {p old : Policy}
    (hold : s.policies.lookup p.key = some old) (hsame : amend old p = p)
    (h : s.answer now (.updatePolicy p) = (.ok (), t)) : t.Confirms (.policy p.key p) := by
  have hwritten : s.written (s.updatePolicy p) = (.ok (), t) := h
  unfold updatePolicy at hwritten
  split at hwritten
  · cases hwritten
    show (s.policies.modify p.key (amend · p)).lookup p.key = some p
    rw [Table.lookup_modify, if_pos rfl, hold, Option.map_some, hsame]
  · cases hwritten

namespace StoreCall

/-- Whether a call to the store makes an entry untrue when it is answered so.  The answer takes part
because a call that is refused changes nothing, and because the secret of a client that is disabled
is only known from what the store answers with. -/
def Withdraws : (c : StoreCall) → c.Reply → Memo → Prop
  | .updatePolicy p, .ok _, .policy key old => key = p.key ∧ old ≠ p
  | .deletePolicy key, .ok _, .policy key' _ => key' = key
  | .deletePolicy key, .ok _, .connection c => c = ⟨key.object, key.subject⟩
  | .setClientStatus id status, .ok (changed : Client), .client secret id' =>
    status ≠ .enabled ∧ id' = id ∧ secret = changed.secret
  | .setClientStatus id status, .ok _, .connection c => status ≠ .enabled ∧ c.client = id
  | _, _, _ => False

/-- The entries that a call to the store makes untrue when it is answered so. -/
def withdrawn (c : StoreCall) (reply : c.Reply) : Set Memo := {m | c.Withdraws reply m}

end StoreCall

/-! ## Calls to the store

One lemma says what becomes of a memo that a store confirms for each way in which a call may leave
the store, and `confirms_answer` puts them together.  Each goes by the three kinds of memos, and at
most two of these are about the table that the call has written to. -/

namespace Store

variable {s t : Store} {m : Memo}

/-- What is confirmed only depends on policies and clients. -/
theorem confirms_of_same (h : s.Confirms m) (hpolicies : t.policies = s.policies)
    (hclients : t.clients = s.clients) : t.Confirms m := by
  cases m with
  | policy | client | connection =>
      unfold Confirms at h ⊢
      simp only [Enabled, hpolicies, hclients] at h ⊢
      exact h

/-- A policy that is added takes no other's place. -/
theorem confirms_of_added (h : s.Confirms m) {p : Policy} (hfree : s.policies.lookup p.key = none) :
    ({ s with policies := s.policies.insert p.key p } : Store).Confirms m := by
  cases m with
  | policy key q => exact Table.lookup_insert_of_free hfree h
  | client => exact h
  | connection c => exact ⟨Table.contains_insert_iff.2 (Or.inr h.1), h.2⟩

/-- A policy that is amended differs from the one before, unless that was the same already. -/
theorem confirms_or_amended (h : s.Confirms m) (p : Policy) :
    ({ s with policies := s.policies.modify p.key (amend · p) } : Store).Confirms m ∨
      m ∈ (StoreCall.updatePolicy p).withdrawn (.ok ()) := by
  cases m with
  | policy key q =>
      by_cases hkey : key = p.key
      · subst hkey
        by_cases hq : q = p
        · left
          subst hq
          show (s.policies.modify q.key _).lookup q.key = some q
          rw [Table.lookup_modify, if_pos rfl, show s.policies.lookup q.key = some q from h]
          rfl
        · exact Or.inr ⟨rfl, hq⟩
      · left
        show (s.policies.modify p.key _).lookup key = some q
        rw [Table.lookup_modify, if_neg hkey]
        exact h
  | client => exact Or.inl h
  | connection c => exact Or.inl ⟨(Table.contains_modify _ _ _ _).trans h.1, h.2⟩

/-- A policy that is removed is withdrawn, and the connection with it. -/
theorem confirms_or_deleted (h : s.Confirms m) (key : PolicyKey) :
    ({ s with policies := s.policies.erase key } : Store).Confirms m ∨
      m ∈ (StoreCall.deletePolicy key).withdrawn (.ok ()) := by
  cases m with
  | policy key' q =>
      by_cases hkey : key' = key
      · exact Or.inr hkey
      · left
        show (s.policies.erase key).lookup key' = some q
        rw [Table.lookup_erase, if_neg hkey]
        exact h
  | client => exact Or.inl h
  | connection c =>
      by_cases hkey : (⟨c.client, c.channel⟩ : PolicyKey) = key
      · subst hkey
        exact Or.inr rfl
      · exact Or.inl ⟨(Table.contains_erase_of_ne hkey _).trans h.1, h.2⟩

/-- A new client takes a free id, so every client that was there is still there. -/
theorem confirms_of_registered (h : s.Confirms m) {c : Client}
    (hfree : s.clients.lookup c.id = none) :
    ({ s with clients := s.clients.insert c.id c } : Store).Confirms m := by
  cases m with
  | policy => exact h
  | client secret id =>
      obtain ⟨c', hc', hrest⟩ := h
      exact ⟨c', Table.lookup_insert_of_free hfree hc', hrest⟩
  | connection k =>
      obtain ⟨hpolicy, c', hc', henabled⟩ := h
      exact ⟨hpolicy, c', Table.lookup_insert_of_free hfree hc', henabled⟩

/-- An enabled client that keeps its status, or is another than the one whose status changes, stays
enabled and keeps its secret. -/
theorem exists_enabled_of_switched {now : Timestamp} {id id' : String} {status : Status}
    {old c : Client} (hold : s.clients.lookup id = some old) (hc : s.clients.lookup id' = some c)
    (henabled : c.status = .enabled) (hspared : status = .enabled ∨ id' ≠ id) :
    ∃ c', (s.clients.insert id { old with status, updatedAt := now }).lookup id' = some c' ∧
      c'.secret = c.secret ∧ c'.status = .enabled := by
  rw [Table.lookup_insert]
  by_cases hid : id' = id
  · subst hid
    rw [if_pos rfl]
    obtain rfl : old = c := Option.some.inj (hold.symm.trans hc)
    exact ⟨_, rfl, rfl, hspared.resolve_right fun hne => hne rfl⟩
  · rw [if_neg hid]
    exact ⟨c, hc, rfl, henabled⟩

/-- A client that is disabled is withdrawn, and all its connections with it. -/
theorem confirms_or_switched (h : s.Confirms m) (now : Timestamp) {id : String} (status : Status)
    {old : Client} (hold : s.clients.lookup id = some old) :
    ({ s with
        clients := s.clients.insert id { old with status, updatedAt := now } } : Store).Confirms m ∨
      m ∈ (StoreCall.setClientStatus id status).withdrawn
        (.ok { old with status, updatedAt := now }) := by
  cases m with
  | policy => exact Or.inl h
  | client secret id' =>
      obtain ⟨c, hc, hsecret, henabled⟩ := h
      -- a memo loses its ground only if its own client is disabled, and then it is withdrawn
      by_cases hspared : status = .enabled ∨ id' ≠ id
      · left
        obtain ⟨c', hc', hsecret', henabled'⟩ :=
          exists_enabled_of_switched hold hc henabled hspared
        exact ⟨c', hc', hsecret'.trans hsecret, henabled'⟩
      · right
        rw [not_or, not_ne_iff] at hspared
        obtain ⟨hstatus, rfl⟩ := hspared
        obtain rfl : old = c := Option.some.inj (hold.symm.trans hc)
        exact ⟨hstatus, rfl, hsecret.symm⟩
  | connection k =>
      obtain ⟨hpolicy, c, hc, henabled⟩ := h
      by_cases hspared : status = .enabled ∨ k.client ≠ id
      · left
        obtain ⟨c', hc', -, henabled'⟩ := exists_enabled_of_switched hold hc henabled hspared
        exact ⟨hpolicy, c', hc', henabled'⟩
      · right
        rw [not_or, not_ne_iff] at hspared
        exact hspared

/-- **A call to the store.**  What was confirmed before it is confirmed after it or was withdrawn
by it. -/
theorem confirms_answer {now : Timestamp} {c : StoreCall} (h : s.Confirms m) :
    (s.answer now c).2.Confirms m ∨ m ∈ c.withdrawn (s.answer now c).1 := by
  refine answer_cases (P := fun c reply t => t.Confirms m ∨ m ∈ c.withdrawn reply)
    ?kept ?added ?amended ?deleted ?registered ?switched c
  case kept => exact fun _ _ _ hpolicies hclients => Or.inl (confirms_of_same h hpolicies hclients)
  case added => exact fun _ hfree => Or.inl (confirms_of_added h hfree)
  case amended => exact fun p _ _ => confirms_or_amended h p
  case deleted => exact fun key _ _ => confirms_or_deleted h key
  case registered => exact fun _ hfree _ => Or.inl (confirms_of_registered h hfree)
  case switched => exact fun _ status _ hold => confirms_or_switched h now status hold

end Store

end Gatehouse
