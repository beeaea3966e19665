import Mathlib.Data.List.Induction
import Gatehouse.Proofs.Cache.Discipline

/-!
# Gatehouse.Proofs.Cache.Expiry — what caches answer after any history

The entries of the caches have deadlines, and look-ups drop those that have expired.  What is
answered can be told from the calls alone: a key has the value that the latest call on it has put,
if that was not too long ago and was not a removal (`CacheCall.LastPut`).  The clones of a cache are
names of one map, so their calls are one history.

* `Caches.recalls_answer` : what one call does to all that is recalled from then on.
* `Caches.recalls_after` : what is recalled after a history, by induction on its calls.
* `Caches.answers_latest` : the three look-ups, and that dropping expired entries is never noticed.

The statement of one call looks ahead: it says of an entry whether it will be recalled at any later
time, and so its deadline is part of it.  This makes a look-up that drops an expired entry a call
that changes nothing, since what has expired is not recalled later either (`TtlMap.peek_get`); times
that never go back are what this needs, and all that it needs.

Histories are lists to which calls are added at the end, so the induction is from the right, and the
rule for the latest call on a key has one lemma for a call that is added there
(`CacheCall.lastPut_append_singleton`).  The three caches are handled at once, by a key that says
which of them it belongs to.
-/

namespace Gatehouse

/-! ## Entries of a map -/

namespace TtlMap

open Std

variable {κ α : Type} [Ord κ] [DecidableEq κ] [LawfulEqOrd κ]

/-- An entry that a look-up drops has expired for good. -/
theorem peek_get (m : TtlMap κ α) {now later : Nat} (h : now ≤ later) (k k' : κ) :
    (m.get now k').2.peek later k = m.peek later k := by
  unfold get
  cases hpeek : m.peek now k' with
  | some a => rfl
  | none =>
      show TtlMap.peek ⟨m.ttl, m.entries.erase k'⟩ later k = m.peek later k
      by_cases hkey : k = k'
      · subst hkey
        unfold peek at hpeek ⊢
        rw [Table.lookup_erase, if_pos rfl]
        cases hentry : m.entries.lookup k with
        | none => rfl
        | some e =>
            have hdead : ¬ now < e.expiresAt := by
              intro hlive
              simp [hentry, CachedEntry.isLive, hlive] at hpeek
            have hstill : ¬ later < e.expiresAt := fun hlive => hdead (h.trans_lt hlive)
            simp [CachedEntry.isLive, hstill]
      · unfold peek
        rw [Table.lookup_erase, if_neg hkey]

theorem peek_insert_eq_some [TransOrd κ] (m : TtlMap κ α) (now later : Nat) (k k' : κ) (a a' : α) :
    (m.insert now k' a').peek later k = some a ↔
      (k' = k ∧ a' = a) ∧ later < now + m.ttl ∨ k ≠ k' ∧ m.peek later k = some a := by
  unfold peek insert
  dsimp only
  rw [Table.lookup_insert]
  by_cases hkey : k = k'
  · simp [hkey, CachedEntry.isLive, and_comm]
  · simp [hkey, Ne.symm hkey]

theorem peek_removeWhere_eq_some (m : TtlMap κ α) (later : Nat) (p : κ → Bool) (k : κ) (a : α) :
    (m.removeWhere p).peek later k = some a ↔ p k = false ∧ m.peek later k = some a := by
  unfold peek removeWhere
  dsimp only
  rw [Table.lookup_eraseWhere]
  cases p k <;> cases m.entries.lookup k <;> simp [Option.filter]

theorem peek_remove_eq_some (m : TtlMap κ α) (later : Nat) (k k' : κ) (a : α) :
    (m.remove k').peek later k = some a ↔ k ≠ k' ∧ m.peek later k = some a := by
  refine (m.peek_removeWhere_eq_some later (fun other => other = k') k a).trans ?_
  rw [decide_eq_false_iff_not]

end TtlMap

/-! ## Keys -/

/-- A key of one of the three caches. -/
inductive CacheKey where
  | policy (key : PolicyKey)
  | client (secret : String)
  | connection (c : Connection)

/-- The key of an entry. -/
def Memo.key : Memo → CacheKey
  | policy key _ => .policy key
  | client secret _ => .client secret
  | connection c => .connection c

namespace CacheCall

/-- Whether a call inserts or removes a key. -/
def Touches : CacheCall → CacheKey → Prop
  | putPolicy p, .policy key => key = p.key
  | removePolicy key', .policy key => key = key'
  | putClient secret' _, .client secret => secret = secret'
  | removeClient secret', .client secret => secret = secret'
  | connect c', .connection c => c = c'
  | disconnect c', .connection c => c = c'
  | disconnectAll client, .connection c => c.client = client
  | _, _ => False

theorem touches_of_put? {call : CacheCall} {m : Memo} (h : call.put? = some m) :
    call.Touches m.key := by
  cases call with
  | putPolicy | putClient | connect =>
      cases h
      rfl
  | policy | removePolicy | clientOf | removeClient | isConnected | disconnect
  | disconnectAll => cases h

theorem not_touches_of_isLookup {call : CacheCall} (h : call.isLookup = true) (key : CacheKey) :
    ¬ call.Touches key := by
  cases call with
  | policy | clientOf | isConnected => exact id
  | putPolicy | removePolicy | putClient | removeClient | connect | disconnect
  | disconnectAll => cases h

/-- Whether the latest call of a history that inserts or removes the key of an entry puts the entry,
and at which time. -/
def LastPut (calls : List (Nat × CacheCall)) (m : Memo) (time : Nat) : Prop :=
  ∃ before call after, calls = before ++ (time, call) :: after ∧ call.put? = some m ∧
    ∀ later ∈ after, ¬ later.2.Touches m.key

variable {calls : List (Nat × CacheCall)} {m : Memo} {time : Nat}

theorem not_lastPut_nil : ¬ LastPut [] m time := by
  rintro ⟨before, call, after, hcalls, -⟩
  simp at hcalls

theorem lastPut_append_singleton {x : Nat × CacheCall} : LastPut (calls ++ [x]) m time ↔
    x.1 = time ∧ x.2.put? = some m ∨ ¬ x.2.Touches m.key ∧ LastPut calls m time := by
  constructor
  · rintro ⟨before, call, after, hcalls, hput, huntouched⟩
    rcases List.eq_nil_or_concat after with rfl | ⟨after, last, rfl⟩
    · obtain ⟨-, hlast⟩ := List.append_inj' hcalls rfl
      cases hlast
      exact Or.inl ⟨rfl, hput⟩
    · rw [List.concat_eq_append] at hcalls huntouched
      rw [← List.cons_append, ← List.append_assoc] at hcalls
      obtain ⟨hinit, hlast⟩ := List.append_inj' hcalls rfl
      cases hlast
      refine Or.inr ⟨huntouched x (by simp), before, call, after, hinit, hput, ?_⟩
      exact fun later hlater => huntouched later (List.mem_append_left _ hlater)
  · rintro (⟨rfl, hput⟩ | ⟨hlast, before, call, after, rfl, hput, huntouched⟩)
    · exact ⟨calls, x.2, [], rfl, hput, List.forall_mem_nil _⟩
    · refine ⟨before, call, after ++ [x], by simp, hput, ?_⟩
      exact List.forall_mem_append.2 ⟨huntouched, List.forall_mem_singleton.2 hlast⟩

/-- The look-ups of a history tell nothing about what was put. -/
theorem lastPut_filter (calls : List (Nat × CacheCall)) :
    LastPut (calls.filter fun x => !x.2.isLookup) m time ↔ LastPut calls m time := by
  induction calls using List.reverseRecOn with
  | nil => exact Iff.rfl
  | append_singleton calls x ih =>
      rw [List.filter_append, lastPut_append_singleton]
      cases hlookup : x.2.isLookup with
      | false =>
          rw [List.filter_cons_of_pos (by simp [hlookup]), List.filter_nil,
            lastPut_append_singleton, ih]
      | true =>
          have hno := not_touches_of_isLookup hlookup m.key
          have hput : x.2.put? ≠ some m := fun hput => hno (touches_of_put? hput)
          rw [List.filter_cons_of_neg (by simp [hlookup]), List.filter_nil, List.append_nil, ih]
          simp [hno, hput]

end CacheCall

/-! ## The caches -/

namespace Caches

/-- How long the entry under a key lasts. -/
def lifetime (s : Caches) : CacheKey → Nat
  | .policy _ => s.policies.ttl
  | .client _ => s.clients.ttl
  | .connection _ => s.connections.ttl

/-- The caches after calls that were made one after the other, each at its time. -/
def after (s : Caches) (calls : List (Nat × CacheCall)) : Caches :=
  calls.foldl (fun s x => (s.answer x.1 x.2).2) s

theorem after_append_singleton (s : Caches) (calls : List (Nat × CacheCall)) (x : Nat × CacheCall) :
    s.after (calls ++ [x]) = ((s.after calls).answer x.1 x.2).2 :=
  List.foldl_append

theorem not_recalls_empty (a b c now : Nat) (m : Memo) : ¬ (empty a b c).Recalls now m :=
  fun h => not_holds_empty a b c m (holds_of_recalls now h)

/-- **One call.**  From then on an entry is recalled if the call has put it and it lasts, or if it
would have been recalled before and the call does not touch its key. -/
theorem recalls_answer (s : Caches) {now later : Nat} (h : now ≤ later) (call : CacheCall)
    (m : Memo) : (s.answer now call).2.Recalls later m ↔
      call.put? = some m ∧ later < now + s.lifetime m.key ∨
        ¬ call.Touches m.key ∧ s.Recalls later m := by
  -- the three caches are apart, and a look-up makes no difference
  have hapart : ∀ {P Q : Prop}, ¬ call.Touches m.key → (P ↔ Q) →
      (P ↔ call.put? = some m ∧ later < now + s.lifetime m.key ∨ ¬ call.Touches m.key ∧ Q) := by
    intro P Q huntouched hiff
    have hput : call.put? ≠ some m := fun hput => huntouched (CacheCall.touches_of_put? hput)
    simp only [hput, huntouched, false_and, false_or, not_false_eq_true, true_and, hiff]
  cases m with
  | policy key p =>
      cases call with
      | policy key' =>
          have hget := s.policies.peek_get h key key'
          exact hapart id (Iff.of_eq (congrArg (· = some p) hget))
      | putPolicy q =>
          refine (s.policies.peek_insert_eq_some now later key q.key p q).trans ?_
          simp [CacheCall.put?, CacheCall.Touches, lifetime, Memo.key, Recalls]
      | removePolicy key' =>
          refine (s.policies.peek_remove_eq_some later key key' p).trans ?_
          simp [CacheCall.put?, CacheCall.Touches, Memo.key, Recalls]
      | clientOf | putClient | removeClient | isConnected | connect | disconnect
      | disconnectAll => exact hapart id Iff.rfl
  | client secret found =>
      cases call with
      | clientOf secret' =>
          have hget := s.clients.peek_get h secret secret'
          exact hapart id (Iff.of_eq (congrArg (· = some found) hget))
      | putClient secret' put =>
          refine (s.clients.peek_insert_eq_some now later secret secret' found put).trans ?_
          simp [CacheCall.put?, CacheCall.Touches, lifetime, Memo.key, Recalls]
      | removeClient secret' =>
          refine (s.clients.peek_remove_eq_some later secret secret' found).trans ?_
          simp [CacheCall.put?, CacheCall.Touches, Memo.key, Recalls]
      | policy | putPolicy | removePolicy | isConnected | connect | disconnect
      | disconnectAll => exact hapart id Iff.rfl
  | connection c =>
      cases call with
      | isConnected c' =>
          have hget := s.connections.peek_get h c c'
          exact hapart id (Iff.of_eq (congrArg (· = some ()) hget))
      | connect c' =>
          refine (s.connections.peek_insert_eq_some now later c c' () ()).trans ?_
          simp [CacheCall.put?, CacheCall.Touches, lifetime, Memo.key, Recalls]
      | disconnect c' =>
          refine (s.connections.peek_remove_eq_some later c c' ()).trans ?_
          simp [CacheCall.put?, CacheCall.Touches, Memo.key, Recalls]
      | disconnectAll client =>
          refine (s.connections.peek_removeWhere_eq_some later _ c ()).trans ?_
          simp [CacheCall.put?, CacheCall.Touches, Memo.key, Recalls]
      | policy | putPolicy | removePolicy | clientOf | putClient | removeClient =>
          exact hapart id Iff.rfl

theorem lifetime_after (s : Caches) (calls : List (Nat × CacheCall)) (key : CacheKey) :
    (s.after calls).lifetime key = s.lifetime key := by
  induction calls using List.reverseRecOn with
  | nil => rfl
  | append_singleton calls x ih =>
      rw [after_append_singleton, ← ih]
      obtain ⟨hpolicies, hclients, hconnections⟩ := (s.after calls).ttl_answer x.1 x.2
      cases key with
      | policy => exact hpolicies
      | client => exact hclients
      | connection => exact hconnections

/-- **A history.**  An entry is recalled if the latest call on its key has put it, and it lasts. -/
theorem recalls_after (a b c : Nat) (calls : List (Nat × CacheCall)) {later : Nat}
    (h : (calls.map Prod.fst ++ [later]).Pairwise (· ≤ ·)) (m : Memo) :
    ((empty a b c).after calls).Recalls later m ↔
      ∃ time, CacheCall.LastPut calls m time ∧ later < time + (empty a b c).lifetime m.key := by
  induction calls using List.reverseRecOn with
  | nil =>
      refine iff_of_false (not_recalls_empty a b c later m) ?_
      rintro ⟨time, hnil, -⟩
      exact CacheCall.not_lastPut_nil hnil
  | append_singleton calls x ih =>
      rw [List.map_append, List.append_assoc, List.pairwise_append] at h
      -- the last call came before now, and those before it came before it
      have hx : x.1 ≤ later := by simpa using h.2.1
      have hbefore : (calls.map Prod.fst ++ [later]).Pairwise (· ≤ ·) := by
        refine List.pairwise_append.2 ⟨h.1, List.pairwise_singleton _ _, ?_⟩
        exact fun time htime y hy => h.2.2 time htime y (List.mem_append_right _ hy)
      rw [after_append_singleton, recalls_answer _ hx, lifetime_after, ih hbefore]
      simp only [CacheCall.lastPut_append_singleton]
      constructor
      · rintro (⟨hput, hlasts⟩ | ⟨huntouched, time, hlast, hlasts⟩)
        · exact ⟨x.1, Or.inl ⟨rfl, hput⟩, hlasts⟩
        · exact ⟨time, Or.inr ⟨huntouched, hlast⟩, hlasts⟩
      · rintro ⟨time, ⟨rfl, hput⟩ | ⟨huntouched, hlast⟩, hlasts⟩
        · exact Or.inl ⟨hput, hlasts⟩
        · exact Or.inr ⟨huntouched, time, hlast, hlasts⟩

/-- What is answered depends on what is recalled. -/
theorem answer_eq_of_recalls {s t : Caches} {now : Nat}
    (h : ∀ m, s.Recalls now m ↔ t.Recalls now m) (call : CacheCall) :
    (s.answer now call).1 = (t.answer now call).1 := by
  cases call with
  | policy key =>
      refine (s.policies.get_fst now key).trans (.trans ?_ (t.policies.get_fst now key).symm)
      exact Option.ext fun p => h (.policy key p)
  | clientOf secret =>
      refine (s.clients.get_fst now secret).trans (.trans ?_ (t.clients.get_fst now secret).symm)
      exact Option.ext fun id => h (.client secret id)
  | isConnected c =>
      refine congrArg Option.isSome ((s.connections.get_fst now c).trans
        (.trans ?_ (t.connections.get_fst now c).symm))
      exact Option.ext fun _ => h (.connection c)
  | putPolicy | removePolicy | putClient | removeClient | connect | disconnect
  | disconnectAll => rfl

/-- **Expiring maps.**  Calls are made to empty caches one after the other, at times that never go
back.  Then a policy is found under a key, a client under a secret, or a connection, at no earlier
time, if and only if the latest call that inserted or removed this key was one that put this very
entry, and its time to live has not passed since; `disconnectAll` counts as a removal for each
connection of the client and for no other.  And whether the look-ups among these calls dropped what
had expired makes no difference: without them every call would be answered the same. -/
theorem answers_latest (policyTtl clientTtl connectionTtl : Nat) (calls : List (Nat × CacheCall))
    (now : Nat) (h : (calls.map Prod.fst ++ [now]).Pairwise (· ≤ ·)) :
    let start := empty policyTtl clientTtl connectionTtl
    let s := start.after calls
    (∀ key p, (s.answer now (.policy key)).1 = some p ↔
      ∃ time, CacheCall.LastPut calls (.policy key p) time ∧ now < time + policyTtl) ∧
    (∀ secret id, (s.answer now (.clientOf secret)).1 = some id ↔
      ∃ time, CacheCall.LastPut calls (.client secret id) time ∧ now < time + clientTtl) ∧
    (∀ c, (s.answer now (.isConnected c)).1 = true ↔
      ∃ time, CacheCall.LastPut calls (.connection c) time ∧ now < time + connectionTtl) ∧
    ∀ call, (s.answer now call).1 =
      ((start.after (calls.filter fun x => !x.2.isLookup)).answer now call).1 := by
  intro start s
  have hrecalls := recalls_after policyTtl clientTtl connectionTtl calls h
  refine ⟨?_, ?_, ?_, ?_⟩
  · intro key p
    refine (Iff.of_eq (congrArg (· = some p) (s.policies.get_fst now key))).trans ?_
    exact hrecalls (.policy key p)
  · intro secret id
    refine (Iff.of_eq (congrArg (· = some id) (s.clients.get_fst now secret))).trans ?_
    exact hrecalls (.client secret id)
  · intro c
    refine (Iff.of_eq (congrArg (·.isSome = true) (s.connections.get_fst now c))).trans ?_
    rw [Option.isSome_iff_exists]
    refine Iff.trans ⟨?_, ?_⟩ (hrecalls (.connection c))
    · rintro ⟨_, hfound⟩
      exact hfound
    · exact fun hfound => ⟨(), hfound⟩
  · refine answer_eq_of_recalls fun m => (hrecalls m).trans ?_
    -- without the look-ups the times are still in order, and the last puts are the same
    have hwithout : ((calls.filter fun x => !x.2.isLookup).map Prod.fst ++ [now]).Pairwise
        (· ≤ ·) :=
      h.sublist ((List.filter_sublist.map _).append_right _)
    rw [recalls_after policyTtl clientTtl connectionTtl _ hwithout]
    simp only [CacheCall.lastPut_filter]

/-- The right of a user to an action on a meter. -/
def metering (action : String) : Policy :=
  ⟨"owner", "user", "meter", [action], ⟨0, 0⟩, ⟨0, 0⟩, "owner"⟩

/-- A policy is looked up in the very moment in which it expires, and another one takes its place
later; of two clients that were connected to a channel one is removed. -/
def renewal : List (Nat × CacheCall) :=
  [(0, .putPolicy (metering "m_read")), (10, .policy ⟨"user", "meter"⟩),
    (12, .putPolicy (metering "m_write")), (12, .connect ⟨"channel", "pump"⟩),
    (12, .connect ⟨"channel", "lamp"⟩), (13, .disconnectAll "pump")]

/-- With ten nanoseconds to live, the new policy is there nine nanoseconds after it was put and not
ten after, and so is the connection of the client that was not removed. -/
theorem answers_latest_of_renewal :
    let s := (empty 10 10 10).after renewal
    (s.answer 21 (.policy ⟨"user", "meter"⟩)).1 = some (metering "m_write") ∧
    (s.answer 21 (.isConnected ⟨"channel", "lamp"⟩)).1 = true ∧
    ¬ (∃ time, CacheCall.LastPut renewal (.connection ⟨"channel", "pump"⟩) time ∧ 21 < time + 10) ∧
    ¬ ∃ time, CacheCall.LastPut renewal (.policy ⟨"user", "meter"⟩ (metering "m_write")) time ∧
      22 < time + 10 := by
  intro s
  obtain ⟨hpolicies, -, hconnections, -⟩ := answers_latest 10 10 10 renewal 21 (by decide)
  obtain ⟨hpolicies', -⟩ := answers_latest 10 10 10 renewal 22 (by decide)
  refine ⟨(hpolicies _ _).2 ⟨12, ?_, by decide⟩, (hconnections _).2 ⟨12, ?_, by decide⟩, ?_, ?_⟩
  · refine ⟨renewal.take 2, _, renewal.drop 3, rfl, rfl, ?_⟩
    simp [renewal, CacheCall.Touches, Memo.key]
  · refine ⟨renewal.take 4, _, renewal.drop 5, rfl, rfl, ?_⟩
    simp [renewal, CacheCall.Touches, Memo.key]
  · rw [← hconnections]
    show ¬ (s.connections.get 21 ⟨"channel", "pump"⟩).1.isSome = true
    decide +kernel
  · rw [← hpolicies']
    show ¬ (s.policies.get 22 ⟨"user", "meter"⟩).1 = some (metering "m_write")
    decide +kernel

end Caches

end Gatehouse
