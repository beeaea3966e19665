import Gatehouse.Proofs.Sql.Filter
import Gatehouse.Proofs.Store.Writes

/-!
# Gatehouse.Proofs.Sql.Twin — a store in memory beside one that a database keeps

Both stores are given the same calls.  As long as what is to be added is added to both or to none of
them (`Paired`), they hold the same: the values in memory are those of the tables, but for the time
at which a status was set, which each store takes from its own clock (`Dates`).

`Twin` is this relation, one table at a time, between a store in memory and the contents of the
tables.  `Twin.alike` and `Twin.save` say what one call does to it, and `Paired.twin` that it holds
at any time.
-/

namespace Gatehouse.Sql

open Gatehouse.Time

/-! ## Dates

A value may have a date of its own under its key, which then stands in the place of the date that it
has. -/

section Dated

variable {α : Type} (key : α → String) (stamp : Timestamp → α → α)

/-- A value with the date under its key, if there is one. -/
def dated (dates : String → Option Timestamp) (a : α) : α :=
  match dates (key a) with
  | some time => stamp time a
  | none => a

/-- Dates after one of them has been set. -/
def setDate (dates : String → Option Timestamp) (k : String) (time : Timestamp) :
    String → Option Timestamp :=
  fun k' => if k' = k then some time else dates k'

/-- Whether a list has the values of a table but for some dates, which are those of values that are
there. -/
structure Dated (dates : String → Option Timestamp) (t : Table String α) (as : List α) : Prop where
  key_stamp : ∀ time a, key (stamp time a) = key a
  copy : Copy key (dated key stamp dates) t as
  stored : ∀ k, t.lookup k = none → dates k = none

variable {key stamp} {dates : String → Option Timestamp} {t : Table String α} {as : List α}

/-- What a date does not change is as it was. -/
theorem apply_dated {β : Type} {f : α → β} (h : ∀ time a, f (stamp time a) = f a) (a : α) :
    f (dated key stamp dates a) = f a := by
  rw [dated]
  split
  · exact h _ a
  · rfl

theorem dated_of_none {a : α} (h : dates (key a) = none) : dated key stamp dates a = a := by
  rw [dated, h]

theorem Dated.empty (hkey : ∀ time a, key (stamp time a) = key a) :
    Dated key stamp (fun _ => none) ∅ [] :=
  ⟨hkey, Copy.empty (apply_dated hkey), fun _ _ => rfl⟩

/-- A value that is added is without a date of its own. -/
theorem Dated.insert (h : Dated key stamp dates t as) {a : α} (hfree : t.lookup (key a) = none) :
    Dated key stamp dates (t.insert (key a) a) (as ++ [a]) := by
  refine ⟨h.key_stamp, h.copy.insert hfree (dated_of_none (h.stored _ hfree)), ?_⟩
  intro k hk
  rw [Table.lookup_insert] at hk
  split at hk
  · cases hk
  · exact h.stored k hk

variable (key stamp) in
/-- Whether a change at a time leaves a value with that time for its date and with its key. -/
structure Redates (change : Timestamp → α → α) : Prop where
  key_change : ∀ time a, key (change time a) = key a
  stamp_change : ∀ time time' a, stamp time (change time' a) = change time a
  change_stamp : ∀ time time' a, change time (stamp time' a) = change time a

section Change

variable {change : Timestamp → α → α}

/-- A value that was changed here at one time and there at another has the date of the latter. -/
theorem dated_change (hc : Redates key stamp change) (a : α) (here there : Timestamp) :
    dated key stamp (setDate dates (key a) there) (change here a) =
      change there (dated key stamp dates a) := by
  have hset : setDate dates (key a) there (key (change here a)) = some there := by
    rw [hc.key_change]
    exact if_pos rfl
  rw [dated, hset, dated]
  show stamp there (change here a) = _
  rw [hc.stamp_change]
  split
  · exact (hc.change_stamp _ _ a).symm
  · rfl

/-- The dates after what is under a key was changed at a time, if it is there. -/
def datesAfter (dates : String → Option Timestamp) (t : Table String α) (k : String)
    (time : Timestamp) : String → Option Timestamp :=
  if t.contains k then setDate dates k time else dates

theorem datesAfter_of_none {k : String} (h : t.lookup k = none) (time : Timestamp) :
    datesAfter dates t k time = dates := by
  rw [datesAfter, Table.contains, h]
  rfl

theorem datesAfter_of_some {k : String} {a : α} (h : t.lookup k = some a) (time : Timestamp) :
    datesAfter dates t k time = setDate dates k time := by
  rw [datesAfter, Table.contains, h]
  rfl

/-- What is under a key is changed in the table at one time and in the list at another. -/
theorem Dated.set (h : Dated key stamp dates t as) (hc : Redates key stamp change) (k : String)
    (here there : Timestamp) :
    Dated key stamp (datesAfter dates t k there) (t.modify k (change here))
      (as.map fun a => if key a = k then change there a else a) := by
  cases hk : t.lookup k with
  -- nothing changes, neither here nor there
  | none =>
      rw [datesAfter_of_none hk, Table.modify_of_free _ hk, h.copy.map_of_free hk]
      exact h
  | some old =>
      rw [datesAfter_of_some hk]
      refine ⟨h.key_stamp, ?_, ?_⟩
      · refine h.copy.modify k (hc.key_change here) (apply_dated h.key_stamp) ?_ ?_
        · rintro a rfl
          exact (dated_change hc a here there).symm
        · intro a ha
          have hsame : setDate dates k there (key a) = dates (key a) := if_neg ha
          rw [dated, dated, hsame]
      · intro k' hk'
        have hne : k' ≠ k := by
          rintro rfl
          rw [Table.lookup_modify, if_pos rfl, hk] at hk'
          cases hk'
        rw [Table.lookup_modify, if_neg hne] at hk'
        exact (if_neg hne).trans (h.stored k' hk')

/-- What was changed under a key, there and here. -/
theorem Dated.map_change (h : Dated key stamp dates t as) (hc : Redates key stamp change)
    (k : String) (here there : Timestamp) :
    ((t.lookup k).map (dated key stamp dates)).map (change there) =
      ((t.lookup k).map (change here)).map (dated key stamp (datesAfter dates t k there)) := by
  cases hk : t.lookup k with
  | none => rfl
  | some old =>
      obtain rfl := h.copy.keyed hk
      rw [datesAfter_of_some hk]
      exact congrArg some (dated_change hc old here there).symm

end Change

end Dated

/-- A client with another date. -/
def stampClient (time : Timestamp) (c : Client) : Client := { c with updatedAt := time }

/-- A group with another date. -/
def stampGroup (time : Timestamp) (g : Group) : Group := { g with updatedAt := time }

/-- A client with another status, set at a time. -/
def switchClient (status : Status) (time : Timestamp) (c : Client) : Client :=
  { c with status, updatedAt := time }

/-- A group with another status, set at a time. -/
def switchGroup (status : Status) (time : Timestamp) (g : Group) : Group :=
  { g with status, updatedAt := time }

theorem redates_switchClient (status : Status) :
    Redates Client.id stampClient (switchClient status) :=
  ⟨fun _ _ => rfl, fun _ _ _ => rfl, fun _ _ _ => rfl⟩

theorem redates_switchGroup (status : Status) : Redates Group.id stampGroup (switchGroup status) :=
  ⟨fun _ _ => rfl, fun _ _ _ => rfl, fun _ _ _ => rfl⟩

/-- The times at which a database last set the statuses of clients and of groups. -/
structure Dates where
  clients : String → Option Timestamp
  groups : String → Option Timestamp

namespace Dates

/-- No status was ever set. -/
def unset : Dates := ⟨fun _ => none, fun _ => none⟩

/-- A client with the time at which its status was set, if it was. -/
def client (d : Dates) : Client → Client := dated Client.id stampClient d.clients

/-- A group with the time at which its status was set, if it was. -/
def group (d : Dates) : Group → Group := dated Group.id stampGroup d.groups

/-- The dates after a call to a database at a time; only of what is stored the status is set. -/
def after (d : Dates) (now : Timestamp) (s : Store) : StoreCall → Dates
  | .setClientStatus id _ => { d with clients := datesAfter d.clients s.clients id now }
  | .setGroupStatus id _ => { d with groups := datesAfter d.groups s.groups id now }
  | _ => d

/-- What a store in memory answers, as it is read back from a database. -/
def readBack (d : Dates) : (c : StoreCall) → c.Value → c.Value
  | .policy _, (p : Option Policy) => p.map Policy.kept
  | .policiesOf _, (ps : List Policy) => ps.map Policy.kept
  | .policyPage _, (page : PolicyPage) => page.kept
  | .client _, (c : Option Client) => c.map fun c => (d.client c).kept
  | .clientBySecret _, (c : Option Client) => c.map fun c => (d.client c).kept
  | .setClientStatus _ _, (c : Client) => (d.client c).kept
  | .group _, (g : Option Group) => g.map fun g => (d.group g).kept
  | .groups, (gs : List Group) => gs.map fun g => (d.group g).kept
  | .setGroupStatus _ _, (g : Group) => (d.group g).kept
  | .addPolicy _, u | .updatePolicy _, u | .deletePolicy _, u => u
  | .addClient _, u | .addGroup _, u => u

end Dates

/-! ## Changes in memory

What a store in memory does with what may be there, in one equation: nothing happens to a table that
does not have it. -/

section Changes

variable (now : Timestamp) (s : Store)

/-- A policy is amended if it is there. -/
theorem answer_updatePolicy (p : Policy) : s.answer now (.updatePolicy p) =
    (Contents.changed ((s.policies.lookup p.key).map fun _ => ()),
      { s with policies := s.policies.modify p.key (Store.amend · p) }) := by
  cases hp : s.policies.lookup p.key with
  | none =>
      simp only [Store.answer, Store.updatePolicy, Table.contains, hp, Table.modify_of_free]
      rfl
  | some old =>
      simp only [Store.answer, Store.updatePolicy, Table.contains, hp]
      rfl

/-- A policy is removed if it is there. -/
theorem answer_deletePolicy (key : PolicyKey) : s.answer now (.deletePolicy key) =
    (Contents.changed ((s.policies.lookup key).map fun _ => ()),
      { s with policies := s.policies.erase key }) := by
  cases hp : s.policies.lookup key with
  | none =>
      simp only [Store.answer, Store.deletePolicy, Table.contains, hp, Table.erase_of_free]
      rfl
  | some old =>
      simp only [Store.answer, Store.deletePolicy, Table.contains, hp]
      rfl

/-- The status of a client is set if it is there. -/
theorem answer_setClientStatus (id : String) (status : Status) :
    s.answer now (.setClientStatus id status) =
      (Contents.changed ((s.clients.lookup id).map (switchClient status now)),
        { s with clients := s.clients.modify id (switchClient status now) }) := by
  cases hc : s.clients.lookup id with
  | none =>
      simp only [Store.answer, Store.setClientStatus, hc, Table.modify_of_free]
      rfl
  | some old =>
      rw [← Table.insert_eq_modify _ hc]
      simp only [Store.answer, Store.setClientStatus, hc]
      rfl

/-- The status of a group is set if it is there. -/
theorem answer_setGroupStatus (id : String) (status : Status) :
    s.answer now (.setGroupStatus id status) =
      (Contents.changed ((s.groups.lookup id).map (switchGroup status now)),
        { s with groups := s.groups.modify id (switchGroup status now) }) := by
  cases hg : s.groups.lookup id with
  | none =>
      simp only [Store.answer, Store.setGroupStatus, hg, Table.modify_of_free]
      rfl
  | some old =>
      rw [← Table.insert_eq_modify _ hg]
      simp only [Store.answer, Store.setGroupStatus, hg]
      rfl

end Changes

/-! ## Twins -/

/-- Whether a store in memory and the tables of another hold the same but for some dates. -/
structure Twin (d : Dates) (s : Store) (k : Contents) : Prop where
  policies : Copy Policy.key id s.policies k.policies
  clients : Dated Client.id stampClient d.clients s.clients k.clients
  groups : Dated Group.id stampGroup d.groups s.groups k.groups

theorem twin_empty : Twin .unset ∅ ⟨[], [], []⟩ :=
  ⟨Copy.empty fun _ => rfl, Dated.empty fun _ _ => rfl, Dated.empty fun _ _ => rfl⟩

namespace Twin

variable {d : Dates} {s : Store} {k : Contents} {here there : Timestamp}
  {refused : Option DatabaseError}

/-! ### Reading -/

/-- A policy is found in either store under its key. -/
theorem find?_policy (h : Twin d s k) (key : PolicyKey) :
    k.policies.find? (·.key = key) = s.policies.lookup key := by
  rw [h.policies.find?_key, Option.map_id]
  rfl

/-- A client is found in either store under its id, with the date that it has there. -/
theorem find?_client (h : Twin d s k) (id : String) :
    k.clients.find? (·.id = id) = (s.clients.lookup id).map d.client :=
  h.clients.copy.find?_key id

/-- A group is found in either store under its id, with the date that it has there. -/
theorem find?_group (h : Twin d s k) (id : String) :
    k.groups.find? (·.id = id) = (s.groups.lookup id).map d.group :=
  h.groups.copy.find?_key id

/-- No secret belongs to two clients, so the one with a secret is the same in both stores. -/
theorem find?_secret (h : Twin d s k) (hs : s.Sound) (secret : String) :
    k.clients.find? (·.secret = secret) = (s.clientBySecret secret).map d.client := by
  have hsecret : ∀ c, (d.client c).secret = c.secret :=
    apply_dated (f := Client.secret) fun _ _ => rfl
  have hform : ∀ c, decide ((d.client c).secret = secret) = decide (c.secret = secret) :=
    fun c => by rw [hsecret]
  refine h.clients.copy.find?_eq hform ?_
  intro a ha b hb hasecret hbsecret
  obtain ⟨ida, ha⟩ := Table.mem_values.1 ha
  obtain ⟨idb, hb⟩ := Table.mem_values.1 hb
  have hsecret : a.secret = b.secret :=
    (of_decide_eq_true hasecret).trans (of_decide_eq_true hbsecret).symm
  rw [hs.secret_unique ha hb hsecret, hb] at ha
  exact (Option.some.inj ha).symm

/-- The policies of one subject are in the order of their objects. -/
theorem inOrder_policiesOf (h : Twin d s k) (subject : String) :
    inOrder (·.object) (k.policies.filter (·.subject = subject)) = s.policiesOf subject := by
  have hsorted : (s.policies.values.filter (·.subject = subject)).Pairwise fun p p' =>
      compare p.object p'.object = .lt := by
    refine (h.policies.pairwise_values.sublist List.filter_sublist).imp_of_mem ?_
    intro p p' hp hp' hlt
    have hsubject := of_decide_eq_true (List.mem_filter.1 hp).2
    have hsubject' := of_decide_eq_true (List.mem_filter.1 hp').2
    change (compare p.subject p'.subject).then (compare p.object p'.object) = .lt at hlt
    have hself : compare subject subject = .eq := Std.ReflCmp.compare_self
    rwa [hsubject, hsubject', hself] at hlt
  rw [h.policies.inOrder_filter (fun _ => rfl) (fun _ => rfl) hsorted, List.map_id]
  rfl

/-- The groups of either store are listed in the order of their ids. -/
theorem inOrder_groups (h : Twin d s k) :
    inOrder (·.id) k.groups = s.groups.values.map d.group := by
  refine inOrder_eq_of_perm h.groups.copy.perm ?_
  have hid : ∀ g, (d.group g).id = g.id := h.groups.copy.key_form
  rw [List.pairwise_map]
  simp only [hid]
  exact h.groups.copy.pairwise_values

/-- A call that reads has the same answer in both stores. -/
theorem read (h : Twin d s k) (hs : s.Built) {c : StoreCall} (hread : c.isRead = true) :
    (k.answer there refused c).1 = (s.answer here c).1.map (d.readBack c) := by
  cases c with
  | policy key =>
      have hfound := congrArg (Option.map Policy.kept) (h.find?_policy key)
      exact congrArg Except.ok hfound
  | policiesOf subject =>
      have hlisted := congrArg (List.map Policy.kept) (h.inOrder_policiesOf subject)
      exact congrArg Except.ok hlisted
  | policyPage q =>
      have hperm : k.policies.Perm s.policies.values := by
        have hperm := h.policies.perm
        rwa [List.map_id] at hperm
      -- the pages are those of the same policies, which only stand in another order
      exact congrArg Except.ok (pageOf_eq hs hperm q)
  | client id =>
      have hfound : (k.clients.find? (·.id = id)).map Client.kept =
          (s.clients.lookup id).map fun c => (d.client c).kept := by
        rw [h.find?_client, Option.map_map]
        rfl
      exact congrArg Except.ok hfound
  | clientBySecret secret =>
      have hfound : (k.clients.find? (·.secret = secret)).map Client.kept =
          (s.clientBySecret secret).map fun c => (d.client c).kept := by
        rw [h.find?_secret hs.sound, Option.map_map]
        rfl
      exact congrArg Except.ok hfound
  | group id =>
      have hfound : (k.groups.find? (·.id = id)).map Group.kept =
          (s.groups.lookup id).map fun g => (d.group g).kept := by
        rw [h.find?_group, Option.map_map]
        rfl
      exact congrArg Except.ok hfound
  | groups =>
      have hlisted : (inOrder (·.id) k.groups).map Group.kept =
          s.groups.values.map fun g => (d.group g).kept := by
        rw [h.inOrder_groups, List.map_map]
        rfl
      exact congrArg Except.ok hlisted
  | addPolicy | updatePolicy | deletePolicy | addClient | setClientStatus | addGroup
  | setGroupStatus => cases hread

/-! ### Writing -/

/-- What is said of a call to both stores: it has the same answer, and twins are left. -/
def Alike (d : Dates) (s : Store) (k : Contents) (here there : Timestamp)
    (refused : Option DatabaseError) (c : StoreCall) : Prop :=
  (k.answer there refused c).1 = (s.answer here c).1.map ((d.after there s c).readBack c) ∧
    Twin (d.after there s c) (s.answer here c).2 (k.answer there refused c).2

theorem alike_updatePolicy (h : Twin d s k) (p : Policy) :
    Alike d s k here there refused (.updatePolicy p) := by
  have hreply : (k.answer there refused (.updatePolicy p)).1 =
      Contents.changed ((s.policies.lookup p.key).map fun _ => ()) :=
    congrArg (fun found => Contents.changed (Option.map _ found)) (h.find?_policy p.key)
  have hpolicies : Copy Policy.key id (s.policies.modify p.key (Store.amend · p))
      (k.policies.map fun old => if old.key = p.key then Store.amend old p else old) :=
    h.policies.modify p.key (fun _ => rfl) (fun _ => rfl) (fun _ _ => rfl) fun _ _ => rfl
  rw [Alike, answer_updatePolicy, hreply]
  refine ⟨?_, { h with policies := hpolicies }⟩
  cases s.policies.lookup p.key <;> rfl

theorem alike_deletePolicy (h : Twin d s k) (key : PolicyKey) :
    Alike d s k here there refused (.deletePolicy key) := by
  have hreply : (k.answer there refused (.deletePolicy key)).1 =
      Contents.changed ((s.policies.lookup key).map fun _ => ()) :=
    congrArg (fun found => Contents.changed (Option.map _ found)) (h.find?_policy key)
  rw [Alike, answer_deletePolicy, hreply]
  refine ⟨?_, { h with policies := h.policies.erase key }⟩
  cases s.policies.lookup key <;> rfl

/-- The status of a client is set in both stores, each by its own clock, and the date is
remembered. -/
theorem alike_setClientStatus (h : Twin d s k) (id : String) (status : Status) :
    Alike d s k here there refused (.setClientStatus id status) := by
  have hreply : (k.answer there refused (.setClientStatus id status)).1 = Contents.changed
      ((((s.clients.lookup id).map d.client).map (switchClient status there)).map Client.kept) := by
    rw [← h.find?_client, Option.map_map]
    rfl
  have hchange := redates_switchClient status
  rw [Alike, answer_setClientStatus, hreply]
  refine ⟨?_, { h with clients := h.clients.set hchange id here there }⟩
  rw [Dates.client, h.clients.map_change hchange id here there]
  cases s.clients.lookup id <;> rfl

theorem alike_setGroupStatus (h : Twin d s k) (id : String) (status : Status) :
    Alike d s k here there refused (.setGroupStatus id status) := by
  have hreply : (k.answer there refused (.setGroupStatus id status)).1 = Contents.changed
      ((((s.groups.lookup id).map d.group).map (switchGroup status there)).map Group.kept) := by
    rw [← h.find?_group, Option.map_map]
    rfl
  have hchange := redates_switchGroup status
  rw [Alike, answer_setGroupStatus, hreply]
  refine ⟨?_, { h with groups := h.groups.set hchange id here there }⟩
  rw [Dates.group, h.groups.map_change hchange id here there]
  cases s.groups.lookup id <;> rfl

/-- **One call to both stores.**  A call that adds nothing has the same answer in both. -/
theorem alike (h : Twin d s k) (hs : s.Built) {c : StoreCall} (hc : c.isSave = false) :
    Alike d s k here there refused c := by
  cases c with
  | policy | policiesOf | policyPage | client | clientBySecret | group | groups =>
      exact ⟨h.read hs rfl, h.policies, h.clients, h.groups⟩
  | addPolicy | addClient | addGroup => cases hc
  | updatePolicy p => exact h.alike_updatePolicy p
  | deletePolicy key => exact h.alike_deletePolicy key
  | setClientStatus id status => exact h.alike_setClientStatus id status
  | setGroupStatus id status => exact h.alike_setGroupStatus id status

end Twin

/-! ## Adding -/

/-- Contents with what a call is to add. -/
def Contents.adding (k : Contents) : StoreCall → Contents
  | .addPolicy p => { k with policies := k.policies ++ [p] }
  | .addClient c => { k with clients := k.clients ++ [c] }
  | .addGroup g => { k with groups := k.groups ++ [g] }
  | _ => k

/-- What a call is to add is added unless it was refused. -/
theorem Contents.answer_of_isSave (now : Timestamp) (refused : Option DatabaseError) (k : Contents)
    {c : StoreCall} (hc : c.isSave = true) :
    (k.answer now refused c).1.isOk = refused.isNone ∧
      (k.answer now refused c).2 = if refused.isNone then k.adding c else k := by
  cases c with
  | policy | policiesOf | policyPage | client | clientBySecret | group | groups | updatePolicy
  | deletePolicy | setClientStatus | setGroupStatus => cases hc
  | addPolicy | addClient | addGroup => cases refused <;> exact ⟨rfl, rfl⟩

namespace Twin

variable {d : Dates} {s : Store} {k : Contents} {here there : Timestamp}
  {refused : Option DatabaseError}

/-- Twins with room for a value are twins with the value, which has no date of its own. -/
theorem adding (h : Twin d s k) {c : StoreCall} (hroom : s.hasRoom c = true) :
    Twin d (s.adding c) (k.adding c) := by
  cases c with
  | policy | policiesOf | policyPage | client | clientBySecret | group | groups | updatePolicy
  | deletePolicy | setClientStatus | setGroupStatus => cases hroom
  | addPolicy p =>
      have hfree : s.policies.lookup p.key = none := by
        simpa [Store.hasRoom, Table.contains] using hroom
      exact { h with policies := h.policies.insert hfree rfl }
  | addClient c =>
      have hfree : s.clients.lookup c.id = none := by
        have hboth := hroom
        simp only [Store.hasRoom, Table.contains, Bool.and_eq_true] at hboth
        simpa using hboth.1
      exact { h with clients := h.clients.insert hfree }
  | addGroup g =>
      have hfree : s.groups.lookup g.id = none := by
        have hboth := hroom
        simp only [Store.hasRoom, Table.contains, Bool.and_eq_true] at hboth
        simpa using hboth.1
      exact { h with groups := h.groups.insert hfree }

/-- What is added to both stores, or to neither, leaves twins. -/
theorem save (h : Twin d s k) {c : StoreCall} (hc : c.isSave = true)
    (hboth : s.hasRoom c = refused.isNone) :
    Twin d (s.answer here c).2 (k.answer there refused c).2 := by
  rw [(Store.answer_of_isSave here s hc).2, (Contents.answer_of_isSave there refused k hc).2, hboth]
  split
  · next haccepted =>
    exact h.adding (hboth.trans haccepted)
  · exact h

end Twin

/-! ## Runs -/

/-- The answer of a store that a database keeps to a call at a time, and the tables after it. -/
def Tables.answer (t : Tables) (refuse : Constraints) (now : Timestamp) (c : StoreCall) :
    c.Reply × Tables :=
  (answerStore c).run (Sql.answer refuse now) t

/-- The tables that calls lead to. -/
inductive Tables.Built (refuse : Constraints) : Tables → Prop where
  | empty : Built refuse .empty
  | answer {t : Tables} (h : Built refuse t) (now : Timestamp) (c : StoreCall) :
      Built refuse (t.answer refuse now c).2

/-- A store in memory, the tables of another and the dates in them, after the same calls to both, as
long as what is to be added is added to both or to neither. -/
inductive Paired (refuse : Constraints) : Store → Tables → Dates → Prop where
  | empty : Paired refuse ∅ .empty .unset
  | answer {s : Store} {t : Tables} {d : Dates} (h : Paired refuse s t d) (c : StoreCall)
      (here there : Timestamp)
      (hboth : c.isSave = true → (s.answer here c).1.isOk = (t.answer refuse there c).1.isOk) :
      Paired refuse (s.answer here c).2 (t.answer refuse there c).2 (d.after there s c)

section Runs

variable {refuse : Constraints} {t : Tables} {k : Contents}

/-- Empty tables hold nothing. -/
theorem holds_empty : Holds .empty ⟨[], [], []⟩ := ⟨rfl, rfl, rfl⟩

/-- A call leads from tables that hold some contents to tables that hold what the contents say. -/
theorem Holds.answer (hk : Holds t k) (refuse : Constraints) (now : Timestamp) (c : StoreCall) :
    (t.answer refuse now c).1 = (k.answer now (refusal refuse t c) c).1 ∧
      Holds (t.answer refuse now c).2 (k.answer now (refusal refuse t c) c).2 := by
  have hagrees : Agrees refuse now t k c := run_answerStore hk c
  obtain ⟨t', hrun, hk'⟩ := hagrees
  rw [Tables.answer, hrun]
  exact ⟨rfl, hk'⟩

/-- Whatever calls were made, the tables hold some contents. -/
theorem Tables.Built.holds (h : t.Built refuse) : ∃ k, Holds t k := by
  induction h with
  | empty => exact ⟨_, holds_empty⟩
  | answer _ now c ih =>
      obtain ⟨k, hk⟩ := ih
      exact ⟨_, (hk.answer refuse now c).2⟩

/-- After the same calls both stores hold the same but for the dates. -/
theorem Paired.twin {s : Store} {d : Dates} (h : Paired refuse s t d) :
    s.Built ∧ ∃ k, Holds t k ∧ Twin d s k := by
  induction h with
  | empty => exact ⟨.empty, _, holds_empty, twin_empty⟩
  | @answer s t d _ c here there hboth ih =>
      obtain ⟨hs, k, hk, htwin⟩ := ih
      obtain ⟨hreply, hk'⟩ := hk.answer refuse there c
      refine ⟨hs.answer here c, _, hk', ?_⟩
      cases hc : c.isSave with
      | false => exact (htwin.alike hs hc).2
      | true =>
          -- to add something sets no date
          have hdates : d.after there s c = d := by cases c <;> first | rfl | cases hc
          have hroom := hboth hc
          rw [hreply, (Store.answer_of_isSave here s hc).1,
            (Contents.answer_of_isSave there _ k hc).1] at hroom
          rw [hdates]
          exact htwin.save hc hroom

end Runs

end Gatehouse.Sql
