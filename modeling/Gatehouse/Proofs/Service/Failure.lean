import Gatehouse.Proofs.Service.History
import Gatehouse.Proofs.Service.Layer
import Gatehouse.Proofs.Service.World
import Gatehouse.Proofs.Store.Writes

/-!
# Gatehouse.Proofs.Service.Failure — an operation that fails changes nothing

What is noted of an operation says what it did to the store: `Store.Follows` leads from the tables
before it to those after it, deed by deed.  An operation that fails has written nothing, with one
exception: an entity is written before the policy of its owner, and that policy might be refused.
But its key was found free just before, and to write the entity leaves the policies as they are; so
in a store that runs one operation after the other and does not fail by itself, it is not refused
(`not_follows_stuck`).

* `run_follows` : a run over a store in memory follows what is noted of it, and `run_serve_follows`
  says so of an operation.
* `sameTables_of_failed` : if it ends in an error, all tables are as before.

What follows the notes is a relation between tables and not between stores.  The count of reads goes
up with every look, whether the operation fails or not, and a reader of the store who wants to know
whether anything has happened does not mean that.

The layer that publishes events is covered because it comes last.  It publishes the event of an
operation that was answered, so of one that failed it publishes nothing, and the queue and the log
are as they were (`run_journaled_of_error`).
-/

namespace Gatehouse

open Gatehouse.Time

/-! ## What some deeds do to a store -/

namespace Store

variable {s s' t : Store}

theorem SameTables.refl (s : Store) : s.SameTables s := ⟨rfl, rfl, rfl⟩

/-- Whether some deeds lead from the tables of a store to those of another one. -/
def Follows : Store → List Deed → Store → Prop
  | s, [], t => s.SameTables t
  | s, .read key found :: es, t => s.policies.lookup key = found ∧ Follows s es t
  | s, .wrote c value :: es, t =>
    ∃ now u v, s.SameTables u ∧ u.Carried now c value v ∧ Follows v es t
  | s, .refused c e :: es, t =>
    (∃ now u, s.SameTables u ∧ (u.answer now c).1 = .error e) ∧ Follows s es t
  | s, .audited _ :: es, t => Follows s es t

/-- Deeds lead from equal tables to equal tables. -/
theorem follows_of_sameTables {es : List Deed} (hsame : s.SameTables s') (h : s'.Follows es t) :
    s.Follows es t := by
  induction es with
  | nil => exact hsame.trans h
  | cons d es ih =>
      cases d with
      | read key found =>
          refine ⟨?_, ih h.2⟩
          rw [← hsame.1]
          exact h.1
      | wrote c value =>
          obtain ⟨now, u, v, hu, hcarried, hrest⟩ := h
          exact ⟨now, u, v, hsame.trans hu, hcarried, hrest⟩
      | refused c e =>
          obtain ⟨⟨now, u, hu, hrefused⟩, hrest⟩ := h
          exact ⟨⟨now, u, hsame.trans hu, hrefused⟩, ih hrest⟩
      | audited e => exact ih h

/-- Looks lead nowhere. -/
theorem follows_of_looks {looks core : List Deed} (hlooks : ∀ d ∈ looks, d.IsRead)
    (h : s.Follows (looks ++ core) t) : s.Follows core t := by
  induction looks with
  | nil => exact h
  | cons d looks ih =>
      rw [List.forall_mem_cons] at hlooks
      cases d with
      | read key found => exact ih hlooks.2 h.2
      | wrote | refused | audited => exact False.elim hlooks.1

/-- A call and its answer are a deed that the store follows. -/
theorem follows_answer {now : Timestamp} {c : StoreCall} {es : List Deed}
    (h : (s.answer now c).2.Follows es t) : s.Follows (c.deeds (s.answer now c).1 ++ es) t := by
  cases hread : c.isRead with
  | true =>
      rw [answer_read now c s hread] at h
      have hsame : s.SameTables s.countRead := ⟨rfl, rfl, rfl⟩
      have hrest : s.Follows es t := follows_of_sameTables hsame h
      cases c with
      | policy key => exact ⟨rfl, hrest⟩
      | policiesOf | policyPage | client | clientBySecret | group | groups => exact hrest
      | addPolicy | updatePolicy | deletePolicy | addClient | setClientStatus | addGroup
      | setGroupStatus => cases hread
  | false =>
      rw [deeds_of_write hread]
      rcases hanswer : s.answer now c with ⟨e | value, u⟩
      · have hrefused : (s.answer now c).1 = .error e := congrArg Prod.fst hanswer
        rw [hanswer] at h
        obtain rfl : u = s := (congrArg Prod.snd hanswer).symm.trans (answer_error now c s hrefused)
        exact ⟨⟨now, u, .refl u, hrefused⟩, h⟩
      · rw [hanswer] at h
        exact ⟨now, s, u, .refl s, carried_of_answer hanswer, h⟩

/-- An owner's policy whose key is free is not refused once the entity is written. -/
theorem not_follows_stuck {entity : StoreCall} {key : PolicyKey} {value : entity.Value} {p : Policy}
    {e : StorageError} (hkey : p.key = key)
    (hentity : (∃ g, entity = .addGroup g) ∨ ∃ c, entity = .addClient c) :
    ¬s.Follows [.read key none, .wrote entity value, .refused (.addPolicy p) e] t := by
  rintro ⟨hfree, now, u, v, hu, hcarried, ⟨now', v', hv', hrefused⟩, -⟩
  refine lookup_of_addPolicy_error hrefused ?_
  have hpolicies : v.policies = u.policies := by
    rcases hentity with ⟨g, rfl⟩ | ⟨c, rfl⟩
    · obtain rfl : v = _ := hcarried
      rfl
    · obtain rfl : v = _ := hcarried
      rfl
  rw [hv'.1, hpolicies, hu.1, hkey]
  exact hfree

end Store

/-! ## Stores that do not fail by themselves -/

namespace World

/-- Whether no call to the store is planned to fail. -/
def Reliable (w : World) : Prop := ∀ c : StoreCall, w.faults.contains c.name = false

variable {w : World}

/-- A store that is not planned to fail answers every call. -/
theorem answerStore_of_reliable (h : w.Reliable) (c : StoreCall) :
    w.answerStore c = ((w.store.answer (.ofNanos w.clock) c).1,
      { w with store := (w.store.answer (.ofNanos w.clock) c).2 }) := by
  unfold answerStore
  rw [h c]
  rfl

/-- A call to the caches, whether it fails or not, leaves the store and the plan of faults. -/
theorem answerCache_keeps (w : World) (c : CacheCall) :
    (w.answerCache c).2.store = w.store ∧ (w.answerCache c).2.faults = w.faults := by
  unfold answerCache
  split
  · exact ⟨rfl, rfl⟩
  · exact ⟨rfl, rfl⟩

/-- Whether some deeds lead from one world to another, if no call to the store is planned to
fail. -/
def Follows (w : World) (es : List Deed) (w' : World) : Prop :=
  w.Reliable → w.store.Follows es w'.store ∧ w'.Reliable

/-- A call to the store is followed by what is noted of it. -/
theorem follows_store {c : StoreCall} {es : List Deed} {w' : World}
    (h : (w.answerStore c).2.Follows es w') : w.Follows (c.deeds (w.answerStore c).1 ++ es) w' := by
  intro hw
  rw [answerStore_of_reliable hw] at h ⊢
  obtain ⟨hrest, hw'⟩ := h hw
  exact ⟨Store.follows_answer hrest, hw'⟩

/-- A call to the caches, of which nothing is noted, leads nowhere. -/
theorem follows_cache {c : CacheCall} {es : List Deed} {w' : World}
    (h : (w.answerCache c).2.Follows es w') : w.Follows es w' := by
  obtain ⟨hstore, hfaults⟩ := w.answerCache_keeps c
  intro hw
  have hnext : (w.answerCache c).2.Reliable := by
    intro c'
    rw [hfaults]
    exact hw c'
  obtain ⟨hrest, hw'⟩ := h hnext
  rw [hstore] at hrest
  exact ⟨hrest, hw'⟩

end World

/-! ## Operations -/

namespace Operation

/-- What is noted of a whole operation. -/
def Told (op : Operation) (es : List Deed) (r : Except ApiError op.Answer) : Prop :=
  (∃ reason e, es = [.audited (.authFailure reason)] ∧ r = .error e) ∨
    Procedure.Eventually op.Acts es r

variable {op : Operation} {es : List Deed} {s t : Store}

/-- Breaking off leads to the tables before it. -/
theorem sameTables_of_breaks (hbreaks : op.Breaks es) (h : s.Follows es t) : s.SameTables t := by
  cases op with
  | addPolicy | updatePolicy | deletePolicy | enableGroup | disableGroup | enableClient
  | disableClient =>
      obtain ⟨c, e, rfl⟩ := hbreaks
      exact h.2
  | createGroup token g =>
      obtain ⟨g', -, hstuck⟩ := hbreaks
      cases hstuck with
      | entity e => exact h.2.2
      | policy value p e hkey =>
          exact absurd h (Store.not_follows_stuck hkey (Or.inl ⟨g', rfl⟩))
  | registerClient token c =>
      obtain ⟨c', -, hstuck⟩ := hbreaks
      cases hstuck with
      | entity e => exact h.2.2
      | policy value p e hkey =>
          exact absurd h (Store.not_follows_stuck hkey (Or.inr ⟨c', rfl⟩))
  | issue | refresh | identify | authorize | listPolicies | canAccessByKey | canAccessById
  | identifyThing | listGroups | listMemberships => exact False.elim hbreaks

/-- **A failure.**  What is noted of an operation that fails leads to the tables before it. -/
theorem sameTables_of_failed {e : ApiError} (htold : op.Told es (.error e))
    (h : s.Follows es t) : s.SameTables t := by
  rcases htold with ⟨reason, e', rfl, -⟩ | ⟨looks, core, hlooks, rfl, hcore⟩
  · exact h
  · have hcoreFollows : s.Follows core t := Store.follows_of_looks hlooks h
    rcases hcore with hbreaks | ⟨rfl, -⟩
    · exact sameTables_of_breaks hbreaks hcoreFollows
    · exact hcoreFollows

end Operation

namespace Site

variable {κ ℓ : Type} {L : EventLog ℓ} {s : Site World ℓ}

/-- **A run** over a store that does not fail by itself follows what is noted of it, and it leaves
the store one that does not fail by itself and the outbox as it was. -/
theorem run_follows {α : Type} {x : Procedure α} {Q : List Deed → Except ApiError α → Prop}
    (hx : x.Tells Q) (h : s.backing.Reliable) :
    ∃ es, Q es (s.run .memory L x).1 ∧
      s.backing.store.Follows es (s.run .memory L x).2.backing.store ∧
      (s.run .memory L x).2.backing.Reliable ∧ (s.run .memory L x).2.outbox = s.outbox := by
  obtain ⟨es, hes, hback, -, houtbox, -⟩ := run_tells (B := .memory) (L := L)
    (R := World.Follows) (fun w hw => ⟨.refl w.store, hw⟩) (fun _ _ _ _ => World.follows_store)
    (fun _ _ _ _ => World.follows_cache) (fun _ _ _ hrest hw => hrest hw)
    (fun _ _ _ _ hrest hw => hrest hw) hx s
  exact ⟨es, hes, (hback h).1, (hback h).2, houtbox⟩

/-- **A run of the engine** follows what is noted of its operation. -/
theorem run_serve_follows (tokens : TokenIssuer) (h : s.backing.Reliable) (op : Operation) :
    ∃ es, op.Told es (s.run .memory L (Engine.serve tokens op)).1 ∧
      s.backing.store.Follows es (s.run .memory L (Engine.serve tokens op)).2.backing.store ∧
      (s.run .memory L (Engine.serve tokens op)).2.backing.Reliable ∧
      (s.run .memory L (Engine.serve tokens op)).2.outbox = s.outbox :=
  run_follows (Engine.tells_serve tokens op) h

/-- An operation that fails publishes nothing. -/
theorem run_journaled_of_error {B : Backing κ} {L : EventLog ℓ} {s : Site κ ℓ}
    {inner : Service Procedure} {op : Operation} (c : PublisherConfig) {e : ApiError}
    (h : (s.run B L (Layer.journaled c inner op)).1 = .error e) :
    s.run B L (Layer.journaled c inner op) = s.run B L (inner op) := by
  rcases hinner : s.run B L (inner op) with ⟨r, t⟩
  obtain ⟨u, hrun, -⟩ := run_journaled c hinner
  rw [hrun] at h
  obtain rfl : r = .error e := h
  exact run_bind_of_error hinner

/-- **Nothing is left of an operation that fails**, over any store in memory that does not fail by
itself: policies, clients and groups are as before.  If events are published, the event log and the
queue before it are as before too. -/
theorem failed_leaves_nothing (tokens : TokenIssuer) (c : PublisherConfig) (L : EventLog ℓ)
    {s : Site World ℓ} (h : s.backing.Reliable) (op : Operation) (e : ApiError) :
    ((s.run .memory L (Engine.serve tokens op)).1 = .error e →
      s.backing.store.SameTables (s.run .memory L (Engine.serve tokens op)).2.backing.store) ∧
    ((s.run .memory L (Layer.journaled c (Engine.serve tokens) op)).1 = .error e →
      s.backing.store.SameTables
          (s.run .memory L (Layer.journaled c (Engine.serve tokens) op)).2.backing.store ∧
        (s.run .memory L (Layer.journaled c (Engine.serve tokens) op)).2.outbox = s.outbox) := by
  obtain ⟨es, htold, hfollows, -, houtbox⟩ := run_serve_follows (L := L) tokens h op
  have hserve : (s.run .memory L (Engine.serve tokens op)).1 = .error e →
      s.backing.store.SameTables (s.run .memory L (Engine.serve tokens op)).2.backing.store := by
    intro herror
    rw [herror] at htold
    exact Operation.sameTables_of_failed htold hfollows
  refine ⟨hserve, ?_⟩
  intro herror
  have hrun := run_journaled_of_error c herror
  rw [hrun] at herror ⊢
  exact ⟨hserve herror, houtbox⟩

/-- A site on which the policy is there already that the owner of a room would get. -/
def takenSlot : Site World MemoryLog :=
  ((fresh (.empty 60000000000 0) .empty).run .memory MemoryLog.eventLog (Engine.addPolicy .named
    "owner" ⟨"", "owner", "room", ["g_list"], ⟨0, 0⟩, ⟨0, 0⟩, ""⟩)).2

/-- The room is not created, and neither it nor a record of it is left behind. -/
theorem failed_leaves_nothing_takenSlot :
    let room : Operation := .createGroup "owner"
      ⟨"room", "", "", "", none, .enabled, ⟨0, 0⟩, ⟨0, 0⟩, 0, ""⟩
    let t := takenSlot.run .memory MemoryLog.eventLog
      (Layer.journaled {} (Engine.serve .named) room)
    takenSlot.backing.Reliable ∧ t.1 = .error (.conflict "owner@room") ∧
      takenSlot.backing.store.SameTables t.2.backing.store ∧ t.2.outbox = takenSlot.outbox := by
  intro room t
  have hreliable : takenSlot.backing.Reliable := fun _ => rfl
  have herror : t.1 = .error (.conflict "owner@room") := rfl
  exact ⟨hreliable, herror,
    (failed_leaves_nothing .named {} MemoryLog.eventLog hreliable room _).2 herror⟩

end Site

/-! ## Runs in one world -/

namespace World

variable {w : World}

/-- A run over a store that does not fail by itself follows what is noted of it. -/
theorem run_follows {α : Type} {x : Procedure α} {Q : List Deed → Except ApiError α → Prop}
    (hx : x.Tells Q) (h : w.Reliable) :
    ∃ es, Q es (w.run x).1 ∧ w.store.Follows es (w.run x).2.store ∧ (w.run x).2.Reliable := by
  let s : Site World MemoryLog := ⟨w, w.outbox, w.metrics, w.trace⟩
  obtain ⟨es, hes, hfollows, hreliable, -⟩ :=
    Site.run_follows (L := MemoryLog.eventLog) (s := s) hx h
  have hrun : w.run x = _ := Site.run_world x s
  rw [hrun]
  exact ⟨es, hes, hfollows, hreliable⟩

/-- A sound world has no step that is planned to fail. -/
theorem Sound.reliable (h : w.Sound) : w.Reliable := by
  intro c
  rw [h.faults]
  rfl

end World

end Gatehouse
