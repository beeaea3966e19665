import Gatehouse.Proofs.Service.Deed
import Gatehouse.Service.World

/-!
# Gatehouse.Proofs.Service.Site — any surroundings of the service

A `Backing` is any store with any caches, a clock and a source of fresh names, over a state of its
own.  A `Site` is such a state with an outbox before any event log, the counts and the remarks so
far.  A world is a site whose backing is a world and whose event log is one in memory
(`Site.run_world`).

* `run_tells` : what a procedure tells holds of its run, the remarks it told are those that were
  added, and outbox and counts of calls are as before.
* `run_eq_of_backing` : a run depends on the backing alone.
* `run_publishing` : the program of a publisher runs on the outbox.

Sites are what results are stated over that hold whatever stands behind the service: a database, a
store that others use, one that fails.  They are also what separates the three concerns.  What the
engine asks goes to the backing, what a publisher asks to the outbox, and remarks and counts are
kept beside both; so that the engine leaves the outbox alone is a statement on one component.

A world has the same parts in one record, with faults that can be planned.  The two agree step by
step, and a result on sites holds of worlds by way of `Site.run_world`.
-/

namespace Gatehouse

open Gatehouse.Time

/-- How a store, caches, a clock and a source of names answer from a common state. -/
structure Backing (κ : Type) where
  store : (c : StoreCall) → κ → c.Reply × κ
  cache : (c : CacheCall) → κ → c.Reply × κ
  clock : κ → Nat
  freshId : κ → String × κ

/-- The surroundings of the service over a backing and an event log.  The remarks are newest
first. -/
structure Site (κ ℓ : Type) where
  backing : κ
  outbox : Outbox ℓ
  metrics : Metrics
  trace : List TraceEntry

/-- The store, the caches, the clock and the names of a world. -/
def Backing.memory : Backing World where
  store c w := w.answerStore c
  cache c w := w.answerCache c
  clock w := w.clock
  freshId w := (freshName w.ids, { w with ids := w.ids + 1 })

@[simp] theorem Metrics.countLookup_methods (m : Metrics) (hit : Bool) :
    (m.countLookup hit).methods = m.methods := by
  cases hit with
  | true => rfl
  | false => rfl

namespace Site

variable {κ ℓ : Type}

/-- A site over a backing and an event log on which nothing has been asked yet. -/
def fresh (backing : κ) (log : ℓ) : Site κ ℓ := ⟨backing, ⟨log, []⟩, .empty, []⟩

/-- The remarks on who did what, newest first. -/
def audits (s : Site κ ℓ) : List TraceEntry := s.trace.filter TraceEntry.isAudit

/-- The site after a remark. -/
def remark (s : Site κ ℓ) (e : TraceEntry) : Site κ ℓ := { s with trace := e :: s.trace }

theorem audits_remark_of_isAudit {e : TraceEntry} (h : e.isAudit = true) (s : Site κ ℓ) :
    (s.remark e).audits = e :: s.audits := by
  exact List.filter_cons_of_pos h

theorem audits_remark_of_not {e : TraceEntry} (h : e.isAudit = false) (s : Site κ ℓ) :
    (s.remark e).audits = s.audits := by
  refine List.filter_cons_of_neg ?_
  rw [h]
  exact Bool.false_ne_true

/-! ## Answering -/

/-- The answer to a step of a publisher; its remarks join those of the service. -/
def answerJournal (L : EventLog ℓ) : (c : JournalCall) → Site κ ℓ → c.Reply × Site κ ℓ
  | .note e, s => ((), s.remark e)
  | c, s =>
    let (reply, outbox) := s.outbox.answer L c
    (reply, { s with outbox })

/-- The answer to a step of the service. -/
def answer (B : Backing κ) (L : EventLog ℓ) : (c : ServiceCall) → Site κ ℓ → c.Reply × Site κ ℓ
  | .store c, s =>
    let (reply, backing) := B.store c s.backing
    (reply, { s with backing })
  | .cache c, s =>
    let (reply, backing) := B.cache c s.backing
    (reply, { s with backing })
  | .journal c, s => s.answerJournal L c
  | .clock, s => ((B.clock s.backing : Nat), s)
  | .freshId, s =>
    let (name, backing) := B.freshId s.backing
    (name, { s with backing })
  | .note e, s => ((), s.remark e)
  | .countLookup hit, s => ((), { s with metrics := s.metrics.countLookup hit })
  | .countCall method nanos failed, s =>
    ((), { s with metrics := s.metrics.countCall method nanos failed })
  | .countRequest, s => ((), { s with metrics := s.metrics.countRequest })
  | .countOutcome succeeded, s => ((), { s with metrics := s.metrics.countOutcome succeeded })
  | .counts, s => (s.metrics, s)

/-- Runs a procedure. -/
def run (B : Backing κ) (L : EventLog ℓ) {α : Type} (x : Procedure α) (s : Site κ ℓ) :
    Except ApiError α × Site κ ℓ :=
  Program.run (answer B L) x.run s

/-! ## Worlds -/

section Worlds

/-- The world of a backing in memory and of what stands around it. -/
def world (s : Site World MemoryLog) : World :=
  { s.backing with outbox := s.outbox, metrics := s.metrics, trace := s.trace }

/-- Each step is answered alike. -/
theorem answer_world (c : ServiceCall) (s : Site World MemoryLog) :
    s.world.answer c = ((s.answer .memory MemoryLog.eventLog c).1,
      (s.answer .memory MemoryLog.eventLog c).2.world) := by
  cases c with
  | store c =>
      show s.world.answerStore c = ((s.backing.answerStore c).1,
        world { s with backing := (s.backing.answerStore c).2 })
      -- both stop at the same faults, before anything is done
      unfold World.answerStore
      by_cases h : s.backing.faults.contains c.name = true
      · rw [if_pos h]
        exact if_pos h
      · rw [if_neg h]
        exact if_neg h
  | cache c =>
      show s.world.answerCache c = ((s.backing.answerCache c).1,
        world { s with backing := (s.backing.answerCache c).2 })
      unfold World.answerCache
      by_cases h : s.backing.faults.contains c.name = true
      · rw [if_pos h]
        exact if_pos h
      · rw [if_neg h]
        exact if_neg h
  | journal c =>
      cases c with
      | probe | append | push | pop | note => rfl
  | clock | freshId | note | countLookup | countCall | countRequest | countOutcome | counts => rfl

/-- **Worlds are sites.**  A procedure runs in a world as on the site that it is. -/
theorem run_world {α : Type} (x : Procedure α) (s : Site World MemoryLog) :
    s.world.run x =
      ((s.run .memory MemoryLog.eventLog x).1, (s.run .memory MemoryLog.eventLog x).2.world) :=
  Program.run_map answer_world x.run s

end Worlds

/-! ## Runs -/

variable {B : Backing κ} {L : EventLog ℓ} {α β : Type} {x : Procedure α} {f : α → Procedure β}
  {s t : Site κ ℓ}

/-- A procedure is run, and what follows it on the site that it leaves; an error is the end. -/
theorem run_bind_eq : s.run B L (x >>= f) =
    (match (s.run B L x).1 with
      | .ok a => (s.run B L x).2.run B L (f a)
      | .error e => (.error e, (s.run B L x).2)) := by
  refine (Program.run_bind (I := service) (answer B L) x.run (ExceptT.bindCont f) s).trans ?_
  show Program.run (answer B L) (ExceptT.bindCont f (s.run B L x).1) (s.run B L x).2 = _
  cases (s.run B L x).1 with
  | ok a => rfl
  | error e => rfl

theorem run_bind_of_ok {a : α} (h : s.run B L x = (.ok a, t)) :
    s.run B L (x >>= f) = t.run B L (f a) := by
  rw [run_bind_eq, h]

theorem run_bind_of_error {e : ApiError} (h : s.run B L x = (.error e, t)) :
    s.run B L (x >>= f) = (.error e, t) := by
  rw [run_bind_eq, h]

/-- What an inward step leaves behind. -/
theorem answer_inward {c : ServiceCall} (hc : c.Inward) (s : Site κ ℓ) :
    (s.answer B L c).2.audits =
        (Gatehouse.audits (c.deeds (s.answer B L c).1)).reverse ++ s.audits ∧
      (s.answer B L c).2.outbox = s.outbox ∧
      (s.answer B L c).2.metrics.methods = s.metrics.methods := by
  cases c with
  | store c =>
      refine ⟨?_, rfl, rfl⟩
      show s.audits = (Gatehouse.audits (c.deeds (B.store c s.backing).1)).reverse ++ s.audits
      rw [audits_deeds]
      rfl
  | cache | freshId | clock => exact ⟨rfl, rfl, rfl⟩
  | countLookup hit => exact ⟨rfl, rfl, Metrics.countLookup_methods s.metrics hit⟩
  | note e =>
      refine ⟨?_, rfl, rfl⟩
      show (s.remark e).audits =
        (Gatehouse.audits (if e.isAudit then [.audited e] else [])).reverse ++ s.audits
      cases haudit : e.isAudit with
      | true => exact audits_remark_of_isAudit haudit s
      | false => exact audits_remark_of_not haudit s
  | journal | countCall | countRequest | countOutcome | counts => exact False.elim hc

/-- **What was told.**  What a procedure tells holds of its run, together with whatever each of its
steps does to the backing that fits the notes of it.  The remarks it told are those that were added,
and the outbox and the counts of calls are as before.

The relation `R` is chosen by whoever uses the lemma, with one hypothesis for each kind of step:
what a step to the store does has to fit what is noted of it, and the other steps have to leave the
relation as it is. -/
theorem run_tells {R : κ → List Deed → κ → Prop} (rest : ∀ k, R k [] k)
    (store : ∀ c k es k', R (B.store c k).2 es k' → R k (c.deeds (B.store c k).1 ++ es) k')
    (cache : ∀ c k es k', R (B.cache c k).2 es k' → R k es k')
    (freshId : ∀ k es k', R (B.freshId k).2 es k' → R k es k')
    (audited : ∀ e k es k', R k es k' → R k (.audited e :: es) k')
    {Q : List Deed → Except ApiError α → Prop} (hx : x.Tells Q) (s : Site κ ℓ) :
    ∃ es, Q es (s.run B L x).1 ∧ R s.backing es (s.run B L x).2.backing ∧
      (s.run B L x).2.audits = (Gatehouse.audits es).reverse ++ s.audits ∧
      (s.run B L x).2.outbox = s.outbox ∧
      (s.run B L x).2.metrics.methods = s.metrics.methods := by
  refine Program.run_tells (R := fun s es t => R s.backing es t.backing ∧
    t.audits = (Gatehouse.audits es).reverse ++ s.audits ∧ t.outbox = s.outbox ∧
      t.metrics.methods = s.metrics.methods) ?_ ?_ hx s
  · exact fun s => ⟨rest s.backing, rfl, rfl, rfl⟩
  · rintro c s es t hinward ⟨hback, haudits, houtbox, hmethods⟩
    obtain ⟨haudits', houtbox', hmethods'⟩ := answer_inward (B := B) (L := L) hinward s
    refine ⟨?_, ?_, houtbox.trans houtbox', hmethods.trans hmethods'⟩
    · cases c with
      | store c => exact store c s.backing es _ hback
      | cache c => exact cache c s.backing es _ hback
      | freshId => exact freshId s.backing es _ hback
      | clock | countLookup => exact hback
      | note e =>
          show R _ ((if e.isAudit then [.audited e] else []) ++ es) _
          -- only what is marked for the audit trail is a deed
          split
          · exact audited e _ es _ hback
          · exact hback
      | journal | countCall | countRequest | countOutcome | counts => exact False.elim hinward
    · rw [haudits, haudits', audits_append, List.reverse_append, List.append_assoc]

/-- Two sites with one backing run a procedure alike and keep one backing, as long as it goes
neither to the event log nor to the counts of requests and calls. -/
theorem run_eq_of_backing (hx : x.run.Asks ServiceCall.Inward) {s t : Site κ ℓ}
    (h : s.backing = t.backing) : (s.run B L x).1 = (t.run B L x).1 ∧
      (s.run B L x).2.backing = (t.run B L x).2.backing := by
  unfold run
  generalize x.run = p at hx
  induction p generalizing s t with
  | done a => exact ⟨rfl, h⟩
  | ask c next ih =>
      -- an inward call asks the backing, or nobody
      have hstep : (s.answer B L c).1 = (t.answer B L c).1 ∧
          (s.answer B L c).2.backing = (t.answer B L c).2.backing := by
        cases c with
        | store c => exact Prod.ext_iff.1 (congrArg (B.store c) h)
        | cache c => exact Prod.ext_iff.1 (congrArg (B.cache c) h)
        | freshId => exact Prod.ext_iff.1 (congrArg B.freshId h)
        | clock => exact ⟨congrArg B.clock h, h⟩
        | note | countLookup => exact ⟨rfl, h⟩
        | journal | countCall | countRequest | countOutcome | counts => exact False.elim hx.1
      have hrun : Program.run (answer B L) (.ask c next) t =
          Program.run (answer B L) (next (s.answer B L c).1) (t.answer B L c).2 :=
        congrArg (fun reply => Program.run (answer B L) (next reply) (t.answer B L c).2)
          hstep.1.symm
      rw [hrun]
      exact ih (s.answer B L c).1 hstep.2 (hx.2 _)

/-! ## Publishing -/

/-- Whether a step of a publisher is no remark on who did what. -/
def Impersonal : JournalCall → Prop
  | .note e => e.isAudit = false
  | _ => True

/-- **Publishing.**  The program of a publisher runs on the outbox and leaves everything else but
remarks as it is. -/
theorem run_publishing {p : Program journal α} (hp : p.Asks Impersonal) (s : Site κ ℓ) :
    ∃ t, s.run B L (Procedure.publishing p) = (.ok (s.outbox.run L p).1, t) ∧
      t.backing = s.backing ∧ t.outbox = (s.outbox.run L p).2 ∧ t.metrics = s.metrics ∧
      t.audits = s.audits := by
  induction p generalizing s with
  | done a => exact ⟨s, rfl, rfl, rfl, rfl, rfl⟩
  | ask c next ih =>
      cases c with
      | note e =>
          obtain ⟨t, hrun, hback, houtbox, hmetrics, haudits⟩ := ih () (hp.2 ()) (s.remark e)
          exact ⟨t, hrun, hback, houtbox, hmetrics, haudits.trans (audits_remark_of_not hp.1 s)⟩
      | probe | append | push | pop =>
          exact ih _ (hp.2 _) _

end Site

end Gatehouse
