import Gatehouse.Proofs.Journal.Ledger
import Gatehouse.Proofs.Service.Compose
import Gatehouse.Proofs.Service.Failure

/-!
# Gatehouse.Proofs.Service.Replay — the stream of events is a journal

Events are published around the engine, over a store in memory that does not fail by itself and
before an event log that takes every record and drops none.  What the stream tells is then, after
any operations, what the store holds.

* `ledger_of_leaves` : what an operation does to the ledger of the store, its event tells.
* `Journaled.run` : one operation adds records to the stream that tell what it did.
* `replay_eq_ledger` : the whole stream tells the store, if the store was empty at first.

The log has to take every record for the stream to be complete, and it has to keep them.  One that
trims its stream drops the oldest records, and from those that are left only part of the store could
be told; so `EventLog.Takes` asks that what is appended is added to what is there, for as many
operations as there are.  A log in memory does so as long as its bound is not reached
(`MemoryLog.takes`).

That the records come in the order of the changes is not obvious of the program, which writes to the
store first and publishes later.  It holds here since one operation ends before the next one begins.
-/

namespace Gatehouse

open Gatehouse.Time

/-! ## Event logs that take what they are given -/

/-- Whether the next `n` probes of a log are answered, and what is appended after each of them is
added to what it `holds`, and nothing is dropped. -/
def EventLog.Takes {ℓ : Type} (L : EventLog ℓ) (holds : ℓ → List Record) (c : PublisherConfig) :
    Nat → ℓ → Prop
  | 0, _ => True
  | n + 1, log => ∃ log', L.probe c.probeTimeout log = (.ok (), log') ∧
    ∀ r, ∃ log'', L.append c.stream r c.maxLen log' = (.ok (), log'') ∧
      holds log'' = holds log ++ [r] ∧ L.Takes holds c n log''

/-- A log that takes some records takes fewer. -/
theorem takes_of_succ {ℓ : Type} {L : EventLog ℓ} {holds : ℓ → List Record} {c : PublisherConfig}
    {n : Nat} {log : ℓ} (h : L.Takes holds c (n + 1) log) : L.Takes holds c n log := by
  induction n generalizing log with
  | zero => trivial
  | succ n ih =>
      obtain ⟨log', hprobe, happend⟩ := h
      refine ⟨log', hprobe, fun r => ?_⟩
      obtain ⟨log'', hr, hholds, hrest⟩ := happend r
      exact ⟨log'', hr, hholds, ih hrest⟩

namespace MemoryLog

/-- A stream that is short enough is not trimmed. -/
theorem trim_of_fits {maxLen : Nat} {records : List Record}
    (h : maxLen = 0 ∨ records.length ≤ maxLen) : trim maxLen records = records := by
  unfold trim
  split
  · rfl
  · next hlimited =>
    rw [Nat.sub_eq_zero_of_le (h.resolve_left hlimited), List.drop_zero]

/-- A log in memory takes what fits into it, as long as it is there and does not fail. -/
theorem takes {c : PublisherConfig} {n : Nat} {log : MemoryLog} (havailable : log.available = true)
    (hfailing : log.failing = false)
    (hfits : c.maxLen = 0 ∨ (log.records c.stream).length + n ≤ c.maxLen) :
    eventLog.Takes (·.records c.stream) c n log := by
  induction n generalizing log with
  | zero => trivial
  | succ n ih =>
      have hping : log.ping = .ok () := if_pos havailable
      refine ⟨log, congrArg (·, log) hping, fun r => ?_⟩
      -- there is room for one more, so nothing is trimmed
      have htrim : trim c.maxLen (log.records c.stream ++ [r]) = log.records c.stream ++ [r] := by
        refine trim_of_fits (hfits.imp_right fun h => ?_)
        rw [List.length_append, List.length_singleton]
        omega
      have happend : log.append c.stream r c.maxLen = .ok
          { log with streams := log.streams.insert c.stream (log.records c.stream ++ [r]) } := by
        unfold append
        rw [hping, hfailing, htrim]
        rfl
      have hrecords : records
          { log with streams := log.streams.insert c.stream (log.records c.stream ++ [r]) }
          c.stream = log.records c.stream ++ [r] := by
        unfold records
        rw [Table.lookup_insert, if_pos rfl]
        rfl
      refine ⟨_, ?_, hrecords, ih havailable hfailing ?_⟩
      · simp only [eventLog, happend]
      · rw [hrecords, List.length_append, List.length_singleton]
        exact hfits.imp_right fun h => by omega

end MemoryLog

/-- What a record adds to a log that takes it. -/
theorem Journal.run_publish_of_takes {ℓ : Type} {L : EventLog ℓ} {holds : ℓ → List Record}
    {c : PublisherConfig} {n : Nat} {o : Outbox ℓ} (h : L.Takes holds c (n + 1) o.log)
    (r : Record) : holds (o.run L (publish c r)).2.log = holds o.log ++ [r] ∧
      L.Takes holds c n (o.run L (publish c r)).2.log := by
  obtain ⟨log', hprobe, happend⟩ := h
  obtain ⟨log'', hr, hholds, hrest⟩ := happend r
  rw [run_publish_of_taking hprobe hr]
  exact ⟨hholds, hrest⟩

/-! ## Operations -/

/-- The ledger after what is noted of a step. -/
def Ledger.note (l : Ledger) : Deed → Ledger
  | .wrote c _ => l.carry c
  | _ => l

/-- What deeds lead to, their notes tell: only writes that were carried out change a ledger. -/
theorem Store.ledger_of_follows {es : List Deed} {s t : Store} (h : s.Follows es t) :
    t.ledger = es.foldl Ledger.note s.ledger := by
  induction es generalizing s with
  | nil => exact ledger_of_sameTables h
  | cons d es ih =>
      cases d with
      | read key found => exact ih h.2
      | wrote c value =>
          obtain ⟨now, u, v, hu, hcarried, hrest⟩ := h
          have hv : v.ledger = s.ledger.carry c := by
            rw [ledger_of_carried hcarried, ledger_of_sameTables hu]
          exact (ih hrest).trans (congrArg (es.foldl Ledger.note) hv)
      | refused c e => exact ih h.2
      | audited e => exact ih h

namespace Operation

variable {op : Operation} {a : op.Answer} {es : List Deed} {s t : Store}

/-- The event of an operation that is answered can be read in its record, since its actions were
checked or are those that owners get. -/
theorem readable_of_leaves (h : op.Leaves a es) {event : Event} (hevent : op.event a = some event) :
    event.Readable := by
  cases op with
  | addPolicy token p | updatePolicy token p =>
      obtain ⟨hvalid, hactions, -⟩ := h
      cases hevent
      show Readable _
      rw [hactions]
      exact readable_normalizeActions hvalid
  | issue | refresh | deletePolicy | createGroup | registerClient | enableGroup | disableGroup
  | enableClient | disableClient =>
      cases hevent
      trivial
  | identify | authorize | listPolicies | canAccessByKey | canAccessById | identifyThing
  | listGroups | listMemberships => cases hevent

/-- **An operation that is answered** does to the ledger of the store what its event tells. -/
theorem ledger_of_leaves (h : op.Leaves a es) (hfollows : s.Follows es t) :
    t.ledger = (op.event a).elim s.ledger s.ledger.enter := by
  have hledger := Store.ledger_of_follows hfollows
  cases op with
  | issue | identify | authorize | listPolicies | canAccessByKey | canAccessById | identifyThing
  | listGroups | listMemberships =>
      obtain rfl : es = _ := h
      exact hledger
  | refresh | deletePolicy =>
      obtain ⟨_, rfl⟩ := h
      exact hledger
  | addPolicy | updatePolicy =>
      obtain ⟨-, -, rfl⟩ := h
      exact hledger
  | createGroup token g =>
      obtain ⟨hstatus, time, rfl⟩ := h
      rw [hledger]
      show (s.ledger.setGroup _ (Group.row a)).setPolicy _ _ = _
      unfold Group.row
      rw [hstatus]
      rfl
  | registerClient token c =>
      obtain ⟨hstatus, time, rfl⟩ := h
      rw [hledger]
      show (s.ledger.setClient _ (Client.row a)).setPolicy _ _ = _
      unfold Client.row
      rw [hstatus]
      rfl
  -- the event carries the status that the store answered
  | enableGroup | disableGroup | enableClient | disableClient =>
      obtain ⟨caller, rfl⟩ := h
      obtain ⟨now, u, v, -, ⟨⟨old, -, rfl⟩, -⟩, -⟩ := hfollows
      exact hledger

/-- What is noted of a whole operation does to the ledger of the store what its event tells, if it
has one, and that can be read in its record. -/
theorem ledger_of_told {r : Except ApiError op.Answer} (htold : op.Told es r)
    (hfollows : s.Follows es t) : t.ledger = (op.eventOf r).elim s.ledger s.ledger.enter ∧
      ∀ event, op.eventOf r = some event → event.Readable := by
  cases r with
  | error e =>
      refine ⟨Store.ledger_of_sameTables (sameTables_of_failed htold hfollows), ?_⟩
      intro event hevent
      cases hevent
  | ok a =>
      rcases htold with ⟨_, _, -, hr⟩ | ⟨looks, core, hlooks, rfl, hleaves | ⟨-, _, hr⟩⟩
      · cases hr
      · refine ⟨ledger_of_leaves hleaves (Store.follows_of_looks hlooks hfollows), ?_⟩
        exact fun event hevent => readable_of_leaves hleaves hevent
      · cases hr

end Operation

/-! ## The stream and the store -/

/-- An operation as a meeting, before which only time passes. -/
def Visit.meeting {ℓ : Type} (v : Visit) : Meeting World ℓ := ⟨(·.elapse v.wait), id, v.op⟩

namespace Site

variable {ℓ : Type} {L : EventLog ℓ} {holds : ℓ → List Record} {c : PublisherConfig} {n : Nat}
  {s : Site World ℓ} (tokens : TokenIssuer)

/-- Whether the stream tells what the store holds, neither of them fails by itself, and the log
takes the records of the next `n` operations. -/
structure Journaled (L : EventLog ℓ) (holds : ℓ → List Record) (c : PublisherConfig) (n : Nat)
    (s : Site World ℓ) : Prop where
  reliable : s.backing.Reliable
  takes : L.Takes holds c n s.outbox.log
  tells : Ledger.replay (holds s.outbox.log) = s.backing.store.ledger

/-- **One operation.**  If the stream tells the store before it, the stream tells the store after
it. -/
theorem Journaled.run (h : s.Journaled L holds c (n + 1)) (op : Operation) :
    (s.run .memory L (Layer.journaled c (Engine.serve tokens) op)).2.Journaled L holds c n := by
  obtain ⟨es, htold, hfollows, hreliable, hkept⟩ :=
    run_serve_follows (L := L) tokens h.reliable op
  rcases hserve : s.run .memory L (Engine.serve tokens op) with ⟨r, t⟩
  rw [hserve] at htold hfollows hreliable hkept
  obtain ⟨hledger, hreadable⟩ := Operation.ledger_of_told htold hfollows
  obtain ⟨u, hrun, hback, houtbox, -⟩ := run_journaled c hserve
  rw [hrun]
  rw [hkept] at houtbox
  cases hevent : op.eventOf r with
  -- nothing is published, and the ledger of the store is as before
  | none =>
      rw [hevent] at houtbox hledger
      refine ⟨hback ▸ hreliable, ?_, ?_⟩
      · rw [houtbox]
        exact takes_of_succ h.takes
      · rw [houtbox, hback, hledger]
        exact h.tells
  -- the stream has one more record, which tells the event that the store went through
  | some event =>
      rw [hevent] at houtbox hledger
      obtain ⟨hholds, htakes⟩ := Journal.run_publish_of_takes h.takes
        (event.encode (.ofNanos (Backing.memory.clock t.backing)))
      refine ⟨hback ▸ hreliable, ?_, ?_⟩
      · rw [houtbox]
        exact htakes
      · rw [houtbox, hholds, hback, hledger, Ledger.replay_snoc, h.tells]
        exact Ledger.apply_encode (hreadable event hevent) _ _

/-- Any number of operations, one after the other. -/
theorem Journaled.attend (visits : List Visit) (h : s.Journaled L holds c visits.length) :
    (s.attend .memory L (Layer.journaled c (Engine.serve tokens))
      (visits.map Visit.meeting)).2.Journaled L holds c 0 := by
  induction visits generalizing s with
  | nil => exact h
  | cons v rest ih =>
      have hmet : (s.meet v.meeting).Journaled L holds c (rest.length + 1) :=
        ⟨h.reliable, h.takes, h.tells⟩
      exact ih (hmet.run tokens v.op)

/-- **The stream is a complete journal.**  Whatever is asked of the engine over a store that was
empty, the records of the stream, read from the oldest on, tell exactly what the store holds. -/
theorem replay_eq_ledger (visits : List Visit) (hempty : (∅ : Store).SameTables s.backing.store)
    (hreliable : s.backing.Reliable) (hholds : holds s.outbox.log = [])
    (htakes : L.Takes holds c visits.length s.outbox.log) :
    let t := (s.attend .memory L (Layer.journaled c (Engine.serve tokens))
      (visits.map Visit.meeting)).2
    Ledger.replay (holds t.outbox.log) = t.backing.store.ledger := by
  have hstart : s.Journaled L holds c visits.length := by
    refine ⟨hreliable, htakes, ?_⟩
    rw [hholds, Store.ledger_of_sameTables hempty]
    rfl
  exact (hstart.attend tokens visits).tells

/-- A meter is registered, granted to a reader, and switched off. -/
def meterVisits : List Visit :=
  [⟨0, .registerClient "owner" ⟨"meter", "", "", "secret", .enabled, ⟨0, 0⟩, ⟨0, 0⟩⟩⟩,
   ⟨1000, .addPolicy "owner" ⟨"", "reader", "meter", ["m_read"], ⟨0, 0⟩, ⟨0, 0⟩, ""⟩⟩,
   ⟨1000, .disableClient "reader" "meter"⟩,
   ⟨1000, .disableClient "owner" "meter"⟩]

/-- Three of the four visits leave a record, and these tell the meter, its status and two policies
on it. -/
theorem replay_eq_ledger_meter :
    let s : Site World MemoryLog := fresh (.empty 60000000000 0) .empty
    let t := (s.attend .memory MemoryLog.eventLog (Layer.journaled {} (Engine.serve .named))
      (meterVisits.map Visit.meeting)).2
    Ledger.replay (t.outbox.log.records "corral.auth") = t.backing.store.ledger ∧
      (t.outbox.log.records "corral.auth").length = 3 ∧
      t.backing.store.ledger.policies.keys = [⟨"owner", "meter"⟩, ⟨"reader", "meter"⟩] ∧
      t.backing.store.ledger.clients.entries = [("meter", ⟨"owner", .disabled⟩)] := by
  have hfits : (MemoryLog.empty.records "corral.auth").length + meterVisits.length ≤ 1000000 := by
    decide
  have htakes : MemoryLog.eventLog.Takes (·.records "corral.auth") {} meterVisits.length .empty :=
    MemoryLog.takes (c := {}) rfl rfl (Or.inr hfits)
  have htells := replay_eq_ledger .named meterVisits
    (s := fresh (.empty 60000000000 0) MemoryLog.empty) (.refl _) (fun _ => rfl) rfl htakes
  exact ⟨htells, by decide +kernel, by decide +kernel, by decide +kernel⟩

end Site

end Gatehouse
