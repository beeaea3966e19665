import Gatehouse.Journal

/-!
# Gatehouse.Journal.Memory — event logs and the queue before them

An `EventLog` answers probes and appends from a state of its own.  `MemoryLog` is one that is held
in memory, with two switches for outages.  An `Outbox` is a log with the queue of the records that
wait for it; it answers every step of a publisher.

What publishers do is proved for every `EventLog`: a log may fail when it likes, and it may even
have appended a record that it says it has not.  Only where a result needs more of a log, that it
answers, or keeps what it was given, is this said of the log in question.  The two switches of a
`MemoryLog` are the two ways in which a log can be away that a publisher can tell apart: at the
probe, or only at the append behind it.
-/

namespace Gatehouse

/-! ## Event logs -/

/-- How a log with state `σ` answers a probe with a time limit and an append with a length limit. -/
structure EventLog (σ : Type) where
  probe : Nat → σ → Except EventError Unit × σ
  append : String → Record → Nat → σ → Except EventError Unit × σ

/-- A log in memory.  While it is not available both probes and appends fail; while it is failing
only appends do. -/
structure MemoryLog where
  streams : Table String (List Record)
  available : Bool
  failing : Bool
deriving DecidableEq

namespace MemoryLog

/-- The log without records and without an outage. -/
def empty : MemoryLog := ⟨∅, true, false⟩

instance : Inhabited MemoryLog := ⟨empty⟩

/-- The records of a stream, oldest first. -/
def records (log : MemoryLog) (stream : String) : List Record :=
  (log.streams.lookup stream).getD []

/-- Keeps the latest `maxLen` records; zero keeps all. -/
def trim (maxLen : Nat) (records : List Record) : List Record :=
  if maxLen = 0 then records else records.drop (records.length - maxLen)

/-- Whether the log is there. -/
def ping (log : MemoryLog) : Except EventError Unit :=
  if log.available then return () else throw (.unavailable "in-memory log switched off")

/-- The log with one more record at the end of a stream. -/
def append (log : MemoryLog) (stream : String) (r : Record) (maxLen : Nat) :
    Except EventError MemoryLog := do
  log.ping
  if log.failing then throw (.append "in-memory append rejected")
  let records := trim maxLen (log.records stream ++ [r])
  return { log with streams := log.streams.insert stream records }

/-- A log in memory as an event log. -/
def eventLog : EventLog MemoryLog where
  probe _ log := (log.ping, log)
  append stream r maxLen log :=
    match log.append stream r maxLen with
    | .ok log' => (.ok (), log')
    | .error e => (.error e, log)

end MemoryLog

/-! ## Outboxes -/

/-- A log and the records that wait for it, newest first. -/
structure Outbox (σ : Type) where
  log : σ
  pending : List Record
deriving DecidableEq

namespace Outbox

variable {σ : Type}

/-- The answer to a step of a publisher.  Remarks are not kept. -/
def answer (L : EventLog σ) : (c : JournalCall) → Outbox σ → c.Reply × Outbox σ
  | .probe timeout, o =>
    let (reply, log) := L.probe timeout o.log
    (reply, { o with log })
  | .append stream r maxLen, o =>
    let (reply, log) := L.append stream r maxLen o.log
    (reply, { o with log })
  | .push r, o => ((o.pending.length + 1 : Nat), { o with pending := r :: o.pending })
  | .pop, o => match o.pending with
    | [] => (none, o)
    | r :: rest => (some r, { o with pending := rest })
  | .note _, o => ((), o)

/-- Runs a publisher's program. -/
def run {α : Type} (L : EventLog σ) (p : Program journal α) (o : Outbox σ) : α × Outbox σ :=
  p.run (Outbox.answer L) o

/-- One pass over the whole queue, with as much fuel as there are records in it. -/
def drain (L : EventLog σ) (c : PublisherConfig) (o : Outbox σ) : Nat × Outbox σ :=
  o.run L (Journal.drain c o.pending.length)

end Outbox

end Gatehouse
