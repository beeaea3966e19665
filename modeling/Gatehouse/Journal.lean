import Gatehouse.Program
import Gatehouse.Table
import Gatehouse.Trace

/-!
# Gatehouse.Journal — publishing records to an event log

A record of every change is appended to a stream of an event log.  The log may be away: before every
append it is probed, and a record that cannot be appended right away waits in a queue.  `drain`
makes one pass over that queue, newest first.

A record leaves the queue while its append is under way and goes back on failure, so a record is
always in exactly one place: in the log, in the queue, or held by one call.

* `publish` never fails because the log is away.
* `drain` stops at the first append that fails.

A publisher is a program over `JournalCall`: questions to the log, steps on the queue, and remarks.
Each of these is one step, and between two of them others may take theirs, so that a publisher that
is interrupted anywhere has told exactly what it has done so far.  This is what conservation of
records is stated about: `Gatehouse.Proofs.Journal.Conservation` counts, over any interleaving of
publishers, what each of them holds.

The queue has no bound and no order of its own: a record that has been put back is the newest again.
How long a pass may take is therefore given to it as fuel, and the length of the queue is enough if
nobody adds to it meanwhile.
-/

namespace Gatehouse

/-! ## Records and errors -/

/-- What is written to a stream: named texts. -/
abbrev Record := Table String String

/-- Why a record was not written. -/
inductive EventError where
  | encoding (text : String)
  | unavailable (text : String)
  | append (text : String)
deriving DecidableEq, Repr

/-- The text of an event error. -/
def EventError.message : EventError → String
  | encoding text => s!"event encoding failed: {text}"
  | unavailable text => s!"event log unavailable: {text}"
  | append text => s!"append failed: {text}"

/-- The error of a probe that was not answered in time. -/
def EventError.probeTimedOut : EventError := .unavailable "health probe timed out"

/-- Where and how records are published.  Times are milliseconds; a stream is trimmed to `maxLen`
records, and not at all if that is zero. -/
structure PublisherConfig where
  stream : String := "corral.auth"
  maxLen : Nat := 1000000
  probeTimeout : Nat := 100
  drainInterval : Nat := 5000
deriving DecidableEq, Repr

/-! ## The surroundings of a publisher -/

/-- One step of a publisher: a question to the log, a step on the queue, or a remark. -/
inductive JournalCall where
  | probe (timeout : Nat)
  | append (stream : String) (r : Record) (maxLen : Nat)
  | push (r : Record)
  | pop
  | note (e : TraceEntry)
deriving DecidableEq

namespace JournalCall

/-- What each step is answered with.  A push is told how many records wait after it, and a pop takes
the newest of them. -/
def Reply : JournalCall → Type
  | probe _ => Except EventError Unit
  | append _ _ _ => Except EventError Unit
  | push _ => Nat
  | pop => Option Record
  | note _ => Unit

end JournalCall

/-- The interface between a publisher and its surroundings. -/
def journal : Interface := ⟨JournalCall, JournalCall.Reply⟩

namespace Journal

/-- The target of the remarks of a publisher. -/
def target : String := "corral_events::publisher"

/-- A remark of a publisher. -/
def note (level : Level) (message : String) (fields : List (String × FieldValue)) :
    Program journal Unit :=
  Program.query (I := journal) (.note (.remark level target message fields))

/-- Asks whether the log is there. -/
def probe (c : PublisherConfig) : Program journal (Except EventError Unit) :=
  Program.query (I := journal) (.probe c.probeTimeout)

/-- Appends a record to the configured stream. -/
def append (c : PublisherConfig) (r : Record) : Program journal (Except EventError Unit) :=
  Program.query (I := journal) (.append c.stream r c.maxLen)

/-- Puts a record into the queue; the answer is the number of records that wait then. -/
def push (r : Record) : Program journal Nat := Program.query (I := journal) (.push r)

/-- Takes the newest record out of the queue. -/
def pop : Program journal (Option Record) := Program.query (I := journal) .pop

/-! ## Publishing -/

/-- Puts a record into the queue because of an error. -/
def keep (reason : String) (e : EventError) (r : Record) : Program journal Unit := do
  note .warn reason [("error", .text e.message)]
  let _ ← push r

/-- Appends a record, or keeps it for later.  A log that does not answer the probe is not asked to
append, since an append may wait for longer than a probe. -/
def publish (c : PublisherConfig) (r : Record) : Program journal Unit := do
  match ← probe c with
  | .error e => keep "event log unhealthy, buffering record" e r
  | .ok () =>
    match ← append c r with
    | .error e => keep "event append failed, buffering record" e r
    | .ok () => return ()

/-- Publishes what an encoding gives; only its own error is one. -/
def publishEncoded (c : PublisherConfig) :
    Except EventError Record → Program journal (Except EventError Unit)
  | .error e => return .error e
  | .ok r => do
    publish c r
    return .ok ()

/-! ## Draining -/

/-- Appends waiting records, at most as many as there is fuel, after `drained` ones before them. -/
def drainFrom (c : PublisherConfig) : Nat → Nat → Program journal Nat
  | 0, drained => return drained
  | fuel + 1, drained => do
    match ← pop with
    | none => return drained
    | some r =>
      match ← append c r with
      | .ok () => drainFrom c fuel (drained + 1)
      | .error e =>
        -- the record goes back before anything else happens, to where it was taken from
        let remaining ← push r
        note .warn "event replay interrupted"
          [("error", .text e.message), ("remaining", .number remaining)]
        return drained

/-- One pass over the queue, newest first: the number of records that were appended, at most as many
as there is fuel. -/
def drain (c : PublisherConfig) (fuel : Nat) : Program journal Nat := do
  match ← probe c with
  | .error _ => return 0
  | .ok () =>
    let drained ← drainFrom c fuel 0
    if 0 < drained then
      note .info "replayed buffered events" [("drained", .number drained)]
    return drained

end Journal

end Gatehouse
