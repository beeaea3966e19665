import Gatehouse.Journal.Memory

/-!
# Gatehouse.Journal.Rehearsal — outages in virtual time

A `RehearsalLog` is a log in memory under a clock that stands still but for the time that probes
take.  Probes can be slowed down, appends can be made to run out, and an outage can be planned to
end at a given time.  Every probe and every append is counted, whether or not it succeeds.

`replay` runs the background work of a publisher against such a log: a pass over the queue at once,
one after each drain interval, and a last one when the time is up.  A pass that is late is followed
by the next one without a pause.

Nothing here happens at once with anything else, which makes the outcome of a replay a value.  The
background work proper is `Gatehouse.Journal.Upkeep`, where every step may stand between the steps
of others; `Gatehouse.Proofs.Journal.Rehearsal` proves that a replay is one of the courses that this
work can take, with the signals given to it when they are due.
-/

namespace Gatehouse

/-- A log in memory with a clock in milliseconds and planned faults. -/
structure RehearsalLog where
  memory : MemoryLog
  clock : Nat
  pingDelay : Nat
  budget : Option Nat
  returnsAt : Option Nat
  pings : Nat
  appends : Nat

namespace RehearsalLog

/-- The log without records, faults and delays. -/
def empty : RehearsalLog := ⟨.empty, 0, 0, none, none, 0, 0⟩

/-- Switches the log on when the planned end of its outage has come. -/
def settle (log : RehearsalLog) : RehearsalLog :=
  match log.returnsAt with
  | some time =>
    if time ≤ log.clock then
      { log with memory := { log.memory with available := true }, returnsAt := none }
    else log
  | none => log

/-- Lets time pass. -/
def wait (log : RehearsalLog) (duration : Nat) : RehearsalLog :=
  { log with clock := log.clock + duration }.settle

/-- Asks whether the log is there, and waits for the answer as long as it takes. -/
def ping (log : RehearsalLog) : Except EventError Unit × RehearsalLog :=
  let log := { log with pings := log.pings + 1 }.wait log.pingDelay
  (log.memory.ping, log)

/-- Asks whether the log is there, and waits for the answer up to a time limit. -/
def probe (timeout : Nat) (log : RehearsalLog) : Except EventError Unit × RehearsalLog :=
  if log.pingDelay ≤ timeout then log.ping
  else (.error .probeTimedOut, { log with pings := log.pings + 1 }.wait timeout)

/-- Appends a record, if there are appends left. -/
def append (stream : String) (r : Record) (maxLen : Nat) (log : RehearsalLog) :
    Except EventError Unit × RehearsalLog :=
  let log := { log with appends := log.appends + 1 }
  match log.budget with
  | some 0 => (.error (.append "budget spent"), log)
  | budget =>
    let (reply, memory) := MemoryLog.eventLog.append stream r maxLen log.memory
    (reply, { log with memory, budget := budget.map (· - 1) })

/-- A rehearsal log as an event log. -/
def eventLog : EventLog RehearsalLog := ⟨probe, append⟩

end RehearsalLog

namespace Outbox

/-- Lets time pass. -/
def wait (duration : Nat) (o : Outbox RehearsalLog) : Outbox RehearsalLog :=
  { o with log := o.log.wait duration }

/-- One pass over the whole queue, without its count. -/
def pass (c : PublisherConfig) (o : Outbox RehearsalLog) : Outbox RehearsalLog :=
  (o.drain RehearsalLog.eventLog c).2

/-- Passes over the queue, the next at `tick`, until the time is up; one last pass follows.  There
are at most as many passes before it as there is fuel. -/
def replayFrom (c : PublisherConfig) (deadline : Nat) :
    Nat → Nat → Outbox RehearsalLog → Outbox RehearsalLog
  | 0, _, o => o.pass c
  | fuel + 1, tick, o =>
    let now := o.log.clock
    -- a tick at the deadline itself is not made: the last pass takes its place
    if deadline ≤ max now tick then (o.wait (deadline - now)).pass c
    else replayFrom c deadline fuel (tick + c.drainInterval) ((o.wait (tick - now)).pass c)

/-- The background work of a publisher for some milliseconds, during which an outage may end at a
time counted from the beginning. -/
def replay (c : PublisherConfig) (duration : Nat) (returnsAt : Option Nat)
    (o : Outbox RehearsalLog) : Outbox RehearsalLog :=
  let start := o.log.clock
  let o := { o with log := { o.log with returnsAt := returnsAt.map (start + ·) }.settle }
  let o := replayFrom c (start + duration) (duration + 1) start o
  { o with log := match o.log.returnsAt with
      | some time => o.log.wait (time - o.log.clock)
      | none => o.log }

end Outbox

end Gatehouse
