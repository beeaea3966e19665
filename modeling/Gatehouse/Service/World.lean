import Gatehouse.Journal.Memory
import Gatehouse.Metrics
import Gatehouse.Service.Call
import Gatehouse.Store.Memory

/-!
# Gatehouse.Service.World — surroundings held in memory

A `World` is everything that the service can touch: a store, caches, an outbox, a clock, counts, and
the remarks so far.  `World.answer` says what each step of the service is told and what it leaves
behind; `World.run` runs a procedure.

Steps can be planned to fail by the name of their call.  A step that fails so has no effect.

The clock stands still while a procedure runs, so a world is run at a time, and time passes between
runs: a history is a list of such runs.  Names are drawn from a counter, which makes them differ
from one another without any of them being random.  The log of the outbox has the two switches of a
`MemoryLog`, so that a world can be one in which records wait.

What a step does is one function of the step and the world, `World.answer`.  All invariants of the
service are proved as invariants of this function first, one case for each kind of step, and carried
over to runs by induction on programs.
-/

namespace Gatehouse

open Gatehouse.Time

/-- The surroundings of the service.  The remarks are newest first, `ids` counts the names given
out, and `faults` are the calls that fail. -/
structure World where
  store : Store
  caches : Caches
  outbox : Outbox MemoryLog
  clock : Nat
  ids : Nat
  metrics : Metrics
  trace : List TraceEntry
  faults : List String

/-! ## Fresh names -/

/-- The hexadecimal digits of a number, exactly `width` of them from the right. -/
def hexDigits (width n : Nat) : List Char :=
  let digits := Nat.toDigits 16 n
  List.replicate (width - digits.length) '0' ++ digits.drop (digits.length - width)

/-- The name of a number: five groups of hexadecimal digits, the third of which begins with the
version of such names and the fourth with their variant. -/
def freshName (n : Nat) : String :=
  let field (width shift : Nat) := hexDigits width (n >>> shift)
  String.ofList
    (field 8 88 ++ '-' :: field 4 72 ++ '-' :: '4' :: field 3 60 ++
      '-' :: '8' :: field 3 48 ++ '-' :: field 12 0)

namespace World

/-- Surroundings with empty caches that keep their entries for some nanoseconds. -/
def empty (cacheTtl clock : Nat) : World :=
  { store := ∅
    caches := .empty cacheTtl cacheTtl cacheTtl
    outbox := ⟨.empty, []⟩
    clock
    ids := 0
    metrics := .empty
    trace := []
    faults := [] }

/-- The world after a remark. -/
def remark (w : World) (e : TraceEntry) : World := { w with trace := e :: w.trace }

/-- What is said of a call that was planned to fail. -/
def faultText (name : String) : String := s!"{name} failed"

/-- The answer of the store, unless the call is planned to fail.  The store takes the time of the
world, for a change of status sets the time of its update itself. -/
def answerStore (c : StoreCall) (w : World) : c.Reply × World :=
  if w.faults.contains c.name then (.error (.internal (faultText c.name)), w)
  else
    let (reply, store) := w.store.answer (.ofNanos w.clock) c
    (reply, { w with store })

/-- The answer of the caches, unless the call is planned to fail. -/
def answerCache (c : CacheCall) (w : World) : c.Reply × World :=
  if w.faults.contains c.name then (.error (.unavailable (faultText c.name)), w)
  else
    let (value, caches) := w.caches.answer w.clock c
    (.ok value, { w with caches })

/-- The answer to a step of the publisher; its remarks join those of the service. -/
def answerJournal : (c : JournalCall) → World → c.Reply × World
  | .note e, w => ((), w.remark e)
  | c, w =>
    let (reply, outbox) := w.outbox.answer MemoryLog.eventLog c
    (reply, { w with outbox })

/-- The answer to a step of the service. -/
def answer : (c : ServiceCall) → World → c.Reply × World
  | .store c, w => w.answerStore c
  | .cache c, w => w.answerCache c
  | .journal c, w => w.answerJournal c
  | .clock, w => ((w.clock : Nat), w)
  | .freshId, w => ((freshName w.ids : String), { w with ids := w.ids + 1 })
  | .note e, w => ((), w.remark e)
  | .countLookup hit, w => ((), { w with metrics := w.metrics.countLookup hit })
  | .countCall method nanos failed, w =>
    ((), { w with metrics := w.metrics.countCall method nanos failed })
  | .countRequest, w => ((), { w with metrics := w.metrics.countRequest })
  | .countOutcome succeeded, w => ((), { w with metrics := w.metrics.countOutcome succeeded })
  | .counts, w => (w.metrics, w)

/-- Runs a procedure. -/
def run {α : Type} (p : Procedure α) (w : World) : Except ApiError α × World :=
  Program.run World.answer p.run w

/-- One pass over the queue of the publisher. -/
def drain (c : PublisherConfig) (w : World) : Nat × World :=
  Program.run World.answerJournal (I := journal) (Journal.drain c w.outbox.pending.length) w

end World

end Gatehouse
