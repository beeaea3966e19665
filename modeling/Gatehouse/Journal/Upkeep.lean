import Gatehouse.Journal.Memory

/-!
# Gatehouse.Journal.Upkeep — the background work of a publisher

While a publisher is in use, its queue is worked off in the background.  The work waits for a
ticker, which is due at once and then after every drain interval, and for shutdown.  Each time the
ticker is due it makes a pass over the queue; at shutdown it makes one more pass and stops.  On a
pass it hears neither the ticker nor shutdown, so no pass is broken off.

A pass ends with the queue or with the first append that fails, and others may fill the queue
meanwhile: there is no bound on its length.  It is therefore taken in parts, each of which delivers
one record and says whether the pass goes on.

So the work is a `Stage` and not a program: a program ends, and this does not unless it is told to.
`Stage.step` takes the next step of the part that it is on, or begins the next part, and
`Upkeep.wake` gives it a signal while it waits.  Both are functions, and who calls them when,
between which steps of others, is left to the course of events that a theorem is about.

* `beginPass`, `continuePass` and `endPass` are the parts of a pass, `farewell` what follows the
  last.
* `Upkeep.start` is the work as it begins.
-/

namespace Gatehouse

namespace Journal

/-! ## The parts of a pass -/

/-- What becomes of a record that is out of the queue, going by the answer of the log: whether it
was appended. -/
def settle (r : Record) : Except EventError Unit → Program journal Bool
  | .ok () => return true
  | .error e => do
    let remaining ← push r
    note .warn "event replay interrupted"
      [("error", .text e.message), ("remaining", .number remaining)]
    return false

/-- Takes the newest record out of the queue and appends it, or puts it back. -/
def deliver (c : PublisherConfig) : Program journal Bool := do
  match ← pop with
  | none => return false
  | some r => settle r (← append c r)

/-- How a part of a pass ends: the pass goes on after so many records, or it has ended. -/
inductive Part where
  | onward (drained : Nat)
  | ended
deriving DecidableEq, Repr

/-- The first part of a pass: without the log there is none. -/
def beginPass (c : PublisherConfig) : Program journal Part := do
  match ← probe c with
  | .error _ => return .ended
  | .ok () => return .onward 0

/-- The end of a pass that has appended so many records. -/
def endPass (drained : Nat) : Program journal Part := do
  if 0 < drained then
    note .info "replayed buffered events" [("drained", .number drained)]
  return .ended

/-- A part of a pass that has appended so many records. -/
def continuePass (c : PublisherConfig) (drained : Nat) : Program journal Part := do
  if ← deliver c then return .onward (drained + 1) else endPass drained

/-- The remark after the last pass. -/
def farewell (pending : Nat) : Program journal Unit :=
  note .info "event publisher stopped" [("pending", .number pending)]

/-! ## The work -/

/-- Where the background work stands: it waits, it is on a pass, which may be the last, it takes its
leave, or it has stopped.  Without a drain interval there is no ticker, and it fails at once. -/
inductive Stage where
  | waiting
  | passing (last : Bool) (rest : Program journal Part)
  | leaving (rest : Program journal Unit)
  | stopped
  | failed

/-- What the background work waits for. -/
inductive Signal where
  | tick
  | shutdown
deriving DecidableEq, Repr

/-- The next step of a pass and of the leave after it. -/
def Stage.step {σ : Type} (L : EventLog σ) (c : PublisherConfig) :
    Stage → Outbox σ → Stage × Outbox σ
  | .passing last (.ask call next), o =>
    let (reply, o) := Outbox.answer L call o
    (.passing last (next reply), o)
  | .passing last (.done (.onward drained)), o => (.passing last (continuePass c drained), o)
  -- a pass that has ended is followed by waiting, and the last one by the leave
  | .passing false (.done .ended), o => (.waiting, o)
  | .passing true (.done .ended), o => (.leaving (farewell o.pending.length), o)
  | .leaving (.ask call next), o =>
    let (reply, o) := Outbox.answer L call o
    (.leaving (next reply), o)
  | .leaving (.done ()), o => (.stopped, o)
  | .waiting, o => (.waiting, o)
  | .stopped, o => (.stopped, o)
  | .failed, o => (.failed, o)

/-- The background work of a publisher, and the time at which its ticker is due next. -/
structure Upkeep where
  stage : Stage
  due : Nat

namespace Upkeep

/-- The work that begins at a time. -/
def start (c : PublisherConfig) (now : Nat) : Upkeep :=
  ⟨if c.drainInterval = 0 then .failed else .waiting, now⟩

/-- The work when it is given a signal.  A tick counts once it is due, and shutdown once it is asked
for; a ticker that is late does not skip a tick. -/
def wake (c : PublisherConfig) (now : Nat) (asked : Bool) (s : Signal) (u : Upkeep) : Upkeep :=
  match u.stage, s with
  | .waiting, .tick =>
    if u.due ≤ now then ⟨.passing false (beginPass c), u.due + c.drainInterval⟩ else u
  | .waiting, .shutdown =>
    if asked then { u with stage := .passing true (beginPass c) } else u
  | _, _ => u

/-- The work after its next step. -/
def step {σ : Type} (L : EventLog σ) (c : PublisherConfig) (u : Upkeep) (o : Outbox σ) :
    Upkeep × Outbox σ :=
  let (stage, o) := u.stage.step L c o
  ({ u with stage }, o)

end Upkeep

end Journal

end Gatehouse
