import Gatehouse.Error
import Gatehouse.Journal
import Gatehouse.Metrics
import Gatehouse.Store

/-!
# Gatehouse.Service.Call — the surroundings of the service

An operation of the service is a `Procedure`: a program over one interface that joins the store, the
caches, the event log, a clock, a source of fresh names, and the places where remarks and counts go.
A procedure ends in an answer or in an `ApiError`.

The steps differ in what a failure means.  The store may fail, and its error becomes the error of
the procedure at once (`Procedure.store`).  A cache may fail too, but its failure is handed to the
procedure as an answer (`Procedure.cache`), since no operation fails for want of a cache.  The event
log fails inside the publisher only, which keeps the record.  The clock, names, remarks and counts
never fail.

Whoever answers these steps decides what the service runs on: a `World` in memory, the program's
host, or a rehearsal in which calls fail on demand.
-/

namespace Gatehouse

/-! ## The interface -/

/-- One step of the service into its surroundings. -/
inductive ServiceCall where
  | store (c : StoreCall)
  | cache (c : CacheCall)
  | journal (c : JournalCall)
  | clock
  | freshId
  | note (e : TraceEntry)
  | countLookup (hit : Bool)
  | countCall (method : String) (nanos : Nat) (failed : Bool)
  | countRequest
  | countOutcome (succeeded : Bool)
  | counts
deriving DecidableEq

/-- What each step is answered with; a clock tells nanoseconds since 1970. -/
def ServiceCall.Reply : ServiceCall → Type
  | store c => c.Reply
  | cache c => c.Reply
  | journal c => c.Reply
  | clock => Nat
  | freshId => String
  | note _ => Unit
  | countLookup _ => Unit
  | countCall _ _ _ => Unit
  | countRequest => Unit
  | countOutcome _ => Unit
  | counts => Metrics

/-- The interface between the service and its surroundings. -/
def service : Interface := ⟨ServiceCall, ServiceCall.Reply⟩

/-- A computation of the service that may end in an error. -/
abbrev Procedure (α : Type) := ExceptT ApiError (Program service) α

namespace Procedure

open Gatehouse.Time

/-! ## Steps -/

/-- One step. -/
def step (c : ServiceCall) : Procedure c.Reply :=
  ExceptT.lift (Program.query (I := service) c)

/-- One request to the store. -/
def store (c : StoreCall) : Procedure c.Value :=
  ExceptT.mk do
    let reply : Except StorageError c.Value ← Program.query (I := service) (.store c)
    return reply.mapError .ofStorage

/-- One request to the caches, whose failure is an answer. -/
def cache (c : CacheCall) : Procedure (Except CacheError c.Value) := step (.cache c)

/-- The time in nanoseconds since 1970. -/
def clock : Procedure Nat := step .clock

/-- The time as an instant. -/
def now : Procedure Timestamp := do
  let nanos ← clock
  return .ofNanos nanos

/-- A name that no entity has. -/
def freshId : Procedure String := step .freshId

/-- A remark. -/
def note (e : TraceEntry) : Procedure Unit := step (.note e)

/-- A program of a publisher. -/
def publishing {α : Type} (p : Program journal α) : Procedure α :=
  ExceptT.lift (p.interpret fun c => Program.query (I := service) (.journal c))

/-- The value of a computation without steps. -/
def ofExcept {ε α : Type} (convert : ε → ApiError) (r : Except ε α) : Procedure α :=
  ExceptT.mk (return r.mapError convert)

end Procedure

end Gatehouse
