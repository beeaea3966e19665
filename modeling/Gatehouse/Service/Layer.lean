import Gatehouse.Service.Engine
import Gatehouse.Service.Event

/-!
# Gatehouse.Service.Layer — what is wrapped around the engine

A layer turns a service into another one that answers every operation alike and does something
besides: `journaled` publishes the event of every change, `logged` remarks on every call, and
`measured` counts it.  `compose` is the engine within all three.

A layer sees of an operation what its caller sees, the question and the outcome.  None of them asks
the store or the caches anything, and none looks at an outcome other than to tell success from
failure, or to make a record of an answer; so what the engine answers comes out of the composed
service unchanged (`Gatehouse.Proofs.Service.Compose`).

The order matters in one place.  The journal is innermost, so the time that a publisher takes is
part of the time of the call, which `measured` and `logged` each take by the clock on both sides.
-/

namespace Gatehouse

open Procedure

/-- The outcome of a procedure, which is an answer of its own. -/
def Procedure.outcome {α : Type} (p : Procedure α) : Procedure (Except ApiError α) :=
  ExceptT.lift p.run

namespace Layer

/-- The target of the remarks on events. -/
def eventTarget : String := "corral_server::service::events"

/-- The target of the remarks on calls. -/
def callTarget : String := "corral_server::service::logging"

/-- Publishes an event; one that cannot be encoded is dropped with a remark. -/
def publishEvent (c : PublisherConfig) (e : Event) : Procedure Unit := do
  let time ← now
  match ← publishing (Journal.publishEncoded c (.ok (e.encode time))) with
  | .ok () => return ()
  | .error e => note (.remark .warn eventTarget "event dropped" [("error", .text e.message)])

/-- Publishes the event of every operation that is answered.  An operation that fails ends
before. -/
def journaled (c : PublisherConfig) (inner : Service Procedure) : Service Procedure := fun op => do
  let answer ← inner op
  if let some event := op.event answer then publishEvent c event
  return answer

/-- The remark on a call and its outcome. -/
def callRemark (method : String) (micros : Nat) : Option ApiError → TraceEntry
  | none =>
    .remark .debug callTarget "call completed"
      [("method", .text method), ("elapsed_us", .number micros)]
  | some e =>
    .remark .warn callTarget "call failed"
      [("method", .text method), ("elapsed_us", .number micros), ("error", .text e.message)]

/-- The error of an outcome. -/
def errorOf {α : Type} : Except ApiError α → Option ApiError
  | .ok _ => none
  | .error e => some e

/-- Remarks on every call. -/
def logged (inner : Service Procedure) : Service Procedure := fun op => do
  let start ← clock
  let outcome ← (inner op).outcome
  let stop ← clock
  note (callRemark op.method (Metrics.microsOf (stop - start)) (errorOf outcome))
  ofExcept id outcome

/-- Counts every call. -/
def measured (inner : Service Procedure) : Service Procedure := fun op => do
  let start ← clock
  let outcome ← (inner op).outcome
  let stop ← clock
  let _ ← step (.countCall op.method (stop - start) (errorOf outcome).isSome)
  ofExcept id outcome

end Layer

/-- The engine within all layers: this is the service that is asked over HTTP and by commands. -/
def compose (tokens : TokenIssuer) (c : PublisherConfig) : Service Procedure :=
  Layer.measured (Layer.logged (Layer.journaled c (Engine.serve tokens)))

end Gatehouse
