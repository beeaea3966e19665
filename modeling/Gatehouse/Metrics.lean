import Gatehouse.Table
import Gatehouse.Word

/-!
# Gatehouse.Metrics — what the service counts

Requests and their outcomes, look-ups in the policy cache, and for every method how often it was
called, how often it failed and how long it took.  Durations are whole microseconds in 64 bits: one
call counts for at most the largest such number, and sums wrap.

`Metrics.render` writes all counts in the text format in which they are collected.

Counts never decide anything: no operation reads them, and a step that counts is answered with
nothing.  Methods are named by the layer that counts them (`Gatehouse.Service.Layer`), and a method
that was never called is not listed.  The methods stand in order of their names, as a table keeps
them, so that what is written depends on what was counted and not on when.
-/

namespace Gatehouse

/-- What is counted of one method. -/
structure MethodStats where
  calls : Nat
  errors : Nat
  micros : Nat
deriving DecidableEq, Repr, Inhabited

/-- All counts. -/
structure Metrics where
  requests : Nat
  successes : Nat
  errors : Nat
  cacheHits : Nat
  cacheMisses : Nat
  methods : Table String MethodStats
deriving DecidableEq

namespace Metrics

/-- Nothing counted yet. -/
def empty : Metrics := ⟨0, 0, 0, 0, 0, ∅⟩

instance : Inhabited Metrics := ⟨empty⟩

/-! ## Counting -/

/-- The counts after a look-up in the policy cache. -/
def countLookup (m : Metrics) (hit : Bool) : Metrics :=
  if hit then { m with cacheHits := m.cacheHits + 1 }
  else { m with cacheMisses := m.cacheMisses + 1 }

/-- The counts after a request has come in. -/
def countRequest (m : Metrics) : Metrics := { m with requests := m.requests + 1 }

/-- The counts after a request has been answered. -/
def countOutcome (m : Metrics) (succeeded : Bool) : Metrics :=
  if succeeded then { m with successes := m.successes + 1 } else { m with errors := m.errors + 1 }

/-- What has been counted of a method. -/
def statsOf (m : Metrics) (method : String) : MethodStats :=
  (m.methods.lookup method).getD ⟨0, 0, 0⟩

/-- The whole microseconds of a duration in nanoseconds, at most the largest number of 64 bits. -/
def microsOf (nanos : Nat) : Nat := min (nanos / 1000) (Word.bound 64 - 1)

/-- The counts after a call of a method that took some nanoseconds. -/
def countCall (m : Metrics) (method : String) (nanos : Nat) (failed : Bool) : Metrics :=
  let stats := m.statsOf method
  let stats : MethodStats :=
    { calls := stats.calls + 1
      errors := if failed then stats.errors + 1 else stats.errors
      micros := (stats.micros + microsOf nanos) % Word.bound 64 }
  { m with methods := m.methods.insert method stats }

/-! ## Writing -/

/-- The two lines that announce a counter. -/
def announce (name help : String) : List String :=
  [s!"# HELP {name} {help}", s!"# TYPE {name} counter"]

/-- The lines of a counter. -/
def counter (name help : String) (value : Nat) : List String :=
  announce name help ++ [s!"{name} {value}"]

/-- The lines of a counter that every method has one of. -/
def counterByMethod (m : Metrics) (name help : String) (value : MethodStats → Nat) : List String :=
  announce name help ++ m.methods.entries.map fun (method, stats) =>
    s!"{name}\x7bmethod=\"{method}\"\x7d {value stats}"

/-- All counts, line by line. -/
def lines (m : Metrics) : List String :=
  counter "corral_requests_total" "Total number of HTTP requests." m.requests ++
  counter "corral_requests_success_total" "Total successful HTTP requests." m.successes ++
  counter "corral_requests_error_total" "Total failed HTTP requests." m.errors ++
  counter "corral_policy_cache_hits_total" "Policy cache hits." m.cacheHits ++
  counter "corral_policy_cache_misses_total" "Policy cache misses." m.cacheMisses ++
  m.counterByMethod "corral_method_calls_total" "Engine calls per method." (·.calls) ++
  m.counterByMethod "corral_method_errors_total" "Failed engine calls per method." (·.errors) ++
  m.counterByMethod "corral_method_duration_microseconds_total" "Time spent per method." (·.micros)

/-- All counts as one text. -/
def render (m : Metrics) : String := String.join (m.lines.map (· ++ "\n"))

end Metrics

end Gatehouse
