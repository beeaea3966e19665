/-!
# Gatehouse.Trace — what the service says about itself

Every remark is a `TraceEntry`: a level, a target by which it can be selected, and named fields of
which `message` holds its text.  Remarks on who did what go to the target `audit`; they never repeat
a token.

A remark is a step of a program like any other, so which remarks an operation makes, and in which
order with its changes, can be stated of the operation.  Whether anybody sees a remark is decided
outside, by a `Filter`, and no operation depends on it.
-/

namespace Gatehouse

/-- How much a remark matters, most first. -/
inductive Level where
  | error
  | warn
  | info
  | debug
  | trace
deriving DecidableEq, Repr

namespace Level

/-- The written name of a level. -/
def name : Level → String
  | error => "ERROR"
  | warn => "WARN"
  | info => "INFO"
  | debug => "DEBUG"
  | trace => "TRACE"

/-- The rank of a level, from one for the most important. -/
def rank : Level → Nat
  | error => 1
  | warn => 2
  | info => 3
  | debug => 4
  | trace => 5

end Level

/-- The value of a field. -/
inductive FieldValue where
  | text (s : String)
  | number (n : Nat)
  | flag (b : Bool)
deriving DecidableEq, Repr

/-- A remark. -/
structure TraceEntry where
  level : Level
  target : String
  fields : List (String × FieldValue)
deriving DecidableEq, Repr

namespace TraceEntry

/-- The target of remarks on who did what. -/
def auditTarget : String := "audit"

/-- Whether a remark is about who did what. -/
def isAudit (e : TraceEntry) : Bool := e.target = auditTarget

/-- A remark with a text and further fields. -/
def remark (level : Level) (target message : String)
    (fields : List (String × FieldValue)) : TraceEntry :=
  ⟨level, target, ("message", .text message) :: fields⟩

/-- A remark on who did what. -/
def audit (event message : String) (fields : List (String × FieldValue)) : TraceEntry :=
  remark .info auditTarget message (("event", .text event) :: fields)

/-- The remark on a credential that was not accepted; the reason does not repeat it. -/
def authFailure (reason : String) : TraceEntry :=
  remark .warn auditTarget "authentication failed"
    [("event", .text "auth_failure"), ("reason", .text reason)]

end TraceEntry

end Gatehouse
