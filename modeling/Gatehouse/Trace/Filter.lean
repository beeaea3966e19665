import Gatehouse.Text.Digits
import Gatehouse.Text.Blank
import Gatehouse.Text.Split
import Gatehouse.Trace

/-!
# Gatehouse.Trace.Filter — which remarks are written

A filter is written as directives between commas, each of the form `target[span{field}]=level` with
most parts optional: a level alone is for all targets, a target alone lets every level through.  Of
the directives that are about a remark the most specific one decides: the longest target, then the
most fields, then the last written.  A remark that none is about is dropped.

Remarks stand in no spans, so a directive for a span or for the value of a field is about none.

A filter may come from the environment or from the configuration, and the two are read differently:
of the first every directive must be readable (`Filter.read?`), or the second is used instead, of
which directives that cannot be read are passed over (`Filter.readAny`).  In neither case does a
wrong filter keep the program from running.
-/

namespace Gatehouse

open Gatehouse.Text

/-- The level up to which remarks are written, if any are. -/
abbrev Threshold := Option Level

/-- The threshold of a name in any case, or of a number from zero to five. -/
def Threshold.ofName? (s : List Char) : Option Threshold :=
  let named : Option Threshold := match String.ofList (s.map Char.toLower) with
    | "off" => some none
    | "error" => some (some .error)
    | "warn" => some (some .warn)
    | "info" => some (some .info)
    | "debug" => some (some .debug)
    | "trace" => some (some .trace)
    | _ => none
  match unsigned? 6 s with
  | some n => [none, some Level.error, some .warn, some .info, some .debug, some .trace][n]?
  | none => named

/-- Whether a threshold lets a level through. -/
def Threshold.admits (t : Threshold) (l : Level) : Bool := t.any fun limit => l.rank ≤ limit.rank

/-- A rule about the remarks of a target that have certain fields.  One that is `inSpan` is about a
span or about the value of a field. -/
structure Directive where
  target : Option String := none
  fields : List String := []
  inSpan : Bool := false
  threshold : Threshold := some .trace
deriving DecidableEq, Repr

namespace Directive

/-- The threshold behind a target; an empty one lets everything through. -/
def readThreshold (s : List Char) : Option Threshold :=
  if s.isEmpty then some (some .trace) else Threshold.ofName? s

/-- What follows a target and a span: nothing, or a threshold. -/
def readEnd (d : Directive) : List Char → Option Directive
  | [] => some d
  | '=' :: s => (readThreshold s).map fun threshold => { d with threshold }
  | _ => none

/-- A span with at most one field, behind its opening bracket, and what follows. -/
def readSpan (d : Directive) (s : List Char) : Option Directive :=
  let isName (c : Char) : Bool := c != ']' && c != '\x7b'
  let name := s.takeWhile isName
  match s.dropWhile isName with
  | ']' :: rest => readEnd { d with inSpan := true } rest
  | _ :: rest =>
    let field := rest.takeWhile (· != '\x7d')
    match rest.dropWhile (· != '\x7d') with
    | _ :: ']' :: rest =>
      if field.isEmpty then none
      else
        let (fieldName, value) := splitFirst '=' field
        let inSpan := !name.isEmpty || value.isSome
        readEnd { d with fields := [String.ofList fieldName], inSpan } rest
    | _ => none
  | [] => none

/-- Whether a target may begin with a character. -/
def isTargetStart (c : Char) : Bool :=
  c.isAlphanum || c == '-' || c == ':' || c == '_' || 0x80 ≤ c.toNat

/-- The directive of a text. -/
def read? (s : List Char) : Option Directive :=
  match trim s with
  | [] => none
  | '[' :: rest => readSpan {} rest
  | c :: rest =>
    if !isTargetStart c then none
    else
      let isName (c : Char) : Bool := c != '=' && c != '['
      let name := c :: rest.takeWhile isName
      let target := some (String.ofList name)
      match rest.dropWhile isName with
      | [] => match Threshold.ofName? name with
        | some threshold => some { threshold }
        | none => some { target }
      | '[' :: rest => readSpan { target } rest
      | rest => readEnd { target } rest

/-- Whether a directive is about a remark. -/
def isAbout (d : Directive) (e : TraceEntry) : Bool :=
  !d.inSpan && (d.target.getD "").toList.isPrefixOf e.target.toList &&
    d.fields.all fun name => e.fields.any fun f => f.1 == name

/-- The size of a target in its written form, counted from one; zero if there is none. -/
def targetSize (d : Directive) : Nat := (d.target.map fun t => t.utf8ByteSize + 1).getD 0

/-- Whether the second of two directives decides where both are about a remark. -/
def yieldsTo (a b : Directive) : Bool :=
  a.targetSize < b.targetSize ||
    (a.targetSize == b.targetSize && a.fields.length ≤ b.fields.length)

end Directive

/-- The directives of a filter, of which there is at least one. -/
structure Filter where
  first : Directive
  rest : List Directive
deriving DecidableEq, Repr

namespace Filter

/-- The filter of some directives; without any, errors are let through. -/
def ofDirectives : List Directive → Filter
  | [] => ⟨{ threshold := some .error }, []⟩
  | d :: rest => ⟨d, rest⟩

/-- The directives of a text between its commas. -/
def directiveTexts (s : String) : List (List Char) :=
  (splitAt ',' s.toList).filter fun piece => !piece.isEmpty

/-- The filter of a text whose directives can all be read. -/
def read? (s : String) : Option Filter := ((directiveTexts s).mapM Directive.read?).map ofDirectives

/-- The filter of the directives of a text that can be read. -/
def readAny (s : String) : Filter := ofDirectives ((directiveTexts s).filterMap Directive.read?)

/-- The directive that decides about a remark. -/
def deciding (f : Filter) (e : TraceEntry) : Option Directive :=
  ((f.first :: f.rest).filter (·.isAbout e)).foldl
    (fun best d => match best with
      | some b => if b.yieldsTo d then some d else some b
      | none => some d) none

/-- Whether a remark is written. -/
def admits (f : Filter) (e : TraceEntry) : Bool :=
  (f.deciding e).any fun d => d.threshold.admits e.level

end Filter

end Gatehouse
