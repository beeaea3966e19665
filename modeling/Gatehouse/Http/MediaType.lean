import Gatehouse.Text.Split

/-!
# Gatehouse.Http.MediaType — the declared type of a body

A media type is a type, a subtype with an optional suffix after a plus sign, and parameters.
`MediaType.read` takes one in its written form, in any case, with the parameters checked and
dropped; `MediaType.isJson` says which types a body in JSON may have.

Parameters are of no use here, but they must be well-formed: a body is not taken if what its type
says behind the semicolon cannot be read, and then the request is refused for its media type.  A
name is compared without case, which `read` settles by lowering every name that it takes.
-/

namespace Gatehouse.Http

/-- A media type without its parameters, in lower case. -/
structure MediaType where
  main : String
  sub : String
  suffix : Option String
deriving DecidableEq, Repr

namespace MediaType

/-- Whether a character may stand in a name. -/
def isToken (c : Char) : Bool :=
  ('a' ≤ c && c ≤ 'z') || ('A' ≤ c && c ≤ 'Z') || ('0' ≤ c && c ≤ '9') ||
    "!#$%&'*+-.^_`|~".toList.contains c

/-- Takes a nonempty name from the front, in lower case. -/
def takeName (s : List Char) : Option (String × List Char) :=
  match s.takeWhile isToken with
  | [] => none
  | name => some (String.ofList (name.map Char.toLower), s.dropWhile isToken)

/-- Drops a quoted value after its opening quote, up to its closing one. -/
def dropQuoted : List Char → Option (List Char)
  | [] => none
  | '"' :: rest => some rest
  | '\\' :: c :: rest => if ' ' ≤ c || c = '\t' then dropQuoted rest else none
  | c :: rest => if (' ' ≤ c && c ≠ '\x7f') || c = '\t' then dropQuoted rest else none

/-- Drops the value of a parameter, which may only be empty at the end of the text. -/
def dropValue (s : List Char) : Option (List Char) :=
  match s with
  | [] => some []
  | '"' :: rest => (dropQuoted rest).map fun rest => rest.dropWhile (· = ' ')
  | c :: rest => if isToken c then some (rest.dropWhile isToken) else none

/-- Whether a text after the subtype is a row of parameters; there is one at most for each unit of
fuel, and each takes a semicolon at least, so the length of the text is fuel enough. -/
def areParameters : Nat → List Char → Bool
  | 0, s => s.isEmpty
  | _, [] => true
  | fuel + 1, ';' :: rest =>
    let rest := rest.dropWhile (· = ' ')
    rest.isEmpty ||
      match takeName rest with
      | some (_, '=' :: rest) => (dropValue rest).any (areParameters fuel)
      | _ => false
  | _, _ => false

/-- The subtype and the suffix of a name: the suffix stands after the last plus sign, which is not
the first character. -/
def splitSuffix (name : String) : String × Option String :=
  let reversed := name.toList.reverse
  match reversed.dropWhile (· != '+') with
  | _ :: before@(_ :: _) =>
    (String.ofList before.reverse, some (String.ofList (reversed.takeWhile (· != '+')).reverse))
  | _ => (name, none)

/-- Reads a media type. -/
def read (s : String) : Option MediaType := do
  let (main, rest) ← takeName s.toList
  match rest with
  | '/' :: rest =>
    let (name, rest) ← takeName rest
    let (sub, suffix) := splitSuffix name
    if areParameters (rest.length + 1) rest then return ⟨main, sub, suffix⟩ else none
  | _ => none

/-- Whether a body of a type is in JSON. -/
def isJson (m : MediaType) : Bool :=
  m.main = "application" && (m.sub = "json" || m.suffix = some "json")

end MediaType

end Gatehouse.Http
