import Gatehouse.Json.Token
import Gatehouse.Time.Timestamp

/-!
# Gatehouse.Json.Shape — reading a record of a known shape

The second stage of reading.  A record is described by its fields, each with the shape of its value,
and read from tokens in one pass that stops at the first fault.  A fault is either in the grammar of
the text (`malformed`) or in what the text says (`mismatch`); callers answer the two differently.

The rules of a record:

* it is an object, or an array of the field values in declared order with trailing ones left out;
* an unknown name of an object is skipped with its value, a known name must not occur twice;
* a missing field is a fault, stands for its default, or is absent, as the field says.

The readers go through the tokens once, without going back, and say of the first fault of which kind
it is.  To keep the kinds apart they distinguish what a less careful reader would not: a comma in
front of a closing bracket is a fault of grammar, and so is a word that cannot be converted where a
value of another shape was expected.  A value that is skipped is only looked at for its brackets,
commas and colons (`skipWithin`); what its words say is never asked.

What is accepted has a description that does not mention any of this: a record is read exactly if
the tokens are those of a document that spells it,
`Gatehouse.Proofs.Json.Record.readRecord_eq_ok_iff`.
-/

namespace Gatehouse.Json

open Gatehouse.Time

/-! ## Shapes and data -/

/-- Why a text is not a record of the expected shape. -/
inductive Fault where
  | malformed
  | mismatch
deriving DecidableEq, Repr

/-- What the value of a field must be. -/
inductive Shape where
  | text
  | natural (bound : Nat)
  | integer64
  | instant
  | choice (names : List String)
  | texts
  | object
  | optional (s : Shape)
deriving DecidableEq, Repr

/-- The value of a field.  Of an object the tokens are kept, for whoever asks for it to make
something of them. -/
inductive Datum where
  | text (s : String)
  | natural (n : Nat)
  | integer (i : Int)
  | instant (t : Timestamp)
  | texts (ss : List String)
  | object (ts : List Token)
  | absent
deriving DecidableEq, Repr

/-- What a field stands for when a record does not have it.  A field that is `omittable` may be
missing from an object and not from an array. -/
inductive Missing where
  | fault
  | default
  | omittable
deriving DecidableEq, Repr

/-- A field of a record. -/
structure Field where
  name : String
  shape : Shape
  missing : Missing := .fault
deriving DecidableEq, Repr

/-- A reader takes tokens from the front and leaves the rest. -/
abbrev Reader (α : Type) := List Token → Except Fault (α × List Token)

/-! ## Skipping a value -/

/-- What may come next while a value is skipped. -/
inductive Expected where
  | value
  | valueOrEnd
  | key
  | keyOrEnd
  | colon
  | commaOrEnd
deriving DecidableEq, Repr

/-- Skips a value of any shape.  `inObject` tells of each open bracket whether it is an object's,
innermost first. -/
def skipWithin : List Bool → Expected → List Token → Option (List Token)
  | _, _, [] => none
  | inObject, expected, t :: rest =>
    -- closing the outermost bracket ends the value, any other an element or a member
    let closed : Option (List Token) :=
      match inObject with
      | [] => none
      | [_] => some rest
      | _ :: outer => skipWithin outer .commaOrEnd rest
    match expected, t with
    | .colon, .colon => skipWithin inObject .value rest
    | .key, .text _ | .keyOrEnd, .text _ => skipWithin inObject .colon rest
    | .keyOrEnd, .endObject => closed
    | .valueOrEnd, .endArray => closed
    | .commaOrEnd, .comma =>
      skipWithin inObject (if inObject.head? = some true then .key else .value) rest
    | .commaOrEnd, .endObject => if inObject.head? = some true then closed else none
    | .commaOrEnd, .endArray => if inObject.head? = some false then closed else none
    | .value, .beginObject | .valueOrEnd, .beginObject =>
      skipWithin (true :: inObject) .keyOrEnd rest
    | .value, .beginArray | .valueOrEnd, .beginArray =>
      skipWithin (false :: inObject) .valueOrEnd rest
    | .value, .null | .value, .bool _ | .value, .number _ | .value, .text _
    | .valueOrEnd, .null | .valueOrEnd, .bool _ | .valueOrEnd, .number _ | .valueOrEnd, .text _ =>
      if inObject.isEmpty then some rest else skipWithin inObject .commaOrEnd rest
    | _, _ => none

/-- Skips a value of any shape. -/
def skipValue : Reader Unit := fun ts =>
  match skipWithin [] .value ts with
  | some rest => .ok ((), rest)
  | none => .error .malformed

/-! ## Values -/

/-- The fault of a value that begins with this token and has another shape than expected. -/
def unexpected : List Token → Fault
  | .null :: _ | .bool _ :: _ | .beginObject :: _ | .beginArray :: _ => .mismatch
  | .number n :: _ => if (Token.number n).stop?.isSome then .malformed else .mismatch
  | .text s :: _ => if (Token.text s).stop?.isSome then .malformed else .mismatch
  | _ => .malformed

/-- Reads a string. -/
def readText : Reader String
  | .text (.sound s) :: rest => .ok (s, rest)
  | ts => .error (unexpected ts)

/-- Reads an integer that passes a test. -/
def readInteger (admissible : Int → Bool) : Reader Int
  | .number (.whole n) :: rest => if admissible n then .ok (n, rest) else .error .mismatch
  | ts => .error (unexpected ts)

/-- Reads the elements of a list of strings after its opening bracket; `first` tells whether none
has been read yet. -/
def readTextsAfter (acc : List String) (first : Bool) : Reader (List String)
  | .endArray :: rest => .ok (acc.reverse, rest)
  | .comma :: .text (.sound s) :: rest =>
    if first then .error .malformed else readTextsAfter (s :: acc) false rest
  | .comma :: .endArray :: _ => .error .malformed
  | .comma :: ts => .error (if first then .malformed else unexpected ts)
  | .text (.sound s) :: rest =>
    if first then readTextsAfter (s :: acc) false rest else .error .malformed
  | ts => .error (if first then unexpected ts else .malformed)

/-- Reads a list of strings. -/
def readTexts : Reader (List String)
  | .beginArray :: rest => readTextsAfter [] true rest
  | ts => .error (unexpected ts)

/-- Reads one of several names: the name itself, or an object with that name and null. -/
def readChoice (names : List String) : Reader String
  | .text (.sound s) :: rest => if s ∈ names then .ok (s, rest) else .error .mismatch
  | .beginObject :: ts =>
    match ts with
    | .text (.sound s) :: ts =>
      if s ∈ names then
        match ts with
        | .colon :: .null :: ts =>
          match ts with
          | .endObject :: rest => .ok (s, rest)
          | _ => .error .malformed
        | .colon :: ts => .error (unexpected ts)
        | _ => .error .malformed
      else .error .mismatch
    | ts => .error (unexpected ts)
  | _ => .error .malformed

/-- Reads a value of a shape. -/
def readDatum : Shape → Reader Datum
  | .text => fun ts => (readText ts).map fun (s, r) => (.text s, r)
  | .natural bound => fun ts =>
    (readInteger (fun n => 0 ≤ n && n < bound) ts).map fun (n, r) => (.natural n.toNat, r)
  | .integer64 => fun ts =>
    let fits (n : Int) : Bool := -(Word.bound 63 : Int) ≤ n && n < Word.bound 63
    (readInteger fits ts).map fun (n, r) => (.integer n, r)
  | .instant => fun ts =>
    match readText ts with
    | .ok (s, r) => match Timestamp.read s with
      | some t => .ok (.instant t, r)
      | none => .error .mismatch
    | .error e => .error e
  | .choice names => fun ts => (readChoice names ts).map fun (s, r) => (.text s, r)
  | .texts => fun ts => (readTexts ts).map fun (ss, r) => (.texts ss, r)
  | .object => fun ts =>
    match ts with
    | .beginObject :: _ =>
      (skipValue ts).map fun (_, r) => (.object (ts.take (ts.length - r.length)), r)
    | ts => .error (unexpected ts)
  | .optional s => fun ts =>
    match ts with
    | .null :: rest => .ok (.absent, rest)
    | ts => readDatum s ts

/-! ## Records -/

/-- The values of a record's fields as far as they have been read, in the order of the fields. -/
abbrev Slots := List (Option Datum)

/-- Puts the value of a named field into its slot. -/
def Slots.set (fields : List Field) (slots : Slots) (name : String) (d : Datum) : Slots :=
  List.zipWith (fun f old => if f.name = name then some d else old) fields slots

/-- The value in the slot of a named field. -/
def Slots.get (fields : List Field) (slots : Slots) (name : String) : Option Datum :=
  ((fields.zip slots).find? fun e => e.1.name = name).bind (·.2)

/-- Reads members of an object up to its closing bracket, one for each unit of fuel at most.
`first` tells whether none has been read yet. -/
def readMembers (fields : List Field) : Nat → Slots → Bool → Reader Slots
  | 0, _, _, _ => .error .malformed
  | fuel + 1, slots, first, ts =>
    let member (name : String) (ts : List Token) : Except Fault (Slots × List Token) :=
      -- that a name is known is found out before its colon, and that it came before as well
      match fields.find? fun f => f.name = name with
      | none =>
        match ts with
        | .colon :: ts => match skipValue ts with
          | .ok (_, ts) => readMembers fields fuel slots false ts
          | .error e => .error e
        | _ => .error .malformed
      | some f =>
        if (slots.get fields name).isSome then .error .mismatch
        else match ts with
        | .colon :: ts => match readDatum f.shape ts with
          | .ok (d, ts) => readMembers fields fuel (slots.set fields name d) false ts
          | .error e => .error e
        | _ => .error .malformed
    match ts, first with
    | .endObject :: rest, _ => .ok (slots, rest)
    | .text (.sound name) :: ts, true => member name ts
    | .comma :: .text (.sound name) :: ts, false => member name ts
    | _, _ => .error .malformed

/-- Reads the values of an array as fields in declared order, then the closing bracket. -/
def readElements (acc : Slots) (first : Bool) : List Field → Reader Slots
  | [], ts => match ts with
    | .endArray :: rest => .ok (acc.reverse, rest)
    | _ => .error .malformed
  | f :: fields, ts =>
    let element (ts : List Token) : Except Fault (Slots × List Token) :=
      match readDatum f.shape ts with
      | .ok (d, ts) => readElements (some d :: acc) false fields ts
      | .error e => .error e
    match ts with
    | .endArray :: _ =>
      if f.missing = .default then readElements (none :: acc) first fields ts
      else .error .mismatch
    | .comma :: ts =>
      if first then .error .malformed
      else match ts with
        | .endArray :: _ => .error .malformed
        | ts => element ts
    | ts => if first then element ts else .error .malformed

/-- Fills the slots of an object that were not read. -/
def complete (fields : List Field) (slots : Slots) : Except Fault Slots :=
  if (fields.zip slots).any fun (f, d) => f.missing = .fault && d.isNone then .error .mismatch
  else .ok slots

/-- Reads a record. -/
def readRecord (fields : List Field) : Reader Slots
  | .beginObject :: ts => do
    let (slots, ts) ← readMembers fields (ts.length + 1) (fields.map fun _ => none) true ts
    return (← complete fields slots, ts)
  | .beginArray :: ts => readElements [] true fields ts
  | ts => .error (unexpected ts)

/-- Reads a text that holds one of several names and nothing after it. -/
def choiceOf (names : List String) (s : String) : Except Fault String := do
  let (name, ts) ← readChoice names (tokensOf s)
  if ts.isEmpty then return name else throw .malformed

end Gatehouse.Json
