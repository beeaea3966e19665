import Gatehouse.Json.Token
import Gatehouse.Json.Value

/-!
# Gatehouse.Json.Reader — values read back

`Value.ofText?` reads a JSON text as a value, whatever its shape.  Members keep their order, and a
name may occur twice.  A text with a number that is no integer of 64 bits has no value.

The reader takes the tokens of the text, from the front and with fuel: every call of one of the
three functions takes a token or hands all but one unit of its fuel on to one that does, so twice
the number of tokens is enough.  Elements and members are collected in reverse, which keeps the two
loops free of anything to do once the bracket has closed.  That a value is read back from what
`Value.render` wrote is proved in `Gatehouse.Proofs.Json.Reader`.
-/

namespace Gatehouse.Json

namespace Value

mutual

/-- The value at the front, and what follows.  It takes at most one unit of fuel for each token. -/
def take : Nat → List Token → Option (Value × List Token)
  | 0, _ => none
  | _, [] => none
  | fuel + 1, t :: ts =>
    match t with
    | .null => some (.null, ts)
    | .bool b => some (.bool b, ts)
    | .number (.whole n) => some (.integer n, ts)
    | .text (.sound s) => some (.text s, ts)
    | .beginArray =>
      match ts with
      | .endArray :: ts => some (.array [], ts)
      | ts => (takeItems fuel [] ts).map fun (vs, ts) => (.array vs, ts)
    | .beginObject =>
      match ts with
      | .endObject :: ts => some (.object [], ts)
      | ts => (takeMembers fuel [] ts).map fun (ms, ts) => (.object ms, ts)
    | _ => none

/-- The elements of an array that has some, after the reversed elements before them. -/
def takeItems : Nat → List Value → List Token → Option (List Value × List Token)
  | 0, _, _ => none
  | fuel + 1, acc, ts =>
    match take fuel ts with
    | some (v, .comma :: ts) => takeItems fuel (v :: acc) ts
    | some (v, .endArray :: ts) => some ((v :: acc).reverse, ts)
    | _ => none

/-- The members of an object that has some, after the reversed members before them. -/
def takeMembers : Nat → List (String × Value) → List Token →
    Option (List (String × Value) × List Token)
  | fuel + 1, acc, .text (.sound name) :: .colon :: ts =>
    match take fuel ts with
    | some (v, .comma :: ts) => takeMembers fuel ((name, v) :: acc) ts
    | some (v, .endObject :: ts) => some (((name, v) :: acc).reverse, ts)
    | _ => none
  | _, _, _ => none

end

/-- The value that tokens spell out. -/
def ofTokens? (ts : List Token) : Option Value :=
  match take (2 * ts.length) ts with
  | some (v, []) => some v
  | _ => none

/-- The value of a text. -/
def ofText? (s : String) : Option Value := ofTokens? (tokensOf s)

end Value

end Gatehouse.Json
