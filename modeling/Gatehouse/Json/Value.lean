/-!
# Gatehouse.Json.Value — JSON values and their written form

What the service answers and what it signs is a `Value`; `Value.render` writes it without blanks,
`Value.renderPretty` one member or element a line.  Members keep the order in which they are given.
Inside a string only the quote, the backslash and the control characters below U+0020 are escaped.

Both writers are total: a value has a text, whatever it is.  They are written as lists of
characters, by recursion over the value with one function for a row of elements and one for a row of
members, and `separated` is the only place where commas come from, so that an empty row needs no
case of its own.  What is proved of the text of a value is about its tokens,
`Gatehouse.Proofs.Json.Lexer`.
-/

namespace Gatehouse.Json

/-- A JSON value whose numbers are integers. -/
inductive Value where
  | null
  | bool (b : Bool)
  | integer (n : Int)
  | text (s : String)
  | array (items : List Value)
  | object (members : List (String × Value))
deriving Repr, Inhabited

/-- The lower-case hexadecimal digit of a number below 16. -/
def hexDigit (n : Nat) : Char := if n < 10 then Char.ofNat (48 + n) else Char.ofNat (87 + n)

/-- A character as it stands in a written string. -/
def escapeChar (c : Char) : List Char :=
  if c = '"' then ['\\', '"']
  else if c = '\\' then ['\\', '\\']
  else if c = '\x08' then ['\\', 'b']
  else if c = '\x0c' then ['\\', 'f']
  else if c = '\n' then ['\\', 'n']
  else if c = '\r' then ['\\', 'r']
  else if c = '\t' then ['\\', 't']
  else if c.toNat < 0x20 then
    ['\\', 'u', '0', '0', hexDigit (c.toNat / 16), hexDigit (c.toNat % 16)]
  else [c]

/-- A written string, with its quotes. -/
def renderText (s : String) : List Char := '"' :: s.toList.flatMap escapeChar ++ ['"']

/-- The decimal form of an integer. -/
def renderInteger (n : Int) : List Char :=
  if n < 0 then '-' :: Nat.toDigits 10 n.natAbs else Nat.toDigits 10 n.natAbs

/-- Puts a separator between texts. -/
def separated (separator : List Char) : List (List Char) → List Char
  | [] => []
  | [s] => s
  | s :: rest => s ++ separator ++ separated separator rest

namespace Value

mutual

/-- The characters of a value, written without blanks. -/
def renderChars : Value → List Char
  | .null => "null".toList
  | .bool true => "true".toList
  | .bool false => "false".toList
  | .integer n => renderInteger n
  | .text s => renderText s
  | .array items => '[' :: separated [','] (renderItems items) ++ [']']
  | .object members => '\x7b' :: separated [','] (renderMembers members) ++ ['\x7d']

/-- The characters of each element. -/
def renderItems : List Value → List (List Char)
  | [] => []
  | v :: rest => renderChars v :: renderItems rest

/-- The characters of each member. -/
def renderMembers : List (String × Value) → List (List Char)
  | [] => []
  | (k, v) :: rest => (renderText k ++ ':' :: renderChars v) :: renderMembers rest

end

/-- The text of a value, without blanks. -/
def render (v : Value) : String := String.ofList v.renderChars

/-- A bracketed row of texts, one a line at a depth of indentation. -/
def renderBlock (open' close : Char) (depth : Nat) : List (List Char) → List Char
  | [] => [open', close]
  | items =>
    let line (n : Nat) := '\n' :: List.replicate (2 * n) ' '
    open' :: line (depth + 1) ++ separated (',' :: line (depth + 1)) items ++ line depth ++ [close]

mutual

/-- The characters of a value, one member or element a line. -/
def renderPrettyChars (depth : Nat) : Value → List Char
  | .array items => renderBlock '[' ']' depth (renderPrettyItems (depth + 1) items)
  | .object members =>
    renderBlock '\x7b' '\x7d' depth (renderPrettyMembers (depth + 1) members)
  | .null => "null".toList
  | .bool true => "true".toList
  | .bool false => "false".toList
  | .integer n => renderInteger n
  | .text s => renderText s

/-- The characters of each element. -/
def renderPrettyItems (depth : Nat) : List Value → List (List Char)
  | [] => []
  | v :: rest => renderPrettyChars depth v :: renderPrettyItems depth rest

/-- The characters of each member. -/
def renderPrettyMembers (depth : Nat) : List (String × Value) → List (List Char)
  | [] => []
  | (k, v) :: rest =>
    (renderText k ++ ':' :: ' ' :: renderPrettyChars depth v) :: renderPrettyMembers depth rest

end

/-- The text of a value, one member or element a line. -/
def renderPretty (v : Value) : String := String.ofList (v.renderPrettyChars 0)

/-- A list of strings as an array. -/
def texts (ss : List String) : Value := .array (ss.map .text)

/-- A string, or null. -/
def optional : Option String → Value
  | some s => .text s
  | none => .null

end Value

end Gatehouse.Json
