import Gatehouse.Text.Digits

/-!
# Gatehouse.Toml.Token — the words of a TOML text

A settings file is TOML, and this module reads its characters as tokens.  Words are not classified
yet: whether `1979-05-27` is a key or a date is a matter of where it stands, so a token `bare` is
only a row of characters that may stand in an unquoted key.

A comment is a blank.  It reaches to the end of its line, so it cannot hide anything.  Blanks keep
their characters: most places take any blank, but between a date and a time of day there may be one
space and nothing else.

Texts in quotes are read here, escapes and all, since what is in them has no structure beyond
characters.  There are four kinds, with or without escapes and in single or triple quotes, and two
readers with the number of quotes as a parameter.  A backslash at the end of a line joins lines, and
the reader keeps track of where it is in doing so (`Place`), so that it takes one character at a
time and its recursion is on the text.
-/

namespace Gatehouse.Toml

open Gatehouse.Text

/-- One word of a TOML text.  A quoted text knows whether it stood in triple quotes, as no key may;
a symbol is one of `.`, `=`, `,`, `+`, `:` and the brackets. -/
inductive Token where
  | bare (cs : List Char)
  | quoted (s : String) (tripled : Bool)
  | symbol (c : Char)
  | blank (cs : List Char)
  | newline
deriving DecidableEq, Repr

/-- Whether a token is a blank. -/
def Token.isBlank : Token → Bool
  | blank _ => true
  | _ => false

/-- Whether a character may stand in an unquoted key. -/
def isBare (c : Char) : Bool := c.isAlphanum || c == '-' || c == '_'

/-- Whether a character is a token of its own. -/
def isSymbol (c : Char) : Bool := ['.', '=', ',', '+', ':', '[', ']', '\x7b', '\x7d'].contains c

/-- Whether a character is a blank within a line. -/
def isSpace (c : Char) : Bool := c == ' ' || c == '\t'

/-- Whether a character may stand in a comment and, but for quotes and escapes, in a text. -/
def isPrintable (c : Char) : Bool := c == '\t' || (0x20 ≤ c.toNat && c.toNat != 0x7f)

/-! ## Quoted texts -/

/-- The character of a one-letter escape. -/
def shortEscape? : Char → Option Char
  | 'b' => some '\x08'
  | 't' => some '\t'
  | 'n' => some '\n'
  | 'f' => some '\x0c'
  | 'r' => some '\r'
  | '"' => some '"'
  | '\\' => some '\\'
  | _ => none

/-- The character whose number is written with so many hexadecimal digits at the front of a text. -/
def numbered? (width : Nat) (s : List Char) : Option Char := do
  let digits := s.take width
  let n ← numeral? hexDigit? 16 0 digits
  if digits.length = width then
    if h : n.isValidChar then some (Char.ofNatAux n h) else none
  else none

/-- The character of the escape at the front of a text, and how many characters it takes. -/
def escape? : List Char → Option (Char × Nat)
  | [] => none
  | c :: rest =>
    if c = 'u' then (numbered? 4 rest).map fun x => (x, 5)
    else if c = 'U' then (numbered? 8 rest).map fun x => (x, 9)
    else (shortEscape? c).map fun x => (x, 1)

/-- Where a reader of a text stands: in the text, in an escape that has been read with so many
characters before its end, behind a backslash that must end its line, or in the blanks after such a
line. -/
inductive Place where
  | within
  | inEscape (left : Nat)
  | lineEnd
  | margin
deriving DecidableEq, Repr

/-- The place behind a character of an escape. -/
def Place.afterEscape (left : Nat) : Place := if left ≤ 1 then .within else .inEscape (left - 1)

/-- A text that has been read, and what follows it. -/
abbrev Taken := Option (List Char × List Char)

/-- The end of a tripled text, behind the first of its closing quotes: up to two quotes before the
last three belong to the text. -/
def closeTripled (quote : Char) (acc rest : List Char) : Taken :=
  let extra := ((rest.drop 2).takeWhile (· == quote)).take 2
  some ((extra ++ acc).reverse, rest.drop (2 + extra.length))

/-- The characters of a text with escapes up to its closing quotes, after the reversed characters
before them. -/
def takeEscaped (tripled : Bool) (place : Place) (acc : List Char) : List Char → Taken
  | [] => none
  | c :: rest =>
    let isReturn := c = '\r' ∧ rest.head? = some '\n'
    match place with
    | .inEscape left => takeEscaped tripled (.afterEscape left) acc rest
    | .lineEnd =>
      if isSpace c ∨ isReturn then takeEscaped tripled .lineEnd acc rest
      else if c = '\n' then takeEscaped tripled .margin acc rest
      else none
    | place =>
      if place = .margin ∧ (isSpace c ∨ isReturn ∨ c = '\n') then
        takeEscaped tripled .margin acc rest
      else if c = '"' then
        if !tripled then some (acc.reverse, rest)
        else if rest.take 2 = ['"', '"'] then closeTripled '"' acc rest
        else takeEscaped tripled .within (c :: acc) rest
      else if c = '\\' then
        match escape? rest with
        | some (x, length) => takeEscaped tripled (.inEscape length) (x :: acc) rest
        | none => if tripled then takeEscaped tripled .lineEnd acc rest else none
      else if isPrintable c ∨ (tripled ∧ c = '\n') then
        takeEscaped tripled .within (c :: acc) rest
      else if tripled ∧ isReturn then takeEscaped tripled .within acc rest
      else none

/-- The characters of a text without escapes up to its closing quotes, after the reversed characters
before them. -/
def takeLiteral (tripled : Bool) (acc : List Char) : List Char → Taken
  | [] => none
  | c :: rest =>
    if c = '\'' then
      if !tripled then some (acc.reverse, rest)
      else if rest.take 2 = ['\'', '\''] then closeTripled '\'' acc rest
      else takeLiteral tripled (c :: acc) rest
    else if isPrintable c ∨ (tripled ∧ c = '\n') then takeLiteral tripled (c :: acc) rest
    else if tripled ∧ c = '\r' ∧ rest.head? = some '\n' then takeLiteral tripled acc rest
    else none

/-- Drops the end of a line at the front of a tripled text. -/
def dropFirstNewline : List Char → List Char
  | '\n' :: rest => rest
  | '\r' :: '\n' :: rest => rest
  | rest => rest

/-! ## The lexer -/

/-- The token at the front of a text, and what follows. -/
def takeToken : List Char → Option (Token × List Char)
  | [] => none
  | '"' :: '"' :: '"' :: rest =>
    (takeEscaped true .within [] (dropFirstNewline rest)).map fun (cs, rest) =>
      (.quoted (String.ofList cs) true, rest)
  | '\'' :: '\'' :: '\'' :: rest =>
    (takeLiteral true [] (dropFirstNewline rest)).map fun (cs, rest) =>
      (.quoted (String.ofList cs) true, rest)
  | '\r' :: '\n' :: rest => some (.newline, rest)
  | c :: rest =>
    if c = '"' then
      (takeEscaped false .within [] rest).map fun (cs, rest) =>
        (.quoted (String.ofList cs) false, rest)
    else if c = '\'' then
      (takeLiteral false [] rest).map fun (cs, rest) => (.quoted (String.ofList cs) false, rest)
    else if c = '\n' then some (.newline, rest)
    else if c = '#' then
      some (.blank (c :: rest.takeWhile isPrintable), rest.dropWhile isPrintable)
    else if isSpace c then some (.blank (c :: rest.takeWhile isSpace), rest.dropWhile isSpace)
    else if isSymbol c then some (.symbol c, rest)
    else if isBare c then some (.bare (c :: rest.takeWhile isBare), rest.dropWhile isBare)
    else none

/-- The tokens of a text after the reversed tokens before it, one for each unit of fuel at most. -/
def tokensAfter (acc : List Token) : Nat → List Char → Option (List Token)
  | _, [] => some acc.reverse
  | 0, _ => none
  | fuel + 1, s =>
    match takeToken s with
    | some (t, rest) => tokensAfter (t :: acc) fuel rest
    | none => none

/-- The tokens of a text, if it consists of tokens; a byte order mark at its front is none.  Every
token takes a character, so there are no more tokens than characters. -/
def tokens (s : List Char) : Option (List Token) :=
  let s := match s with
    | '\ufeff' :: rest => rest
    | _ => s
  tokensAfter [] s.length s

end Gatehouse.Toml
