import Gatehouse.Text.Decimal

/-!
# Gatehouse.Json.Token — the words of a JSON text

A JSON text is read in two stages, and this module is the first: characters become tokens.  Nothing
is refused here.  Where no token can be read the list ends with `Token.junk`, so that a reader which
stops before that place never learns of it: whether a text is rejected for its grammar or for its
shape depends on which fault comes first.

The input is a list of `Option Char`, where `none` stands for a byte that belongs to no character.
Such a byte, like half of a surrogate pair, is harmless in a string that nobody looks at; a string
token therefore carries its text only if there is one.  The same holds of a number that is too large
for a double: whoever skips it never converts it.

A reader that does look at such a word refuses it, and most readers are done then.  One that passes
over the failure and goes on must know where it stands, which is behind the word or within it.  So a
word that can be refused says where that happens (`Token.stop?`).

Numbers that are no integers of 64 bits are not kept, only whether they can be converted.  The
conversion is not exact: it collects digits in a word of 64 bits, drops those that do not fit, and
multiplies by a power of ten that is rounded itself.  `overflows?` follows it step by step, since a
numeral near the largest double may be refused though its value is not too large.
-/

namespace Gatehouse.Json

open Gatehouse.Text

/-- Where a reader stops that refuses a word: behind it, or within it. -/
inductive Stop where
  | behind
  | within
deriving DecidableEq, Repr

/-! ## Numbers -/

/-- What a reader can tell of a numeral: an integer of 64 bits, signed or unsigned, a number that is
none, or one that is too large.  The last is an `overrun` if the reader gives up before it has taken
all digits of the exponent. -/
inductive Numeral where
  | whole (n : Int)
  | real
  | overflow
  | overrun
deriving DecidableEq, Repr

/-- The largest exponent that is read. -/
def maxExponent : Nat := Word.bound 31 - 1

/-- The number that digits lead to from the one before them, as far as it has 64 bits, and the
digits that are left then. -/
def collectDigits (n : Nat) : List Char → Nat × List Char
  | [] => (n, [])
  | c :: rest =>
    let next := n * 10 + (digit? c).getD 0
    if next < Word.bound 64 then collectDigits next rest else (n, c :: rest)

/-- The nearest number of 53 significant bits, and of two that are as near the even one. -/
def nearestDouble (n : Nat) : Nat :=
  let unit := Nat.pow 2 (n.log2 + 1 - 53)
  let quotient := n / unit
  let up := unit < 2 * (n % unit) ∨ 2 * (n % unit) = unit ∧ quotient % 2 = 1
  (if up then quotient + 1 else quotient) * unit

/-- Whether a number of 64 bits times a power of ten is refused.  The powers are a table up to the
308th, and none beyond it is tried. -/
def scaledOverflows (n : Nat) (exponent : Int) : Bool :=
  n ≠ 0 ∧ 0 ≤ exponent ∧ (308 < exponent ∨
    Decimal.realBound ≤ nearestDouble n * nearestDouble (Nat.pow 10 exponent.toNat))

/-- Whether a written numeral is too large, and where a reader stops then. -/
def overflows? (d : Decimal) : Option Stop :=
  let fraction := d.fraction.getD []
  let (n, left) := collectDigits 0 d.whole
  let (n, left') := collectDigits n fraction
  let shift : Int := left.length - (fraction.length - left'.length : Nat)
  match d.exponent with
  | none => if scaledOverflows n shift then some .behind else none
  | some (negative, digits) =>
    let exponent := (decimal? digits).getD 0
    if exponent ≤ maxExponent then
      let exponent : Int := if negative then -(exponent : Int) else exponent
      if scaledOverflows n (shift + exponent) then some .behind else none
    else if n = 0 ∨ negative then none
    -- the reader gives up at the digit that takes the exponent out of range
    else if (decimal? digits.dropLast).getD 0 ≤ maxExponent then some .behind
    else some .within

/-- What a reader can tell of a written numeral that is no integer of 64 bits. -/
def Numeral.ofReal (d : Decimal) : Numeral :=
  match overflows? d with
  | none => .real
  | some .behind => .overflow
  | some .within => .overrun

/-- What a reader can tell of a written numeral. -/
def Numeral.ofDecimal (d : Decimal) : Numeral :=
  match d.fraction, d.exponent with
  | none, none =>
    let n := (decimal? d.whole).getD 0
    if d.negative then (if 0 < n ∧ n ≤ Word.bound 63 then .whole (-(n : Int)) else .ofReal d)
    else if n < Word.bound 64 then .whole n
    else .ofReal d
  | _, _ => .ofReal d

/-! ## Tokens -/

/-- What a reader can tell of a written string: its text, or where it stops because there is
none. -/
inductive Quoted where
  | sound (s : String)
  | flawed (stop : Stop)
deriving DecidableEq, Repr

/-- One word of a JSON text. -/
inductive Token where
  | beginObject
  | endObject
  | beginArray
  | endArray
  | colon
  | comma
  | null
  | bool (b : Bool)
  | number (n : Numeral)
  | text (s : Quoted)
  | junk
deriving DecidableEq, Repr

/-- Where a reader that looks at a word stops if it refuses it. -/
def Token.stop? : Token → Option Stop
  | number .overflow => some .behind
  | number .overrun => some .within
  | text (.flawed stop) => some stop
  | _ => none

/-! ## Strings -/

/-- A stretch of a string: a character, an escaped UTF-16 unit, or a byte of no character. -/
inductive Piece where
  | char (c : Char)
  | unit (n : Nat)
  | stray
deriving DecidableEq, Repr

/-- The character of a code point that is no surrogate. -/
def scalar? (n : Nat) : Option Char :=
  if h : n.isValidChar then some (Char.ofNatAux n h) else none

/-- The text of a row of pieces, after the reversed text of those before it: units that form a
surrogate pair are one character, whose code point has ten bits of each.

There is no text if a unit of a pair stands alone, and a reader sees that where it stands.  The
first unit of a pair is known to be alone by what follows it, so at the end of a string it is the
closing quote that gives it away, and nothing of the string is left behind.  Bytes of no character
are only looked for in the whole string, hence at its end. -/
def assembleAfter (acc : List Char) : List Piece → Except Stop (List Char)
  | [] => .ok acc.reverse
  | .char c :: rest => assembleAfter (c :: acc) rest
  | .stray :: rest =>
    match assembleAfter acc rest with
    | .error .within => .error .within
    | _ => .error .behind
  | .unit n :: rest =>
    if 0xD800 ≤ n ∧ n < 0xDC00 then
      match rest with
      | [] => .error .behind
      | .unit m :: rest =>
        if 0xDC00 ≤ m ∧ m < 0xE000 then
          match scalar? (0x10000 + n % 0x400 * 0x400 + m % 0x400) with
          | some c => assembleAfter (c :: acc) rest
          | none => .error .within
        else .error .within
      | _ => .error .within
    else
      match scalar? n with
      | some c => assembleAfter (c :: acc) rest
      | none => .error .within

/-- What a reader can tell of a string of these pieces. -/
def Quoted.ofPieces (ps : List Piece) : Quoted :=
  match assembleAfter [] ps with
  | .ok cs => .sound (String.ofList cs)
  | .error stop => .flawed stop

/-- The character of a one-letter escape. -/
def shortEscape? : Char → Option Char
  | '"' => some '"'
  | '\\' => some '\\'
  | '/' => some '/'
  | 'b' => some '\x08'
  | 'f' => some '\x0c'
  | 'n' => some '\n'
  | 'r' => some '\r'
  | 't' => some '\t'
  | _ => none

/-- The unit of four hexadecimal digits. -/
def hexUnit? (a b c d : Option Char) : Option Nat := do
  return (← hexDigit? (← a)) * 4096 + (← hexDigit? (← b)) * 256 + (← hexDigit? (← c)) * 16 +
    (← hexDigit? (← d))

/-- The pieces of a string up to its closing quote, after the reversed pieces before them, and what
follows.  A control character, an unknown escape and a missing quote leave no string. -/
def takeStringAfter (acc : List Piece) :
    List (Option Char) → Option (List Piece × List (Option Char))
  | [] => none
  | none :: rest => takeStringAfter (.stray :: acc) rest
  | some c :: rest =>
    if c = '"' then some (acc.reverse, rest)
    else if c = '\\' then
      match rest with
      | some e :: rest =>
        if e = 'u' then
          match rest with
          | a :: b :: c :: d :: rest =>
            match hexUnit? a b c d with
            | some n => takeStringAfter (.unit n :: acc) rest
            | none => none
          | _ => none
        else
          match shortEscape? e with
          | some c => takeStringAfter (.char c :: acc) rest
          | none => none
      | _ => none
    else if c.toNat < 0x20 then none
    else takeStringAfter (.char c :: acc) rest

/-- The pieces of a string up to its closing quote, and what follows. -/
def takeString (s : List (Option Char)) : Option (List Piece × List (Option Char)) :=
  takeStringAfter [] s

/-! ## The lexer -/

/-- The characters up to the first that fails a test, after the reversed characters before them,
and what follows. -/
def spanCharsAfter (p : Char → Bool) (acc : List Char) :
    List (Option Char) → List Char × List (Option Char)
  | some c :: rest => if p c then spanCharsAfter p (c :: acc) rest
    else (acc.reverse, some c :: rest)
  | rest => (acc.reverse, rest)

/-- The characters up to the first that fails a test, and what follows. -/
def spanChars (p : Char → Bool) (s : List (Option Char)) : List Char × List (Option Char) :=
  spanCharsAfter p [] s

/-- The digits of an exponent, after its letter. -/
def takeExponent (s : List (Option Char)) : Option ((Bool × List Char) × List (Option Char)) :=
  let (negative, s) := match s with
    | some '-' :: rest => (true, rest)
    | some '+' :: rest => (false, rest)
    | _ => (false, s)
  match spanChars isDigit s with
  | ([], _) => none
  | (ds, rest) => some ((negative, ds), rest)

/-- A numeral without its sign.  A zero in front of further digits, and a point or an exponent
without digits, leave no numeral. -/
def takeNumeral (negative : Bool) (s : List (Option Char)) :
    Option (Decimal × List (Option Char)) := do
  let (whole, s) := spanChars isDigit s
  if whole.isEmpty ∨ (whole.head? = some '0' ∧ 1 < whole.length) then none
  else
    let (fraction, s) ← match s with
      | some '.' :: rest => match spanChars isDigit rest with
        | ([], _) => none
        | (ds, rest) => some (some ds, rest)
      | _ => some (none, s)
    let (exponent, s) ← match s with
      | some 'e' :: rest | some 'E' :: rest => (takeExponent rest).map fun (e, r) => (some e, r)
      | _ => some (none, s)
    return (⟨negative, whole, fraction, exponent⟩, s)

/-- Takes a literal word. -/
def takeWord : List Char → List (Option Char) → Option (List (Option Char))
  | [], rest => some rest
  | c :: cs, some d :: rest => if c = d then takeWord cs rest else none
  | _ :: _, _ => none

/-- The token at the front of a text that does not begin with a blank, and what follows. -/
def takeToken : List (Option Char) → Option (Token × List (Option Char))
  | [] => none
  | none :: _ => none
  | some c :: rest =>
    if c = '\x7b' then some (.beginObject, rest)
    else if c = '\x7d' then some (.endObject, rest)
    else if c = '[' then some (.beginArray, rest)
    else if c = ']' then some (.endArray, rest)
    else if c = ':' then some (.colon, rest)
    else if c = ',' then some (.comma, rest)
    else if c = '"' then
      (takeString rest).map fun (ps, r) => (.text (.ofPieces ps), r)
    else if c = 'n' then (takeWord "ull".toList rest).map (Token.null, ·)
    else if c = 't' then (takeWord "rue".toList rest).map (Token.bool true, ·)
    else if c = 'f' then (takeWord "alse".toList rest).map (Token.bool false, ·)
    else if c = '-' then (takeNumeral true rest).map fun (d, r) => (.number (.ofDecimal d), r)
    else if isDigit c then
      (takeNumeral false (some c :: rest)).map fun (d, r) => (.number (.ofDecimal d), r)
    else none

/-- The four blanks that may stand between tokens. -/
def isSpace (c : Option Char) : Bool :=
  c == some ' ' || c == some '\n' || c == some '\t' || c == some '\r'

/-- The tokens of a text after the reversed tokens before it, one for each unit of fuel at most;
see `tokens`. -/
def tokensAfter (acc : List Token) : Nat → List (Option Char) → List Token
  | 0, _ => acc.reverse
  | fuel + 1, s =>
    match s.dropWhile isSpace with
    | [] => acc.reverse
    | rest => match takeToken rest with
      | some (t, rest) => tokensAfter (t :: acc) fuel rest
      | none => (Token.junk :: acc).reverse

/-- The tokens of a text, ending with `junk` where there is none.  Every token takes a character,
so there are no more tokens than characters. -/
def tokens (s : List (Option Char)) : List Token := tokensAfter [] (s.length + 1) s

/-- The tokens of a string. -/
def tokensOf (s : String) : List Token := tokens (s.toList.map some)

end Gatehouse.Json
