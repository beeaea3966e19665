import Gatehouse.Text.Decimal
import Gatehouse.Time.Date
import Gatehouse.Toml.Value

/-!
# Gatehouse.Toml.Scalar — unquoted values

A row of characters without quotes is a truth value, a number, or a date with or without a time of
day, and `Value.ofWord?` says which.  Integers are decimal with an optional sign, or hexadecimal,
octal or binary without one, and have 64 bits; an underscore may stand between two digits.

Of a value that no setting can have, only that it is one matters: a real number or a date must be
well-formed for the file to be a document, but it is read as `real` or `moment` and its value is
dropped.  A date exists in its calendar, and a numeral that would be infinite as a double is no
number.  No row of characters is of two kinds, so it does not matter in which order they are tried:
a date has a hyphen behind a digit, a time of day has a colon, and an integer has neither.
-/

namespace Gatehouse.Toml

open Gatehouse.Text Gatehouse.Time

/-! ## Digits -/

/-- Drops the underscores that stand between two digits; other underscores are no digits. -/
def joinDigits : List Char → Option (List Char)
  | [] => none
  | '_' :: _ => none
  | [c] => some [c]
  | c :: '_' :: rest => (joinDigits rest).map (c :: ·)
  | c :: rest => (joinDigits rest).map (c :: ·)

/-- The value of a digit in a base up to sixteen. -/
def digitBelow? (base : Nat) (c : Char) : Option Nat := do
  let d ← hexDigit? c
  if d < base then some d else none

/-- The sign in front of a numeral, and the numeral. -/
def splitSign : List Char → Bool × List Char
  | '-' :: rest => (true, rest)
  | '+' :: rest => (false, rest)
  | s => (false, s)

/-- The digits of a decimal integer, which has no zero in front of further digits. -/
def wholeDigits? (s : List Char) : Option (List Char) := do
  let digits ← joinDigits s
  if digits.all isDigit ∧ (s.head? ≠ some '0' ∨ s.length = 1) then some digits else none

/-- The digits behind a point or of an exponent. -/
def laterDigits? (s : List Char) : Option (List Char) := do
  let digits ← joinDigits s
  if digits.all isDigit then some digits else none

/-! ## Numbers -/

/-- The integer of 64 bits with a sign and a magnitude. -/
def integer64? (negative : Bool) (n : Nat) : Option Int :=
  if negative then (if n ≤ Word.bound 63 then some (-(n : Int)) else none)
  else if n < Word.bound 63 then some n else none

/-- The integer of a row of characters. -/
def integer? (s : List Char) : Option Int :=
  let based (base : Nat) (digits : List Char) : Option Int := do
    integer64? false (← numeral? (digitBelow? base) base 0 (← joinDigits digits))
  match s with
  | '0' :: 'x' :: digits => based 16 digits
  | '0' :: 'o' :: digits => based 8 digits
  | '0' :: 'b' :: digits => based 2 digits
  | _ => do
    let (negative, s) := splitSign s
    integer64? negative (← decimal? (← wholeDigits? s))

/-- The numeral with a point or an exponent that a row of characters is. -/
def decimalNumeral? (s : List Char) : Option Decimal := do
  let (negative, s) := splitSign s
  let isMark (c : Char) : Bool := c == 'e' || c == 'E'
  let mantissa := s.takeWhile fun c => !isMark c
  let exponent ← match s.dropWhile fun c => !isMark c with
    | [] => some none
    | _ :: rest =>
      let (negative, digits) := splitSign rest
      (laterDigits? digits).map fun ds => some (negative, ds)
  let whole ← wholeDigits? (mantissa.takeWhile (· != '.'))
  let fraction ← match mantissa.dropWhile (· != '.') with
    | [] => some none
    | _ :: digits => (laterDigits? digits).map some
  if fraction.isSome ∨ exponent.isSome then some ⟨negative, whole, fraction, exponent⟩ else none

/-- Whether a row of characters is a number that is no integer: infinity, a name for no number, or
a numeral whose value is not beyond the range of doubles from above. -/
def isReal (s : List Char) : Bool :=
  let name := (splitSign s).2
  name = "inf".toList || name = "nan".toList ||
    (decimalNumeral? s).any fun d => d.negative || !d.isOverflow

/-! ## Dates and times -/

/-- A number of so many digits within a range at the front of a text. -/
def takeFixed (width low high : Nat) (s : List Char) : Option (Nat × List Char) := do
  let digits := s.take width
  let n ← decimal? digits
  if digits.length = width ∧ low ≤ n ∧ n ≤ high then some (n, s.drop width) else none

/-- What follows one expected character. -/
def takeMark (c : Char) : List Char → Option (List Char)
  | d :: rest => if d = c then some rest else none
  | [] => none

/-- What follows a date that exists. -/
def takeDate (s : List Char) : Option (List Char) := do
  let (year, s) ← takeFixed 4 0 9999 s
  let (month, s) ← takeFixed 2 1 12 (← takeMark '-' s)
  let (day, s) ← takeFixed 2 1 31 (← takeMark '-' s)
  if (Date.mk year month day).isValid then some s else none

/-- What follows a time of day. -/
def takeTime (s : List Char) : Option (List Char) := do
  let (_, s) ← takeFixed 2 0 23 s
  let (_, s) ← takeFixed 2 0 59 (← takeMark ':' s)
  let (_, s) ← takeFixed 2 0 60 (← takeMark ':' s)
  match s with
  | '.' :: rest => if rest.head?.any isDigit then some (rest.dropWhile isDigit) else none
  | _ => some s

/-- Whether a row of characters is a zone, or empty. -/
def isZone (s : List Char) : Bool :=
  let minutes : Option (List Char) := do
    let sign ← s.head?
    let (_, s) ← takeFixed 2 0 23 s.tail
    let (_, s) ← takeFixed 2 0 59 (← takeMark ':' s)
    if sign = '+' ∨ sign = '-' then some s else none
  s = [] || s = ['Z'] || s = ['z'] || minutes = some []

/-- Whether a row of characters is a date, a time of day, or both. -/
def isMoment (s : List Char) : Bool :=
  match takeDate s with
  | some [] => true
  | some (mark :: rest) =>
    (mark = 'T' || mark = 't' || mark = ' ') && (takeTime rest).any isZone
  | none => takeTime s = some []

/-! ## Values -/

/-- The value of a row of characters without quotes. -/
def Value.ofWord? (s : List Char) : Option Value :=
  if s = "true".toList then some (.bool true)
  else if s = "false".toList then some (.bool false)
  else if isMoment s then some .moment
  else if isReal s then some .real
  else (integer? s).map .integer

end Gatehouse.Toml
