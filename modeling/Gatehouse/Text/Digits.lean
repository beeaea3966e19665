import Gatehouse.Word

/-!
# Gatehouse.Text.Digits — decimal and hexadecimal numerals

The value of a row of digits, and the readers of unsigned numbers that settings and query strings
go through.  `unsigned?` admits an optional plus sign and decimal digits only: no blank, no sign
other than plus, no separator, and no value of the bound or above.

Digits are those of ASCII.  Zeros in front are taken, and the bound is on the value and not on the
number of digits; a format that allows neither checks for itself.  `padded` is the writer that
belongs to `decimal?`: `Gatehouse.Proofs.Text.Digits` proves that a padded number is read back.
-/

namespace Gatehouse.Text

/-- The value of an ASCII decimal digit. -/
def digit? (c : Char) : Option Nat :=
  if '0' ≤ c ∧ c ≤ '9' then some (c.toNat - '0'.toNat) else none

/-- Whether a character is an ASCII decimal digit. -/
def isDigit (c : Char) : Bool := (digit? c).isSome

/-- The value of an ASCII hexadecimal digit of either case. -/
def hexDigit? (c : Char) : Option Nat :=
  if '0' ≤ c ∧ c ≤ '9' then some (c.toNat - '0'.toNat)
  else if 'a' ≤ c ∧ c ≤ 'f' then some (c.toNat - 'a'.toNat + 10)
  else if 'A' ≤ c ∧ c ≤ 'F' then some (c.toNat - 'A'.toNat + 10)
  else none

/-- Reads a row of digits in a base, most significant digit first. -/
def numeral? (digit : Char → Option Nat) (base : Nat) : Nat → List Char → Option Nat
  | acc, [] => some acc
  | acc, c :: rest => do numeral? digit base (acc * base + (← digit c)) rest

/-- The value of a nonempty row of decimal digits. -/
def decimal? : List Char → Option Nat
  | [] => none
  | cs => numeral? digit? 10 0 cs

/-- An unsigned number below a bound, with an optional plus sign. -/
def unsigned? (bound : Nat) (s : List Char) : Option Nat := do
  let digits := match s with
    | '+' :: rest => rest
    | _ => s
  let n ← decimal? digits
  if n < bound then some n else none

/-- A signed 64-bit number with an optional sign. -/
def signed64? (s : List Char) : Option Int := do
  match s with
  | '-' :: rest =>
    let n ← decimal? rest
    if n ≤ Word.bound 63 then some (-(n : Int)) else none
  | '+' :: rest =>
    let n ← decimal? rest
    if n < Word.bound 63 then some n else none
  | _ =>
    let n ← decimal? s
    if n < Word.bound 63 then some n else none

/-- The decimal digits of a number, at least `width` of them. -/
def padded (width n : Nat) : List Char :=
  let digits := Nat.toDigits 10 n
  List.replicate (width - digits.length) '0' ++ digits

end Gatehouse.Text
