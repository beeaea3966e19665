import Gatehouse.Text.Digits

/-!
# Gatehouse.Text.Decimal — numerals with a point or an exponent

A numeral is kept as it is written, and never rounded: all that is asked of one is whether its value
lies beyond the range of doubles, and that is decided in exact arithmetic.

That is the question of a settings file, whose reader refuses a numeral that would come out as
infinite.  The reader of JSON has another conversion, which is not exact, and follows it itself
(`Gatehouse.Json.Token`); the two share the numeral and the bound.  Exponents may have any number of
digits, so the exact value is computed only between two bounds on the number of places, where it is
small enough.
-/

namespace Gatehouse.Text

/-- A numeral as it is written: sign, digits before and after the point, exponent. -/
structure Decimal where
  negative : Bool
  whole : List Char
  fraction : Option (List Char)
  exponent : Option (Bool × List Char)
deriving DecidableEq, Repr

namespace Decimal

/-- The least real that is too large for a double. -/
def realBound : Nat := Word.bound 1024 - Word.bound 970

/-- Whether the value lies beyond the range of doubles.  A value with more than 310 digits before
the point does, one with fewer than 300 does not, and between the two the exact value decides. -/
def isOverflow (d : Decimal) : Bool :=
  let frac := d.fraction.getD []
  let mantissa := (d.whole ++ frac).dropWhile (· == '0')
  if mantissa.isEmpty then false
  else
    let digits := (decimal? mantissa).getD 0
    let exponent : Int := match d.exponent with
      | none => 0
      | some (negative, ds) => let n : Int := (decimal? ds).getD 0; if negative then -n else n
    let shift : Int := exponent - frac.length
    let places : Int := mantissa.length + shift
    if places > 310 then true
    else if places < 300 then false
    else if 0 ≤ shift then realBound ≤ digits * Nat.pow 10 shift.toNat
    else realBound * Nat.pow 10 shift.natAbs ≤ digits

end Decimal

end Gatehouse.Text
