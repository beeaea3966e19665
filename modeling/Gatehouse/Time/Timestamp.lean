import Gatehouse.Text.Blank
import Gatehouse.Text.Digits
import Gatehouse.Time.Date

/-!
# Gatehouse.Time.Timestamp — instants and their written form

A `Timestamp` is an instant in whole seconds and nanoseconds since 1970.  A second that holds a leap
second has nanoseconds beyond 10⁹, so that `23:59:60` has a place after `23:59:59`.

* `Timestamp.render` writes RFC 3339 in UTC, with 0, 3, 6 or 9 digits of fraction: the fewest that
  are exact.
* `Timestamp.read` takes RFC 3339 with the usual liberties: blanks around the numbers, a lower-case
  `t` or `z` or a blank between date and time, `UTC` for the zone, a signed year of any length.

The calendar has a first and a last second, and an instant outside of it is not read.  Years that
have more than four digits, and those before the year 0, are written with a sign.

A reader takes from the front what it needs and leaves the rest (`takeDate`, `takeTime`,
`takeZone`), so that each of them can be proved to take what the writer wrote, with anything behind
it.
-/

namespace Gatehouse.Time

open Gatehouse.Text

/-- An instant, in seconds since 1970 and nanoseconds within the second; a leap second counts as
the nanoseconds from 10⁹ on of the second before it. -/
structure Timestamp where
  seconds : Int
  nanos : Nat
deriving DecidableEq, Repr, Inhabited

namespace Timestamp

/-- The seconds of the first instant that the calendar holds, in the year -262143. -/
def firstSecond : Int := -8334601228800

/-- The seconds of the last instant that the calendar holds, in the year 262142. -/
def lastSecond : Int := 8210266876799

/-- Whether a number of seconds since 1970 lies within the calendar. -/
def inCalendar (seconds : Int) : Bool := firstSecond ≤ seconds && seconds ≤ lastSecond

/-- The instant of a number of nanoseconds since 1970. -/
def ofNanos (n : Nat) : Timestamp := ⟨(n / 1000000000 : Nat), n % 1000000000⟩

/-- The instant at a resolution of one microsecond, counted from the year 2000 and rounded towards
it, as the database keeps it. -/
def toMicroseconds (t : Timestamp) : Timestamp :=
  let nanos : Int := (t.seconds - 946684800) * 1000000000 + t.nanos
  let micros := nanos.tdiv 1000
  ⟨946684800 + micros / 1000000, (micros % 1000000).toNat * 1000⟩

/-! ## Writing -/

/-- The fraction of a second, with the fewest of 0, 3, 6 and 9 digits that are exact. -/
def renderFraction (nanos : Nat) : List Char :=
  if nanos = 0 then []
  else if nanos % 1000000 = 0 then '.' :: padded 3 (nanos / 1000000)
  else if nanos % 1000 = 0 then '.' :: padded 6 (nanos / 1000)
  else '.' :: padded 9 nanos

/-- A year in four digits, or with a sign and at least four digits when it has no such form. -/
def renderYear (year : Int) : List Char :=
  if 0 ≤ year ∧ year ≤ 9999 then padded 4 year.toNat
  else if 0 ≤ year then '+' :: padded 4 year.toNat
  else '-' :: padded 4 year.natAbs

/-- The date and the time of day, without a zone. -/
def renderLocal (t : Timestamp) : List Char :=
  let date := Date.ofDays (t.seconds / 86400)
  let ofDay := (t.seconds % 86400).toNat
  let leap := t.nanos / 1000000000
  renderYear date.year ++ '-' :: padded 2 date.month ++ '-' :: padded 2 date.day ++
    'T' :: padded 2 (ofDay / 3600) ++ ':' :: padded 2 (ofDay / 60 % 60) ++
    ':' :: padded 2 (ofDay % 60 + leap) ++ renderFraction (t.nanos % 1000000000)

/-- RFC 3339 in UTC, with `Z` for the zone. -/
def render (t : Timestamp) : String := String.ofList (t.renderLocal ++ ['Z'])

/-- RFC 3339 in UTC, with a numeric zone. -/
def renderOffset (t : Timestamp) : String := String.ofList (t.renderLocal ++ "+00:00".toList)

/-! ## Reading -/

/-- Takes up to `most` decimal digits, at least one of them. -/
def takeNumber (most : Nat) (s : List Char) : Option (Nat × List Char) := do
  let digits := (s.take most).takeWhile isDigit
  let n ← decimal? digits
  return (n, s.drop digits.length)

/-- Takes one expected character. -/
def takeChar (c : Char) : List Char → Option (List Char)
  | d :: rest => if d = c then some rest else none
  | [] => none

/-- A year: up to four digits, or a sign and any number of digits. -/
def takeYear (s : List Char) : Option (Int × List Char) :=
  match s with
  | '-' :: rest => do
    let (n, rest) ← takeNumber rest.length rest
    return (-(n : Int), rest)
  | '+' :: rest => do
    let (n, rest) ← takeNumber rest.length rest
    return ((n : Int), rest)
  | _ => do
    let (n, rest) ← takeNumber 4 s
    return ((n : Int), rest)

/-- A number of up to two digits within a range, after blanks. -/
def takeField (low high : Nat) (s : List Char) : Option (Nat × List Char) := do
  let (n, rest) ← takeNumber 2 (trimStart s)
  if low ≤ n ∧ n ≤ high then some (n, rest) else none

/-- A separator, with blanks before it. -/
def takeSeparator (c : Char) (s : List Char) : Option (List Char) := takeChar c (trimStart s)

/-- The nanoseconds of an optional fraction; digits after the ninth are dropped. -/
def takeFraction : List Char → Option (Nat × List Char)
  | '.' :: rest => do
    let digits := rest.takeWhile isDigit
    let kept := digits.take 9
    let n ← decimal? kept
    return (n * Nat.pow 10 (9 - kept.length), rest.drop digits.length)
  | s => some (0, s)

/-- Takes exactly two decimal digits. -/
def takeTwoDigits : List Char → Option (Nat × List Char)
  | c :: d :: rest => do return ((← digit? c) * 10 + (← digit? d), rest)
  | _ => none

/-- A zone as seconds east of Greenwich: `Z`, `UTC`, or hours and minutes with a sign. -/
def takeZone (s : List Char) : Option (Int × List Char) :=
  let numeric (rest : List Char) : Option (Int × List Char) := do
    let (hours, rest) ← takeTwoDigits rest
    let rest := rest.dropWhile fun c => c = ':' || isBlank c
    let (minutes, rest) ← takeTwoDigits rest
    if minutes < 60 then some (((hours * 3600 + minutes * 60 : Nat) : Int), rest) else none
  match s with
  | 'Z' :: rest | 'z' :: rest => some (0, rest)
  | '+' :: rest => numeric rest
  | '-' :: rest | '−' :: rest => (numeric rest).map fun (n, rest) => (-n, rest)
  | u :: t :: c :: rest =>
    if u.toLower = 'u' ∧ t.toLower = 't' ∧ c.toLower = 'c' then some (0, rest) else none
  | _ => none

/-- The date of a written instant. -/
def takeDate (s : List Char) : Option (Date × List Char) := do
  let (year, s) ← takeYear (trimStart s)
  let (month, s) ← takeField 1 12 (← takeSeparator '-' s)
  let (day, s) ← takeField 1 31 (← takeSeparator '-' s)
  return (⟨year, month, day⟩, s)

/-- The time of day of a written instant, as seconds of the day and nanoseconds. -/
def takeTime (s : List Char) : Option ((Nat × Nat) × List Char) := do
  let (hour, s) ← takeField 0 23 s
  let (minute, s) ← takeField 0 59 (← takeSeparator ':' s)
  let (second, s) ← takeField 0 60 (← takeSeparator ':' s)
  let (nanos, s) ← takeFraction s
  let whole := hour * 3600 + minute * 60
  if second = 60 then return ((whole + 59, nanos + 1000000000), s)
  else return ((whole + second, nanos), s)

/-- The instant of a date, a time of day and a zone, if the date exists and lies in the calendar. -/
def ofParts (date : Date) (time : Nat × Nat) (zone : Int) : Option Timestamp :=
  let seconds := date.toDays * 86400 + time.1 - zone
  let local? := date.toDays * 86400 + time.1
  if date.isValid ∧ -86400 < zone ∧ zone < 86400 ∧ inCalendar local? ∧ inCalendar seconds then
    some ⟨seconds, time.2⟩
  else none

/-- Reads an instant in RFC 3339. -/
def readChars (s : List Char) : Option Timestamp := do
  let (date, s) ← takeDate s
  let s ← takeChar 'T' s <|> takeChar 't' s <|> takeChar ' ' s
  let (time, s) ← takeTime s
  let (zone, s) ← takeZone (trimStart s)
  if (trimStart s).isEmpty then ofParts date time zone else none

/-- Reads an instant in RFC 3339. -/
def read (s : String) : Option Timestamp := readChars s.toList

end Timestamp

end Gatehouse.Time
