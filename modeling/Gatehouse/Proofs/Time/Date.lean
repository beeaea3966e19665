import Mathlib.Tactic.IntervalCases
import Gatehouse.Time.Date

/-!
# Gatehouse.Proofs.Time.Date — every day has a date

Instants are counted in seconds from a fixed day, and written with the year, the month and the day.
The computation between the two is the usual one over eras of 400 years that begin on the first of
March, in which a leap day is the last day of its year and the lengths of the months follow a linear
rule.  It divides by the lengths of rows that are not all equally long, so it is not obvious that it
lands in the right year; that is what is proved here.

An era is a row of centuries, each a row of spans of four years, each a row of years
(`exists_place`).  Counted in this way a day of an era tells its year and its day of that year
(`yearOfEra_eq`), and a year has a 366th day exactly if the calendar year that it ends in is a leap
year (`isLeapYear_of_last`).

* `isValid_ofDays` : the date of a day exists.
* `toDays_ofDays` : it is the date of no other day.
-/

namespace Gatehouse.Time

/-! ## The days of an era -/

/-- A day of an era: its century, its span of four years, its year in the span, and its day in the
year.  Only the last year of a span may have a 366th day, and of the last span of a century only
that of the last century. -/
structure Place where
  century : Int
  span : Int
  year : Int
  day : Int

namespace Place

/-- Whether there is such a day. -/
structure Exists (p : Place) : Prop where
  century : 0 ≤ p.century ∧ p.century ≤ 3
  span : 0 ≤ p.span ∧ p.span ≤ 24
  year : 0 ≤ p.year ∧ p.year ≤ 3
  day : 0 ≤ p.day ∧ p.day ≤ 365
  leap : p.day = 365 → p.year = 3 ∧ (p.span = 24 → p.century = 3)

/-- The number of the day in its era. -/
def dayOfEra (p : Place) : Int := 36524 * p.century + 1461 * p.span + 365 * p.year + p.day

/-- The number of the year in its era. -/
def yearOfEra (p : Place) : Int := 100 * p.century + 4 * p.span + p.year

end Place

/-- Every day of an era has its place. -/
theorem exists_place {n : Int} (hlow : 0 ≤ n) (hhigh : n < 146097) :
    ∃ p : Place, p.Exists ∧ p.dayOfEra = n := by
  -- the last century, and the last year of a span, have a day more than the others
  let century := min (n / 36524) 3
  let ofCentury := n - 36524 * century
  let span := ofCentury / 1461
  let ofSpan := ofCentury - 1461 * span
  let year := min (ofSpan / 365) 3
  refine ⟨⟨century, span, year, ofSpan - 365 * year⟩, ⟨?_, ?_, ?_, ?_, ?_⟩, ?_⟩
  all_goals simp only [Place.dayOfEra, century, ofCentury, span, ofSpan, year]
  all_goals omega

/-- The year of a day of an era. -/
theorem yearOfEra_eq {p : Place} (h : p.Exists) :
    (p.dayOfEra - p.dayOfEra / 1460 + p.dayOfEra / 36524 - p.dayOfEra / 146096) / 365 =
      p.yearOfEra := by
  obtain ⟨⟨hcentury, hcentury'⟩, ⟨hspan, hspan'⟩, ⟨hyear, hyear'⟩, ⟨hday, hday'⟩, hleap⟩ := h
  obtain ⟨century, span, year, day⟩ := p
  dsimp only at *
  unfold Place.dayOfEra Place.yearOfEra
  dsimp only
  by_cases hlast : span = 24 ∧ year = 3 ∧ day = 365
  · obtain ⟨rfl, rfl, rfl⟩ := hlast
    obtain rfl : century = 3 := (hleap rfl).2 rfl
    rfl
  -- but for the last day of an era, only the leap days are left over
  · have hera : (36524 * century + 1461 * span + 365 * year + day) / 146096 = 0 := by omega
    have hcenturies : (36524 * century + 1461 * span + 365 * year + day) / 36524 = century := by
      omega
    have hspans : (36524 * century + 1461 * span + 365 * year + day) / 1460 =
        25 * century + span + (24 * century + span + 365 * year + day) / 1460 := by omega
    rw [hera, hcenturies, hspans]
    omega

/-- The days of an era before one of its years begins. -/
theorem dayOfEra_eq {p : Place} (h : p.Exists) :
    p.dayOfEra = p.yearOfEra * 365 + p.yearOfEra / 4 - p.yearOfEra / 100 + p.day := by
  obtain ⟨hcentury, hspan, hyear, -, -⟩ := h
  unfold Place.dayOfEra Place.yearOfEra
  omega

/-- An era has 400 years. -/
theorem yearOfEra_bounds {p : Place} (h : p.Exists) : 0 ≤ p.yearOfEra ∧ p.yearOfEra < 400 := by
  obtain ⟨hcentury, hspan, hyear, -, -⟩ := h
  unfold Place.yearOfEra
  omega

/-- A 366th day of a year is the leap day of the calendar year that it lies in. -/
theorem isLeapYear_of_last {p : Place} (h : p.Exists) (hlast : p.day = 365) (era : Int) :
    isLeapYear (p.yearOfEra + era * 400 + 1) = true := by
  obtain ⟨hcentury, hspan, -, -, hleap⟩ := h
  obtain ⟨hyear, hcenturies⟩ := hleap hlast
  have hfour : (p.yearOfEra + era * 400 + 1) % 4 = 0 := by
    unfold Place.yearOfEra
    omega
  have hhundred : (p.yearOfEra + era * 400 + 1) % 100 ≠ 0 ∨
      (p.yearOfEra + era * 400 + 1) % 400 = 0 := by
    unfold Place.yearOfEra
    omega
  simpa [isLeapYear, hfour] using hhundred

/-! ## Years that begin in March -/

namespace Date

/-- The date of a day of a year that begins in March. -/
def ofMarch (year : Int) (day : Nat) : Date :=
  let month := (5 * day + 2) / 153
  { year := if month < 10 then year else year + 1
    month := if month < 10 then month + 3 else month - 9
    day := day - (153 * month + 2) / 5 + 1 }

/-- Every day lies in some era, and its date is that of a day of some year. -/
theorem exists_ofDays (days : Int) : ∃ (era : Int) (p : Place), p.Exists ∧
    days = era * 146097 + p.dayOfEra - 719468 ∧
      ofDays days = ofMarch (p.yearOfEra + era * 400) p.day.toNat := by
  obtain ⟨p, hp, hday⟩ := exists_place (n := (days + 719468) % 146097) (by omega) (by omega)
  refine ⟨(days + 719468) / 146097, p, hp, by omega, ?_⟩
  have hrest : p.dayOfEra - (365 * p.yearOfEra + p.yearOfEra / 4 - p.yearOfEra / 100) = p.day := by
    rw [dayOfEra_eq hp]
    omega
  unfold ofDays
  dsimp only
  rw [← hday, yearOfEra_eq hp, hrest]
  rfl

section

variable {era year : Int} {day : Nat}

/-- A day of a year of an era is counted from the era, the year and the day. -/
theorem toDays_ofMarch (hyear : 0 ≤ year ∧ year < 400) (hday : day ≤ 365) :
    (ofMarch (year + era * 400) day).toDays =
      era * 146097 + (year * 365 + year / 4 - year / 100 + day) - 719468 := by
  have hera : (year + era * 400) / 400 = era := by omega
  have hofEra : (year + era * 400) % 400 = year := by omega
  unfold ofMarch toDays
  dsimp only
  generalize hmonth : (5 * day + 2) / 153 = month
  have hfound : ((if month < 10 then month + 3 else month - 9) + 9) % 12 = month := by
    split <;> omega
  have hback : (153 * month + 2) / 5 + (day - (153 * month + 2) / 5 + 1) - 1 = day := by omega
  have hbegin : (if (if month < 10 then month + 3 else month - 9) ≤ 2 then
      (if month < 10 then year + era * 400 else year + era * 400 + 1) - 1
      else if month < 10 then year + era * 400 else year + era * 400 + 1) = year + era * 400 := by
    by_cases hspring : month < 10
    · rw [if_pos hspring, if_pos hspring, if_neg (by omega)]
    · rw [if_neg hspring, if_neg hspring, if_pos (by omega)]
      omega
  rw [hbegin, hfound, hback, hera, hofEra]

/-- A day of a year exists, if the 366th is asked for only before a leap year ends. -/
theorem isValid_ofMarch (hday : day ≤ 365) (hleap : day = 365 → isLeapYear (year + 1) = true) :
    (ofMarch year day).isValid = true := by
  unfold ofMarch isValid daysInMonth
  dsimp only
  generalize hmonth : (5 * day + 2) / 153 = month
  have hlast : month ≤ 11 := by omega
  rcases Nat.lt_or_eq_of_le hlast with hbefore | rfl
  · interval_cases month <;> simp <;> omega
  -- the year ends with February
  · by_cases hyear : day = 365
    · simp [hleap hyear, hyear]
    · cases hfeb : isLeapYear (year + 1) with
      | true => simp [hfeb]; omega
      | false => simp [hfeb]; omega

end

/-- **Dates.**  The date of a day exists. -/
theorem isValid_ofDays (days : Int) : (ofDays days).isValid = true := by
  obtain ⟨era, p, hp, -, hdate⟩ := exists_ofDays days
  obtain ⟨hlow, hhigh⟩ := hp.day
  rw [hdate]
  refine isValid_ofMarch (by omega) fun hlast => ?_
  exact isLeapYear_of_last hp (by omega) era

/-- **Days.**  A day is found again from its date. -/
theorem toDays_ofDays (days : Int) : (ofDays days).toDays = days := by
  obtain ⟨era, p, hp, hdays, hdate⟩ := exists_ofDays days
  obtain ⟨hlow, hhigh⟩ := hp.day
  rw [hdate, toDays_ofMarch (yearOfEra_bounds hp) (by omega), hdays, dayOfEra_eq hp]
  omega

end Date

end Gatehouse.Time
