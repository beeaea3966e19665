import Mathlib.Data.List.TakeWhile
import Mathlib.Tactic.SplitIfs
import Gatehouse.Proofs.Text.Digits
import Gatehouse.Proofs.Time.Date
import Gatehouse.Time.Timestamp

/-!
# Gatehouse.Proofs.Time.Timestamp — written instants are read back

An instant is written as a date, a time of day, as many digits of the fraction as are needed, and
`Z`.  It is read by a sequence of readers, each of which takes a field from the front of a row of
characters and returns what it stands for with the rest.

Each lemma of this module is about one reader and says that it takes what its part of
`Timestamp.render` writes, whatever follows.  The parts are then put together in the order in which
they are written.

* `takeFraction_renderFraction` : the fraction of a second is read back, in whichever of the four
  lengths it was written.
* `Plain.inCalendar` : the years of four digits lie within the calendar, so that nothing else
  refuses them.
* `Plain.read_render` : the main result.  An instant that has four digits for its year and is in no
  leap second is read back from its written form.

Years with a sign are read by branches of their own, which are not followed here; and a leap second
is read back as it was only at the end of a minute, since it is written as the second after the one
that it is counted from.
-/

namespace Gatehouse.Time

open Gatehouse.Text

namespace Timestamp

/-! ## Numbers -/

/-- A digit is no blank. -/
theorem not_isBlank_of_isDigit {c : Char} (h : c.isDigit = true) : isBlank c = false := by
  rw [Char.isDigit, Bool.and_eq_true, decide_eq_true_iff, decide_eq_true_iff] at h
  obtain ⟨hlow, hhigh⟩ := h
  have hlow' : 48 ≤ c.toNat := hlow
  have hhigh' : c.toNat ≤ 57 := hhigh
  unfold isBlank
  simp only [Bool.or_eq_false_iff, Bool.and_eq_false_iff, decide_eq_false_iff_not,
    beq_eq_false_iff_ne]
  omega

/-- There are no blanks to skip in front of a number. -/
theorem trimStart_padded (width n : Nat) (rest : List Char) :
    trimStart (padded width n ++ rest) = padded width n ++ rest := by
  obtain ⟨c, cs, hdigits⟩ := List.exists_cons_of_ne_nil (padded_ne_nil width n)
  have hc : c.isDigit = true := mem_padded (hdigits ▸ List.mem_cons_self : c ∈ padded width n)
  rw [hdigits, List.cons_append, trimStart,
    List.dropWhile_cons_of_neg (by rw [not_isBlank_of_isDigit hc]; exact Bool.false_ne_true)]

/-- A number that fills its width is taken whatever follows it. -/
theorem takeNumber_padded {width n : Nat} (hwidth : 0 < width) (h : n < 10 ^ width)
    (rest : List Char) : takeNumber width (padded width n ++ rest) = some (n, rest) := by
  have hlength := length_padded hwidth h
  have htake : (padded width n ++ rest).take width = padded width n :=
    List.take_left' hlength
  have hdigits : (padded width n).takeWhile isDigit = padded width n :=
    List.takeWhile_eq_self_iff.2 fun c => isDigit_of_mem_padded
  unfold takeNumber
  dsimp only
  rw [htake, hdigits, decimal?_padded, List.drop_left' rfl]
  rfl

/-- A field of two digits is taken if its number lies within its bounds. -/
theorem takeField_padded {low high n : Nat} (hlow : low ≤ n) (hhigh : n ≤ high) (h : n < 100)
    (rest : List Char) : takeField low high (padded 2 n ++ rest) = some (n, rest) := by
  unfold takeField
  rw [trimStart_padded, takeNumber_padded (by decide) h]
  exact if_pos ⟨hlow, hhigh⟩

/-- A separator is taken if it is no blank itself, since blanks are skipped in front of it. -/
theorem takeSeparator_cons {c : Char} (h : isBlank c = false) (rest : List Char) :
    takeSeparator c (c :: rest) = some rest := by
  unfold takeSeparator trimStart
  rw [List.dropWhile_cons_of_neg (by rw [h]; exact Bool.false_ne_true)]
  exact if_pos rfl

/-- A year of four digits is taken without a sign. -/
theorem takeYear_padded {n : Nat} (h : n < 10000) (rest : List Char) :
    takeYear (padded 4 n ++ rest) = some ((n : Int), rest) := by
  obtain ⟨c, cs, hdigits⟩ := List.exists_cons_of_ne_nil (padded_ne_nil 4 n)
  have hc : c.isDigit = true := mem_padded (hdigits ▸ List.mem_cons_self : c ∈ padded 4 n)
  have hnumber := takeNumber_padded (by decide : 0 < 4) h rest
  rw [hdigits] at hnumber ⊢
  rw [List.cons_append] at hnumber ⊢
  unfold takeYear
  split
  · next hsign =>
    cases hsign
    -- a digit is no sign
    exact absurd hc (by decide)
  · next hsign =>
    cases hsign
    exact absurd hc (by decide)
  · rw [hnumber]
    rfl

/-! ## Fractions -/

/-- The digits of a fraction end at the zone. -/
theorem takeFraction_padded {width n : Nat} (hwidth : 0 < width) (hnine : width ≤ 9)
    (h : n < 10 ^ width) {z : Char} (hz : isDigit z = false) (rest : List Char) :
    takeFraction ('.' :: (padded width n ++ z :: rest)) =
      some (n * 10 ^ (9 - width), z :: rest) := by
  have hlength := length_padded hwidth h
  have hdigits : (padded width n ++ z :: rest).takeWhile isDigit = padded width n := by
    rw [List.takeWhile_append_of_pos fun c => isDigit_of_mem_padded,
      List.takeWhile_cons_of_neg (by rw [hz]; exact Bool.false_ne_true), List.append_nil]
  have hkept : (padded width n).take 9 = padded width n :=
    List.take_of_length_le (by omega)
  rw [takeFraction, hdigits, hkept, decimal?_padded, hlength, List.drop_left' hlength]
  rfl

/-- A fraction is read back from as many digits as it was written with: none, three, six or nine. -/
theorem takeFraction_renderFraction {n : Nat} (h : n < 1000000000) :
    takeFraction (renderFraction n ++ ['Z']) = some (n, ['Z']) := by
  have hz : isDigit 'Z' = false := rfl
  unfold renderFraction
  split
  · next hzero =>
    rw [hzero]
    rfl
  split
  · next hmillis =>
    rw [List.cons_append, takeFraction_padded (by decide) (by decide) (by omega) hz]
    congr 2
    omega
  split
  · next hmicros =>
    rw [List.cons_append, takeFraction_padded (by decide) (by decide) (by omega) hz]
    congr 2
    omega
  · rw [List.cons_append, takeFraction_padded (by decide) (by decide) h hz]
    congr 2
    omega

/-! ## Dates and times of day -/

/-- A date is taken field by field, whether it exists or not. -/
theorem takeDate_padded {year month day : Nat} (hyear : year < 10000)
    (hmonth : 1 ≤ month ∧ month ≤ 12) (hday : 1 ≤ day ∧ day ≤ 31) (rest : List Char) :
    takeDate (padded 4 year ++ '-' :: (padded 2 month ++ '-' :: (padded 2 day ++ rest))) =
      some (⟨year, month, day⟩, rest) := by
  unfold takeDate
  rw [trimStart_padded, takeYear_padded hyear]
  simp only [Option.bind_eq_bind, Option.bind_some, takeSeparator_cons (c := '-') rfl]
  rw [takeField_padded hmonth.1 hmonth.2 (by omega)]
  simp only [Option.bind_some, takeSeparator_cons (c := '-') rfl]
  rw [takeField_padded hday.1 hday.2 (by omega)]
  rfl

/-- A time of day is taken field by field, with its fraction, up to the zone. -/
theorem takeTime_padded {hour minute second nanos : Nat} (hhour : hour ≤ 23) (hminute : minute ≤ 59)
    (hsecond : second ≤ 59) (hnanos : nanos < 1000000000) :
    takeTime (padded 2 hour ++ ':' :: (padded 2 minute ++ ':' ::
      (padded 2 second ++ (renderFraction nanos ++ ['Z'])))) =
      some ((hour * 3600 + minute * 60 + second, nanos), ['Z']) := by
  unfold takeTime
  rw [takeField_padded (Nat.zero_le _) hhour (by omega)]
  simp only [Option.bind_eq_bind, Option.bind_some, takeSeparator_cons (c := ':') rfl]
  rw [takeField_padded (Nat.zero_le _) hminute (by omega)]
  simp only [Option.bind_some, takeSeparator_cons (c := ':') rfl]
  rw [takeField_padded (Nat.zero_le _) (Nat.le_succ_of_le hsecond) (by omega)]
  simp only [Option.bind_some]
  rw [takeFraction_renderFraction hnanos]
  exact if_neg (by omega)

/-! ## Instants -/

/-- Whether an instant lies in a year of four digits and in no leap second. -/
structure Plain (t : Timestamp) : Prop where
  year : 0 ≤ (Date.ofDays (t.seconds / 86400)).year ∧ (Date.ofDays (t.seconds / 86400)).year ≤ 9999
  nanos : t.nanos < 1000000000

variable {t : Timestamp}

/-- Years of four digits lie within the calendar. -/
theorem Plain.inCalendar (h : t.Plain) : inCalendar t.seconds = true := by
  obtain ⟨era, p, hp, hdays, hdate⟩ := Date.exists_ofDays (t.seconds / 86400)
  obtain ⟨hyear, hday, hlow, hhigh⟩ := And.intro (yearOfEra_bounds hp) (And.intro hp.day h.year)
  have hera := dayOfEra_eq hp
  rw [hdate] at hlow hhigh
  unfold Date.ofMarch at hlow hhigh
  dsimp only at hlow hhigh
  unfold Timestamp.inCalendar firstSecond lastSecond
  rw [Bool.and_eq_true, decide_eq_true_iff, decide_eq_true_iff]
  split at hlow <;> omega

/-- The parts of a written instant. -/
theorem Plain.render_eq (h : t.Plain) : t.render.toList =
    let date := Date.ofDays (t.seconds / 86400)
    let ofDay := (t.seconds % 86400).toNat
    padded 4 date.year.toNat ++ '-' :: (padded 2 date.month ++ '-' :: (padded 2 date.day ++ 'T' ::
      (padded 2 (ofDay / 3600) ++ ':' :: (padded 2 (ofDay / 60 % 60) ++ ':' ::
        (padded 2 (ofDay % 60) ++ (renderFraction t.nanos ++ ['Z'])))))) := by
  have hleap : t.nanos / 1000000000 = 0 := Nat.div_eq_of_lt h.nanos
  have hnanos : t.nanos % 1000000000 = t.nanos := Nat.mod_eq_of_lt h.nanos
  unfold render renderLocal renderYear
  rw [String.toList_ofList]
  dsimp only
  rw [hleap, hnanos, if_pos h.year]
  simp

/-- A date that exists has its month and its day within the bounds of their fields. -/
theorem bounds_of_isValid {d : Date} (h : d.isValid = true) :
    (1 ≤ d.month ∧ d.month ≤ 12) ∧ 1 ≤ d.day ∧ d.day ≤ 31 := by
  have hlength : daysInMonth d.year d.month ≤ 31 := by
    unfold daysInMonth
    split_ifs <;> decide
  simp only [Date.isValid, Bool.and_eq_true, decide_eq_true_iff] at h
  omega

/-- The instant of a day and of a second of that day. -/
theorem ofParts_utc {d : Date} (h : d.isValid = true) {second : Nat} (nanos : Nat)
    (hcalendar : Timestamp.inCalendar (d.toDays * 86400 + second) = true) :
    ofParts d (second, nanos) 0 = some ⟨d.toDays * 86400 + second, nanos⟩ := by
  unfold ofParts
  rw [Int.sub_zero]
  exact if_pos ⟨h, by decide, by decide, hcalendar, hcalendar⟩

/-- **Instants.**  An instant in a year of four digits and in no leap second is read back from its
written form. -/
theorem Plain.read_render (h : t.Plain) : read t.render = some t := by
  have hvalid := Date.isValid_ofDays (t.seconds / 86400)
  obtain ⟨hmonth, hday⟩ := bounds_of_isValid hvalid
  obtain ⟨hlow, hhigh⟩ := h.year
  -- the second of the day is found again from its hour, its minute and what is left
  have hofDay : (t.seconds % 86400).toNat / 3600 * 3600 + (t.seconds % 86400).toNat / 60 % 60 * 60 +
      (t.seconds % 86400).toNat % 60 = (t.seconds % 86400).toNat := by omega
  have hseconds : (Date.ofDays (t.seconds / 86400)).toDays * 86400 + (t.seconds % 86400).toNat =
      t.seconds := by
    rw [Date.toDays_ofDays]
    omega
  have hdate : (⟨((Date.ofDays (t.seconds / 86400)).year.toNat : Int),
      (Date.ofDays (t.seconds / 86400)).month, (Date.ofDays (t.seconds / 86400)).day⟩ : Date) =
        Date.ofDays (t.seconds / 86400) := by
    rw [Int.toNat_of_nonneg hlow]
  have hcalendar := h.inCalendar
  rw [← hseconds] at hcalendar
  have hinstant := ofParts_utc hvalid t.nanos hcalendar
  rw [hseconds] at hinstant
  unfold read readChars
  rw [h.render_eq]
  dsimp only
  rw [takeDate_padded (by omega) hmonth hday, hdate]
  show Option.bind (takeTime _) _ = _
  rw [takeTime_padded (by omega) (by omega) (by omega) h.nanos, hofDay]
  exact hinstant

end Timestamp

end Gatehouse.Time
