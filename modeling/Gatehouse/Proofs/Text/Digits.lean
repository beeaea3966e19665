import Mathlib.Algebra.Group.Nat.Defs
import Mathlib.Data.List.Basic
import Gatehouse.Text.Digits

/-!
# Gatehouse.Proofs.Text.Digits — numerals are read back

Numbers are written and read in several places: in JSON, in addresses, in the configuration and in
instants.  All of them read a row of digits from the left, with the value so far multiplied by ten
for each, and all of them write the digits that the library gives for a number.  The lemmas here
relate the two once, so that no reader has to be opened again.

* `decimal?_eq_some_iff` : which texts are numerals, and what they stand for.  A numeral may have
  zeros in front, but it is never empty.
* `unsigned?_eq_some_iff` : which texts are read as an unsigned number.  It has a bound, and a plus
  sign may stand in front of it; nothing else may, a blank included.
* `decimal?_toDigits` : the digits of a number have its value.
* `decimal?_padded` and `length_padded` : they still do behind zeros that fill up a width, and are
  exactly as many as the width if the number has room in it.

`eq_zero_of_head?_toDigits` says that no numeral but that of zero begins with a zero, which is what
a JSON reader asks of a number.
-/

namespace Gatehouse.Text

/-- A digit stands for its distance from zero. -/
theorem digit?_of_isDigit {c : Char} (h : c.isDigit = true) :
    digit? c = some (c.toNat - '0'.toNat) := by
  rw [Char.isDigit, Bool.and_eq_true, decide_eq_true_iff, decide_eq_true_iff] at h
  exact if_pos h

/-- Nothing but a digit stands for a number. -/
theorem isDigit_of_digit? {c : Char} {d : Nat} (h : digit? c = some d) : c.isDigit = true := by
  unfold digit? at h
  split at h
  · next hc =>
    rw [Char.isDigit, Bool.and_eq_true, decide_eq_true_iff, decide_eq_true_iff]
    exact hc
  · cases h

/-- The digits of a number are digits, as a reader of numerals tells them. -/
theorem isDigit_of_mem_toDigits {n : Nat} {c : Char} (h : c ∈ Nat.toDigits 10 n) :
    isDigit c = true := by
  have hc := Nat.isDigit_of_mem_toDigits (by decide) (by decide) h
  rw [isDigit, digit?_of_isDigit hc]
  rfl

/-- A row of digits is read to its end, and has the value that the library gives it. -/
theorem numeral?_of_isDigit {cs : List Char} (h : ∀ c ∈ cs, c.isDigit = true) (acc : Nat) :
    numeral? digit? 10 acc cs = some (Nat.ofDigitChars 10 cs acc) := by
  induction cs generalizing acc with
  | nil => rfl
  | cons c cs ih =>
      have hc := digit?_of_isDigit (h c List.mem_cons_self)
      rw [numeral?, hc, Option.bind_eq_bind, Option.bind_some,
        ih (fun d hd => h d (List.mem_cons_of_mem c hd)), Nat.ofDigitChars_cons, Nat.mul_comm]

/-- Only digits are read. -/
theorem isDigit_of_numeral? {cs : List Char} {acc n : Nat}
    (h : numeral? digit? 10 acc cs = some n) : ∀ c ∈ cs, c.isDigit = true := by
  induction cs generalizing acc with
  | nil => exact nofun
  | cons c cs ih =>
      rw [numeral?, Option.bind_eq_bind, Option.bind_eq_some_iff] at h
      obtain ⟨d, hd, hrest⟩ := h
      exact List.forall_mem_cons.2 ⟨isDigit_of_digit? hd, ih hrest⟩

/-- A numeral is a row of digits, which is not empty, and has the value of these digits. -/
theorem decimal?_eq_some_iff {cs : List Char} {n : Nat} : decimal? cs = some n ↔
    cs ≠ [] ∧ (∀ c ∈ cs, c.isDigit = true) ∧ Nat.ofDigitChars 10 cs 0 = n := by
  cases cs with
  | nil => exact iff_of_false nofun fun h => h.1 rfl
  | cons c cs =>
      show numeral? digit? 10 0 (c :: cs) = some n ↔ _
      constructor
      · intro h
        have hdigits := isDigit_of_numeral? h
        rw [numeral?_of_isDigit hdigits] at h
        exact ⟨nofun, hdigits, Option.some.inj h⟩
      · rintro ⟨-, hdigits, rfl⟩
        exact numeral?_of_isDigit hdigits 0

/-- An unsigned number is a numeral below the bound, which may stand behind a plus sign. -/
theorem unsigned?_eq_some_iff {bound n : Nat} {s : List Char} : unsigned? bound s = some n ↔
    n < bound ∧ ∃ digits, (s = digits ∨ s = '+' :: digits) ∧ decimal? digits = some n := by
  have hbelow : ∀ digits, (do
      let m ← decimal? digits
      if m < bound then some m else none) = some n ↔ n < bound ∧ decimal? digits = some n := by
    intro digits
    cases decimal? digits with
    | none => exact iff_of_false nofun nofun
    | some m =>
        show (if m < bound then some m else none) = some n ↔ _
        split
        · next hm => exact ⟨fun h => ⟨Option.some.inj h ▸ hm, h⟩, And.right⟩
        · next hm => exact iff_of_false nofun fun h => hm (Option.some.inj h.2 ▸ h.1)
  unfold unsigned?
  split
  · next rest =>
    refine (hbelow rest).trans (and_congr_right' ?_)
    constructor
    · exact fun h => ⟨rest, Or.inr rfl, h⟩
    · rintro ⟨digits, rfl | hrest, h⟩
      · -- a plus sign is no digit
        exact absurd ((decimal?_eq_some_iff.1 h).2.1 _ List.mem_cons_self) (by decide)
      · exact (List.cons.inj hrest).2 ▸ h
  · next hplus =>
    refine (hbelow s).trans (and_congr_right' ?_)
    constructor
    · exact fun h => ⟨s, Or.inl rfl, h⟩
    · rintro ⟨digits, rfl | rfl, h⟩
      · exact h
      · exact absurd rfl (hplus digits)

/-- The digits of a number have its value. -/
theorem decimal?_toDigits (n : Nat) : decimal? (Nat.toDigits 10 n) = some n := by
  have hnumeral : numeral? digit? 10 0 (Nat.toDigits 10 n) = some n := by
    rw [numeral?_of_isDigit fun c => Nat.isDigit_of_mem_toDigits (by decide) (by decide),
      Nat.ofDigitChars_toDigits (by decide) (by decide)]
  cases hdigits : Nat.toDigits 10 n with
  | nil => exact absurd hdigits Nat.toDigits_ne_nil
  | cons c cs =>
      rw [hdigits] at hnumeral
      exact hnumeral

/-- Only the numeral of zero begins with a zero. -/
theorem eq_zero_of_head?_toDigits {n : Nat} (h : (Nat.toDigits 10 n).head? = some '0') :
    n = 0 := by
  induction n using Nat.strongRecOn with
  | ind n ih =>
      rw [Nat.toDigits_eq_if (by decide)] at h
      split at h
      · next hn =>
        exact Nat.digitChar_eq_zero.1 (Option.some.inj h)
      · next hn =>
        rw [List.head?_append_of_ne_nil _ Nat.toDigits_ne_nil] at h
        have hzero := ih (n / 10) (by omega) h
        omega

/-! ## Numerals of a width -/

section

variable {width n : Nat}

/-- What is filled up with zeros consists of digits only. -/
theorem mem_padded {c : Char} (h : c ∈ padded width n) : c.isDigit = true := by
  rcases List.mem_append.1 h with hzero | hdigit
  · rw [List.eq_of_mem_replicate hzero]
    rfl
  · exact Nat.isDigit_of_mem_toDigits (by decide) (by decide) hdigit

/-- What is filled up with zeros consists of what a reader of numerals takes. -/
theorem isDigit_of_mem_padded {c : Char} (h : c ∈ padded width n) : isDigit c = true := by
  rw [isDigit, digit?_of_isDigit (mem_padded h)]
  rfl

/-- A number that has room has exactly the digits of the width. -/
theorem length_padded (hwidth : 0 < width) (h : n < 10 ^ width) :
    (padded width n).length = width := by
  have hle : (Nat.toDigits 10 n).length ≤ width :=
    (Nat.length_toDigits_le_iff (by decide) hwidth).2 h
  unfold padded
  rw [List.length_append, List.length_replicate]
  omega

/-- There is a digit even if no width is asked for. -/
theorem padded_ne_nil (width n : Nat) : padded width n ≠ [] := by
  unfold padded
  exact List.append_ne_nil_of_right_ne_nil _ Nat.toDigits_ne_nil

/-- Zeros in front do not change the value. -/
theorem decimal?_padded : decimal? (padded width n) = some n := by
  have hnumeral : numeral? digit? 10 0 (padded width n) = some n := by
    rw [numeral?_of_isDigit fun c => mem_padded, padded, Nat.ofDigitChars_append,
      Nat.ofDigitChars_replicate_zero, Nat.mul_zero, Nat.ofDigitChars_ten_toDigits]
  obtain ⟨c, cs, hdigits⟩ := List.exists_cons_of_ne_nil (padded_ne_nil width n)
  rw [hdigits] at hnumeral ⊢
  exact hnumeral

end

end Gatehouse.Text
