/-!
# Gatehouse.Text.Split — pieces between separators

`splitAt` cuts a text at every occurrence of a character; the pieces joined by that character are
the text again, and pieces without the character come back from the text that joins them.
`splitFirst` cuts it at the first occurrence only.

There is one piece more than there are separators, so an empty text is one empty piece and a
separator at an end leaves an empty piece there.  Whether empty pieces count is for the caller to
say: in a path they do, in a query string and among the directives of a filter they are dropped.
-/

namespace Gatehouse.Text

/-- The pieces of a text between the occurrences of a character. -/
def splitAt (c : Char) : List Char → List (List Char)
  | [] => [[]]
  | d :: rest =>
    if d = c then [] :: splitAt c rest
    else match splitAt c rest with
      | piece :: pieces => (d :: piece) :: pieces
      | [] => [[d]]

/-- What stands before the first occurrence of a character, and what stands after it, if it
occurs. -/
def splitFirst (c : Char) (s : List Char) : List Char × Option (List Char) :=
  match s.dropWhile (· != c) with
  | [] => (s, none)
  | _ :: after => (s.takeWhile (· != c), some after)

theorem splitAt_ne_nil (c : Char) (s : List Char) : splitAt c s ≠ [] := by
  cases s with
  | nil => simp [splitAt]
  | cons d rest => unfold splitAt; split <;> (try split) <;> simp

/-- The pieces joined by the separator are the text again. -/
theorem intercalate_splitAt (c : Char) (s : List Char) :
    List.intercalate [c] (splitAt c s) = s := by
  induction s with
  | nil => rfl
  | cons d rest ih =>
    unfold splitAt
    have hne := splitAt_ne_nil c rest
    split
    · next h =>
      subst h
      cases hr : splitAt d rest with
      | nil => exact absurd hr hne
      | cons piece pieces => rw [hr] at ih; simp [List.intercalate, ← ih]
    · cases hr : splitAt c rest with
      | nil => exact absurd hr hne
      | cons piece pieces =>
        rw [hr] at ih
        cases pieces <;> simp [List.intercalate, List.intersperse] at ih ⊢ <;> exact ih

theorem splitAt_of_notMem {c : Char} {s : List Char} (h : c ∉ s) : splitAt c s = [s] := by
  induction s with
  | nil => rfl
  | cons d rest ih =>
    rw [List.mem_cons, not_or] at h
    rw [splitAt, if_neg (Ne.symm h.1), ih h.2]

theorem splitAt_append {c : Char} {piece : List Char} (h : c ∉ piece) (rest : List Char) :
    splitAt c (piece ++ c :: rest) = piece :: splitAt c rest := by
  induction piece with
  | nil => exact if_pos rfl
  | cons d piece ih =>
    rw [List.mem_cons, not_or] at h
    rw [List.cons_append, splitAt, if_neg (Ne.symm h.1), ih h.2]

/-- Pieces without the separator come back from the text that joins them. -/
theorem splitAt_intercalate {c : Char} {pieces : List (List Char)} (hne : pieces ≠ [])
    (h : ∀ piece ∈ pieces, c ∉ piece) : splitAt c (List.intercalate [c] pieces) = pieces := by
  induction pieces with
  | nil => exact absurd rfl hne
  | cons piece pieces ih =>
    rw [List.forall_mem_cons] at h
    cases pieces with
    | nil => rw [List.intercalate_singleton, splitAt_of_notMem h.1]
    | cons next pieces =>
      rw [List.intercalate_cons_cons, List.append_assoc, List.singleton_append,
        splitAt_append h.1, ih (List.cons_ne_nil _ _) h.2]

end Gatehouse.Text
