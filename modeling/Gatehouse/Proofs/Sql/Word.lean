import Gatehouse.Proofs.Text.Digits
import Gatehouse.Sql.Statement
import Gatehouse.Text.Split

/-!
# Gatehouse.Proofs.Sql.Word — the words of a written statement

A database is told what to do by a text, so what a statement says has to be read off its text, and
not off the tree that it was written from.  The first step is to cut the text into words.  `wordsOf`
does it as a scanner would: blanks stand between words, brackets and commas are words of their own,
and a dollar sign begins a word.

`wordsOf_render` says that the words of a written statement are those that its shape calls for
(`Statement.words`), as long as all names in it are plain.  A text is written by joining pieces, so
the proof goes along the joints: a piece that begins, or ends, where a word does leaves the words on
either side of it as they are (`wordsOf_append_of_begins`, `wordsOf_append_of_ends`), and every
keyword is written with blanks around it so that one of the two applies.

Plain names are those that a statement may be made of: small letters and low lines.  None of them
can be taken for a keyword, which is in capitals, or for a sign.  Placeholders and numbers are no
names, and have lemmas of their own.
-/

namespace Gatehouse.Sql

open Gatehouse.Text

/-! ## Cutting a text into words -/

/-- A character as it parts the words around it. -/
def apart (c : Char) : List Char :=
  if c = ',' ∨ c = '(' ∨ c = ')' then [' ', c, ' ']
  else if c = '$' then [' ', c]
  else [c]

/-- The pieces between blanks, without the empty ones. -/
def pieces (cs : List Char) : List (List Char) := (splitAt ' ' cs).filter fun cs => !cs.isEmpty

/-- The words of a text. -/
def wordsOf (text : String) : List String :=
  (pieces (text.toList.flatMap apart)).map String.ofList

/-- Whether a text begins where a word ends. -/
def Begins (text : String) : Prop := (text.toList.flatMap apart).head? = some ' '

/-- Whether a text ends where a word does. -/
def Ends (text : String) : Prop := (text.toList.flatMap apart).getLast? = some ' '

instance (text : String) : Decidable (Begins text) := inferInstanceAs (Decidable (_ = _))
instance (text : String) : Decidable (Ends text) := inferInstanceAs (Decidable (_ = _))

/-- A blank parts the words before it from those after it. -/
theorem pieces_append (as bs : List Char) :
    pieces (as ++ ' ' :: bs) = pieces as ++ pieces bs := by
  have hsplit : splitAt ' ' (as ++ ' ' :: bs) = splitAt ' ' as ++ splitAt ' ' bs := by
    induction as with
    | nil => rfl
    | cons a as ih =>
        rw [List.cons_append, splitAt, splitAt, ih]
        split
        · rfl
        · cases has : splitAt ' ' as with
          | nil => exact absurd has (splitAt_ne_nil ' ' as)
          | cons piece pieces => rfl
  rw [pieces, hsplit, List.filter_append]
  rfl

theorem pieces_cons_blank (cs : List Char) : pieces (' ' :: cs) = pieces cs :=
  pieces_append [] cs

theorem pieces_of_ends {as bs : List Char} (h : as.getLast? = some ' ') :
    pieces (as ++ bs) = pieces as ++ pieces bs := by
  obtain ⟨before, rfl⟩ := List.getLast?_eq_some_iff.1 h
  have hblank : pieces (before ++ [' ']) = pieces before := by
    rw [pieces_append]
    exact List.append_nil _
  rw [List.append_assoc, List.singleton_append, pieces_append, hblank]

/-- A text that begins where a word ends has its own words after any other. -/
theorem wordsOf_append_of_begins {a b : String} (h : Begins b) :
    wordsOf (a ++ b) = wordsOf a ++ wordsOf b := by
  obtain ⟨after, hafter⟩ := List.head?_eq_some_iff.1 h
  rw [wordsOf, wordsOf, wordsOf, String.toList_append, List.flatMap_append, hafter, pieces_append,
    pieces_cons_blank, List.map_append]

/-- A text that ends where a word does leaves the words of any other as they are. -/
theorem wordsOf_append_of_ends {a b : String} (h : Ends a) :
    wordsOf (a ++ b) = wordsOf a ++ wordsOf b := by
  rw [wordsOf, wordsOf, wordsOf, String.toList_append, List.flatMap_append, pieces_of_ends h,
    List.map_append]

theorem Begins.append {a : String} (h : Begins a) (b : String) : Begins (a ++ b) := by
  rw [Begins, String.toList_append, List.flatMap_append]
  obtain ⟨after, hafter⟩ := List.head?_eq_some_iff.1 h
  rw [hafter]
  rfl

theorem Ends.append {b : String} (a : String) (h : Ends b) : Ends (a ++ b) := by
  obtain ⟨before, hbefore⟩ := List.getLast?_eq_some_iff.1 h
  rw [Ends, String.toList_append, List.flatMap_append, hbefore, ← List.append_assoc]
  exact List.getLast?_concat

/-! ## Single words -/

/-- Whether a name is made of small letters and low lines. -/
def Plain (name : String) : Prop := name ≠ "" ∧ ∀ c ∈ name.toList, c.isLower = true ∨ c = '_'

-- the letters are those of the name: to go through all characters would take too long
instance (name : String) : Decidable (Plain name) :=
  @instDecidableAnd _ _ inferInstance (List.decidableBAll _ name.toList)

/-- Whether no character of a text parts words. -/
def Whole (cs : List Char) : Prop := ∀ c ∈ cs, c ≠ ' ' ∧ apart c = [c]

/-- What parts no words is left as it is. -/
theorem flatMap_apart {cs : List Char} (h : Whole cs) : cs.flatMap apart = cs := by
  induction cs with
  | nil => rfl
  | cons c cs ih =>
      have hcs : Whole cs := fun d hd => h d (List.mem_cons_of_mem c hd)
      rw [List.flatMap_cons, (h c List.mem_cons_self).2, ih hcs]
      rfl

theorem pieces_of_whole {cs : List Char} (h : Whole cs) (hne : cs ≠ []) : pieces cs = [cs] := by
  have hblank : ' ' ∉ cs := fun hmem => (h ' ' hmem).1 rfl
  have hfull : (!cs.isEmpty) = true := by simpa using hne
  rw [pieces, splitAt_of_notMem hblank]
  exact List.filter_cons_of_pos hfull

theorem wordsOf_of_whole {text : String} (h : Whole text.toList) (hne : text ≠ "") :
    wordsOf text = [text] := by
  have hchars : text.toList ≠ [] := fun hnil => hne (String.toList_inj.1 hnil)
  rw [wordsOf, flatMap_apart h, pieces_of_whole h hchars, List.map_singleton, String.ofList_toList]

/-- No character of a plain name parts words. -/
theorem whole_of_plain {name : String} (h : Plain name) : Whole name.toList := by
  intro c hc
  rcases h.2 c hc with hlower | rfl
  · have hbounds : 'a'.toNat ≤ c.toNat := by
      have hboth : (decide ('a' ≤ c) && decide (c ≤ 'z')) = true := hlower
      have hle : 'a' ≤ c := of_decide_eq_true (Bool.and_eq_true_iff.1 hboth).1
      exact hle
    have hne : ∀ d : Char, d.toNat < 'a'.toNat → c ≠ d := by
      rintro d hd rfl
      exact absurd hbounds (Nat.not_le.2 hd)
    refine ⟨hne ' ' (by decide), ?_⟩
    rw [apart, if_neg, if_neg (hne '$' (by decide))]
    rintro (h | h | h)
    · exact hne ',' (by decide) h
    · exact hne '(' (by decide) h
    · exact hne ')' (by decide) h
  · exact ⟨by decide, by decide⟩

theorem wordsOf_plain {name : String} (h : Plain name) : wordsOf name = [name] :=
  wordsOf_of_whole (whole_of_plain h) h.1

theorem whole_toDigits (n : Nat) : Whole (Nat.toDigits 10 n) := by
  intro c hc
  have hdigit : ∀ d : Char, isDigit d = false → c ≠ d := by
    rintro d hd rfl
    rw [isDigit_of_mem_toDigits hc] at hd
    cases hd
  refine ⟨hdigit ' ' (by decide), ?_⟩
  rw [apart, if_neg, if_neg (hdigit '$' (by decide))]
  rintro (h | h | h)
  · exact hdigit ',' (by decide) h
  · exact hdigit '(' (by decide) h
  · exact hdigit ')' (by decide) h

theorem wordsOf_toString (n : Nat) : wordsOf (toString n) = [toString n] := by
  have hchars : (toString n).toList = Nat.toDigits 10 n := Nat.toList_repr
  refine wordsOf_of_whole (hchars ▸ whole_toDigits n) ?_
  intro hempty
  rw [hempty] at hchars
  exact Nat.toDigits_ne_nil hchars.symm

/-- A placeholder is a dollar sign and the digits of its number. -/
theorem toList_placeholder (n : Nat) : (placeholder n).toList = '$' :: Nat.toDigits 10 n := by
  show (toString "$" ++ toString n).toList = _
  rw [String.toList_append, Nat.toString_eq_repr, Nat.toList_repr]
  rfl

theorem apart_placeholder (n : Nat) :
    (placeholder n).toList.flatMap apart = ' ' :: '$' :: Nat.toDigits 10 n := by
  rw [toList_placeholder, List.flatMap_cons, flatMap_apart (whole_toDigits n)]
  rfl

/-- A placeholder begins a word, whatever is written before it. -/
theorem begins_placeholder (n : Nat) : Begins (placeholder n) := by
  rw [Begins, apart_placeholder]
  rfl

/-- A placeholder is one word. -/
theorem wordsOf_placeholder (n : Nat) : wordsOf (placeholder n) = [placeholder n] := by
  have hblank : ' ' ∉ '$' :: Nat.toDigits 10 n := by
    rw [List.mem_cons, not_or]
    exact ⟨by decide, fun h => (whole_toDigits n ' ' h).1 rfl⟩
  rw [wordsOf, apart_placeholder, pieces_cons_blank, pieces, splitAt_of_notMem hblank]
  show [String.ofList ('$' :: Nat.toDigits 10 n)] = _
  rw [← toList_placeholder, String.ofList_toList]

/-! ## Words between separators -/

/-- Words with commas between them. -/
def commas (items : List (List String)) : List String := List.intercalate [","] items

/-- Separators that stand apart leave the words between them as they are. -/
theorem wordsOf_intercalate {sep : String} (hbegins : Begins sep) (hends : Ends sep)
    (items : List String) : wordsOf (String.intercalate sep items) =
      List.intercalate (wordsOf sep) (items.map wordsOf) := by
  induction items with
  | nil => rfl
  | cons item items ih =>
      cases items with
      | nil => rw [String.intercalate_singleton, List.map_singleton, List.intercalate_singleton]
      | cons next items =>
          have hrest : wordsOf (item ++ (sep ++ String.intercalate sep (next :: items))) =
              wordsOf item ++ wordsOf (sep ++ String.intercalate sep (next :: items)) :=
            wordsOf_append_of_begins (hbegins.append _)
          rw [String.intercalate_cons_cons, String.append_assoc, hrest,
            wordsOf_append_of_ends hends, ih]
          simp only [List.map_cons, List.intercalate_cons_cons, List.append_assoc]

theorem wordsOf_listed (items : List String) :
    wordsOf (listed items) = commas (items.map wordsOf) :=
  wordsOf_intercalate (by decide) (by decide) items

theorem wordsOf_listed_plain {names : List String} (h : ∀ name ∈ names, Plain name) :
    wordsOf (listed names) = commas (names.map ([·])) := by
  rw [wordsOf_listed, List.map_congr_left fun name hname => wordsOf_plain (h name hname)]

/-! ## The words of a statement -/

/-- Whether all names of a list are plain. -/
def AllPlain (names : List String) : Prop := ∀ name ∈ names, Plain name

instance (names : List String) : Decidable (AllPlain names) :=
  inferInstanceAs (Decidable (∀ name ∈ names, Plain name))

namespace Condition

/-- Whether the column that a condition is about has a plain name. -/
def Plain : Condition → Prop
  | always => True
  | equals column _ | contains column _ | atMost column _ => Sql.Plain column

instance (c : Condition) : Decidable c.Plain := by
  cases c with
  | always => exact inferInstanceAs (Decidable True)
  | equals column | contains column | atMost column =>
      exact inferInstanceAs (Decidable (Sql.Plain column))

/-- The words of a condition. -/
def words : Condition → List String
  | always => ["TRUE"]
  | equals column n => [column, "=", placeholder n]
  | contains column n => [placeholder n, "=", "ANY", "(", column, ")"]
  | atMost column n => [column, "<=", placeholder n]

theorem wordsOf_render {c : Condition} (h : c.Plain) : wordsOf c.render = c.words := by
  cases c with
  | always => decide
  | equals column n =>
      show wordsOf (column ++ " = " ++ placeholder n) = _
      rw [wordsOf_append_of_begins (begins_placeholder n), wordsOf_placeholder,
        wordsOf_append_of_begins (by decide), wordsOf_plain h]
      rfl
  | contains column n =>
      show wordsOf (placeholder n ++ " = ANY(" ++ column ++ ")") = _
      rw [wordsOf_append_of_begins (by decide), wordsOf_append_of_ends (.append _ (by decide)),
        wordsOf_append_of_begins (by decide), wordsOf_placeholder, wordsOf_plain h]
      rfl
  | atMost column n =>
      show wordsOf (column ++ " <= " ++ placeholder n) = _
      rw [wordsOf_append_of_begins (begins_placeholder n), wordsOf_placeholder,
        wordsOf_append_of_begins (by decide), wordsOf_plain h]
      rfl

end Condition

namespace Assigned

/-- The words of what a column is set to. -/
def words : Assigned → List String
  | param n => [placeholder n]
  | now => ["now", "(", ")"]

theorem wordsOf_render (a : Assigned) : wordsOf a.render = a.words := by
  cases a with
  | param n => exact wordsOf_placeholder n
  | now => decide

end Assigned

/-- The words of a clause that is left out when it has nothing to say. -/
def clauseWords {α : Type} (keywords : List String) (items : List α) (body : List String) :
    List String :=
  if items.isEmpty then [] else keywords ++ body

/-- The words of conditions of which all must hold. -/
def conditionWords (filter : List Condition) : List String :=
  List.intercalate ["AND"] (filter.map Condition.words)

/-- The words of a filter. -/
def filterWords (filter : List Condition) : List String :=
  clauseWords ["WHERE"] filter (conditionWords filter)

/-- The words of a list of names with a keyword before it. -/
def namesWords (keywords names : List String) : List String :=
  clauseWords keywords names (commas (names.map ([·])))

/-- The words of the numbers of a page. -/
def pageWords : Option Page → List String
  | some p => ["LIMIT", toString p.limit, "OFFSET", toString p.offset]
  | none => []

/-- A clause adds its words, and none if it is left out. -/
theorem wordsOf_append_clause {α : Type} {keyword : String} (hbegins : Begins keyword)
    (hends : Ends keyword) (before : String) (items : List α) (body : String) :
    wordsOf (before ++ clause keyword items body) =
      wordsOf before ++ clauseWords (wordsOf keyword) items (wordsOf body) := by
  unfold clause clauseWords
  split
  · rw [String.append_empty, List.append_nil]
  · rw [wordsOf_append_of_begins (hbegins.append body), wordsOf_append_of_ends hends]

theorem wordsOf_conditions {filter : List Condition} (h : ∀ c ∈ filter, c.Plain) :
    wordsOf (String.intercalate " AND " (filter.map Condition.render)) = conditionWords filter := by
  have hconditions : filter.map (wordsOf ∘ Condition.render) = filter.map Condition.words :=
    List.map_congr_left fun c hc => Condition.wordsOf_render (h c hc)
  rw [wordsOf_intercalate (by decide) (by decide), List.map_map, hconditions]
  rfl

/-- A filter adds its words to those of the text before it. -/
theorem wordsOf_append_filter (before : String) {filter : List Condition}
    (h : ∀ c ∈ filter, c.Plain) :
    wordsOf (before ++ renderFilter filter) = wordsOf before ++ filterWords filter := by
  rw [renderFilter, wordsOf_append_clause (by decide) (by decide), wordsOf_conditions h]
  rfl

/-- A list of names adds its words to those of the text before it. -/
theorem wordsOf_append_names {keyword : String} (hbegins : Begins keyword) (hends : Ends keyword)
    (before : String) {names : List String} (h : AllPlain names) :
    wordsOf (before ++ clause keyword names (listed names)) =
      wordsOf before ++ namesWords (wordsOf keyword) names := by
  rw [wordsOf_append_clause hbegins hends, wordsOf_listed_plain h]
  rfl

/-- The numbers of a page add their words to those of the text before them. -/
theorem wordsOf_append_page (before : String) (page : Option Page) :
    wordsOf (before ++ (page.map Page.render).getD "") = wordsOf before ++ pageWords page := by
  cases page with
  | none => exact (congrArg wordsOf String.append_empty).trans (List.append_nil _).symm
  | some p =>
      show wordsOf
        (before ++ (" LIMIT " ++ toString p.limit ++ " OFFSET " ++ toString p.offset)) = _
      have hlimit : Begins (" LIMIT " ++ toString p.limit ++ " OFFSET " ++ toString p.offset) := by
        rw [String.append_assoc, String.append_assoc]
        exact .append (by decide) _
      rw [wordsOf_append_of_begins hlimit, wordsOf_append_of_ends (.append _ (by decide)),
        wordsOf_append_of_begins (by decide), wordsOf_append_of_ends (by decide),
        wordsOf_toString, wordsOf_toString]
      rfl

namespace Statement

/-- Whether a statement is about rows and all names in it are plain. -/
def Plain : Statement → Prop
  | ping => True
  | createTable _ _ | createIndex _ _ _ => False
  | insert table columns returning =>
    Sql.Plain table ∧ columns ≠ [] ∧ AllPlain columns ∧ AllPlain returning
  | select columns table filter order _ =>
    columns ≠ [] ∧ AllPlain columns ∧ Sql.Plain table ∧ (∀ c ∈ filter, c.Plain) ∧ AllPlain order
  | count table filter => Sql.Plain table ∧ ∀ c ∈ filter, c.Plain
  | update table set filter returning =>
    Sql.Plain table ∧ set ≠ [] ∧ (∀ a ∈ set, Sql.Plain a.1) ∧ (∀ c ∈ filter, c.Plain) ∧
      AllPlain returning
  | delete table filter => Sql.Plain table ∧ ∀ c ∈ filter, c.Plain

instance (s : Statement) : Decidable s.Plain := by
  cases s <;> unfold Plain <;> infer_instance

/-- The placeholders of some parameters, in order. -/
def placeholders (count : Nat) : List String :=
  (List.range count).map fun i => placeholder (i + 1)

/-- The words of a statement about rows. -/
def words : Statement → List String
  | ping => ["SELECT", "1"]
  | createTable _ _ | createIndex _ _ _ => []
  | insert table columns returning =>
    ["INSERT", "INTO", table, "("] ++ commas (columns.map ([·])) ++ [")", "VALUES", "("] ++
      commas ((placeholders columns.length).map ([·])) ++ [")"] ++
      namesWords ["RETURNING"] returning
  | select columns table filter order page =>
    ["SELECT"] ++ commas (columns.map ([·])) ++ ["FROM", table] ++ filterWords filter ++
      namesWords ["ORDER", "BY"] order ++ pageWords page
  | count table filter =>
    ["SELECT", "COUNT", "(", "*", ")", "FROM", table] ++ filterWords filter
  | update table set filter returning =>
    ["UPDATE", table, "SET"] ++ commas (set.map fun a => a.1 :: "=" :: a.2.words) ++
      filterWords filter ++ namesWords ["RETURNING"] returning
  | delete table filter => ["DELETE", "FROM", table] ++ filterWords filter

/-- **The words of a text.**  The words of a written statement are those of the statement. -/
theorem wordsOf_render {s : Statement} (h : s.Plain) : wordsOf s.render = s.words := by
  cases s with
  | ping => decide
  | createTable | createIndex => exact h.elim
  | insert table columns returning =>
      obtain ⟨htable, -, hcolumns, hreturning⟩ := h
      have hplaceholders : wordsOf (listed (placeholders columns.length)) =
          commas ((placeholders columns.length).map ([·])) := by
        rw [wordsOf_listed, placeholders, List.map_map, List.map_map]
        exact congrArg commas (List.map_congr_left fun i _ => wordsOf_placeholder (i + 1))
      show wordsOf ("INSERT INTO " ++ table ++ " (" ++ listed columns ++ ") VALUES (" ++
        listed (placeholders columns.length) ++ ")" ++ renderReturning returning) = _
      -- the text is taken apart at its joints, from the last one to the first
      rw [renderReturning, wordsOf_append_names (by decide) (by decide) _ hreturning,
        wordsOf_append_of_begins (by decide), wordsOf_append_of_ends (.append _ (by decide)),
        wordsOf_append_of_begins (by decide), wordsOf_append_of_ends (.append _ (by decide)),
        wordsOf_append_of_begins (by decide), wordsOf_append_of_ends (by decide),
        wordsOf_plain htable, wordsOf_listed_plain hcolumns, hplaceholders]
      simp only [words, List.append_assoc]
      rfl
  | select columns table filter order page =>
      obtain ⟨-, hcolumns, htable, hfilter, horder⟩ := h
      show wordsOf ("SELECT " ++ listed columns ++ " FROM " ++ table ++ renderFilter filter ++
        clause " ORDER BY " order (listed order) ++ (page.map Page.render).getD "") = _
      rw [wordsOf_append_page, wordsOf_append_names (by decide) (by decide) _ horder,
        wordsOf_append_filter _ hfilter, wordsOf_append_of_ends (.append _ (by decide)),
        wordsOf_append_of_begins (by decide), wordsOf_append_of_ends (by decide),
        wordsOf_plain htable, wordsOf_listed_plain hcolumns]
      simp only [words, List.append_assoc]
      rfl
  | count table filter =>
      show wordsOf ("SELECT COUNT(*) FROM " ++ table ++ renderFilter filter) = _
      rw [wordsOf_append_filter _ h.2, wordsOf_append_of_ends (by decide), wordsOf_plain h.1]
      rfl
  | update table set filter returning =>
      obtain ⟨htable, -, hset, hfilter, hreturning⟩ := h
      have hassigned : wordsOf (listed (set.map fun a => a.1 ++ " = " ++ a.2.render)) =
          commas (set.map fun a => a.1 :: "=" :: a.2.words) := by
        rw [wordsOf_listed, List.map_map]
        refine congrArg commas (List.map_congr_left fun a ha => ?_)
        show wordsOf (a.1 ++ " = " ++ a.2.render) = _
        rw [wordsOf_append_of_ends (.append _ (by decide)), wordsOf_append_of_begins (by decide),
          wordsOf_plain (hset a ha), Assigned.wordsOf_render]
        rfl
      show wordsOf ("UPDATE " ++ table ++ " SET " ++
        listed (set.map fun a => a.1 ++ " = " ++ a.2.render) ++ renderFilter filter ++
        renderReturning returning) = _
      rw [renderReturning, wordsOf_append_names (by decide) (by decide) _ hreturning,
        wordsOf_append_filter _ hfilter, wordsOf_append_of_ends (.append _ (by decide)),
        wordsOf_append_of_begins (by decide), wordsOf_append_of_ends (by decide),
        wordsOf_plain htable, hassigned]
      simp only [words, List.append_assoc]
      rfl
  | delete table filter =>
      show wordsOf ("DELETE FROM " ++ table ++ renderFilter filter) = _
      rw [wordsOf_append_filter _ h.2, wordsOf_append_of_ends (by decide), wordsOf_plain h.1]
      rfl

end Statement

end Gatehouse.Sql
