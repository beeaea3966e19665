import Gatehouse.Proofs.Sql.Word

/-!
# Gatehouse.Proofs.Sql.Grammar — what a text says

`Statement.read?` reads a statement off the words of a text: a verb, what it is about, and clauses
that each begin with a keyword and end before the next one.  It knows nothing of how statements are
written; it is a small grammar of the language, as far as a store and a log need it.  `read?_render`
says that a written statement is read as itself, so a database that goes by the text does what the
statement asks for, and no two statements have one text.

A clause that has nothing to say is left out when a statement is written, so a reader that looks for
a clause may find the next one, or the end.  `Starts` says of the words that are left which clauses
they may begin with.  It is what the lemmas about clauses pass on from the back of a statement to
its front: each clause is read up to words that do not begin with it, and with it in front they
begin with one clause more.

Within a clause, what is written between commas, or between the words that join conditions, is found
again because no name, placeholder or number is one of these words (`isSign`).
-/

namespace Gatehouse.Sql

open Gatehouse.Text

/-! ## Reading -/

/-- The words that begin a clause. -/
def keywords : List String :=
  ["FROM", "SET", "VALUES", "WHERE", "ORDER", "LIMIT", "OFFSET", "RETURNING"]

/-- Whether a word belongs to the clause before it. -/
def continues (w : String) : Bool := !keywords.contains w

/-- The words of a clause up to the next one, and what follows them. -/
def body (ws : List String) : List String × List String :=
  (ws.takeWhile continues, ws.dropWhile continues)

/-- The words of a clause that must be there. -/
def clause? (keyword : String) : List String → Option (List String × List String)
  | w :: ws => if w = keyword ∧ (body ws).1 ≠ [] then some (body ws) else none
  | [] => none

/-- The words of a clause that may be missing. -/
def optionalClause? (keyword : String) (ws : List String) : Option (List String × List String) :=
  if ws.head? = some keyword then clause? keyword ws else some ([], ws)

/-- What stands between commas. -/
def items (ws : List String) : List (List String) := if ws.isEmpty then [] else ws.splitOn ","

/-- A single word. -/
def single? : List String → Option String
  | [w] => some w
  | _ => none

/-- Single words between commas. -/
def names? (ws : List String) : Option (List String) := (items ws).mapM single?

/-- What stands between brackets. -/
def bracketed? : List String → Option (List String)
  | "(" :: ws => if ws.getLast? = some ")" then some ws.dropLast else none
  | _ => none

/-- The number of a placeholder. -/
def slot? (w : String) : Option Nat :=
  match w.toList with
  | '$' :: digits => decimal? digits
  | _ => none

/-- A condition. -/
def condition? : List String → Option Condition
  | [w] => if w = "TRUE" then some .always else none
  | [column, sign, w] =>
    if sign = "=" then (slot? w).map (.equals column)
    else if sign = "<=" then (slot? w).map (.atMost column)
    else none
  | [w, sign, quantifier, opening, column, closing] =>
    if sign = "=" ∧ quantifier = "ANY" ∧ opening = "(" ∧ closing = ")" then
      (slot? w).map (.contains column)
    else none
  | _ => none

/-- Conditions of which all must hold. -/
def filter? (ws : List String) : Option (List Condition) :=
  if ws.isEmpty then some [] else (ws.splitOn "AND").mapM condition?

/-- What a column is set to. -/
def assigned? : List String → Option (String × Assigned)
  | column :: sign :: ws =>
    if sign = "=" then
      if ws = ["now", "(", ")"] then some (column, .now)
      else (single? ws).bind fun w => (slot? w).map fun n => (column, .param n)
    else none
  | _ => none

/-- The filter of a statement, and what follows it. -/
def where? (ws : List String) : Option (List Condition × List String) := do
  let (conditions, ws) ← optionalClause? "WHERE" ws
  return (← filter? conditions, ws)

/-- The table that rows are in and the filter that they pass, and what follows these. -/
def source? (ws : List String) : Option (String × List Condition × List String) := do
  let (table, ws) ← clause? "FROM" ws
  return (← single? table, ← where? ws)

/-- The columns that are given back, at the end of a statement. -/
def returning? (ws : List String) : Option (List String) := do
  let (columns, ws) ← optionalClause? "RETURNING" ws
  if ws = [] then names? columns else none

/-- The columns that rows are ordered by, and what follows them. -/
def order? (ws : List String) : Option (List String × List String) := do
  match ← optionalClause? "ORDER" ws with
  | ([], ws) => return ([], ws)
  | (by' :: columns, ws) => if by' = "BY" then return (← names? columns, ws) else none

/-- The numbers of a page, at the end of a statement. -/
def page? : List String → Option (Option Page)
  | [] => some none
  | [first, limit, second, offset] =>
    if first = "LIMIT" ∧ second = "OFFSET" then do
      return some ⟨← decimal? limit.toList, ← decimal? offset.toList⟩
    else none
  | _ => none

namespace Statement

/-- A request for rows or for their number, behind its verb. -/
def readSelect? (ws : List String) : Option Statement :=
  let (what, ws) := body ws
  if what = ["1"] ∧ ws = [] then some .ping
  else do
    let (table, filter, ws) ← source? ws
    if what = ["COUNT", "(", "*", ")"] then
      if ws = [] then some (.count table filter) else none
    else do
      let columns ← names? what
      let (order, ws) ← order? ws
      return .select columns table filter order (← page? ws)

/-- A request to add a row, behind the name of the table.  Every column is given the parameter of
its own number. -/
def readInsert? (table : String) (ws : List String) : Option Statement := do
  let (columns, ws) := body ws
  let columns ← names? (← bracketed? columns)
  let (values, ws) ← Sql.clause? "VALUES" ws
  let values ← names? (← bracketed? values)
  let returning ← returning? ws
  if values = placeholders columns.length then some (.insert table columns returning) else none

/-- A request to change rows, behind the name of the table. -/
def readUpdate? (table : String) (ws : List String) : Option Statement := do
  let (set, ws) ← Sql.clause? "SET" ws
  let set ← (items set).mapM assigned?
  let (filter, ws) ← where? ws
  return .update table set filter (← returning? ws)

/-- A request to remove rows, behind its verb. -/
def readDelete? (ws : List String) : Option Statement := do
  let (table, filter, ws) ← source? ws
  if ws = [] then some (.delete table filter) else none

/-- The statement that some words make up. -/
def ofWords? : List String → Option Statement
  | "SELECT" :: ws => readSelect? ws
  | "INSERT" :: "INTO" :: table :: ws => readInsert? table ws
  | "UPDATE" :: table :: ws => readUpdate? table ws
  | "DELETE" :: ws => readDelete? ws
  | _ => none

/-- The statement that a text says. -/
def read? (text : String) : Option Statement := ofWords? (wordsOf text)

end Statement

/-! ## Words within a clause -/

/-- Whether some words stay within a clause. -/
def Within (ws : List String) : Prop := ∀ w ∈ ws, continues w = true

instance (ws : List String) : Decidable (Within ws) :=
  inferInstanceAs (Decidable (∀ w ∈ ws, continues w = true))

/-- Whether some words are none, or begin with a clause of which there may be some. -/
def Starts (allowed ws : List String) : Prop := ∀ w ∈ ws.head?, w ∈ allowed ∧ w ∈ keywords

/-- A clause ends before the next one. -/
theorem body_append {ws rest allowed : List String} (h : Within ws) (hrest : Starts allowed rest) :
    body (ws ++ rest) = (ws, rest) := by
  have hstop : rest.takeWhile continues = [] ∧ rest.dropWhile continues = rest := by
    cases rest with
    | nil => exact ⟨rfl, rfl⟩
    | cons w rest =>
        have hw : ¬ continues w = true := by simp [continues, (hrest w rfl).2]
        exact ⟨List.takeWhile_cons_of_neg hw, List.dropWhile_cons_of_neg hw⟩
  rw [body, List.takeWhile_append_of_pos h, List.dropWhile_append_of_pos h, hstop.1, hstop.2,
    List.append_nil]

/-- A clause that is there is taken with its words, and leaves the next one. -/
theorem clause?_cons {keyword : String} {ws rest allowed : List String} (h : Within ws)
    (hne : ws ≠ []) (hrest : Starts allowed rest) :
    clause? keyword (keyword :: (ws ++ rest)) = some (ws, rest) := by
  rw [clause?, body_append h hrest]
  exact if_pos ⟨rfl, hne⟩

/-- A clause that is not there is taken to have no words. -/
theorem optionalClause?_absent {keyword : String} {rest allowed : List String}
    (hrest : Starts allowed rest) (hkeyword : keyword ∉ allowed) :
    optionalClause? keyword rest = some ([], rest) := by
  refine if_neg fun hhead => hkeyword ?_
  exact (hrest keyword hhead).1

/-- A clause that was left out is read as one without words. -/
theorem optionalClause?_append {α : Type} {keyword : String} {more rest allowed : List String}
    {items : List α} {ws : List String} (hmore : Within more) (h : Within ws)
    (hne : items ≠ [] → more ++ ws ≠ []) (hrest : Starts allowed rest)
    (hkeyword : keyword ∉ allowed) :
    optionalClause? keyword (clauseWords (keyword :: more) items ws ++ rest) =
      some (if items.isEmpty then [] else more ++ ws, rest) := by
  unfold clauseWords
  split
  · exact optionalClause?_absent hrest hkeyword
  · next hitems =>
    have hwithin : Within (more ++ ws) := List.forall_mem_append.2 ⟨hmore, h⟩
    have hsome : items ≠ [] := fun hnil => hitems (List.isEmpty_iff.2 hnil)
    exact (if_pos rfl).trans (clause?_cons hwithin (hne hsome) hrest)

theorem starts_nil (allowed : List String) : Starts allowed [] := fun _ h => by cases h

theorem starts_cons {keyword : String} (h : keyword ∈ keywords) (rest : List String) :
    Starts [keyword] (keyword :: rest) := by
  intro w hw
  obtain rfl : keyword = w := Option.some.inj hw
  exact ⟨List.mem_singleton_self _, h⟩

/-- With a clause in front, words may begin with that clause as well. -/
theorem Starts.clause {α : Type} {keyword : String} {more rest allowed : List String}
    (h : Starts allowed rest) (hkeyword : keyword ∈ keywords) (items : List α) (ws : List String) :
    Starts (keyword :: allowed) (clauseWords (keyword :: more) items ws ++ rest) := by
  unfold clauseWords
  split
  · exact fun w hw => ⟨List.mem_cons_of_mem keyword (h w hw).1, (h w hw).2⟩
  · intro w hw
    obtain rfl : keyword = w := Option.some.inj hw
    exact ⟨List.mem_cons_self, hkeyword⟩

/-! ## Names, placeholders and numbers -/

/-- What a name, a placeholder and a number are not. -/
def isSign (w : String) : Bool := keywords.contains w || w == "," || w == "AND"

theorem continues_of_not_isSign {w : String} (h : isSign w = false) : continues w = true := by
  simp only [isSign, Bool.or_eq_false_iff] at h
  rw [continues, h.1.1]
  rfl

theorem ne_of_not_isSign {w : String} (h : isSign w = false) : w ≠ "," ∧ w ≠ "AND" := by
  simp only [isSign, Bool.or_eq_false_iff, beq_eq_false_iff_ne] at h
  exact ⟨h.1.2, h.2⟩

/-- What no sign is, is not one. -/
theorem not_isSign_of_forall {P : String → Prop} {w : String} (h : P w)
    (hsigns : ∀ k ∈ "," :: "AND" :: keywords, ¬P k) : isSign w = false := by
  rw [Bool.eq_false_iff]
  intro hsign
  simp only [isSign, Bool.or_eq_true, beq_iff_eq, List.contains_iff_mem] at hsign
  refine hsigns w ?_ h
  rcases hsign with (hkeyword | rfl) | rfl
  · exact List.mem_cons_of_mem _ (List.mem_cons_of_mem _ hkeyword)
  · exact List.mem_cons_self
  · exact List.mem_cons_of_mem _ List.mem_cons_self

theorem not_isSign_of_plain {name : String} (h : Plain name) : isSign name = false :=
  not_isSign_of_forall h (by decide)

theorem not_isSign_placeholder (n : Nat) : isSign (placeholder n) = false := by
  refine not_isSign_of_forall (P := fun w => w.toList.head? = some '$') ?_ (by decide)
  rw [toList_placeholder]
  rfl

/-- A placeholder is read as its number. -/
theorem slot?_placeholder (n : Nat) : slot? (placeholder n) = some n := by
  rw [slot?, toList_placeholder]
  exact decimal?_toDigits n

theorem decimal?_toString (n : Nat) : decimal? (toString n).toList = some n := by
  rw [Nat.toString_eq_repr, Nat.toList_repr]
  exact decimal?_toDigits n

/-! ## Lists -/

theorem mapM_map_of_inverse {α β : Type} {f : β → Option α} {g : α → β} {as : List α}
    (h : ∀ a ∈ as, f (g a) = some a) : (as.map g).mapM f = some as := by
  induction as with
  | nil => rfl
  | cons a as ih =>
      rw [List.map_cons, List.mapM_cons, h a List.mem_cons_self,
        ih fun b hb => h b (List.mem_cons_of_mem a hb)]
      rfl

/-- What stands in a list that was joined is the separator, or stands in one of its parts. -/
theorem mem_intercalate {α : Type} {sep a : α} {ls : List (List α)}
    (h : a ∈ List.intercalate [sep] ls) : a = sep ∨ ∃ l ∈ ls, a ∈ l := by
  induction ls with
  | nil => cases h
  | cons l ls ih =>
      cases ls with
      | nil =>
          rw [List.intercalate_singleton] at h
          exact Or.inr ⟨l, List.mem_cons_self, h⟩
      | cons next ls =>
          rw [List.intercalate_cons_cons, List.mem_append, List.mem_append,
            List.mem_singleton] at h
          rcases h with (h | h) | h
          · exact Or.inr ⟨l, List.mem_cons_self, h⟩
          · exact Or.inl h
          · rcases ih h with h | ⟨l', hl', ha⟩
            · exact Or.inl h
            · exact Or.inr ⟨l', List.mem_cons_of_mem l hl', ha⟩

theorem intercalate_ne_nil {α : Type} {sep : α} {ls : List (List α)} (hne : ls ≠ [])
    (h : ∀ l ∈ ls, l ≠ []) : List.intercalate [sep] ls ≠ [] := by
  cases ls with
  | nil => exact absurd rfl hne
  | cons l ls =>
      have hl : l ≠ [] := h l List.mem_cons_self
      cases ls with
      | nil => rwa [List.intercalate_singleton]
      | cons next ls =>
          rw [List.intercalate_cons_cons, List.append_assoc]
          exact List.append_ne_nil_of_left_ne_nil hl _

/-- Some words between commas are found again, if none of them is a comma. -/
theorem items_commas {ls : List (List String)} (h : ∀ l ∈ ls, l ≠ [] ∧ "," ∉ l) :
    items (commas ls) = ls := by
  unfold items
  split
  · next hempty =>
    by_contra hne
    have hls : ls ≠ [] := fun hnil => hne hnil.symm
    exact intercalate_ne_nil hls (fun l hl => (h l hl).1) (List.isEmpty_iff.1 hempty)
  · next hfull =>
    have hls : ls ≠ [] := by
      rintro rfl
      exact hfull rfl
    exact List.splitOn_intercalate "," (fun l hl => (h l hl).2) hls

/-- Names between commas are found again. -/
theorem names?_commas {names : List String} (h : ∀ name ∈ names, isSign name = false) :
    names? (commas (names.map ([·]))) = some names := by
  have hitems : items (commas (names.map ([·]))) = names.map ([·]) := by
    refine items_commas fun l hl => ?_
    obtain ⟨name, hname, rfl⟩ := List.mem_map.1 hl
    refine ⟨List.cons_ne_nil _ _, fun hmem => ?_⟩
    exact (ne_of_not_isSign (h name hname)).1 (List.mem_singleton.1 hmem).symm
  rw [names?, hitems]
  exact mapM_map_of_inverse fun name _ => rfl

theorem within_commas {ls : List (List String)} (h : ∀ l ∈ ls, Within l) : Within (commas ls) := by
  intro w hw
  rcases mem_intercalate hw with rfl | ⟨l, hl, hwl⟩
  · decide
  · exact h l hl w hwl

theorem within_names {names : List String} (h : ∀ name ∈ names, isSign name = false) :
    Within (commas (names.map ([·]))) := by
  refine within_commas fun l hl => ?_
  obtain ⟨name, hname, rfl⟩ := List.mem_map.1 hl
  intro w hw
  obtain rfl := List.mem_singleton.1 hw
  exact continues_of_not_isSign (h _ hname)

theorem commas_names_ne_nil {names : List String} (hne : names ≠ []) :
    commas (names.map ([·])) ≠ [] := by
  refine intercalate_ne_nil (fun hnil => hne (List.map_eq_nil_iff.1 hnil)) fun l hl => ?_
  obtain ⟨name, -, rfl⟩ := List.mem_map.1 hl
  exact List.cons_ne_nil _ _

theorem bracketed?_append (ws : List String) : bracketed? ("(" :: (ws ++ [")"])) = some ws := by
  rw [bracketed?, List.getLast?_concat, if_pos rfl, List.dropLast_concat]

/-! ## Conditions and columns that are set -/

namespace Condition

/-- **A condition is read as itself.** -/
theorem condition?_words (c : Condition) : condition? c.words = some c := by
  cases c with
  | always => rfl
  | equals column n | contains column n | atMost column n =>
      show (slot? (placeholder n)).map _ = _
      rw [slot?_placeholder]
      rfl

/-- No word of a condition ends its clause, or joins it with the next condition. -/
theorem mem_words {c : Condition} (h : c.Plain) {w : String} (hw : w ∈ c.words) :
    continues w = true ∧ w ≠ "AND" := by
  have hsign : ∀ {w : String}, isSign w = false → continues w = true ∧ w ≠ "AND" :=
    fun h => ⟨continues_of_not_isSign h, (ne_of_not_isSign h).2⟩
  have hslot : ∀ n, continues (placeholder n) = true ∧ placeholder n ≠ "AND" :=
    fun n => hsign (not_isSign_placeholder n)
  -- a word of a condition is a sign of its own, a column or a placeholder
  cases c with
  | always =>
      obtain rfl := List.mem_singleton.1 hw
      decide
  | equals column n | atMost column n =>
      have hcolumn := hsign (not_isSign_of_plain h)
      simp only [words, List.mem_cons, List.not_mem_nil, or_false] at hw
      rcases hw with rfl | rfl | rfl
      · exact hcolumn
      · decide
      · exact hslot n
  | contains column n =>
      have hcolumn := hsign (not_isSign_of_plain h)
      simp only [words, List.mem_cons, List.not_mem_nil, or_false] at hw
      rcases hw with rfl | rfl | rfl | rfl | rfl | rfl
      · exact hslot n
      · decide
      · decide
      · decide
      · exact hcolumn
      · decide

theorem words_ne_nil (c : Condition) : c.words ≠ [] := by
  cases c with
  | always | equals | contains | atMost => exact List.cons_ne_nil _ _

end Condition

theorem within_conditionWords {filter : List Condition} (h : ∀ c ∈ filter, c.Plain) :
    Within (conditionWords filter) := by
  intro w hw
  rcases mem_intercalate hw with rfl | ⟨l, hl, hwl⟩
  · decide
  · obtain ⟨c, hc, rfl⟩ := List.mem_map.1 hl
    exact (Condition.mem_words (h c hc) hwl).1

theorem conditionWords_ne_nil {filter : List Condition} (hne : filter ≠ []) :
    conditionWords filter ≠ [] := by
  refine intercalate_ne_nil (fun hnil => hne (List.map_eq_nil_iff.1 hnil)) fun l hl => ?_
  obtain ⟨c, -, rfl⟩ := List.mem_map.1 hl
  exact c.words_ne_nil

/-- Conditions that are joined are found again. -/
theorem filter?_conditionWords {filter : List Condition} (h : ∀ c ∈ filter, c.Plain) :
    filter? (conditionWords filter) = some filter := by
  unfold filter?
  split
  · next hempty =>
    by_contra hne
    have hfilter : filter ≠ [] := fun hnil => hne (congrArg some hnil.symm)
    exact conditionWords_ne_nil hfilter (List.isEmpty_iff.1 hempty)
  · next hfull =>
    have hwords : filter.map Condition.words ≠ [] := by
      intro hnil
      rw [conditionWords, hnil] at hfull
      exact hfull rfl
    have hand : ∀ l ∈ filter.map Condition.words, "AND" ∉ l := by
      intro l hl hmem
      obtain ⟨c, hc, rfl⟩ := List.mem_map.1 hl
      exact (Condition.mem_words (h c hc) hmem).2 rfl
    rw [conditionWords, List.splitOn_intercalate "AND" hand hwords]
    exact mapM_map_of_inverse fun c _ => c.condition?_words

theorem starts_filterWords (filter : List Condition) {rest allowed : List String}
    (h : Starts allowed rest) : Starts ("WHERE" :: allowed) (filterWords filter ++ rest) :=
  h.clause (by decide) filter _

theorem starts_namesWords (keyword : String) (more names : List String)
    {rest allowed : List String} (hkeyword : keyword ∈ keywords) (h : Starts allowed rest) :
    Starts (keyword :: allowed) (namesWords (keyword :: more) names ++ rest) :=
  h.clause hkeyword names _

/-- **A filter is read as itself**, whatever clauses follow it. -/
theorem where?_filterWords {filter : List Condition} (h : ∀ c ∈ filter, c.Plain)
    {rest allowed : List String} (hrest : Starts allowed rest) (hwhere : "WHERE" ∉ allowed) :
    where? (filterWords filter ++ rest) = some (filter, rest) := by
  have hclause : optionalClause? "WHERE" (filterWords filter ++ rest) =
      some (conditionWords filter, rest) := by
    have hnone : Within [] := by decide
    refine (optionalClause?_append hnone (within_conditionWords h) conditionWords_ne_nil hrest
      hwhere).trans ?_
    cases filter with
    | nil => rfl
    | cons c filter => rfl
  rw [where?, hclause]
  show (filter? (conditionWords filter)).bind (fun filter => some (filter, rest)) = _
  rw [filter?_conditionWords h]
  rfl

/-- The table and the filter of a statement are read as themselves. -/
theorem source?_append {table : String} (htable : Plain table) {filter : List Condition}
    (h : ∀ c ∈ filter, c.Plain) {rest allowed : List String} (hrest : Starts allowed rest)
    (hwhere : "WHERE" ∉ allowed) :
    source? ("FROM" :: table :: (filterWords filter ++ rest)) = some (table, filter, rest) := by
  have hsingle : Within [table] := by
    intro w hw
    obtain rfl := List.mem_singleton.1 hw
    exact continues_of_not_isSign (not_isSign_of_plain htable)
  have hclause : clause? "FROM" ("FROM" :: table :: (filterWords filter ++ rest)) =
      some ([table], filterWords filter ++ rest) :=
    clause?_cons hsingle (List.cons_ne_nil _ _) (starts_filterWords filter hrest)
  rw [source?, hclause]
  show (where? (filterWords filter ++ rest)).bind (fun found => some (table, found)) = _
  rw [where?_filterWords h hrest hwhere]
  rfl

/-- A clause of names is taken with its names, whether it is there or not. -/
theorem optionalClause?_namesWords (keyword : String) {more names : List String}
    (hmore : Within more) (h : AllPlain names) {rest allowed : List String}
    (hrest : Starts allowed rest) (hkeyword : keyword ∉ allowed) :
    optionalClause? keyword (namesWords (keyword :: more) names ++ rest) =
      some (if names.isEmpty then [] else more ++ commas (names.map ([·])), rest) := by
  have hnames : Within (commas (names.map ([·]))) :=
    within_names fun name hname => not_isSign_of_plain (h name hname)
  refine optionalClause?_append hmore hnames (fun hne => ?_) hrest hkeyword
  exact List.append_ne_nil_of_right_ne_nil _ (commas_names_ne_nil hne)

theorem names?_commas_plain {names : List String} (h : AllPlain names) :
    names? (commas (names.map ([·]))) = some names :=
  names?_commas fun name hname => not_isSign_of_plain (h name hname)

/-- The columns to give back are read as themselves. -/
theorem returning?_namesWords {returning : List String} (h : AllPlain returning) :
    returning? (namesWords ["RETURNING"] returning) = some returning := by
  have hnone : Within [] := by decide
  have hclause := optionalClause?_namesWords "RETURNING" hnone h (starts_nil []) List.not_mem_nil
  rw [List.append_nil] at hclause
  rw [returning?, hclause]
  show names? (if returning.isEmpty then [] else commas (returning.map ([·]))) = _
  cases returning with
  | nil => rfl
  | cons name returning => exact names?_commas_plain h

theorem starts_returning (returning : List String) :
    Starts ["RETURNING"] (namesWords ["RETURNING"] returning) := by
  have h := starts_namesWords "RETURNING" [] returning (by decide) (starts_nil [])
  rwa [List.append_nil] at h

/-- The columns that rows are ordered by are read as themselves. -/
theorem order?_namesWords {order : List String} (h : AllPlain order) {rest allowed : List String}
    (hrest : Starts allowed rest) (horder : "ORDER" ∉ allowed) :
    order? (namesWords ["ORDER", "BY"] order ++ rest) = some (order, rest) := by
  rw [order?, optionalClause?_namesWords "ORDER" (by decide) h hrest horder]
  cases order with
  | nil => rfl
  | cons name order =>
      show (names? (commas ((name :: order).map ([·])))).bind (fun names => some (names, rest)) = _
      rw [names?_commas_plain h]
      rfl

theorem starts_pageWords (page : Option Page) : Starts ["LIMIT"] (pageWords page) := by
  cases page with
  | none => exact starts_nil _
  | some p =>
      intro w hw
      obtain rfl : "LIMIT" = w := Option.some.inj hw
      decide

/-- The numbers of a page are read as themselves. -/
theorem page?_pageWords (page : Option Page) : page? (pageWords page) = some page := by
  cases page with
  | none => rfl
  | some p =>
      show ((decimal? (toString p.limit).toList).bind fun limit =>
        (decimal? (toString p.offset).toList).bind fun offset =>
          some (some (Page.mk limit offset))) = _
      rw [decimal?_toString, decimal?_toString]
      rfl

/-- What a column is set to is read as itself. -/
theorem assigned?_words (a : String × Assigned) : assigned? (a.1 :: "=" :: a.2.words) = some a := by
  obtain ⟨column, value⟩ := a
  cases value with
  | now => rfl
  | param n =>
      have hnow : [placeholder n] ≠ ["now", "(", ")"] := fun h => by
        have hlength := congrArg List.length h
        cases hlength
      show (if [placeholder n] = ["now", "(", ")"] then some (column, Assigned.now)
        else (slot? (placeholder n)).map fun n => (column, Assigned.param n)) = _
      rw [if_neg hnow, slot?_placeholder]
      rfl

/-- No word of what a column is set to ends its clause, or is a comma. -/
theorem mem_assigned {a : String × Assigned} (h : Plain a.1) {w : String}
    (hw : w ∈ a.1 :: "=" :: a.2.words) : continues w = true ∧ w ≠ "," := by
  have hsign : ∀ {w : String}, isSign w = false → continues w = true ∧ w ≠ "," :=
    fun h => ⟨continues_of_not_isSign h, (ne_of_not_isSign h).1⟩
  obtain ⟨column, value⟩ := a
  rw [List.mem_cons, List.mem_cons] at hw
  rcases hw with rfl | rfl | hw
  · exact hsign (not_isSign_of_plain h)
  · decide
  · cases value with
    | param n =>
        obtain rfl := List.mem_singleton.1 hw
        exact hsign (not_isSign_placeholder n)
    | now =>
        simp only [Assigned.words, List.mem_cons, List.not_mem_nil, or_false] at hw
        rcases hw with rfl | rfl | rfl
        · decide
        · decide
        · decide

/-- The columns that are set are read as themselves. -/
theorem assigned?_commas {set : List (String × Assigned)} (h : ∀ a ∈ set, Plain a.1) :
    (items (commas (set.map fun a => a.1 :: "=" :: a.2.words))).mapM assigned? = some set := by
  rw [items_commas]
  · exact mapM_map_of_inverse fun a _ => assigned?_words a
  · intro l hl
    obtain ⟨a, ha, rfl⟩ := List.mem_map.1 hl
    exact ⟨List.cons_ne_nil _ _, fun hmem => (mem_assigned (h a ha) hmem).2 rfl⟩

/-- The columns that are set are taken up to the next clause. -/
theorem clause?_set {set : List (String × Assigned)} (hne : set ≠ []) (h : ∀ a ∈ set, Plain a.1)
    {rest allowed : List String} (hrest : Starts allowed rest) :
    clause? "SET" ("SET" :: (commas (set.map fun a => a.1 :: "=" :: a.2.words) ++ rest)) =
      some (commas (set.map fun a => a.1 :: "=" :: a.2.words), rest) := by
  refine clause?_cons ?_ ?_ hrest
  · refine within_commas fun l hl => ?_
    obtain ⟨a, ha, rfl⟩ := List.mem_map.1 hl
    exact fun w hw => (mem_assigned (h a ha) hw).1
  · refine intercalate_ne_nil (fun hnil => hne (List.map_eq_nil_iff.1 hnil)) fun l hl => ?_
    obtain ⟨a, -, rfl⟩ := List.mem_map.1 hl
    exact List.cons_ne_nil _ _

/-! ## Statements -/

namespace Statement

/-- A request for a number of rows is read as itself. -/
theorem readSelect?_count {table : String} (htable : Sql.Plain table) {filter : List Condition}
    (hfilter : ∀ c ∈ filter, c.Plain) :
    readSelect? (["COUNT", "(", "*", ")", "FROM", table] ++ filterWords filter) =
      some (.count table filter) := by
  have hsource := source?_append htable hfilter (starts_nil []) List.not_mem_nil
  rw [List.append_nil] at hsource
  show (source? ("FROM" :: table :: filterWords filter)).bind (fun found =>
    if found.2.2 = [] then some (count found.1 found.2.1) else none) = _
  rw [hsource]
  rfl

/-- A request for rows is read as itself, whichever of its clauses are there. -/
theorem readSelect?_select {columns : List String} {table : String} {filter : List Condition}
    {order : List String} (page : Option Page) (hcolumns : AllPlain columns)
    (htable : Sql.Plain table) (hfilter : ∀ c ∈ filter, c.Plain) (horder : AllPlain order) :
    readSelect? (commas (columns.map ([·])) ++ "FROM" :: table :: (filterWords filter ++
      (namesWords ["ORDER", "BY"] order ++ pageWords page))) =
        some (.select columns table filter order page) := by
  have hordered := starts_namesWords "ORDER" ["BY"] order (by decide) (starts_pageWords page)
  have hwhat : body (commas (columns.map ([·])) ++ "FROM" :: table :: (filterWords filter ++
      (namesWords ["ORDER", "BY"] order ++ pageWords page))) =
      (commas (columns.map ([·])), "FROM" :: table :: (filterWords filter ++
        (namesWords ["ORDER", "BY"] order ++ pageWords page))) := by
    refine body_append ?_ (starts_cons (by decide) _)
    exact within_names fun name hname => not_isSign_of_plain (hcolumns name hname)
  -- what is asked for is a list of names, and no such list is read as a count
  have hcount : commas (columns.map ([·])) ≠ ["COUNT", "(", "*", ")"] := by
    intro hcount
    have hnames := names?_commas_plain hcolumns
    rw [hcount] at hnames
    cases hnames
  have hsource := source?_append htable hfilter hordered (by decide)
  have horders := order?_namesWords horder (starts_pageWords page) (by decide)
  simp only [readSelect?, hwhat, reduceCtorEq, and_false, if_false, Option.bind_eq_bind, hsource,
    Option.bind_some, hcount, names?_commas_plain hcolumns, horders, page?_pageWords,
    Option.pure_def]

theorem names?_placeholders (count : Nat) :
    names? (commas ((placeholders count).map ([·]))) = some (placeholders count) := by
  refine names?_commas fun w hw => ?_
  obtain ⟨i, -, rfl⟩ := List.mem_map.1 hw
  exact not_isSign_placeholder (i + 1)

/-- A request to add a row is read as itself. -/
theorem readInsert?_insert (table : String) {columns returning : List String}
    (hcolumns : AllPlain columns) (hreturning : AllPlain returning) :
    readInsert? table ("(" :: (commas (columns.map ([·])) ++ [")"]) ++
      "VALUES" :: ("(" :: (commas ((placeholders columns.length).map ([·])) ++ [")"]) ++
        namesWords ["RETURNING"] returning)) = some (.insert table columns returning) := by
  have hbracketed : ∀ {names : List String}, (∀ name ∈ names, isSign name = false) →
      Within ("(" :: (commas (names.map ([·])) ++ [")"])) := by
    intro names h
    refine List.forall_mem_cons.2 ⟨by decide, List.forall_mem_append.2 ⟨within_names h, ?_⟩⟩
    decide
  have hslots : ∀ w ∈ placeholders columns.length, isSign w = false := by
    intro w hw
    obtain ⟨i, -, rfl⟩ := List.mem_map.1 hw
    exact not_isSign_placeholder (i + 1)
  have hvalues : clause? "VALUES" _ = _ :=
    clause?_cons (hbracketed hslots) (List.cons_ne_nil _ _) (starts_returning returning)
  have hbody := body_append
    (hbracketed fun name hname => not_isSign_of_plain (hcolumns name hname))
    (starts_cons (by decide : "VALUES" ∈ keywords)
      ("(" :: (commas ((placeholders columns.length).map ([·])) ++ [")"]) ++
        namesWords ["RETURNING"] returning))
  simp only [readInsert?, hbody, Option.bind_eq_bind, bracketed?_append, Option.bind_some,
    names?_commas_plain hcolumns, hvalues, names?_placeholders, returning?_namesWords hreturning,
    if_true]

/-- A request to change rows is read as itself. -/
theorem readUpdate?_update (table : String) {set : List (String × Assigned)}
    {filter : List Condition} {returning : List String} (hne : set ≠ [])
    (hset : ∀ a ∈ set, Sql.Plain a.1) (hfilter : ∀ c ∈ filter, c.Plain)
    (hreturning : AllPlain returning) :
    readUpdate? table ("SET" :: (commas (set.map fun a => a.1 :: "=" :: a.2.words) ++
      (filterWords filter ++ namesWords ["RETURNING"] returning))) =
        some (.update table set filter returning) := by
  have hreturns := starts_returning returning
  have hclause := clause?_set hne hset (starts_filterWords filter hreturns)
  have hwhere := where?_filterWords hfilter hreturns (by decide)
  simp only [readUpdate?, hclause, Option.bind_eq_bind, Option.bind_some, assigned?_commas hset,
    hwhere, returning?_namesWords hreturning, Option.pure_def]

/-- A request to remove rows is read as itself. -/
theorem readDelete?_delete {table : String} (htable : Sql.Plain table) {filter : List Condition}
    (hfilter : ∀ c ∈ filter, c.Plain) :
    readDelete? ("FROM" :: table :: filterWords filter) = some (.delete table filter) := by
  have hsource := source?_append htable hfilter (starts_nil []) List.not_mem_nil
  rw [List.append_nil] at hsource
  rw [readDelete?, hsource]
  rfl

/-- **Words.**  The words of a statement make it up again. -/
theorem ofWords?_words {s : Statement} (h : s.Plain) : ofWords? s.words = some s := by
  cases s with
  | ping => decide
  | createTable | createIndex => exact h.elim
  | insert table columns returning =>
      obtain ⟨-, -, hcolumns, hreturning⟩ := h
      have hwords : (insert table columns returning).words = "INSERT" :: "INTO" :: table ::
          ("(" :: (commas (columns.map ([·])) ++ [")"]) ++
            "VALUES" :: ("(" :: (commas ((placeholders columns.length).map ([·])) ++ [")"]) ++
              namesWords ["RETURNING"] returning)) := by
        -- the words in the order in which the reader takes them apart
        simp [words]
      rw [hwords]
      exact readInsert?_insert table hcolumns hreturning
  | select columns table filter order page =>
      obtain ⟨-, hcolumns, htable, hfilter, horder⟩ := h
      have hwords : (select columns table filter order page).words = "SELECT" ::
          (commas (columns.map ([·])) ++ "FROM" :: table :: (filterWords filter ++
            (namesWords ["ORDER", "BY"] order ++ pageWords page))) := by
        simp [words]
      rw [hwords]
      exact readSelect?_select page hcolumns htable hfilter horder
  | count table filter => exact readSelect?_count h.1 h.2
  | update table set filter returning =>
      obtain ⟨-, hne, hset, hfilter, hreturning⟩ := h
      have hwords : (update table set filter returning).words = "UPDATE" :: table :: "SET" ::
          (commas (set.map fun a => a.1 :: "=" :: a.2.words) ++
            (filterWords filter ++ namesWords ["RETURNING"] returning)) := by
        simp [words]
      rw [hwords]
      exact readUpdate?_update table hne hset hfilter hreturning
  | delete table filter => exact readDelete?_delete h.1 h.2

/-- **Reading back.**  A written statement is read as itself. -/
theorem read?_render {s : Statement} (h : s.Plain) : read? s.render = some s := by
  rw [read?, wordsOf_render h, ofWords?_words h]

end Statement

end Gatehouse.Sql
