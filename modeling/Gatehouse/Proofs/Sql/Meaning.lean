import Gatehouse.Proofs.Sql.Grammar
import Gatehouse.Sql.Database
import Gatehouse.Sql.Layout

/-!
# Gatehouse.Proofs.Sql.Meaning — what statements do to tables

A table is a list of entries, which have a value under each of their columns.  `Statement.perform`
says what a statement does to tables and what it gives back: a row that is added has the k-th
parameter under the k-th column that is listed, and rows are given back with their values in the
order of the columns that are asked for.

A database is told texts.  `answer` does what the text of a statement says, read on its own terms,
so nothing but the text and the values that are bound to it has a part in the outcome.  Which rows
are accepted is left open, as a parameter; tables are taken to exist.

* `answer_execute` : what is written is done.
* `Entry.select_zip` : what was stored under some columns is given back in their order.
-/

namespace Gatehouse.Sql

open Gatehouse.Time Layout

/-! ## Entries -/

/-- What is stored in a row of a table: values under columns. -/
abbrev Entry := List (String × Value)

namespace Entry

/-- The value under a column. -/
def value (e : Entry) (column : String) : Value := (e.lookup column).getD .null

/-- The values under some columns, in their order. -/
def select (columns : List String) (e : Entry) : Row := columns.map e.value

/-- The entry after some columns have been set. -/
def assign (set : List (String × Value)) (e : Entry) : Entry :=
  e.map fun (column, old) => (column, (set.lookup column).getD old)

end Entry

/-- A value under another column does not matter. -/
theorem Entry.value_cons_of_ne {column column' : String} (v : Value) (e : Entry)
    (h : column' ≠ column) : Entry.value ((column, v) :: e) column' = e.value column' := by
  rw [Entry.value, Entry.value, List.lookup_cons, beq_eq_false_iff_ne.2 h]

/-- **Positions.**  Values that were stored under columns one by one are given back one by one. -/
theorem Entry.select_zip {columns : List String} (hcolumns : columns.Nodup) {r : Row}
    (h : r.length = columns.length) : Entry.select columns (columns.zip r) = r := by
  induction columns generalizing r with
  | nil => exact (List.eq_nil_of_length_eq_zero h).symm
  | cons column columns ih =>
      obtain ⟨v, r, rfl⟩ := List.exists_cons_of_length_eq_add_one h
      obtain ⟨hfree, hcolumns⟩ := List.nodup_cons.1 hcolumns
      have hrest : columns.map (Entry.value ((column, v) :: columns.zip r)) = r := by
        refine (List.map_congr_left fun c hc => ?_).trans (ih hcolumns (Nat.succ.inj h))
        exact Entry.value_cons_of_ne v _ fun heq => hfree (heq ▸ hc)
      show (Entry.value _ column :: _) = v :: r
      rw [List.zip_cons_cons, hrest, Entry.value, List.lookup_cons_self]
      rfl

/-! ## Conditions -/

/-- The value of a parameter; parameters are counted from one. -/
def parameter (params : List Value) : Nat → Value
  | 0 => .null
  | n + 1 => params[n]?.getD .null

/-- Whether a condition holds of an entry.  Nothing equals what is not there. -/
def Condition.holds (params : List Value) (e : Entry) : Condition → Bool
  | always => true
  | equals column n => e.value column ≠ .null && e.value column = parameter params n
  | contains column n =>
    match parameter params n, e.value column with
    | .text s, .texts ss => ss.contains s
    | _, _ => false
  | atMost column n =>
    match e.value column, parameter params n with
    | .integer a, .integer b => a ≤ b
    | _, _ => false

/-- Whether an entry passes a filter. -/
def passes (filter : List Condition) (params : List Value) (e : Entry) : Bool :=
  filter.all (·.holds params e)

/-- The value of what a column is set to; the time is kept at the resolution of the database. -/
def Assigned.value (now : Timestamp) (params : List Value) : Assigned → Value
  | param n => parameter params n
  | .now => .ofTimestamp now

/-! ## Order -/

/-- How values of one kind are ordered; texts are compared byte by byte. -/
def Value.compareTo : Value → Value → Ordering
  | .text a, .text b => compare a b
  | .integer a, .integer b => compare a b
  | .instant a, .instant b => (compare a.seconds b.seconds).then (compare a.nanos b.nanos)
  | _, _ => .eq

/-- How entries are ordered by some columns, of which an earlier one counts more. -/
def Entry.compareBy (a b : Entry) : List String → Ordering
  | [] => .eq
  | column :: rest => ((a.value column).compareTo (b.value column)).then (compareBy a b rest)

/-- Entries in an order. -/
def sorted (order : List String) (es : List Entry) : List Entry :=
  es.mergeSort fun a b => (Entry.compareBy a b order).isLE

/-- What is on a page, or all. -/
def onPage {α : Type} : Option Page → List α → List α
  | none, as => as
  | some page, as => (as.drop page.offset).take page.limit

theorem onPage_map {α β : Type} (page : Option Page) (f : α → β) (as : List α) :
    onPage page (as.map f) = (onPage page as).map f := by
  cases page with
  | none => rfl
  | some page => rw [onPage, onPage, List.map_take, List.map_drop]

/-! ## Statements -/

/-- The entries of every table, and how many numbers were given to rows of the event log. -/
structure Tables where
  rows : String → List Entry
  issued : Nat

namespace Tables

/-- Tables without entries. -/
def empty : Tables := ⟨fun _ => [], 0⟩

/-- The tables after the entries of one have been replaced. -/
def put (t : Tables) (table : String) (es : List Entry) : Tables :=
  { t with rows := fun name => if name = table then es else t.rows name }

@[simp] theorem rows_put (t : Tables) (table : String) (es : List Entry) :
    (t.put table es).rows table = es := if_pos rfl

theorem rows_put_of_ne (t : Tables) {table name : String} (es : List Entry) (h : name ≠ table) :
    (t.put table es).rows name = t.rows name := if_neg h

/-- What the database adds to a row of its own: to one of the event log a number and the time. -/
def generated (t : Tables) (now : Timestamp) (table : String) : Entry :=
  if table = eventLog then
    [("seq", .integer (t.issued + 1 : Nat)), ("appended_at", .ofTimestamp now)]
  else []

/-- The tables after an entry has been added to one. -/
def add (t : Tables) (table : String) (e : Entry) : Tables :=
  { t.put table (t.rows table ++ [e]) with
    issued := if table = eventLog then t.issued + 1 else t.issued }

end Tables

/-- Which entries are not accepted into a table, and what is said of them. -/
abbrev Constraints := Tables → String → Entry → Option DatabaseError

/-- The rows that are given back for entries; none if no columns are asked for. -/
def givenBack (columns : List String) (es : List Entry) : List Row :=
  if columns.isEmpty then [] else es.map (Entry.select columns)

/-- What a statement gives back, and the tables after it. -/
def Statement.perform (refuse : Constraints) (now : Timestamp) (params : List Value) (t : Tables) :
    Statement → Except DatabaseError Outcome × Tables
  | ping => (.ok ⟨[[.integer 1]], 1⟩, t)
  | createTable _ _ | createIndex _ _ _ => (.ok ⟨[], 0⟩, t)
  | insert table columns returning =>
    let e := columns.zip params ++ t.generated now table
    match refuse t table e with
    | some error => (.error error, t)
    | none => (.ok ⟨givenBack returning [e], 1⟩, t.add table e)
  | select columns table filter order page =>
    let found := onPage page (sorted order ((t.rows table).filter (passes filter params)))
    (.ok ⟨givenBack columns found, found.length⟩, t)
  | count table filter =>
    (.ok ⟨[[.integer ((t.rows table).filter (passes filter params)).length]], 1⟩, t)
  | update table set filter returning =>
    let found := (t.rows table).filter (passes filter params)
    let change := Entry.assign (set.map fun (column, a) => (column, a.value now params))
    (.ok ⟨givenBack returning (found.map change), found.length⟩,
      t.put table ((t.rows table).map fun e => if passes filter params e then change e else e))
  | delete table filter =>
    let found := (t.rows table).filter (passes filter params)
    (.ok ⟨[], found.length⟩, t.put table ((t.rows table).filter fun e => !passes filter params e))

/-! ## Texts -/

/-- What is said of a text that is no statement. -/
def syntaxError : DatabaseError := ⟨"42601", "syntax error"⟩

/-- What a text with values bound to it gives back, and the tables after it. -/
def performText (refuse : Constraints) (now : Timestamp) (params : List Value) (t : Tables)
    (text : String) : Except DatabaseError Outcome × Tables :=
  match Statement.read? text with
  | some s => s.perform refuse now params t
  | none => (.error syntaxError, t)

/-- A database with tables at a time. -/
def answer (refuse : Constraints) (now : Timestamp) :
    (c : database.Call) → Tables → database.Reply c × Tables
  | DatabaseCall.execute s params, t => performText refuse now params t s.render
  | DatabaseCall.note _, t => ((), t)

variable (refuse : Constraints) (now : Timestamp)

/-- **What is written is done.**  The text of a statement has the effect of the statement. -/
theorem answer_execute {s : Statement} (h : s.Plain) (params : List Value) (t : Tables) :
    answer refuse now (.execute s params) t = s.perform refuse now params t := by
  show performText refuse now params t s.render = _
  rw [performText, Statement.read?_render h]

/-! ## Entries of one kind

What a statement does to a table whose entries are made of values of some kind is what happens to
those values: they are filtered, ordered and changed as their entries are. -/

section Kind

variable {refuse now} {α : Type} {entry : α → Entry} {row : α → Row} {table : String}
  {columns : List String} {filter : List Condition} {params : List Value} {P : α → Bool}
  {t : Tables} {as : List α}

theorem givenBack_map (hne : columns ≠ []) (hrow : ∀ a, Entry.select columns (entry a) = row a)
    (as : List α) : givenBack columns (as.map entry) = as.map row := by
  have hsome : ¬columns.isEmpty = true := fun h => hne (List.isEmpty_iff.1 h)
  rw [givenBack, if_neg hsome, List.map_map]
  exact List.map_congr_left fun a _ => hrow a

theorem filter_map_entry (hpasses : ∀ a, passes filter params (entry a) = P a) (as : List α) :
    (as.map entry).filter (passes filter params) = (as.filter P).map entry := by
  rw [List.filter_map]
  exact congrArg (List.map entry) (List.filter_congr fun a _ => hpasses a)

theorem sorted_map_entry {order : List String} {le : α → α → Bool}
    (hle : ∀ a b, (Entry.compareBy (entry a) (entry b) order).isLE = le a b) (as : List α) :
    sorted order (as.map entry) = (as.mergeSort le).map entry :=
  (List.map_mergeSort fun a _ b _ => (hle a b).symm).symm

/-- Rows are those of the values that pass, in the order of these values, and on the page. -/
theorem perform_select {order : List String} {le : α → α → Bool} (page : Option Page)
    (hrows : t.rows table = as.map entry) (hne : columns ≠ [])
    (hrow : ∀ a, Entry.select columns (entry a) = row a)
    (hpasses : ∀ a, passes filter params (entry a) = P a)
    (hle : ∀ a b, (Entry.compareBy (entry a) (entry b) order).isLE = le a b) :
    Statement.perform refuse now params t (.select columns table filter order page) =
      (.ok ⟨(onPage page ((as.filter P).mergeSort le)).map row,
        (onPage page ((as.filter P).mergeSort le)).length⟩, t) := by
  simp only [Statement.perform, hrows, filter_map_entry hpasses, sorted_map_entry hle, onPage_map,
    givenBack_map hne hrow, List.length_map]

/-- As many rows are counted as there are values that pass. -/
theorem perform_count (hrows : t.rows table = as.map entry)
    (hpasses : ∀ a, passes filter params (entry a) = P a) :
    Statement.perform refuse now params t (.count table filter) =
      (.ok ⟨[[.integer (as.filter P).length]], 1⟩, t) := by
  simp only [Statement.perform, hrows, filter_map_entry hpasses, List.length_map]

/-- The values that pass are changed, and rows are given back of what they are then. -/
theorem perform_update {Q : α → Prop} [DecidablePred Q] {set : List (String × Assigned)}
    {change : α → α} (returning : List String) (hrows : t.rows table = as.map entry)
    (hpasses : ∀ a, passes filter params (entry a) = decide (Q a))
    (hchange : ∀ a, Entry.assign (set.map fun (column, v) => (column, v.value now params))
      (entry a) = entry (change a)) :
    Statement.perform refuse now params t (.update table set filter returning) =
      (.ok ⟨givenBack returning (((as.filter (decide <| Q ·)).map change).map entry),
          (as.filter (decide <| Q ·)).length⟩,
        t.put table ((as.map fun a => if Q a then change a else a).map entry)) := by
  have hfound : ((as.filter (decide <| Q ·)).map entry).map (Entry.assign
      (set.map fun (column, v) => (column, v.value now params))) =
      ((as.filter (decide <| Q ·)).map change).map entry := by
    rw [List.map_map, List.map_map]
    exact List.map_congr_left fun a _ => hchange a
  have hall : ((as.map entry).map fun e => if passes filter params e then
      Entry.assign (set.map fun (column, v) => (column, v.value now params)) e else e) =
      (as.map fun a => if Q a then change a else a).map entry := by
    rw [List.map_map, List.map_map]
    refine List.map_congr_left fun a _ => ?_
    show (if passes filter params (entry a) then Entry.assign _ (entry a) else entry a) =
      entry (if Q a then change a else a)
    rw [hpasses, hchange, apply_ite entry]
    simp only [decide_eq_true_eq]
  simp only [Statement.perform, hrows, filter_map_entry hpasses, hfound, hall, List.length_map]

/-- The values that pass are left out. -/
theorem perform_delete (hrows : t.rows table = as.map entry)
    (hpasses : ∀ a, passes filter params (entry a) = P a) :
    Statement.perform refuse now params t (.delete table filter) =
      (.ok ⟨[], (as.filter P).length⟩, t.put table ((as.filter fun a => !P a).map entry)) := by
  have hkept : (as.map entry).filter (fun e => !passes filter params e) =
      (as.filter fun a => !P a).map entry := by
    rw [List.filter_map]
    exact congrArg (List.map entry) (List.filter_congr fun a _ => congrArg not (hpasses a))
  simp only [Statement.perform, hrows, filter_map_entry hpasses, hkept, List.length_map]

/-- To a table other than the event log the database adds nothing of its own. -/
theorem perform_insert (htable : table ≠ eventLog) (a : α)
    (hrows : t.rows table = as.map entry) (hentry : columns.zip params = entry a) :
    Statement.perform refuse now params t (.insert table columns []) =
      match refuse t table (entry a) with
      | some error => (.error error, t)
      | none => (.ok ⟨[], 1⟩, t.put table ((as ++ [a]).map entry)) := by
  have hadd : t.add table (entry a) = t.put table ((as ++ [a]).map entry) := by
    rw [Tables.add, if_neg htable, hrows, List.map_append]
    rfl
  simp only [Statement.perform, Tables.generated, if_neg htable, List.append_nil, hentry, hadd]
  rfl

end Kind

/-! ## Queries -/

section Queries

variable {refuse now} {α : Type} {s : Statement} {params : List Value} {t t' : Tables}
  {o : Outcome}

/-- A plain statement is executed, and its error is one of the database. -/
theorem run_execute (h : s.Plain) :
    (Query.execute s params).run.run (answer refuse now) t =
      ((s.perform refuse now params t).1.mapError .database,
        (s.perform refuse now params t).2) := by
  rw [← answer_execute refuse now h]
  rfl

/-- A query for all rows decodes what the statement gives back. -/
theorem run_all {decode : Row → Except QueryError α} (h : s.Plain)
    (hperform : s.perform refuse now params t = (.ok o, t')) :
    (Query.all decode s params).run.run (answer refuse now) t = (o.rows.mapM decode, t') := by
  show ((Query.execute s params).run.bind _).run (answer refuse now) t = _
  rw [Program.run_bind, run_execute h, hperform]
  rfl

/-- A query for one row decodes the first that the statement gives back, if there is any. -/
theorem run_first {decode : Row → Except QueryError α} (h : s.Plain)
    (hperform : s.perform refuse now params t = (.ok o, t')) :
    (Query.first decode s params).run.run (answer refuse now) t =
      (o.rows.head?.mapM decode, t') := by
  show ((Query.execute s params).run.bind _).run (answer refuse now) t = _
  rw [Program.run_bind, run_execute h, hperform]
  rfl

/-- The number that a query ends in is the one that the answer begins with. -/
theorem run_one_integer {n : Int} {affected : Nat} (h : s.Plain)
    (hperform : s.perform refuse now params t = (.ok ⟨[[.integer n]], affected⟩, t')) :
    (Query.one (·.integer 0) s params).run.run (answer refuse now) t = (.ok n, t') := by
  show ((Query.first (·.integer 0) s params).run.bind _).run (answer refuse now) t = _
  rw [Program.run_bind, run_first h hperform]
  rfl

end Queries

end Gatehouse.Sql
