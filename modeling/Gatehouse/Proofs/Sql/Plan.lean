import Gatehouse.Proofs.Sql.Grammar
import Gatehouse.Sql.Database

/-!
# Gatehouse.Proofs.Sql.Plan — which statements a program executes

What a program executes over a database may be decided by a `Plan`: after each statement it goes on
according to the `Verdict` on the answer, and to nothing else that is in the answer.  Two programs
that follow one plan and whose statements fare alike execute the same statements, whatever is bound
to them.

* `slotsOf_render` : the placeholders of a written statement are its parameters.
* `Follows plan p` : whatever a program is answered, it executes what the plan says.
* `course_exchanges` : a run over any database takes a course of the plan that is followed.
* `Plan.Course.agree` : two courses with the same verdicts have the same statements.
-/

namespace Gatehouse.Sql

open Program

/-! ## The placeholders of a text -/

/-- The numbers of the placeholders of a text, in the order in which they are used. -/
def slotsOf (text : String) : List Nat := (wordsOf text).filterMap slot?

/-- The parameter of a condition. -/
def Condition.slots : Condition → List Nat
  | always => []
  | equals _ n | contains _ n | atMost _ n => [n]

/-- The parameter that a column is set to. -/
def Assigned.slots : Assigned → List Nat
  | param n => [n]
  | now => []

/-- The parameters of a statement, in the order in which they are used. -/
def Statement.slots : Statement → List Nat
  | ping | createTable _ _ | createIndex _ _ _ => []
  | insert _ columns _ => (List.range columns.length).map (· + 1)
  | select _ _ filter _ _ | count _ filter | delete _ filter => filter.flatMap Condition.slots
  | update _ set filter _ => set.flatMap (·.2.slots) ++ filter.flatMap Condition.slots

theorem slot?_of_plain {name : String} (h : Plain name) : slot? name = none := by
  unfold slot?
  split
  · next digits hname =>
    rcases h.2 '$' (hname ▸ List.mem_cons_self) with hlower | hline
    · exact absurd hlower (by decide)
    · exact absurd hline (by decide)
  · rfl

theorem slot?_toString (n : Nat) : slot? (toString n) = none := by
  unfold slot?
  split
  · next digits hname =>
    rw [Nat.toString_eq_repr, Nat.toList_repr] at hname
    exact absurd (Text.isDigit_of_mem_toDigits (n := n) (hname ▸ List.mem_cons_self)) (by decide)
  · rfl

theorem filterMap_intercalate {α β : Type} {f : α → Option β} {sep : α} (h : f sep = none)
    (ls : List (List α)) :
    (List.intercalate [sep] ls).filterMap f = ls.flatMap (List.filterMap f) := by
  induction ls with
  | nil => rfl
  | cons l ls ih =>
      cases ls with
      | nil => rw [List.intercalate_singleton, List.flatMap_singleton]
      | cons next ls =>
          rw [List.intercalate_cons_cons, List.filterMap_append, List.filterMap_append, ih,
            List.flatMap_cons (x := l), List.filterMap_cons_none h, List.filterMap_nil,
            List.append_nil]

/-- No placeholder is among names. -/
theorem slots_names {names : List String} (h : AllPlain names) :
    (commas (names.map ([·]))).filterMap slot? = [] := by
  rw [commas, filterMap_intercalate (by decide), List.flatMap_map, List.flatMap_eq_nil_iff]
  intro name hname
  exact List.filterMap_cons_none (slot?_of_plain (h name hname))

theorem slots_namesWords (keyword : String) (more : List String) {names : List String}
    (h : AllPlain names)
    (hkeywords : (keyword :: more).filterMap slot? = []) :
    (namesWords (keyword :: more) names).filterMap slot? = [] := by
  unfold namesWords clauseWords
  split
  · rfl
  · rw [List.filterMap_append, hkeywords, slots_names h]
    rfl

/-- The placeholders of some parameters are numbered from one on. -/
theorem slots_placeholders (count : Nat) :
    (commas ((Statement.placeholders count).map ([·]))).filterMap slot? =
      (List.range count).map (· + 1) := by
  rw [commas, filterMap_intercalate (by decide), Statement.placeholders, List.map_map,
    List.flatMap_map]
  induction List.range count with
  | nil => rfl
  | cons i is ih =>
      rw [List.flatMap_cons, ih, List.map_cons]
      show List.filterMap slot? [placeholder (i + 1)] ++ _ = _
      rw [List.filterMap_cons_some (slot?_placeholder (i + 1))]
      rfl

/-- The placeholder of a condition is its parameter. -/
theorem Condition.slots_words {c : Condition} (h : c.Plain) :
    c.words.filterMap slot? = c.slots := by
  cases c with
  | always => decide
  | equals column n =>
      have hplaceholder : [placeholder n].filterMap slot? = [n] :=
        List.filterMap_cons_some (slot?_placeholder n)
      show (column :: "=" :: [placeholder n]).filterMap slot? = [n]
      rw [List.filterMap_cons_none (slot?_of_plain h), List.filterMap_cons_none (by decide),
        hplaceholder]
  | atMost column n =>
      have hplaceholder : [placeholder n].filterMap slot? = [n] :=
        List.filterMap_cons_some (slot?_placeholder n)
      show (column :: "<=" :: [placeholder n]).filterMap slot? = [n]
      rw [List.filterMap_cons_none (slot?_of_plain h), List.filterMap_cons_none (by decide),
        hplaceholder]
  | contains column n =>
      show (placeholder n :: "=" :: "ANY" :: "(" :: column :: [")"]).filterMap slot? = [n]
      rw [List.filterMap_cons_some (slot?_placeholder n), List.filterMap_cons_none (by decide),
        List.filterMap_cons_none (by decide), List.filterMap_cons_none (by decide),
        List.filterMap_cons_none (slot?_of_plain h)]
      rfl

/-- The placeholders of a filter are the parameters of its conditions. -/
theorem slots_filterWords {filter : List Condition} (h : ∀ c ∈ filter, c.Plain) :
    (filterWords filter).filterMap slot? = filter.flatMap Condition.slots := by
  have hconditions : (conditionWords filter).filterMap slot? = filter.flatMap Condition.slots := by
    rw [conditionWords, filterMap_intercalate (by decide), List.flatMap_map]
    refine List.flatMap_congr fun c hc => ?_
    exact Condition.slots_words (h c hc)
  cases filter with
  | nil => rfl
  | cons c filter =>
      show ("WHERE" :: conditionWords (c :: filter)).filterMap slot? = _
      rw [List.filterMap_cons_none (by decide), hconditions]

/-- The placeholder of what a column is set to is its parameter. -/
theorem Assigned.slots_words (a : Assigned) : a.words.filterMap slot? = a.slots := by
  cases a with
  | param n => exact List.filterMap_cons_some (slot?_placeholder n)
  | now => decide

theorem slots_set {set : List (String × Assigned)} (h : ∀ a ∈ set, Plain a.1) :
    (commas (set.map fun a => a.1 :: "=" :: a.2.words)).filterMap slot? =
      set.flatMap (·.2.slots) := by
  rw [commas, filterMap_intercalate (by decide), List.flatMap_map]
  refine List.flatMap_congr fun a ha => ?_
  rw [List.filterMap_cons_none (slot?_of_plain (h a ha)), List.filterMap_cons_none (by decide),
    Assigned.slots_words]

theorem slots_pageWords (page : Option Page) : (pageWords page).filterMap slot? = [] := by
  cases page with
  | none => rfl
  | some p =>
      show ("LIMIT" :: toString p.limit :: "OFFSET" :: [toString p.offset]).filterMap slot? = []
      rw [List.filterMap_cons_none (by decide), List.filterMap_cons_none (slot?_toString _),
        List.filterMap_cons_none (by decide), List.filterMap_cons_none (slot?_toString _)]
      rfl

/-- No placeholder is among keywords and the name that they are about. -/
theorem slots_about {name : String} (h : Plain name) (before : List String) {after : List String}
    (hbefore : before.filterMap slot? = []) (hafter : after.filterMap slot? = []) :
    (before ++ name :: after).filterMap slot? = [] := by
  rw [List.filterMap_append, hbefore, List.filterMap_cons_none (slot?_of_plain h), hafter]
  rfl

/-- **Placeholders.**  The placeholders of a written statement are its parameters. -/
theorem slotsOf_render {s : Statement} (h : s.Plain) : slotsOf s.render = s.slots := by
  rw [slotsOf, Statement.wordsOf_render h]
  cases s with
  | ping => decide
  | createTable | createIndex => exact h.elim
  | insert table columns returning =>
      obtain ⟨htable, -, hcolumns, hreturning⟩ := h
      have hreturns := slots_namesWords "RETURNING" [] hreturning (by decide)
      have hinto : ["INSERT", "INTO", table, "("].filterMap slot? = [] :=
        slots_about htable ["INSERT", "INTO"] (by decide) (by decide)
      have hvalues : [")", "VALUES", "("].filterMap slot? = [] := by decide
      have hend : [")"].filterMap slot? = [] := by decide
      simp only [Statement.words, List.filterMap_append, hinto, slots_names hcolumns, hvalues,
        slots_placeholders, hend, hreturns, List.nil_append, List.append_nil, Statement.slots]
  | select columns table filter order page =>
      obtain ⟨-, hcolumns, htable, hfilter, horder⟩ := h
      have horders := slots_namesWords "ORDER" ["BY"] horder (by decide)
      have hfrom : ["FROM", table].filterMap slot? = [] :=
        slots_about htable ["FROM"] (by decide) rfl
      have hselect : ["SELECT"].filterMap slot? = [] := by decide
      simp only [Statement.words, List.filterMap_append, hselect, slots_names hcolumns, hfrom,
        slots_filterWords hfilter, horders, slots_pageWords, List.nil_append, List.append_nil,
        Statement.slots]
  | count table filter =>
      have hfrom : ["SELECT", "COUNT", "(", "*", ")", "FROM", table].filterMap slot? = [] :=
        slots_about h.1 ["SELECT", "COUNT", "(", "*", ")", "FROM"] (by decide) rfl
      simp only [Statement.words, List.filterMap_append, hfrom, slots_filterWords h.2,
        List.nil_append, Statement.slots]
  | update table set filter returning =>
      obtain ⟨htable, -, hset, hfilter, hreturning⟩ := h
      have hreturns := slots_namesWords "RETURNING" [] hreturning (by decide)
      have hupdate : ["UPDATE", table, "SET"].filterMap slot? = [] :=
        slots_about htable ["UPDATE"] (by decide) (by decide)
      simp only [Statement.words, List.filterMap_append, hupdate, slots_set hset,
        slots_filterWords hfilter, hreturns, List.nil_append, List.append_nil, Statement.slots]
  | delete table filter =>
      have hfrom : ["DELETE", "FROM", table].filterMap slot? = [] :=
        slots_about h.1 ["DELETE", "FROM"] (by decide) rfl
      simp only [Statement.words, List.filterMap_append, hfrom, slots_filterWords h.2,
        List.nil_append, Statement.slots]

/-! ## Runs and verdicts -/

/-- A statement that was executed, with what was bound to it and what it was answered. -/
structure Exchange where
  statement : Statement
  params : List Value
  reply : Except DatabaseError Outcome

/-- The text that was executed. -/
def Exchange.text (e : Exchange) : String := e.statement.render

/-- The statements that a program executes over a database with states in `σ`, in order. -/
def exchanges {σ α : Type} (answer : (c : DatabaseCall) → σ → c.Reply × σ) :
    Program database α → σ → List Exchange
  | .done _, _ => []
  | .ask (.execute s params) next, t =>
    let reply := answer (.execute s params) t
    ⟨s, params, reply.1⟩ :: exchanges answer (next reply.1) reply.2
  | .ask (.note e) next, t => exchanges answer (next ()) (answer (.note e) t).2

/-- What of an answer decides how a request goes on: whether the statement succeeded, and the
sequence number that an addition gave back. -/
inductive Verdict where
  | failed
  | succeeded
  | numbered (n : Int)
deriving DecidableEq, Repr

/-- The number that an answer begins with. -/
def firstNumber : Except DatabaseError Outcome → Except QueryError Int
  | .error e => .error (.database e)
  | .ok ⟨[], _⟩ => .error .rowNotFound
  | .ok ⟨r :: _, _⟩ => r.integer 0

/-- The verdict on the answer to a statement.  A statement that is to give a number back has failed
if it gives none. -/
def Statement.verdict : Statement → Except DatabaseError Outcome → Verdict
  | .insert _ _ (_ :: _), reply => (firstNumber reply).toOption.elim .failed .numbered
  | .count _ _, reply => (firstNumber reply).toOption.elim .failed fun _ => .succeeded
  | _, .ok _ => .succeeded
  | _, .error _ => .failed

/-- The verdict on a statement that was executed. -/
def Exchange.verdict (e : Exchange) : Verdict := e.statement.verdict e.reply

/-! ## Plans -/

/-- What is left of a request without the values that it is about. -/
inductive Plan where
  | stop
  | execute (s : Statement) (next : Verdict → Plan)

/-- The plan of one statement. -/
def Plan.single (s : Statement) : Plan := .execute s fun _ => .stop

/-- Whether a number of values fit the parameters of a statement: it has no parameter beyond them,
and uses each of them. -/
def Fits (s : Statement) (count : Nat) : Prop :=
  s.Plain ∧ (∀ k ∈ s.slots, 1 ≤ k ∧ k ≤ count) ∧ ∀ i < count, i + 1 ∈ s.slots

instance (s : Statement) (count : Nat) : Decidable (Fits s count) :=
  inferInstanceAs (Decidable (s.Plain ∧ (∀ k ∈ s.slots, 1 ≤ k ∧ k ≤ count) ∧
    ∀ i < count, i + 1 ∈ s.slots))

/-- The placeholders of a text are the numbers of the values that fit it. -/
theorem Fits.mem_slotsOf_iff {s : Statement} {count : Nat} (h : Fits s count) (k : Nat) :
    k ∈ slotsOf s.render ↔ 1 ≤ k ∧ k ≤ count := by
  rw [slotsOf_render h.1]
  refine ⟨h.2.1 k, fun hk => ?_⟩
  obtain ⟨i, rfl⟩ : ∃ i, k = i + 1 := ⟨k - 1, by omega⟩
  exact h.2.2 i (by omega)

/-- Values fit a statement whose parameters are counted up to their number. -/
theorem fits_of_slots {s : Statement} {count : Nat} (hplain : s.Plain)
    (h : s.slots = (List.range count).map (· + 1)) : Fits s count := by
  refine ⟨hplain, fun k hk => ?_, fun i hi => ?_⟩
  · rw [h] at hk
    obtain ⟨i, hi, rfl⟩ := List.mem_map.1 hk
    have := List.mem_range.1 hi
    omega
  · rw [h]
    exact List.mem_map.2 ⟨i, List.mem_range.2 hi, rfl⟩

/-- Whatever a program is answered, it executes the statements of a plan, and every value that is
bound to one has its placeholder. -/
def Follows {α : Type} : Plan → Program database α → Prop
  | plan, .done _ => plan = .stop
  | plan, .ask (.execute s params) next =>
    ∃ then', plan = .execute s then' ∧ Fits s params.length ∧
      ∀ reply, Follows (then' (s.verdict reply)) (next reply)
  | plan, .ask (.note _) next => Follows plan (next ())

/-- Statements with the verdicts on them are those of a whole run of a plan. -/
def Plan.Course : Plan → List (Statement × Verdict) → Prop
  | .stop, steps => steps = []
  | .execute s next, steps => ∃ v rest, steps = (s, v) :: rest ∧ (next v).Course rest

/-- **Two courses.**  As long as the verdicts are the same, two courses of a plan have the same
statements. -/
theorem Plan.Course.agree {plan : Plan} {xs ys : List (Statement × Verdict)} (hx : plan.Course xs)
    (hy : plan.Course ys) (h : ∀ z ∈ xs.zip ys, z.1.2 = z.2.2) :
    xs.map Prod.fst = ys.map Prod.fst := by
  induction plan generalizing xs ys with
  | stop => rw [show xs = [] from hx, show ys = [] from hy]
  | execute s next ih =>
      obtain ⟨v, xs, rfl, hx⟩ := hx
      obtain ⟨w, ys, rfl, hy⟩ := hy
      rw [List.zip_cons_cons, List.forall_mem_cons] at h
      obtain rfl : v = w := h.1
      rw [List.map_cons, List.map_cons, ih v hx hy h.2]

section Follows

variable {α β : Type}

/-- **A run of a plan.**  What a program executes over any database is a course of the plan that it
follows, and all values have their placeholders. -/
theorem course_exchanges {σ : Type} (answer : (c : DatabaseCall) → σ → c.Reply × σ) {plan : Plan}
    {p : Program database α} (h : Follows plan p) (t : σ) :
    plan.Course ((exchanges answer p t).map fun e => (e.statement, e.verdict)) ∧
      ∀ e ∈ exchanges answer p t, Fits e.statement e.params.length := by
  induction p generalizing plan t with
  | done a =>
      obtain rfl : plan = .stop := h
      exact ⟨rfl, fun _ he => by cases he⟩
  | ask c next ih =>
      cases c with
      | execute s params =>
          obtain ⟨then', rfl, hfits, hnext⟩ := h
          obtain ⟨hcourse, hall⟩ := ih _ (hnext (answer (.execute s params) t).1)
            (answer (.execute s params) t).2
          exact ⟨⟨_, _, rfl, hcourse⟩, List.forall_mem_cons.2 ⟨hfits, hall⟩⟩
      | note e => exact ih () h _

/-- A program that goes on without the database follows the plan of its beginning. -/
theorem follows_bind {plan : Plan} {p : Program database α} {f : α → Program database β}
    (hp : Follows plan p) (hf : ∀ a, Follows .stop (f a)) : Follows plan (p.bind f) := by
  induction p generalizing plan with
  | done a =>
      obtain rfl : plan = .stop := hp
      exact hf a
  | ask c next ih =>
      cases c with
      | execute s params =>
          obtain ⟨then', rfl, hfits, hnext⟩ := hp
          exact ⟨then', rfl, hfits, fun reply => ih reply (hnext reply)⟩
      | note e => exact ih () hp

end Follows

end Gatehouse.Sql
