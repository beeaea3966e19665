import Gatehouse.Proofs.Sql.Plan
import Gatehouse.Proofs.Sql.Request
import Gatehouse.Sql.Log
import Gatehouse.Sql.Rehearsal

/-!
# Gatehouse.Proofs.Sql.Shape — what of a request shows in the texts that it executes

The `Shape` of a request holds none of the texts, times and records that the request is about: only
which call it is, which filters a query has, the numbers of its page, and how many records a stream
is to keep.  Every request follows a plan that is made from its shape (`follows_program`).  So two
requests of one shape whose statements fare alike execute the same texts, whatever they are about
and whatever the databases hold, and the placeholders of a text are those of the values that are
bound to it (`texts_of_shape`).
-/

namespace Gatehouse.Sql

open Program Layout

/-! ## Requests -/

/-- A request to a store or to an event log that a database keeps. -/
inductive Job where
  | store (c : StoreCall)
  | probe
  | append (stream : String) (r : Record) (maxLen : Nat)

/-- What a request is answered with. -/
def Job.Answer : Job → Type
  | store c => c.Reply
  | probe | append _ _ _ => Except EventError Unit

/-- What a request does with the database. -/
def Job.program : (j : Job) → Program database j.Answer
  | store c => answerStore c
  | probe => Log.probe
  | append stream r maxLen => Log.append stream r maxLen

/-! ## Shapes -/

/-- What of a request may show in a text: of a page, which filters are given and its numbers; of an
append, how many records are to be kept. -/
inductive Shape where
  | policy
  | policiesOf
  | policyPage (owner subject object action : Bool) (limit offset : Nat)
  | addPolicy
  | updatePolicy
  | deletePolicy
  | addClient
  | client
  | clientBySecret
  | setClientStatus
  | addGroup
  | group
  | groups
  | setGroupStatus
  | probe
  | append (maxLen : Nat)
deriving DecidableEq, Repr

/-- The shape of a call to a store. -/
def Shape.ofCall : StoreCall → Shape
  | .policy _ => policy
  | .policiesOf _ => policiesOf
  | .policyPage q =>
    policyPage q.owner.isSome q.subject.isSome q.object.isSome q.action.isSome q.effectiveLimit
      q.offset
  | .addPolicy _ => addPolicy
  | .updatePolicy _ => updatePolicy
  | .deletePolicy _ => deletePolicy
  | .addClient _ => addClient
  | .client _ => client
  | .clientBySecret _ => clientBySecret
  | .setClientStatus _ _ => setClientStatus
  | .addGroup _ => addGroup
  | .group _ => group
  | .groups => groups
  | .setGroupStatus _ _ => setGroupStatus

/-- The shape of a request. -/
def Job.shape : Job → Shape
  | store c => .ofCall c
  | probe => .probe
  | append _ _ maxLen => .append maxLen

/-! ## Filters -/

/-- A condition that is there only if its filter is given. -/
def onlyIf (isGiven : Bool) (condition : Nat → Condition) : List (Nat → Condition) :=
  if isGiven then [condition] else []

/-- The conditions of the filters that are given. -/
def givenConditions (owner subject object action : Bool) : List (Nat → Condition) :=
  onlyIf owner (.equals "owner_id") ++ onlyIf subject (.equals "subject") ++
    onlyIf object (.equals "object") ++ onlyIf action (.contains "actions")

theorem map_fst_toList (o : Option String) (condition : Nat → Condition) :
    (o.toList.map (condition, ·)).map Prod.fst = onlyIf o.isSome condition := by
  cases o <;> rfl

/-- Of the filters of a query, only which are given shows in its conditions. -/
theorem filterConditions_eq_given (q : PolicyQuery) :
    filterConditions q = numbered (givenConditions q.owner.isSome q.subject.isSome q.object.isSome
      q.action.isSome) := by
  simp only [filterConditions_eq, filtersOf, List.map_append, map_fst_toList, givenConditions]

/-- Conditions with a parameter each use their parameters in order. -/
theorem slots_numbered {given : List (Nat → Condition)}
    (h : ∀ condition ∈ given, ∀ n, (condition n).slots = [n]) :
    (numbered given).flatMap Condition.slots = (List.range given.length).map (· + 1) := by
  have hfrom : ∀ k, (numberedFrom k given).flatMap Condition.slots =
      (List.range' k given.length).map (· + 1) := by
    induction given with
    | nil => exact fun _ => rfl
    | cons condition given ih =>
        intro k
        have hrest := ih (fun c hc => h c (List.mem_cons_of_mem condition hc)) (k + 1)
        rw [numberedFrom_cons, List.flatMap_cons, hrest, h condition List.mem_cons_self,
          List.length_cons, List.range'_succ, List.map_cons]
        rfl
  rw [numbered, List.flatMap_cons, hfrom 0, List.range_eq_range']
  rfl

/-- The conditions of a query use its parameters in order. -/
theorem slots_filterConditions (q : PolicyQuery) :
    (filterConditions q).flatMap Condition.slots =
      (List.range (filterParams q).length).map (· + 1) := by
  rw [filterConditions_eq, slots_numbered, filterParams_eq, List.length_map, List.length_map]
  intro condition hcondition n
  obtain ⟨f, hf, rfl⟩ := List.mem_map.1 hcondition
  obtain ⟨column, -, hequals | hcontains⟩ := of_mem_filtersOf hf
  · rw [hequals, Condition.slots]
  · rw [hcontains, Condition.slots]

/-! ## The plans of requests -/

/-- Rows are counted, and then those of a page are asked for. -/
def pagePlan (filter : List Condition) (page : Page) : Plan :=
  .execute (.count policies filter) fun
    | .failed => .stop
    | _ => .single (.select policyColumns policies filter ["subject", "object"] (some page))

/-- A row is added, and then rows are removed if its number says so. -/
def appendPlan (maxLen : Nat) : Plan :=
  .execute Log.insertStatement fun
    | .numbered seq =>
      if (Log.trimBound maxLen seq).isSome then .single Log.trimStatement else .stop
    | _ => .stop

/-- The plan of all requests of a shape. -/
def Shape.plan : Shape → Plan
  | policy => .single (.select policyColumns policies hasKey [] none)
  | policiesOf => .single (.select policyColumns policies [.equals "subject" 1] ["object"] none)
  | policyPage owner subject object action limit offset =>
    pagePlan (numbered (givenConditions owner subject object action)) ⟨limit, offset⟩
  | addPolicy => .single (.insert policies policyColumns [])
  | updatePolicy => .single (.update policies
      [("actions", .param 3), ("updated_at", .param 4), ("updated_by", .param 5)] hasKey [])
  | deletePolicy => .single (.delete policies hasKey)
  | addClient => .single (.insert clients clientColumns [])
  | client => .single (.select clientColumns clients [.equals "id" 1] [] none)
  | clientBySecret => .single (.select clientColumns clients [.equals "secret" 1] [] none)
  | setClientStatus => .single (statusUpdate clients clientColumns)
  | addGroup => .single (.insert Layout.groups groupColumns [])
  | group => .single (.select groupColumns Layout.groups [.equals "id" 1] [] none)
  | groups => .single (.select groupColumns Layout.groups [] ["id"] none)
  | setGroupStatus => .single (statusUpdate Layout.groups groupColumns)
  | probe => .single .ping
  | append maxLen => appendPlan maxLen

/-! ## Every request follows its plan -/

section Queries

variable {α : Type} {plan : Plan} {s : Statement} {params : List Value}

theorem follows_execute (count : Nat) (h : Fits s count) (hcount : params.length = count) :
    Follows (.single s) (Query.execute s params).run :=
  ⟨_, rfl, hcount ▸ h, fun _ => rfl⟩

theorem follows_all {decode : Row → Except QueryError α} (count : Nat) (h : Fits s count)
    (hcount : params.length = count) : Follows (.single s) (Query.all decode s params).run := by
  refine follows_bind (follows_execute count h hcount) fun outcome => ?_
  cases outcome <;> rfl

theorem follows_first {decode : Row → Except QueryError α} (count : Nat) (h : Fits s count)
    (hcount : params.length = count) : Follows (.single s) (Query.first decode s params).run := by
  refine follows_bind (follows_execute count h hcount) fun outcome => ?_
  cases outcome <;> rfl

theorem follows_ofQuery {convert : QueryError → StorageError} {q : Query α}
    (h : Follows plan q.run) : Follows plan (Stored.ofQuery convert q).run :=
  follows_bind h fun _ => rfl

theorem follows_insertRow {table what : String} {columns : List String} (count : Nat)
    (h : Fits (.insert table columns []) count) (hcount : params.length = count) :
    Follows (.single (.insert table columns [])) (insertRow table columns params what).run := by
  refine follows_bind (follows_ofQuery (follows_execute count h hcount)) fun outcome => ?_
  cases outcome <;> rfl

theorem follows_changeRow (count : Nat) (h : Fits s count) (hcount : params.length = count) :
    Follows (.single s) (changeRow s params).run := by
  refine follows_bind (follows_ofQuery (follows_execute count h hcount)) fun outcome => ?_
  rcases outcome with e | ⟨rows, affected⟩
  · rfl
  · cases affected <;> rfl

theorem follows_firstRow {read : Row → Except QueryError (Except StorageError α)} (count : Nat)
    (h : Fits s count) (hcount : params.length = count) :
    Follows (.single s) (firstRow read s params).run := by
  refine follows_bind (follows_ofQuery (follows_first count h hcount)) fun found => ?_
  rcases found with e | none | e | a <;> rfl

/-- A query for a number ends in the first number of the answer. -/
theorem run_one_eq (s : Statement) (params : List Value) :
    (Query.one (·.integer 0) s params).run =
      .ask (.execute s params) fun reply => .done (firstNumber reply) := by
  refine congrArg (Program.ask (I := database) (.execute s params)) (funext fun reply => ?_)
  rcases reply with e | ⟨rows, affected⟩
  · rfl
  · cases rows with
    | nil => rfl
    | cons r rows =>
        show ExceptT.bindCont _ (some <$> r.integer 0) = Program.done (r.integer 0)
        cases r.integer 0 <;> rfl

/-- What is done with a number that a statement gives back follows the verdict on the answer. -/
theorem follows_one {f : Except QueryError Int → Program database α} {next : Verdict → Plan}
    (onNumber : Int → Verdict)
    (hverdict : ∀ reply, s.verdict reply = (firstNumber reply).toOption.elim .failed onNumber)
    (count : Nat) (h : Fits s count) (hcount : params.length = count)
    (herror : ∀ e, Follows (next .failed) (f (.error e)))
    (hok : ∀ n, Follows (next (onNumber n)) (f (.ok n))) :
    Follows (.execute s next) ((Query.one (·.integer 0) s params).run.bind f) := by
  rw [run_one_eq]
  refine ⟨next, rfl, hcount ▸ h, fun reply => ?_⟩
  rw [hverdict]
  show Follows _ (f (firstNumber reply))
  cases firstNumber reply with
  | error e => exact herror e
  | ok n => exact hok n

end Queries

/-- A listing counts and then asks for a page, unless the count fails. -/
theorem follows_policyPage (q : PolicyQuery) :
    Follows (Shape.ofCall (.policyPage q)).plan (policyPage q).run := by
  have hslots := slots_filterConditions q
  have hcount : Fits (countStatement q) (filterParams q).length :=
    fits_of_slots (plain_countStatement q) hslots
  have hpage : Fits (pageStatement q) (filterParams q).length :=
    fits_of_slots (plain_pageStatement q) hslots
  have hplan : (Shape.ofCall (.policyPage q)).plan =
      pagePlan (filterConditions q) ⟨q.effectiveLimit, q.offset⟩ := by
    rw [filterConditions_eq_given]
    rfl
  rw [hplan]
  show Follows _ (((Query.one _ _ _).run.bind _).bind _)
  rw [bind_assoc]
  refine follows_one (fun _ => .succeeded) (fun _ => rfl) _ hcount rfl ?_ ?_
  · exact fun _ => rfl
  · intro total
    show Follows (.single _) ((Stored.reading (Query.all readPolicy _ _)).run.bind _)
    refine follows_bind (follows_ofQuery (follows_all _ hpage rfl)) fun rows => ?_
    cases rows <;> rfl

/-- An append adds a row and then removes rows, if the number of the row says so. -/
theorem follows_append (stream : String) (r : Record) (maxLen : Nat) :
    Follows (appendPlan maxLen) (Log.append stream r maxLen) := by
  refine follows_one .numbered (fun _ => rfl) 2 (by decide) rfl ?_ ?_
  · exact fun _ => rfl
  · intro seq
    dsimp only
    cases Log.trimBound maxLen seq with
    | none => rfl
    | some bound =>
        refine follows_bind (follows_bind (follows_execute 2 (by decide) rfl) ?_) fun _ => rfl
        intro outcome
        cases outcome <;> rfl

/-- **Every request follows the plan of its shape**, whatever it is about. -/
theorem follows_program (j : Job) : Follows j.shape.plan j.program := by
  cases j with
  | probe =>
      refine follows_bind (follows_execute 0 (by decide) rfl) fun outcome => ?_
      cases outcome <;> rfl
  | append stream r maxLen => exact follows_append stream r maxLen
  | store c =>
      cases c with
      | policyPage q => exact follows_policyPage q
      | policy key => exact follows_ofQuery (follows_first 2 (by decide) rfl)
      | policiesOf subject => exact follows_ofQuery (follows_all 1 (by decide) rfl)
      | addPolicy | addClient => exact follows_insertRow 7 (by decide) rfl
      | addGroup => exact follows_insertRow 8 (by decide) rfl
      | updatePolicy => exact follows_changeRow 5 (by decide) rfl
      | deletePolicy => exact follows_changeRow 2 (by decide) rfl
      | client | clientBySecret | group => exact follows_firstRow 1 (by decide) rfl
      | groups =>
          refine follows_bind (follows_ofQuery (follows_all 0 (by decide) rfl)) fun rows => ?_
          cases rows <;> rfl
      | setClientStatus id status | setGroupStatus id status =>
          refine follows_bind (follows_firstRow 2 (by decide) rfl) fun found => ?_
          rcases found with e | none | a <;> rfl

/-! ## Texts -/

/-- **No text depends on what a request is about.**  Two requests of one shape, over databases that
may hold and answer anything, execute the same texts in the same order, as long as each statement of
one fares as that of the other in its place: it fails as that does, or succeeds with the same
sequence number, if it gives one back.  The placeholders of a text are exactly those of the values
that are bound to it. -/
theorem texts_of_shape {σ τ : Type} (answer : (c : DatabaseCall) → σ → c.Reply × σ)
    (answer' : (c : DatabaseCall) → τ → c.Reply × τ) (t : σ) (t' : τ) (j j' : Job)
    (hshape : j.shape = j'.shape)
    (hverdicts : ∀ z ∈ (exchanges answer j.program t).zip (exchanges answer' j'.program t'),
      z.1.verdict = z.2.verdict) :
    (exchanges answer j.program t).map Exchange.text =
        (exchanges answer' j'.program t').map Exchange.text ∧
      ∀ e ∈ exchanges answer j.program t, ∀ k,
        k ∈ slotsOf e.text ↔ 1 ≤ k ∧ k ≤ e.params.length := by
  obtain ⟨hcourse, hfits⟩ := course_exchanges answer (follows_program j) t
  have hplan : Follows j.shape.plan j'.program := hshape ▸ follows_program j'
  obtain ⟨hcourse', -⟩ := course_exchanges answer' hplan t'
  refine ⟨?_, fun e he k => (hfits e he).mem_slotsOf_iff k⟩
  have hstatements := hcourse.agree hcourse' (by
    rw [List.zip_map]
    intro z hz
    obtain ⟨⟨e, e'⟩, he, rfl⟩ := List.mem_map.1 hz
    exact hverdicts (e, e') he)
  have htexts := congrArg (List.map Statement.render) hstatements
  simp only [List.map_map] at htexts
  exact htexts

/-- A subject that looks like the end of a statement and another one leaves the two texts of a
listing as they are for any other subject. -/
theorem texts_of_two_subjects :
    let answers : List Reply := [fun _ => .ok ⟨[[.integer 2]], 1⟩, fun _ => .ok ⟨[], 0⟩]
    let run (subject : String) := exchanges Script.answer
      (Job.store (.policyPage { subject := some subject, action := some "read" })).program
      (Script.ofReplies answers)
    (run "alice").map Exchange.text =
        (run "' OR TRUE; DROP TABLE policies; --").map Exchange.text ∧
      ∀ e ∈ run "alice", ∀ k, k ∈ slotsOf e.text ↔ 1 ≤ k ∧ k ≤ e.params.length :=
  texts_of_shape _ _ _ _ _ _ rfl (by decide)

end Gatehouse.Sql
