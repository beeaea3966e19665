import Gatehouse.Proofs.Sql.Meaning
import Gatehouse.Proofs.Sql.Request
import Gatehouse.Proofs.Store.Copy
import Gatehouse.Proofs.Store.Sound

/-!
# Gatehouse.Proofs.Sql.Contents — what a store that a database keeps does with its contents

The tables of a store hold policies, clients and groups (`Holds`): an entry has the values of a row,
in order, under the columns that it was written to.  So what is in the tables can be spoken of
without values, columns and rows: as `Contents`, three lists in the order in which things were
added.

`Contents.answer` says what every call answers and leaves behind in terms of these lists, and
`run_answerStore` that this is what the statements do.  From there on nothing is about statements
any more.  The proof has two halves.  For each kind of statement, `Proofs.Sql.Meaning` says what it
does to a table whose entries are made of values; and for each way in which a store uses an answer,
a lemma of this module says what comes of it (`run_findRow`, `run_changeRow` and the like).

What is read back is what was written, at the resolution of the database (`kept`).  So nothing but
the level and the path of a group is lost if its times are whole microseconds (`kept_of_whole`).
-/

namespace Gatehouse

open Gatehouse.Time

/-! ## The resolution of the database -/

namespace Time.Timestamp

/-- Whether an instant is a whole number of microseconds. -/
def Whole (t : Timestamp) : Prop := t.nanos < 1000000000 ∧ t.nanos % 1000 = 0

/-- What the database can keep, it keeps as it is. -/
theorem toMicroseconds_of_whole {t : Timestamp} (h : t.Whole) : t.toMicroseconds = t := by
  obtain ⟨seconds, nanos⟩ := t
  obtain ⟨hnanos, hmicros⟩ := h
  obtain ⟨micros, rfl⟩ := Nat.dvd_of_mod_eq_zero hmicros
  change 1000 * micros < 1000000000 at hnanos
  have htotal : (seconds - 946684800) * 1000000000 + ((1000 * micros : Nat) : Int) =
      1000 * ((seconds - 946684800) * 1000000 + micros) := by omega
  simp only [toMicroseconds, htotal]
  rw [Int.mul_tdiv_cancel_left _ (by decide)]
  simp only [Timestamp.mk.injEq]
  constructor <;> omega

end Time.Timestamp

/-! ## What of an entity is kept -/

/-- A policy as it is read back. -/
def Policy.kept (p : Policy) : Policy :=
  { p with createdAt := p.createdAt.toMicroseconds, updatedAt := p.updatedAt.toMicroseconds }

@[simp] theorem Policy.kept_key (p : Policy) : p.kept.key = p.key := rfl

/-- A client as it is read back. -/
def Client.kept (c : Client) : Client :=
  { c with createdAt := c.createdAt.toMicroseconds, updatedAt := c.updatedAt.toMicroseconds }

/-- A group as it is read back. -/
def Group.kept (g : Group) : Group :=
  { g with createdAt := g.createdAt.toMicroseconds, updatedAt := g.updatedAt.toMicroseconds,
           level := 0, path := "" }

/-- A policy whose times are whole microseconds is read back as it was. -/
theorem Policy.kept_of_whole {p : Policy} (hcreated : p.createdAt.Whole)
    (hupdated : p.updatedAt.Whole) : p.kept = p := by
  rw [kept, Timestamp.toMicroseconds_of_whole hcreated, Timestamp.toMicroseconds_of_whole hupdated]

/-- A client whose times are whole microseconds is read back as it was. -/
theorem Client.kept_of_whole {c : Client} (hcreated : c.createdAt.Whole)
    (hupdated : c.updatedAt.Whole) : c.kept = c := by
  rw [kept, Timestamp.toMicroseconds_of_whole hcreated, Timestamp.toMicroseconds_of_whole hupdated]

/-- A group whose times are whole microseconds is read back without its level and its path. -/
theorem Group.kept_of_whole {g : Group} (hcreated : g.createdAt.Whole)
    (hupdated : g.updatedAt.Whole) : g.kept = { g with level := 0, path := "" } := by
  rw [kept, Timestamp.toMicroseconds_of_whole hcreated, Timestamp.toMicroseconds_of_whole hupdated]

namespace Sql

open Layout

/-! ## Entries -/

/-- The entry of a policy. -/
def policyEntry (p : Policy) : Entry := policyColumns.zip (policyRow p)

/-- The entry of a client. -/
def clientEntry (c : Client) : Entry := clientColumns.zip (clientRow c)

/-- The entry of a group. -/
def groupEntry (g : Group) : Entry := groupColumns.zip (groupRow g)

theorem select_policyEntry (p : Policy) :
    Entry.select policyColumns (policyEntry p) = policyRow p :=
  Entry.select_zip (by decide) rfl

theorem select_clientEntry (c : Client) :
    Entry.select clientColumns (clientEntry c) = clientRow c :=
  Entry.select_zip (by decide) rfl

theorem select_groupEntry (g : Group) :
    Entry.select groupColumns (groupEntry g) = groupRow g :=
  Entry.select_zip (by decide) rfl

/-- A row is read as the policy that it was written for. -/
theorem readPolicy_policyRow (p : Policy) : readPolicy (policyRow p) = .ok p.kept := rfl

/-- A row is read as the client that it was written for. -/
theorem readClient_clientRow (c : Client) : readClient (clientRow c) = .ok (.ok c.kept) := by
  obtain ⟨id, name, owner, secret, status, createdAt, updatedAt⟩ := c
  cases status <;> rfl

/-- A row is read as the group that it was written for. -/
theorem readGroup_groupRow (g : Group) : readGroup (groupRow g) = .ok (.ok g.kept) := by
  obtain ⟨id, name, description, owner, parent, status, createdAt, updatedAt, level, path⟩ := g
  cases parent <;> cases status <;> rfl

/-! ## Contents -/

/-- What the tables of a store hold, in the order in which it was added. -/
structure Contents where
  policies : List Policy
  clients : List Client
  groups : List Group
deriving DecidableEq

/-- Whether tables hold some contents. -/
structure Holds (t : Tables) (k : Contents) : Prop where
  policies : t.rows Layout.policies = k.policies.map policyEntry
  clients : t.rows Layout.clients = k.clients.map clientEntry
  groups : t.rows Layout.groups = k.groups.map groupEntry

/-- The page of a query over policies in any order. -/
def pageOf (q : PolicyQuery) (ps : List Policy) : PolicyPage :=
  let found := ps.filter q.admits
  let shown := ((inOrder Policy.key found).drop q.offset).take q.effectiveLimit
  { total := found.length, offset := q.offset, limit := q.effectiveLimit
    policies := shown.map Policy.kept }

namespace Contents

/-- The answer to a call that adds something, unless it was refused, and the contents after it. -/
def added (k k' : Contents) (what : String) :
    Option DatabaseError → Except StorageError Unit × Contents
  | some e => (.error (Stored.writeError what (.database e)), k)
  | none => (.ok (), k')

/-- The answer to a call that changes what it finds. -/
def changed {α : Type} : Option α → Except StorageError α
  | some a => .ok a
  | none => .error .notFound

/-- The answer to a call at a time of the database, and the contents after it.  What is added may be
refused. -/
def answer (now : Timestamp) (refused : Option DatabaseError) :
    (c : StoreCall) → Contents → c.Reply × Contents
  | .policy key, k => (.ok ((k.policies.find? (·.key = key)).map Policy.kept), k)
  | .policiesOf subject, k =>
    let found := k.policies.filter (·.subject = subject)
    (.ok ((inOrder (·.object) found).map Policy.kept), k)
  | .policyPage q, k => (.ok (pageOf q k.policies), k)
  | .addPolicy p, k => k.added { k with policies := k.policies ++ [p] } p.key.render refused
  | .updatePolicy p, k =>
    let found := k.policies.find? (·.key = p.key)
    let after := k.policies.map fun old => if old.key = p.key then Store.amend old p else old
    (changed (found.map fun _ => ()), { k with policies := after })
  | .deletePolicy key, k =>
    let found := k.policies.find? (·.key = key)
    let after := k.policies.filter fun p => !(p.key = key)
    (changed (found.map fun _ => ()), { k with policies := after })
  | .addClient c, k => k.added { k with clients := k.clients ++ [c] } (clientConflict c.id) refused
  | .client id, k => (.ok ((k.clients.find? (·.id = id)).map Client.kept), k)
  | .clientBySecret secret, k => (.ok ((k.clients.find? (·.secret = secret)).map Client.kept), k)
  | .setClientStatus id status, k =>
    let change (c : Client) : Client := { c with status, updatedAt := now }
    let after := k.clients.map fun c => if c.id = id then change c else c
    (changed ((k.clients.find? (·.id = id)).map fun c => (change c).kept),
      { k with clients := after })
  | .addGroup g, k => k.added { k with groups := k.groups ++ [g] } (groupConflict g.id) refused
  | .group id, k => (.ok ((k.groups.find? (·.id = id)).map Group.kept), k)
  | .groups, k => (.ok ((inOrder (·.id) k.groups).map Group.kept), k)
  | .setGroupStatus id status, k =>
    let change (g : Group) : Group := { g with status, updatedAt := now }
    let after := k.groups.map fun g => if g.id = id then change g else g
    (changed ((k.groups.find? (·.id = id)).map fun g => (change g).kept),
      { k with groups := after })

end Contents

/-- What is said of the entry that a call is to add, if it is not accepted. -/
def refusal (refuse : Constraints) (t : Tables) : StoreCall → Option DatabaseError
  | .addPolicy p => refuse t policies (policyEntry p)
  | .addClient c => refuse t clients (clientEntry c)
  | .addGroup g => refuse t groups (groupEntry g)
  | _ => none

/-! ## Rows -/

section Rows

variable {α β γ ε : Type} {encode : α → γ} {decode : γ → Except ε β} {f : α → β}

/-- Rows that were each written for a value are read as these values. -/
theorem mapM_rows (h : ∀ a, decode (encode a) = .ok (f a)) (as : List α) :
    (as.map encode).mapM decode = .ok (as.map f) := by
  induction as with
  | nil => rfl
  | cons a as ih =>
      rw [List.map_cons, List.mapM_cons, h, ih]
      rfl

theorem head?_mapM_rows (h : ∀ a, decode (encode a) = .ok (f a)) (as : List α) :
    (as.map encode).head?.mapM decode = .ok (as.head?.map f) := by
  cases as with
  | nil => rfl
  | cons a as =>
      show some <$> decode (encode a) = _
      rw [h]
      rfl

end Rows

/-! ## Filters and orders -/

theorem holds_equals {params : List Value} {e : Entry} {column s s' : String} {n : Nat}
    (h : e.value column = .text s) (hn : parameter params n = .text s') :
    (Condition.equals column n).holds params e = decide (s = s') := by
  simp only [Condition.holds, h, hn, Value.text.injEq, ne_eq, reduceCtorEq, not_false_eq_true,
    decide_true, Bool.true_and]

theorem passes_equals {e : Entry} {column s : String} (h : e.value column = .text s) (s' : String)
    (rest : List Value) : passes [.equals column 1] (.text s' :: rest) e = decide (s = s') := by
  show ((Condition.equals column 1).holds (.text s' :: rest) e && true) = _
  rw [holds_equals h rfl, Bool.and_true]

/-- The condition on both parts of a key is the condition on the key. -/
theorem passes_hasKey (key : PolicyKey) (rest : List Value) (p : Policy) :
    passes hasKey (.text key.subject :: .text key.object :: rest) (policyEntry p) =
      decide (p.key = key) := by
  show ((Condition.equals "subject" 1).holds _ (policyEntry p) &&
    ((Condition.equals "object" 2).holds _ (policyEntry p) && true)) = _
  rw [holds_equals (s := p.subject) rfl rfl, holds_equals (s := p.object) rfl rfl, Bool.and_true,
    ← Bool.decide_and]
  obtain ⟨subject, object⟩ := key
  simp only [Policy.key, PolicyKey.mk.injEq]

/-- Whether an entry passes a filter of a query, whose parameter is bound to the text of it. -/
def admittedBy (e : Entry) (f : (Nat → Condition) × String) : Bool := (f.1 1).holds [.text f.2] e

/-- Every filter finds its own text under the number of its parameter. -/
theorem passes_numbered {given : List ((Nat → Condition) × String)} {e : Entry}
    (h : ∀ f ∈ given, ∀ params n, parameter params n = .text f.2 →
      (f.1 n).holds params e = admittedBy e f) :
    passes (numbered (given.map Prod.fst)) (given.map fun f => .text f.2) e =
      given.all (admittedBy e) := by
  -- the filters before these have taken the first numbers
  have hfrom : ∀ before : List Value, (numberedFrom before.length (given.map Prod.fst)).all
      (·.holds (before ++ given.map fun f => .text f.2) e) = given.all (admittedBy e) := by
    induction given with
    | nil => exact fun _ => rfl
    | cons f given ih =>
        intro before
        have hrest := ih (fun f' hf' => h f' (List.mem_cons_of_mem f hf')) (before ++ [.text f.2])
        rw [List.length_append, List.length_singleton, List.append_assoc] at hrest
        have hparam : parameter (before ++ .text f.2 :: given.map fun f => .text f.2)
            (before.length + 1) = .text f.2 := by
          rw [parameter, List.getElem?_append_right (Nat.le_refl _), Nat.sub_self]
          rfl
        rw [List.map_cons, numberedFrom_cons, List.all_cons, List.all_cons, List.map_cons,
          h f List.mem_cons_self _ _ hparam]
        exact congrArg (admittedBy e f && ·) hrest
  rw [passes, numbered, List.all_cons]
  exact hfrom []

/-- **The filter of a query.**  The conditions of a query, read with its parameters, hold of the
entry of a policy if and only if the query admits the policy. -/
theorem passes_filterConditions (q : PolicyQuery) (p : Policy) :
    passes (filterConditions q) (filterParams q) (policyEntry p) = q.admits p := by
  have hequals : ∀ column text, (policyEntry p).value column = .text text → ∀ s,
      admittedBy (policyEntry p) (.equals column, s) = decide (s = text) := by
    intro column text hvalue s
    rw [admittedBy, holds_equals hvalue rfl]
    exact decide_eq_decide.2 eq_comm
  -- a filter that is not given asks for nothing
  have hall : ∀ {P : (Nat → Condition) × String → Bool} {c : Nat → Condition} (o : Option String),
      (o.toList.map (c, ·)).all P = o.all fun s => P (c, s) := by
    intro P c o
    cases o with
    | none => rfl
    | some s => exact Bool.and_true _
  rw [filterConditions_eq, filterParams_eq, passes_numbered]
  · simp only [filtersOf, List.all_append, hall, hequals "owner_id" p.owner rfl,
      hequals "subject" p.subject rfl, hequals "object" p.object rfl]
    rfl
  · intro f hf params n hn
    obtain ⟨column, -, hcompare | hcontains⟩ := of_mem_filtersOf hf
    · rw [admittedBy, hcompare, Condition.holds, hn]
      rfl
    · rw [admittedBy, hcontains, Condition.holds, hn]
      rfl

theorem isLE_then_eq (o : Ordering) : (o.then .eq).isLE = o.isLE := by
  cases o <;> rfl

theorem isLE_compareBy_key (p p' : Policy) :
    (Entry.compareBy (policyEntry p) (policyEntry p') ["subject", "object"]).isLE =
      (compare p.key p'.key).isLE := by
  show ((compare p.subject p'.subject).then ((compare p.object p'.object).then .eq)).isLE =
    ((compare p.subject p'.subject).then (compare p.object p'.object)).isLE
  cases compare p.subject p'.subject <;> cases compare p.object p'.object <;> rfl

/-! ## What the statements do -/

section Requests

variable {refuse : Constraints} {now : Timestamp} {t t' : Tables} {α β : Type} {s : Statement}
  {params : List Value} {as : List α} {P : α → Bool}

theorem run_ofQuery (convert : QueryError → StorageError) (q : Query α) :
    (Stored.ofQuery convert q).run.run (answer refuse now) t =
      ((q.run.run (answer refuse now) t).1.mapError convert,
        (q.run.run (answer refuse now) t).2) :=
  Program.run_bind (answer refuse now) q.run _ t

/-- A row that is added is refused by the database, or stands at the end of its table. -/
theorem run_insertRow {table what : String} {columns : List String} {entry : α → Entry} (a : α)
    (h : (Statement.insert table columns []).Plain) (htable : table ≠ eventLog)
    (hrows : t.rows table = as.map entry) (hentry : columns.zip params = entry a) :
    (insertRow table columns params what).run.run (answer refuse now) t =
      match refuse t table (entry a) with
      | some e => (.error (Stored.writeError what (.database e)), t)
      | none => (.ok (), t.put table ((as ++ [a]).map entry)) := by
  show (Program.bind (Stored.ofQuery _ _).run _).run (answer refuse now) t = _
  rw [Program.run_bind, run_ofQuery, run_execute h, perform_insert htable a hrows hentry]
  cases refuse t table (entry a) <;> rfl

/-- A statement that changes rows is answered by whether there was one. -/
theorem run_changeRow {rows : List Row} (h : s.Plain)
    (hperform : s.perform refuse now params t = (.ok ⟨rows, (as.filter P).length⟩, t')) :
    (changeRow s params).run.run (answer refuse now) t =
      (Contents.changed ((as.find? P).map fun _ => ()), t') := by
  show (Program.bind (Stored.ofQuery _ _).run _).run (answer refuse now) t = _
  rw [Program.run_bind, run_ofQuery, run_execute h, hperform, ← List.head?_filter]
  cases as.filter P <;> rfl

variable {decode : Row → Except QueryError β} {affected : Nat}
  {read : Row → Except QueryError (Except StorageError β)} {row : α → Row} {f : α → β}

theorem run_readingAll (h : s.Plain)
    (hperform : s.perform refuse now params t = (.ok ⟨as.map row, affected⟩, t'))
    (hread : ∀ a, decode (row a) = .ok (f a)) :
    (Stored.reading (Query.all decode s params)).run.run (answer refuse now) t =
      (.ok (as.map f), t') := by
  rw [Stored.reading, run_ofQuery, run_all h hperform, mapM_rows hread]
  rfl

theorem run_readingFirst (h : s.Plain)
    (hperform : s.perform refuse now params t = (.ok ⟨(as.filter P).map row, affected⟩, t'))
    (hread : ∀ a, decode (row a) = .ok (f a)) :
    (Stored.reading (Query.first decode s params)).run.run (answer refuse now) t =
      (.ok ((as.find? P).map f), t') := by
  rw [Stored.reading, run_ofQuery, run_first h hperform, head?_mapM_rows hread, List.head?_filter]
  rfl

theorem run_firstRow (h : s.Plain)
    (hperform : s.perform refuse now params t = (.ok ⟨as.map row, affected⟩, t'))
    (hread : ∀ a, read (row a) = .ok (.ok (f a))) :
    (firstRow read s params).run.run (answer refuse now) t = (.ok (as.head?.map f), t') := by
  show (Program.bind (Stored.ofQuery _ _).run _).run (answer refuse now) t = _
  rw [Program.run_bind, run_ofQuery, run_first h hperform, head?_mapM_rows hread]
  cases as <;> rfl

/-- A row is asked for by a condition, and the first that passes is read. -/
theorem run_findRow (h : s.Plain)
    (hperform : s.perform refuse now params t = (.ok ⟨(as.filter P).map row, affected⟩, t'))
    (hread : ∀ a, read (row a) = .ok (.ok (f a))) :
    (firstRow read s params).run.run (answer refuse now) t = (.ok ((as.find? P).map f), t') := by
  rw [run_firstRow h hperform hread, List.head?_filter]

/-- All rows are asked for, and each is read. -/
theorem run_allRows (h : s.Plain)
    (hperform : s.perform refuse now params t = (.ok ⟨as.map row, affected⟩, t'))
    (hread : ∀ a, read (row a) = .ok (.ok (f a))) :
    (Stored.reading (Query.all read s params) >>= fun rows =>
      Stored.ofExcept (rows.mapM id)).run.run (answer refuse now) t = (.ok (as.map f), t') := by
  show (Program.bind (Stored.reading _).run _).run (answer refuse now) t = _
  rw [Program.run_bind, run_readingAll h hperform hread]
  have hok : ∀ a, id (Except.ok (f a) : Except StorageError β) = .ok (f a) := fun _ => rfl
  show (Program.done (List.mapM id _)).run (answer refuse now) t' = _
  rw [mapM_rows hok]
  rfl

/-- The row of which the status was set is given back as it is then. -/
theorem run_setStatus {table id : String} {columns : List String} {status : Status}
    {entry : α → Entry} {change : α → α} (key : α → String) (h : (statusUpdate table columns).Plain)
    (hne : columns ≠ []) (hrows : t.rows table = as.map entry)
    (hkey : ∀ a, (entry a).value "id" = .text (key a))
    (hchange : ∀ a, Entry.assign [("status", .text status.name), ("updated_at", .ofTimestamp now)]
      (entry a) = entry (change a))
    (hrow : ∀ a, Entry.select columns (entry a) = row a)
    (hread : ∀ a, read (row a) = .ok (.ok (f a))) :
    (setStatus read table columns id status).run.run (answer refuse now) t =
      (Contents.changed ((as.find? (key · = id)).map fun a => f (change a)),
        t.put table ((as.map fun a => if key a = id then change a else a).map entry)) := by
  have hpasses : ∀ a, passes [.equals "id" 1] [.text id, .text status.name] (entry a) =
      decide (key a = id) := fun a => passes_equals (hkey a) id _
  have hperform : Statement.perform refuse now [.text id, .text status.name] t
      (statusUpdate table columns) = _ := perform_update columns hrows hpasses hchange
  rw [givenBack_map hne hrow] at hperform
  show (Program.bind (firstRow read (statusUpdate table columns) _).run _).run _ t = _
  rw [Program.run_bind, run_firstRow h hperform hread, ← List.head?_filter]
  cases as.filter (key · = id) <;> rfl

/-- Without an order, entries are found in the order in which they were added. -/
theorem perform_find {entry : α → Entry} {table : String} {columns : List String}
    {filter : List Condition} (hrows : t.rows table = as.map entry) (hne : columns ≠ [])
    (hrow : ∀ a, Entry.select columns (entry a) = row a)
    (hpasses : ∀ a, passes filter params (entry a) = P a) :
    Statement.perform refuse now params t (.select columns table filter [] none) =
      (.ok ⟨(as.filter P).map row, (as.filter P).length⟩, t) := by
  have hunordered : (as.filter P).mergeSort (fun a b =>
      (Entry.compareBy (entry a) (entry b) []).isLE) = as.filter P :=
    List.mergeSort_of_pairwise (List.pairwise_of_forall fun _ _ => rfl)
  rw [perform_select none hrows hne hrow hpasses fun _ _ => rfl, hunordered]
  rfl

end Requests

section Calls

variable {refuse : Constraints} {now : Timestamp} {t : Tables} {k : Contents}

/-- What a call answers and leaves behind is what the contents say. -/
def Agrees (refuse : Constraints) (now : Timestamp) (t : Tables) (k : Contents) (c : StoreCall) :
    Prop :=
  ∃ t', (answerStore c).run (answer refuse now) t =
      ((k.answer now (refusal refuse t c) c).1, t') ∧
    Holds t' (k.answer now (refusal refuse t c) c).2

theorem Holds.put_policies (hk : Holds t k) (ps : List Policy) :
    Holds (t.put Layout.policies (ps.map policyEntry)) { k with policies := ps } :=
  ⟨t.rows_put _ _, (t.rows_put_of_ne _ (by decide)).trans hk.clients,
    (t.rows_put_of_ne _ (by decide)).trans hk.groups⟩

theorem Holds.put_clients (hk : Holds t k) (cs : List Client) :
    Holds (t.put Layout.clients (cs.map clientEntry)) { k with clients := cs } :=
  ⟨(t.rows_put_of_ne _ (by decide)).trans hk.policies, t.rows_put _ _,
    (t.rows_put_of_ne _ (by decide)).trans hk.groups⟩

theorem Holds.put_groups (hk : Holds t k) (gs : List Group) :
    Holds (t.put Layout.groups (gs.map groupEntry)) { k with groups := gs } :=
  ⟨(t.rows_put_of_ne _ (by decide)).trans hk.policies,
    (t.rows_put_of_ne _ (by decide)).trans hk.clients, t.rows_put _ _⟩

theorem agrees_policy (hk : Holds t k) (key : PolicyKey) : Agrees refuse now t k (.policy key) :=
  ⟨t, run_readingFirst (by decide)
    (perform_find hk.policies (by decide) select_policyEntry (passes_hasKey key []))
    readPolicy_policyRow, hk⟩

/-- The policies of a subject are listed in the order of their objects, in which the database sorts
them. -/
theorem agrees_policiesOf (hk : Holds t k) (subject : String) :
    Agrees refuse now t k (.policiesOf subject) := by
  have hpasses : ∀ p, passes [.equals "subject" 1] [.text subject] (policyEntry p) =
      decide (p.subject = subject) := fun p => passes_equals rfl subject []
  have hle : ∀ p p', (Entry.compareBy (policyEntry p) (policyEntry p') ["object"]).isLE =
      (compare p.object p'.object).isLE := fun p p' => isLE_then_eq _
  exact ⟨t, run_readingAll (by decide)
    (perform_select none hk.policies (by decide) select_policyEntry hpasses hle)
    readPolicy_policyRow, hk⟩

/-- A policy is amended where it stands, and its owner and the time of its creation are not among
the columns that are set. -/
theorem agrees_updatePolicy (hk : Holds t k) (p : Policy) :
    Agrees refuse now t k (.updatePolicy p) := by
  have hpasses := passes_hasKey p.key
    [.texts p.actions, .ofTimestamp p.updatedAt, .text p.updatedBy]
  have hchange : ∀ old, Entry.assign [("actions", .texts p.actions),
      ("updated_at", .ofTimestamp p.updatedAt), ("updated_by", .text p.updatedBy)]
      (policyEntry old) = policyEntry (Store.amend old p) := fun _ => rfl
  exact ⟨_, run_changeRow (by decide) (perform_update [] hk.policies hpasses hchange),
    hk.put_policies _⟩

theorem agrees_deletePolicy (hk : Holds t k) (key : PolicyKey) :
    Agrees refuse now t k (.deletePolicy key) :=
  ⟨_, run_changeRow (by decide) (perform_delete hk.policies (passes_hasKey key [])),
    hk.put_policies _⟩

theorem agrees_client (hk : Holds t k) (id : String) : Agrees refuse now t k (.client id) := by
  have hpasses : ∀ c, passes [.equals "id" 1] [.text id] (clientEntry c) = decide (c.id = id) :=
    fun c => passes_equals rfl id []
  exact ⟨t, run_findRow (by decide)
    (perform_find hk.clients (by decide) select_clientEntry hpasses) readClient_clientRow, hk⟩

theorem agrees_clientBySecret (hk : Holds t k) (secret : String) :
    Agrees refuse now t k (.clientBySecret secret) := by
  have hpasses : ∀ c, passes [.equals "secret" 1] [.text secret] (clientEntry c) =
      decide (c.secret = secret) := fun c => passes_equals rfl secret []
  exact ⟨t, run_findRow (by decide)
    (perform_find hk.clients (by decide) select_clientEntry hpasses) readClient_clientRow, hk⟩

theorem agrees_group (hk : Holds t k) (id : String) : Agrees refuse now t k (.group id) := by
  have hpasses : ∀ g, passes [.equals "id" 1] [.text id] (groupEntry g) = decide (g.id = id) :=
    fun g => passes_equals rfl id []
  exact ⟨t, run_findRow (by decide)
    (perform_find hk.groups (by decide) select_groupEntry hpasses) readGroup_groupRow, hk⟩

theorem agrees_groups (hk : Holds t k) : Agrees refuse now t k .groups := by
  have hpasses : ∀ g, passes [] [] (groupEntry g) = true := fun _ => rfl
  have hle : ∀ g g', (Entry.compareBy (groupEntry g) (groupEntry g') ["id"]).isLE =
      (compare g.id g'.id).isLE := fun g g' => isLE_then_eq _
  have hperform : Statement.perform refuse now [] t
      (.select groupColumns groups [] ["id"] none) = _ :=
    perform_select none hk.groups (by decide) select_groupEntry hpasses hle
  rw [List.filter_true] at hperform
  exact ⟨t, run_allRows (by decide) hperform readGroup_groupRow, hk⟩

theorem agrees_setClientStatus (hk : Holds t k) (id : String) (status : Status) :
    Agrees refuse now t k (.setClientStatus id status) :=
  ⟨_, run_setStatus Client.id (by decide) (by decide) hk.clients (fun _ => rfl) (fun _ => rfl)
    select_clientEntry readClient_clientRow, hk.put_clients _⟩

theorem agrees_setGroupStatus (hk : Holds t k) (id : String) (status : Status) :
    Agrees refuse now t k (.setGroupStatus id status) :=
  ⟨_, run_setStatus Group.id (by decide) (by decide) hk.groups (fun _ => rfl) (fun _ => rfl)
    select_groupEntry readGroup_groupRow, hk.put_groups _⟩

/-- What is added is refused by the database or added to the contents, and its answer says which. -/
theorem exists_added {x : Except StorageError Unit × Tables} {t' : Tables} {k' : Contents}
    {what : String} {refused : Option DatabaseError} (hk : Holds t k) (hk' : Holds t' k')
    (hx : x = match refused with
      | some e => (.error (Stored.writeError what (.database e)), t)
      | none => (.ok (), t')) :
    ∃ t'', x = ((k.added k' what refused).1, t'') ∧ Holds t'' (k.added k' what refused).2 := by
  cases refused with
  | some e => exact ⟨t, hx, hk⟩
  | none => exact ⟨t', hx, hk'⟩

/-- The page of a query is counted and filled from the policies that the query admits. -/
theorem run_policyPage {ps : List Policy} (hrows : t.rows policies = ps.map policyEntry)
    (q : PolicyQuery) :
    (policyPage q).run.run (answer refuse now) t = (.ok (pageOf q ps), t) := by
  have hpasses := passes_filterConditions q
  have hcount : Statement.perform refuse now (filterParams q) t (countStatement q) = _ :=
    perform_count hrows hpasses
  have hpage : Statement.perform refuse now (filterParams q) t (pageStatement q) = _ :=
    perform_select _ hrows (by decide) select_policyEntry hpasses isLE_compareBy_key
  show (Program.bind (Stored.ofQuery _ (Query.one _ (countStatement q) _)).run _).run _ t = _
  rw [Program.run_bind, run_ofQuery, run_one_integer (plain_countStatement q) hcount]
  show (Program.bind (Stored.reading (Query.all _ (pageStatement q) _)).run _).run _ t = _
  rw [Program.run_bind, run_readingAll (plain_pageStatement q) hpage readPolicy_policyRow]
  rfl

end Calls

/-- **What a store that a database keeps answers**, and what it leaves behind, is what its contents
say. -/
theorem run_answerStore {refuse : Constraints} {now : Timestamp} {t : Tables} {k : Contents}
    (hk : Holds t k) (c : StoreCall) : Agrees refuse now t k c := by
  cases c with
  | policy key => exact agrees_policy hk key
  | policiesOf subject => exact agrees_policiesOf hk subject
  | policyPage q => exact ⟨t, run_policyPage hk.policies q, hk⟩
  | addPolicy p =>
      exact exists_added hk (hk.put_policies _)
        (run_insertRow p (by decide) (by decide) hk.policies rfl)
  | updatePolicy p => exact agrees_updatePolicy hk p
  | deletePolicy key => exact agrees_deletePolicy hk key
  | addClient c =>
      exact exists_added hk (hk.put_clients _)
        (run_insertRow c (by decide) (by decide) hk.clients rfl)
  | client id => exact agrees_client hk id
  | clientBySecret secret => exact agrees_clientBySecret hk secret
  | setClientStatus id status => exact agrees_setClientStatus hk id status
  | addGroup g =>
      exact exists_added hk (hk.put_groups _)
        (run_insertRow g (by decide) (by decide) hk.groups rfl)
  | group id => exact agrees_group hk id
  | groups => exact agrees_groups hk
  | setGroupStatus id status => exact agrees_setGroupStatus hk id status

end Sql

end Gatehouse
