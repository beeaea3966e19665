import Gatehouse.Proofs.Sql.Word
import Gatehouse.Sql.Store

/-!
# Gatehouse.Proofs.Sql.Request — the filters and the updates of a store

A store makes its statements from what it is asked for.  Most of them are fixed; those about a
listing of policies are not.  A query for policies has up to four filters, each of which is a
condition on a parameter and the text that is bound to it.  `filtersOf` lists those that a query
has, as pairs; the conditions and the parameters of its statements are the two halves of this list
(`filterConditions_eq`, `filterParams_eq`), so that the n-th condition is about the n-th text is
seen by looking at one list.

The first condition is always true and takes no parameter.  It is what the others are joined to, so
a query without a filter has a condition too.

The statements that are given names here are those that more than one module speaks of.  All of them
are plain, whatever is asked for, since no text of a query is ever written into one.
-/

namespace Gatehouse.Sql

open Layout

/-! ## Statements -/

/-- Sets the status of a row that has an id. -/
def statusUpdate (table : String) (columns : List String) : Statement :=
  .update table [("status", .param 2), ("updated_at", .now)] [.equals "id" 1] columns

/-- Counts the policies that a query is about. -/
def countStatement (q : PolicyQuery) : Statement := .count policies (filterConditions q)

/-- Asks for those policies of a query that are on its page. -/
def pageStatement (q : PolicyQuery) : Statement :=
  .select policyColumns policies (filterConditions q) ["subject", "object"]
    (some ⟨q.effectiveLimit, q.offset⟩)

/-! ## Filters -/

/-- Some conditions, each on the next parameter, after as many as a number says. -/
def numberedFrom (k : Nat) (given : List (Nat → Condition)) : List Condition :=
  (given.zipIdx k).map fun f => f.1 (f.2 + 1)

theorem numberedFrom_cons (k : Nat) (condition : Nat → Condition)
    (given : List (Nat → Condition)) :
    numberedFrom k (condition :: given) = condition (k + 1) :: numberedFrom (k + 1) given := rfl

/-- Some conditions, each on the next parameter. -/
def numbered (given : List (Nat → Condition)) : List Condition :=
  .always :: numberedFrom 0 given

/-- The filters that a query has, each as a condition and what is bound to its parameter. -/
def filtersOf (q : PolicyQuery) : List ((Nat → Condition) × String) :=
  (q.owner.toList.map (.equals "owner_id", ·)) ++ (q.subject.toList.map (.equals "subject", ·)) ++
    (q.object.toList.map (.equals "object", ·)) ++ (q.action.toList.map (.contains "actions", ·))

/-- The conditions of a query are those of its filters, numbered from one on. -/
theorem filterConditions_eq (q : PolicyQuery) :
    filterConditions q = numbered ((filtersOf q).map Prod.fst) := by
  simp only [filterConditions, filtersOf, List.map_append, List.map_map]
  rfl

/-- The parameters of a query are the texts of its filters, in the same order. -/
theorem filterParams_eq (q : PolicyQuery) :
    filterParams q = (filtersOf q).map fun f => .text f.2 := by
  have hsnd : ∀ {c : Nat → Condition} (o : Option String),
      (o.toList.map (c, ·)).map (fun f => Value.text f.2) = o.toList.map .text := by
    intro c o
    rw [List.map_map]
    rfl
  simp only [filterParams, filtersOf, List.map_append, hsnd]

/-- A filter compares a column with its parameter, or looks for its parameter in one. -/
theorem of_mem_filtersOf {q : PolicyQuery} {f : (Nat → Condition) × String} (h : f ∈ filtersOf q) :
    ∃ column, Plain column ∧ (f.1 = .equals column ∨ f.1 = .contains column) := by
  simp only [filtersOf, List.mem_append, List.mem_map] at h
  rcases h with ((⟨s, -, rfl⟩ | ⟨s, -, rfl⟩) | ⟨s, -, rfl⟩) | ⟨s, -, rfl⟩
  · exact ⟨"owner_id", by decide, Or.inl rfl⟩
  · exact ⟨"subject", by decide, Or.inl rfl⟩
  · exact ⟨"object", by decide, Or.inl rfl⟩
  · exact ⟨"actions", by decide, Or.inr rfl⟩

/-- A numbered condition is the first, or one that was given, on some parameter. -/
theorem mem_numbered {given : List (Nat → Condition)} {c : Condition} (h : c ∈ numbered given) :
    c = .always ∨ ∃ condition ∈ given, ∃ n, c = condition n := by
  rcases List.mem_cons.1 h with rfl | h
  · exact Or.inl rfl
  · obtain ⟨⟨condition, i⟩, hmem, rfl⟩ := List.mem_map.1 h
    exact Or.inr ⟨condition, (List.mem_zipIdx' hmem).2 ▸ List.getElem_mem _, i + 1, rfl⟩

/-- The columns that a query filters by have plain names. -/
theorem plain_filterConditions (q : PolicyQuery) : ∀ c ∈ filterConditions q, c.Plain := by
  intro c hc
  rw [filterConditions_eq] at hc
  rcases mem_numbered hc with rfl | ⟨condition, hcondition, n, rfl⟩
  · trivial
  · obtain ⟨f, hf, rfl⟩ := List.mem_map.1 hcondition
    obtain ⟨column, hcolumn, hequals | hcontains⟩ := of_mem_filtersOf hf
    · exact hequals ▸ hcolumn
    · exact hcontains ▸ hcolumn

/-- The number of a listing is asked for by a plain statement. -/
theorem plain_countStatement (q : PolicyQuery) : (countStatement q).Plain :=
  ⟨by decide, plain_filterConditions q⟩

/-- The page of a listing is asked for by a plain statement. -/
theorem plain_pageStatement (q : PolicyQuery) : (pageStatement q).Plain :=
  ⟨by decide, by decide, by decide, plain_filterConditions q, by decide⟩

end Gatehouse.Sql
