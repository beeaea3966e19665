import Gatehouse.Proofs.Program
import Gatehouse.Proofs.Sql.Contents
import Gatehouse.Proofs.Sql.Plan

/-!
# Gatehouse.Proofs.Sql.Filter — listings of both stores are filtered alike

A listing asks the database for the number of policies that pass a filter and for a page of them.  A
store in memory has the policies at hand and asks `PolicyQuery.admits` of each.  The two have
nothing in common but the query, so that they select the same policies has to be proved.

The filter is written as a text with placeholders.  Read on its own terms, with the values that are
bound to them, it says of the entry of a policy what `PolicyQuery.admits` says of the policy.  Both
statements carry this text and these values, whatever the database answers to the first, and the
page that they denote is the one that a store in memory shows, up to the resolution of the database.
`stores_filter_alike` says all three.

The order of the page does not depend on the order in which the database keeps its rows: both
statements and the store in memory go by subject and object, and there is only one policy for a
subject and an object.
-/

namespace Gatehouse

/-- A page of policies as it is read back. -/
def PolicyPage.kept (page : PolicyPage) : PolicyPage :=
  { page with policies := page.policies.map Policy.kept }

namespace Sql

open Program Layout
open Gatehouse.Time

/-! ## The statements of a listing -/

/-- The written filter of a query. -/
def whereClause (q : PolicyQuery) : String :=
  String.intercalate " AND " ((filterConditions q).map Condition.render)

/-- The conditions that a written filter states. -/
def readFilter? (text : String) : Option (List Condition) := filter? (wordsOf text)

/-- A written filter is read as the conditions that it was written for. -/
theorem readFilter?_whereClause (q : PolicyQuery) :
    readFilter? (whereClause q) = some (filterConditions q) := by
  have hplain := plain_filterConditions q
  rw [readFilter?, whereClause, wordsOf_conditions hplain, filter?_conditionWords hplain]

theorem render_countStatement (q : PolicyQuery) :
    (countStatement q).render = "SELECT COUNT(*) FROM policies WHERE " ++ whereClause q := by
  have hhead : "SELECT COUNT(*) FROM " ++ policies ++ " WHERE " =
      "SELECT COUNT(*) FROM policies WHERE " := by decide
  show "SELECT COUNT(*) FROM " ++ policies ++ (" WHERE " ++ whereClause q) = _
  rw [← hhead, ← String.append_assoc]

theorem render_pageStatement (q : PolicyQuery) :
    (pageStatement q).render =
      "SELECT owner_id, subject, object, actions, created_at, updated_at, updated_by " ++
        "FROM policies WHERE " ++ whereClause q ++ " ORDER BY subject, object LIMIT " ++
        toString q.effectiveLimit ++ " OFFSET " ++ toString q.offset := by
  have hhead : "SELECT " ++ listed policyColumns ++ " FROM " ++ policies ++ " WHERE " =
      "SELECT owner_id, subject, object, actions, created_at, updated_at, updated_by " ++
        "FROM policies WHERE " := by decide
  have horder : clause " ORDER BY " ["subject", "object"] (listed ["subject", "object"]) ++
      " LIMIT " = " ORDER BY subject, object LIMIT " := by decide
  show "SELECT " ++ listed policyColumns ++ " FROM " ++ policies ++ (" WHERE " ++ whereClause q) ++
    clause " ORDER BY " ["subject", "object"] (listed ["subject", "object"]) ++
    (" LIMIT " ++ toString q.effectiveLimit ++ " OFFSET " ++ toString q.offset) = _
  rw [← hhead, ← horder]
  simp only [String.append_assoc]

section Runs

variable {σ α β : Type}

/-- Whether a call executes a statement as `P` says. -/
def Executes (P : Statement → List Value → Prop) : DatabaseCall → Prop
  | .execute s params => P s params
  | .note _ => True

/-- What is executed of a program is what it may ask for. -/
theorem of_mem_exchanges {P : Statement → List Value → Prop} {p : Program database α}
    (h : p.Asks (Executes P)) (ans : (c : DatabaseCall) → σ → c.Reply × σ) (t : σ) {e : Exchange}
    (he : e ∈ exchanges ans p t) : P e.statement e.params := by
  induction p generalizing t with
  | done a => cases he
  | ask c next ih =>
      cases c with
      | execute s params =>
          rcases List.mem_cons.1 he with rfl | he
          · exact h.1
          · exact ih _ (h.2 _) _ he
      | note remark => exact ih _ (h.2 _) _ he

end Runs

/-- A listing executes two statements at most, both with the parameters of its query. -/
theorem asks_policyPage (q : PolicyQuery) : (policyPage q).run.Asks (Executes fun s params =>
    (s = countStatement q ∨ s = pageStatement q) ∧ params = filterParams q) := by
  have hexecute : ∀ s, s = countStatement q ∨ s = pageStatement q →
      (Query.execute s (filterParams q)).run.Asks (Executes fun s params =>
        (s = countStatement q ∨ s = pageStatement q) ∧ params = filterParams q) :=
    fun s hs => ⟨⟨hs, rfl⟩, fun _ => trivial⟩
  refine asks_bind (asks_bind (asks_bind (asks_bind (hexecute _ (Or.inl rfl)) ?_) ?_) ?_) ?_
  · intro outcome
    cases outcome <;> trivial
  · intro found
    rcases found with e | none | n <;> trivial
  · exact fun _ => trivial
  · intro total
    cases total with
    | error e => trivial
    | ok total =>
        refine asks_bind (asks_bind (asks_bind (hexecute _ (Or.inr rfl)) ?_) ?_) ?_
        · intro outcome
          cases outcome <;> trivial
        · exact fun _ => trivial
        · intro rows
          cases rows <;> trivial

/-! ## The pages of both stores -/

/-- Policies in any order have the page of the store in memory that has them. -/
theorem pageOf_eq {s : Store} (hs : s.Built) {ps : List Policy} (h : ps.Perm s.policies.values)
    (q : PolicyQuery) : pageOf q ps = (s.policyPage q).kept := by
  have hcopy : Copy Policy.key id s.policies ps :=
    ⟨fun _ => rfl, hs.sound.policy_key, h.trans (by rw [List.map_id])⟩
  have hfound : inOrder Policy.key (ps.filter q.admits) = s.policies.values.filter q.admits := by
    have hsorted := hcopy.pairwise_values.sublist (List.filter_sublist (p := q.admits))
    rw [hcopy.inOrder_filter (fun _ => rfl) (fun _ => rfl) hsorted, List.map_id]
  have hcount := (h.filter q.admits).length_eq
  simp only [pageOf, hfound, hcount]
  rfl

/-- **Both stores filter alike.**  The filter that is written for a query, read with the parameters
that are bound to it, holds of the entry of a policy if and only if the query admits the policy.  A
listing executes only a count and a page with that filter and those parameters, and over the
policies of a store in memory, in any order, it answers what that store does. -/
theorem stores_filter_alike (q : PolicyQuery) :
    (∃ filter, readFilter? (whereClause q) = some filter ∧
      ∀ p, passes filter (filterParams q) (policyEntry p) = q.admits p) ∧
    (∀ {σ : Type} (ans : (c : DatabaseCall) → σ → c.Reply × σ) (t : σ),
      ∀ e ∈ exchanges ans (answerStore (.policyPage q)) t, e.params = filterParams q ∧
        (e.text = "SELECT COUNT(*) FROM policies WHERE " ++ whereClause q ∨
          e.text = "SELECT owner_id, subject, object, actions, created_at, updated_at, updated_by " ++
            "FROM policies WHERE " ++ whereClause q ++ " ORDER BY subject, object LIMIT " ++
            toString q.effectiveLimit ++ " OFFSET " ++ toString q.offset)) ∧
    ∀ (refuse : Constraints) (here there : Timestamp) (t : Tables) (s : Store) (ps : List Policy),
      s.Built → ps.Perm s.policies.values → t.rows policies = ps.map policyEntry →
      (answerStore (.policyPage q)).run (answer refuse there) t =
        ((s.answer here (.policyPage q)).1.map PolicyPage.kept, t) := by
  refine ⟨⟨_, readFilter?_whereClause q, passes_filterConditions q⟩, ?_, ?_⟩
  · intro σ ans t e he
    obtain ⟨hstatement, hparams⟩ := of_mem_exchanges (asks_policyPage q) ans t he
    refine ⟨hparams, ?_⟩
    rcases hstatement with hcount | hpage
    · rw [Exchange.text, hcount]
      exact Or.inl (render_countStatement q)
    · rw [Exchange.text, hpage]
      exact Or.inr (render_pageStatement q)
  · intro refuse here there t s ps hs hperm hrows
    have hrun : (answerStore (.policyPage q)).run (answer refuse there) t = _ :=
      run_policyPage hrows q
    rw [hrun, pageOf_eq hs hperm]
    rfl

/-- Two policies that were added in the other order than that of their keys, and a query with the
first and the last of its filters. -/
theorem two_policies_filtered_alike :
    let policy (subject : String) : Policy :=
      ⟨"ann", subject, "room", ["m_read"], ⟨0, 0⟩, ⟨0, 0⟩, ""⟩
    let s := ((Store.empty.answer ⟨0, 0⟩ (.addPolicy (policy "eve"))).2.answer ⟨0, 0⟩
      (.addPolicy (policy "bob"))).2
    let t := Tables.empty.put policies ([policy "eve", policy "bob"].map policyEntry)
    let q : PolicyQuery := { owner := some "ann", action := some "m_read" }
    (answerStore (.policyPage q)).run (answer (fun _ _ _ => none) ⟨1, 0⟩) t =
      ((s.answer ⟨0, 0⟩ (.policyPage q)).1.map PolicyPage.kept, t) := by
  intro policy s t q
  have hbuilt : s.Built := .answer (.answer .empty _ _) _ _
  exact (stores_filter_alike q).2.2 _ _ _ t s [policy "eve", policy "bob"] hbuilt (by decide) rfl

end Sql

end Gatehouse
