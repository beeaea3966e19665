import Std.Data.TreeMap
import Gatehouse.Time.Timestamp
import Gatehouse.Vocabulary

/-!
# Gatehouse.Policy — tuples that grant actions

A policy grants a subject a list of actions on an object.  At most one policy exists for a subject
and an object, so the pair is its key; keys are ordered by subject and then by object.

* `Policy.validate` names the first thing that is wrong with a policy.
* `Policy.normalize` sorts the actions and drops repetitions.
* `PolicyQuery.admits` is the filter of a listing, `PolicyQuery.page` the part of it that is shown.

A list of actions stands for a set.  Callers may write it in any order and name an action twice, and
everything that is decided from it, `hasAction` and `covers`, depends on its members only; so it is
brought into one form before it is stored.  `dropRepeats` looks at neighbours only, which is enough
in a list in order (`nodup_dropRepeats`).  That the form is canonical, the same for two lists
exactly if they have the same members, is proved in `Gatehouse.Proofs.Policy`; the lemmas here are
what the store and the engine need of it.

Texts are compared by their characters, which is the order of their bytes in UTF-8.
-/

namespace Gatehouse

open Gatehouse.Time

/-! ## Keys -/

/-- Names the policy of a subject on an object. -/
structure PolicyKey where
  subject : String
  object : String
deriving DecidableEq, Repr

namespace PolicyKey

/-- Keys are ordered by subject and then by object. -/
instance : Ord PolicyKey where
  compare a b := (compare a.subject b.subject).then (compare a.object b.object)

theorem compare_def (a b : PolicyKey) :
    compare a b = (compare a.subject b.subject).then (compare a.object b.object) := rfl

instance : Std.TransOrd PolicyKey := by
  have h : Std.TransCmp (compareLex (compareOn PolicyKey.subject) (compareOn PolicyKey.object)) :=
    inferInstance
  exact h

instance : Std.LawfulEqOrd PolicyKey where
  eq_of_compare {a b} h := by
    rw [compare_def, Ordering.then_eq_eq] at h
    cases a; cases b
    simpa using h

/-- The written form of a key. -/
def render (k : PolicyKey) : String := k.subject ++ "@" ++ k.object

end PolicyKey

/-! ## Lists in the order of a word -/

section Order

variable {α : Type}

/-- A list that has been sorted by a word stands in the order of that word. -/
theorem sorted_mergeSort (word : α → String) (as : List α) :
    (as.mergeSort fun a b => decide (word a ≤ word b)).Pairwise fun a b => word a ≤ word b := by
  have hsorted : (as.mergeSort fun a b => decide (word a ≤ word b)).Pairwise
      fun a b => decide (word a ≤ word b) = true := by
    refine List.pairwise_mergeSort ?_ ?_ as
    · intro a b c hab hbc
      exact decide_eq_true (String.le_trans (of_decide_eq_true hab) (of_decide_eq_true hbc))
    · intro a b
      simpa using String.le_total (word a) (word b)
  exact hsorted.imp of_decide_eq_true

/-- What is in order and has no word twice is in increasing order. -/
theorem increasing_of_sorted {word : α → String} {as : List α}
    (hsorted : as.Pairwise fun a b => word a ≤ word b)
    (hdistinct : as.Pairwise fun a b => word a ≠ word b) :
    as.Pairwise fun a b => word a < word b := by
  refine (hsorted.and hdistinct).imp ?_
  rintro a b ⟨hle, hne⟩
  exact Decidable.byContradiction fun hlt => hne (String.le_antisymm hle (String.not_lt.1 hlt))

end Order

/-! ## Policies -/

/-- What is wrong with a policy, or with a word that should name an entity type. -/
inductive PolicyError where
  | emptySubject
  | emptyObject
  | emptyActions
  | invalidAction (action : String)
  | invalidEntityType (name : String)
deriving DecidableEq, Repr

/-- The text of a policy error. -/
def PolicyError.message : PolicyError → String
  | emptySubject => "policy subject must not be empty"
  | emptyObject => "policy object must not be empty"
  | emptyActions => "policy must carry at least one action"
  | invalidAction a => s!"invalid action: {a}"
  | invalidEntityType t => s!"invalid entity type: {t}"

/-- Grants `subject` some actions on `object`. -/
structure Policy where
  owner : String
  subject : String
  object : String
  actions : List String
  createdAt : Timestamp
  updatedAt : Timestamp
  updatedBy : String
deriving DecidableEq, Repr

namespace Policy

/-- The key of a policy. -/
def key (p : Policy) : PolicyKey := ⟨p.subject, p.object⟩

/-- The first thing that is wrong with a policy. -/
def validate (p : Policy) : Except PolicyError Unit :=
  if p.subject = "" then throw .emptySubject
  else if p.object = "" then throw .emptyObject
  else if p.actions = [] then throw .emptyActions
  else match p.actions.find? fun a => !isAction a with
    | some a => throw (.invalidAction a)
    | none => return ()

/-- Whether a policy grants an action. -/
def hasAction (p : Policy) (a : String) : Bool := p.actions.contains a

/-- Whether a policy grants every action of a list. -/
def covers (p : Policy) (requested : List String) : Bool := requested.all p.hasAction

/-- Keeps one of equal neighbours. -/
def dropRepeats : List String → List String
  | a :: b :: rest => if a = b then dropRepeats (b :: rest) else a :: dropRepeats (b :: rest)
  | rest => rest

/-- A list of actions in increasing order, each once. -/
def normalizeActions (actions : List String) : List String :=
  dropRepeats (actions.mergeSort fun a b => decide (a ≤ b))

/-- The policy with its actions in increasing order, each once. -/
def normalize (p : Policy) : Policy := { p with actions := normalizeActions p.actions }

/-! ## What the actions of a policy are -/

/-- A policy with nothing wrong names its subject and its object, and has actions, and only such
that exist. -/
theorem validate_eq_ok_iff {p : Policy} : p.validate = .ok () ↔
    p.subject ≠ "" ∧ p.object ≠ "" ∧ p.actions ≠ [] ∧ ∀ a ∈ p.actions, isAction a = true := by
  unfold validate
  split
  · next h => exact iff_of_false nofun fun hp => hp.1 h
  · next hsubject =>
    split
    · next h => exact iff_of_false nofun fun hp => hp.2.1 h
    · next hobject =>
      split
      · next h => exact iff_of_false nofun fun hp => hp.2.2.1 h
      · next hactions =>
        split
        · next a hfound =>
          have ha : isAction a = false := by simpa using List.find?_some hfound
          refine iff_of_false nofun fun hp => ?_
          rw [hp.2.2.2 a (List.mem_of_find?_eq_some hfound)] at ha
          cases ha
        · next hnone => exact iff_of_true rfl ⟨hsubject, hobject, hactions, by simpa using hnone⟩

theorem actions_of_validate {p : Policy} (h : p.validate = .ok ()) :
    p.actions ≠ [] ∧ ∀ a ∈ p.actions, isAction a = true :=
  (validate_eq_ok_iff.1 h).2.2

theorem dropRepeats_sublist (actions : List String) : (dropRepeats actions).Sublist actions := by
  fun_induction dropRepeats actions with
  | case1 b rest ih => exact ih.trans (List.sublist_cons_self _ _)
  | case2 b c rest hne ih => exact ih.cons_cons b
  | case3 rest => exact List.Sublist.refl _

theorem mem_of_mem_dropRepeats {actions : List String} {a : String}
    (h : a ∈ dropRepeats actions) : a ∈ actions :=
  (dropRepeats_sublist actions).subset h

theorem dropRepeats_ne_nil {actions : List String} (h : actions ≠ []) :
    dropRepeats actions ≠ [] := by
  fun_induction dropRepeats actions with
  | case1 b rest ih => exact ih (List.cons_ne_nil _ _)
  | case2 => exact List.cons_ne_nil _ _
  | case3 => exact h

theorem mem_of_mem_normalizeActions {actions : List String} {a : String}
    (h : a ∈ normalizeActions actions) : a ∈ actions :=
  List.mem_mergeSort.1 (mem_of_mem_dropRepeats h)

theorem normalizeActions_ne_nil {actions : List String} (h : actions ≠ []) :
    normalizeActions actions ≠ [] := by
  refine dropRepeats_ne_nil fun hnil => h ?_
  rw [← List.length_eq_zero_iff, ← List.length_mergeSort, hnil]
  rfl

/-- In a list in order, equal actions are neighbours. -/
theorem nodup_dropRepeats {actions : List String} (h : actions.Pairwise (· ≤ ·)) :
    (dropRepeats actions).Nodup := by
  fun_induction dropRepeats actions with
  | case1 b rest ih => exact ih (List.pairwise_cons.1 h).2
  | case2 a b rest hne ih =>
      -- if `a` came again further on, `b` would stand between two equal words
      obtain ⟨ha, hrest⟩ := List.pairwise_cons.1 h
      refine List.nodup_cons.2 ⟨fun hmem => ?_, ih hrest⟩
      rcases List.mem_cons.1 (mem_of_mem_dropRepeats hmem) with hab | hmem
      · exact hne hab
      · have hba : b ≤ a := (List.pairwise_cons.1 hrest).1 a hmem
        exact hne (String.le_antisymm (ha b List.mem_cons_self) hba)
  | case3 rest hshort =>
      match rest with
      | [] => exact List.nodup_nil
      | [a] => exact List.nodup_cons.2 ⟨List.not_mem_nil, List.nodup_nil⟩
      | a :: b :: rest => exact absurd rfl (hshort a b rest)

theorem nodup_normalizeActions (actions : List String) : (normalizeActions actions).Nodup :=
  nodup_dropRepeats (sorted_mergeSort (fun a => a) actions)

theorem mem_dropRepeats {actions : List String} {a : String} :
    a ∈ dropRepeats actions ↔ a ∈ actions := by
  refine ⟨mem_of_mem_dropRepeats, fun h => ?_⟩
  fun_induction dropRepeats actions with
  | case1 b rest ih =>
      rcases List.mem_cons.1 h with rfl | h
      · exact ih List.mem_cons_self
      · exact ih h
  | case2 b c rest hne ih =>
      rcases List.mem_cons.1 h with rfl | h
      · exact List.mem_cons_self
      · exact List.mem_cons_of_mem _ (ih h)
  | case3 rest => exact h

theorem mem_normalizeActions {actions : List String} {a : String} :
    a ∈ normalizeActions actions ↔ a ∈ actions :=
  mem_dropRepeats.trans List.mem_mergeSort

/-- Actions come in increasing order, each once. -/
theorem increasing_normalizeActions (actions : List String) :
    (normalizeActions actions).Pairwise (· < ·) :=
  increasing_of_sorted ((sorted_mergeSort (fun a => a) actions).sublist (dropRepeats_sublist _))
    (nodup_normalizeActions actions)

end Policy

/-! ## Listings -/

/-- Asks for a page of the policies that match every filter given. -/
structure PolicyQuery where
  offset : Nat := 0
  limit : Nat := 0
  owner : Option String := none
  subject : Option String := none
  object : Option String := none
  action : Option String := none
deriving DecidableEq, Repr

/-- One page of a listing, and the number of policies in all of it. -/
structure PolicyPage where
  total : Nat
  offset : Nat
  limit : Nat
  policies : List Policy
deriving DecidableEq, Repr

namespace PolicyQuery

/-- A query may only ask for an action that exists. -/
def validate (q : PolicyQuery) : Except PolicyError Unit :=
  match q.action with
  | some a => if isAction a then return () else throw (.invalidAction a)
  | none => return ()

/-- The size of the page that is shown. -/
def effectiveLimit (q : PolicyQuery) : Nat := Gatehouse.effectiveLimit q.limit

/-- Whether a policy passes every filter of a query. -/
def admits (q : PolicyQuery) (p : Policy) : Bool :=
  q.owner.all (· = p.owner) && q.subject.all (· = p.subject) && q.object.all (· = p.object) &&
    q.action.all p.hasAction

/-- The page of a query over policies in their order. -/
def page (q : PolicyQuery) (policies : List Policy) : PolicyPage :=
  let found := policies.filter q.admits
  { total := found.length
    offset := q.offset
    limit := q.effectiveLimit
    policies := (found.drop q.offset).take q.effectiveLimit }

end PolicyQuery

end Gatehouse
