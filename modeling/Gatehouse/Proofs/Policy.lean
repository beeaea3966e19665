import Gatehouse.Policy
import Gatehouse.Proofs.Text.Utf8

/-!
# Gatehouse.Proofs.Policy — the actions of a policy as a set

The order and the repetitions of the actions of a policy say nothing.  `normalize_canonical` is the
main result: `Policy.normalize` picks one list for each set of actions, and nothing that is asked of
the actions is answered otherwise after it.

The list it picks is the one in strictly increasing order.  Strings are compared by their characters
here; a program that compares the bytes in which they are encoded comes to the same order, since the
encoding keeps it (`Text.Utf8.encode_lt_encode_iff`), and the result is stated of bytes.

Both directions are needed.  That the normal form depends on the set alone makes stored policies
comparable: two that grant the same are stored with the same actions.  That different sets have
different normal forms says that nothing was lost.
-/

namespace Gatehouse

open Gatehouse.Text

/-- Lists in increasing order that have the same members are equal. -/
theorem eq_of_increasing {as bs : List String} (ha : as.Pairwise (· < ·))
    (hb : bs.Pairwise (· < ·)) (h : ∀ a, a ∈ as ↔ a ∈ bs) : as = bs := by
  have hnodup : ∀ {cs : List String}, cs.Pairwise (· < ·) → cs.Nodup := by
    intro cs hcs
    refine hcs.imp ?_
    rintro a b hlt rfl
    exact String.lt_irrefl a hlt
  have hperm : as.Perm bs := (List.perm_ext_iff_of_nodup (hnodup ha) (hnodup hb)).2 h
  refine hperm.eq_of_pairwise ?_ ha hb
  intro a b _ _ hab hba
  exact absurd hba (String.lt_asymm hab)

namespace Policy

/-- Two lists of actions have one normal form exactly if they have the same actions. -/
theorem normalizeActions_eq_iff {as bs : List String} :
    normalizeActions as = normalizeActions bs ↔ ∀ a, a ∈ as ↔ a ∈ bs := by
  constructor
  · intro h a
    rw [← mem_normalizeActions, h, mem_normalizeActions]
  · intro h
    refine eq_of_increasing (increasing_normalizeActions as) (increasing_normalizeActions bs) ?_
    intro a
    rw [mem_normalizeActions, mem_normalizeActions]
    exact h a

/-- To normalize twice is to normalize once. -/
theorem normalizeActions_normalizeActions (actions : List String) :
    normalizeActions (normalizeActions actions) = normalizeActions actions :=
  normalizeActions_eq_iff.2 fun _ => mem_normalizeActions

/-- Nothing is left only of nothing. -/
theorem normalizeActions_eq_nil_iff {actions : List String} :
    normalizeActions actions = [] ↔ actions = [] := by
  rw [List.eq_nil_iff_forall_not_mem, List.eq_nil_iff_forall_not_mem]
  exact forall_congr' fun a => not_congr mem_normalizeActions

/-- A policy has the same actions after it. -/
theorem hasAction_normalize (p : Policy) (a : String) :
    p.normalize.hasAction a = p.hasAction a := by
  rw [Bool.eq_iff_iff, hasAction, hasAction, List.contains_iff_mem, List.contains_iff_mem]
  exact mem_normalizeActions

/-- A policy covers the same requests after it. -/
theorem covers_normalize (p : Policy) (requested : List String) :
    p.normalize.covers requested = p.covers requested :=
  congrArg requested.all (funext p.hasAction_normalize)

/-- A policy passes its check after it exactly if it did before: the check asks whether there are
actions, and whether each is known. -/
theorem validate_normalize (p : Policy) :
    p.normalize.validate = .ok () ↔ p.validate = .ok () := by
  have hactions : (∀ a ∈ normalizeActions p.actions, isAction a = true) ↔
      ∀ a ∈ p.actions, isAction a = true :=
    forall_congr' fun a => imp_congr_left mem_normalizeActions
  have hempty : normalizeActions p.actions ≠ [] ↔ p.actions ≠ [] :=
    not_congr normalizeActions_eq_nil_iff
  rw [validate_eq_ok_iff, validate_eq_ok_iff]
  exact and_congr_right' (and_congr_right' (and_congr hempty hactions))

/-- **One list for each set of actions.**  Two policies are normalized to the same actions exactly
if they grant the same ones.  The normal form is strictly increasing in its bytes, grants and covers
what the policy did, is valid if the policy was, and is its own normal form. -/
theorem normalize_canonical (p q : Policy) :
    (p.normalize.actions = q.normalize.actions ↔ ∀ a, a ∈ p.actions ↔ a ∈ q.actions) ∧
    p.normalize.actions.Pairwise (fun a b => Utf8.encode a < Utf8.encode b) ∧
    (∀ a, p.normalize.hasAction a = p.hasAction a) ∧
    (∀ requested, p.normalize.covers requested = p.covers requested) ∧
    (p.normalize.validate = .ok () ↔ p.validate = .ok ()) ∧
    p.normalize.normalize = p.normalize := by
  refine ⟨normalizeActions_eq_iff, ?_, p.hasAction_normalize, p.covers_normalize,
    p.validate_normalize, ?_⟩
  · refine (increasing_normalizeActions p.actions).imp ?_
    intro a b hlt
    exact Utf8.encode_lt_encode_iff.2 hlt
  · have hactions := normalizeActions_normalizeActions p.actions
    exact congrArg (fun actions => { p with actions }) hactions

end Policy

end Gatehouse
