import Gatehouse.Proofs.Hierarchy
import Mathlib.Data.List.Chain
import Mathlib.Data.List.Nodup

/-!
# Gatehouse.Proofs.Hierarchy.Lineage — lines of descent in a list of groups

What a listing of groups should be can be said of the list alone.  A list has a group under an id,
and of several the last (`latest`).  A *line* goes down from parents to children through known
groups and meets none of them twice (`Line`).

A line is determined by where it ends and how long it is, because steps up lead along it
(`Line.climb`).  So lines from one group to another one are the same thing as distances
(`Line.distance`, `line_of_distance`).

Lines are what a reader of a listing sees, and distances are what the walks compute with.  A path in
a listing is a line that is written out, with the names from the top to the bottom; the proofs about
walks never look at paths before the very end, when this module turns one into the other.

Lines are stated over a function that finds a group by its id, so that the theorems about listings
can speak of the list that a hierarchy was made of and need not mention the hierarchy.
-/

namespace Gatehouse.Hierarchy

/-! ## What a list has -/

/-- The group that a list has under an id; of several it is the last. -/
def latest (groups : List Group) (id : String) : Option Group :=
  groups.reverse.find? fun g => g.id = id

/-- A hierarchy finds what its list has. -/
theorem lookup_ofGroups (groups : List Group) : (ofGroups groups).lookup = latest groups := by
  funext id
  induction groups using List.reverseRecOn with
  | nil => rfl
  | append_singleton groups last ih =>
      rw [lookup_ofGroups_append, ih]
      simp only [latest, List.reverse_append, List.reverse_cons, List.reverse_nil,
        List.nil_append, List.cons_append, List.find?_cons]
      by_cases hid : id = last.id
      · simp [hid]
      · simp [hid, Ne.symm hid]

/-- The entry of a group stands under the id of the group. -/
theorem Keyed.id_project {h : Hierarchy} {id : String} {g : Group} (hkeyed : h.Keyed)
    (hg : h.lookup id = some g) (level : Nat) (path : String) : (project g level path).id = id := by
  show g.id = id
  exact hkeyed hg

/-- The ids of a hierarchy increase. -/
theorem pairwise_keys (h : Hierarchy) : h.keys.Pairwise (· < ·) := by
  rw [Table.keys, List.pairwise_map]
  apply h.sorted.imp
  intro a b hab
  exact compareOfLessAndEq_eq_lt.1 hab

/-! ## Lines -/

/-- Whether one group is the parent of another one, by what is found of the latter. -/
def ParentOf (find : String → Option Group) (parent child : String) : Prop :=
  ∃ g, find child = some g ∧ g.parent = some parent

/-- A line of descent: known groups, of which each is the parent of the next and none stands
twice. -/
structure Line (find : String → Option Group) (ids : List String) : Prop where
  known : ∀ id ∈ ids, (find id).isSome = true
  descends : ids.IsChain (ParentOf find)
  distinct : ids.Nodup

variable {h : Hierarchy} {root id : String} {ids : List String} {k : Nat}

/-- A known group by itself is a line. -/
theorem line_singleton (hknown : h.contains id = true) : Line h.lookup [id] where
  known id' hid' := by
    rw [List.mem_singleton.1 hid']
    exact hknown
  descends := List.isChain_singleton id
  distinct := List.nodup_singleton id

/-- Steps up lead along a chain of parents. -/
theorem climb_of_isChain {up : List String} (hknown : ∀ id ∈ up, (h.lookup id).isSome = true)
    (hchain : up.IsChain fun child parent => h.IsParent parent child)
    (hstart : up.head? = some id) {i : Nat} (hi : i < up.length) : h.climb i id = up[i]? := by
  induction up generalizing id i with
  | nil => simp at hi
  | cons first rest ih =>
      obtain rfl : first = id := by simpa using hstart
      cases i with
      | zero =>
          -- no step has been taken yet, so all that counts is that the first group is known
          show h.climb 0 first = some first
          exact climb_zero_eq_some_iff.2 ⟨hknown first List.mem_cons_self, rfl⟩
      | succ i =>
          obtain ⟨hparent, hrest⟩ := List.isChain_cons.1 hchain
          cases rest with
          | nil => simp at hi
          | cons parent above =>
              have hstep : h.IsParent parent first := hparent parent rfl
              rw [climb_succ hstep, List.getElem?_cons_succ]
              apply ih
              · exact fun id' hid' => hknown id' (List.mem_cons_of_mem _ hid')
              · exact hrest
              · rfl
              · simpa using hi

/-- Steps up from the end of a way down lead back along it. -/
theorem climb_of_descends (hknown : ∀ id ∈ ids, (h.lookup id).isSome = true)
    (hdescends : ids.IsChain (ParentOf h.lookup)) (hend : ids.getLast? = some id) {i : Nat}
    (hi : i < ids.length) : h.climb i id = ids.reverse[i]? := by
  apply climb_of_isChain
  · simpa using hknown
  · exact List.isChain_reverse.2 hdescends
  · rwa [List.head?_reverse]
  · simpa using hi

/-- Steps up from the end of a line lead back along it. -/
theorem Line.climb (hline : Line h.lookup ids) (hend : ids.getLast? = some id) {i : Nat}
    (hi : i < ids.length) : h.climb i id = ids.reverse[i]? :=
  climb_of_descends hline.known hline.descends hend hi

/-- Lines of one length to one group are the same. -/
theorem Line.unique {ids' : List String} (hline : Line h.lookup ids) (hline' : Line h.lookup ids')
    (hend : ids.getLast? = some id) (hend' : ids'.getLast? = some id)
    (hlength : ids.length = ids'.length) : ids = ids' := by
  apply List.reverse_injective
  apply List.ext_getElem?
  intro i
  by_cases hi : i < ids.length
  · rw [← hline.climb hend hi, ← hline'.climb hend' (hlength ▸ hi)]
  · rw [List.getElem?_eq_none (by simpa using hi),
      List.getElem?_eq_none (by simpa [← hlength] using hi)]

/-- A line leads to a group at the distance that it is long. -/
theorem Line.distance (hline : Line h.lookup ids) (hstart : ids.head? = some root)
    (hend : ids.getLast? = some id) (hlength : ids.length = k + 1) : h.Distance id root k := by
  rw [distance_iff_injective]
  constructor
  · rw [hline.climb hend (by omega), ← hstart, ← List.getLast?_reverse, List.getLast?_eq_getElem?,
      List.length_reverse, hlength, Nat.add_sub_cancel]
  · intro i j hij hj
    rw [hline.climb hend (by omega), hline.climb hend (by omega)]
    have hdistinct : ids.reverse.Nodup := List.nodup_reverse.2 hline.distinct
    exact List.nodup_iff_getElem?_ne_getElem?.1 hdistinct i j hij (by simp; omega)

/-- A chain of parents that is as long as a distance has no group twice. -/
theorem line_of_distance (hknown : ∀ id ∈ ids, (h.lookup id).isSome = true)
    (hdescends : ids.IsChain (ParentOf h.lookup)) (hend : ids.getLast? = some id)
    (hlength : ids.length = k + 1) (hdistance : h.Distance id root k) : Line h.lookup ids := by
  refine ⟨hknown, hdescends, ?_⟩
  rw [← List.nodup_reverse, List.nodup_iff_getElem?_ne_getElem?]
  intro i j hij hj
  rw [List.length_reverse] at hj
  have hclimb : ∀ {i}, i < ids.length → h.climb i id = ids.reverse[i]? :=
    climb_of_descends hknown hdescends hend
  rw [← hclimb (by omega), ← hclimb hj]
  exact (distance_iff_injective.1 hdistance).2 i j hij (by omega)

end Gatehouse.Hierarchy
