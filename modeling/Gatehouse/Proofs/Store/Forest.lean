import Gatehouse.Hierarchy
import Gatehouse.Proofs.Store.Sound
import Mathlib.Data.List.Chain
import Mathlib.Data.List.Nodup
import Mathlib.Data.List.Perm.Subperm
import Mathlib.Logic.Relation

/-!
# Gatehouse.Proofs.Store.Forest — groups nest without cycles

A group may lie inside another one, which may lie inside a third.  Nothing in the shape of a group
keeps it from lying inside itself, and a listing that follows the parents of each group has a guard
against that.  This module shows that the guard is never needed: a store adds a group only under an
id that is free and only inside a parent that is there, and no call moves a group afterwards.

So from every group an `Ascent` leads through its parents to a group that has none.  This is all
that is kept: that there are no cycles follows from it, because the ascent from a parent is shorter
than those from its children.

* `forest_answer` : every call to a store keeps its groups a forest.  By `groups_cases` only two
  kinds of call matter, one that adds a group and one that changes its status.
* `Forest.pathOf_eq` : the path that a hierarchy gives for a group is its ascent, read downwards.
  The fuel and the set of groups that were met, with which the path is computed, cut nothing off.
* `groups_form_forest` : both, of every store that calls lead to.
-/

namespace Gatehouse

open Gatehouse.Time

/-! ## The way up from a group -/

namespace Hierarchy

variable {h h' : Hierarchy} {id : String} {ids : List String} {g : Group}

/-- Whether one group is the parent of another one. -/
def IsParent (h : Hierarchy) (parent child : String) : Prop :=
  ∃ g, h.lookup child = some g ∧ g.parent = some parent

/-- The ids that are met on the way from a group up to one that has no parent. -/
inductive Ascent (h : Hierarchy) : String → List String → Prop where
  | top {id : String} {g : Group} (stored : h.lookup id = some g) (alone : g.parent = none) :
    Ascent h id [id]
  | up {id parent : String} {g : Group} {ids : List String} (stored : h.lookup id = some g)
    (inside : g.parent = some parent) (above : Ascent h parent ids) : Ascent h id (id :: ids)

namespace Ascent

/-- There is only one way up. -/
theorem unique (ha : h.Ascent id ids) : ∀ {ids'}, h.Ascent id ids' → ids' = ids := by
  induction ha with
  | top stored alone =>
      intro ids' hb
      cases hb with
      | top => rfl
      | up stored' inside' above' =>
          cases stored.symm.trans stored'
          rw [alone] at inside'
          cases inside'
  | up stored inside above ih =>
      intro ids' hb
      cases hb with
      | top stored' alone' =>
          cases stored.symm.trans stored'
          rw [inside] at alone'
          cases alone'
      | up stored' inside' above' =>
          cases stored.symm.trans stored'
          cases inside.symm.trans inside'
          rw [ih above']

/-- The way up from a group begins with it. -/
theorem head? (ha : h.Ascent id ids) : ids.head? = some id := by
  cases ha <;> rfl

/-- From every group on an ascent the rest of it leads on. -/
theorem rest (ha : h.Ascent id ids) :
    ∀ {id'}, id' ∈ ids → ∃ ids', h.Ascent id' ids' ∧ ids'.length ≤ ids.length := by
  induction ha with
  | top stored alone =>
      intro id' hmem
      obtain rfl := List.mem_singleton.1 hmem
      exact ⟨_, .top stored alone, le_rfl⟩
  | up stored inside above ih =>
      intro id' hmem
      rcases List.mem_cons.1 hmem with rfl | hmem
      · exact ⟨_, .up stored inside above, le_rfl⟩
      · obtain ⟨ids', hids', hle⟩ := ih hmem
        exact ⟨ids', hids', hle.trans (Nat.le_succ _)⟩

/-- Every group on the way up is there. -/
theorem stored (ha : h.Ascent id ids) : ∀ id' ∈ ids, ∃ g, h.lookup id' = some g := by
  intro id' hmem
  obtain ⟨ids', hids', -⟩ := ha.rest hmem
  cases hids' with
  | top stored _ => exact ⟨_, stored⟩
  | up stored _ _ => exact ⟨_, stored⟩

/-- An ascent meets no group twice: from the second meeting it would be as long as from the
first. -/
theorem nodup (ha : h.Ascent id ids) : ids.Nodup := by
  induction ha with
  | top => exact List.nodup_singleton _
  | @up id parent g ids stored inside above ih =>
      refine List.nodup_cons.2 ⟨?_, ih⟩
      intro hmem
      obtain ⟨ids', hids', hle⟩ := above.rest hmem
      have hsame : ids' = id :: ids := (Ascent.up stored inside above).unique hids'
      rw [hsame, List.length_cons] at hle
      omega

/-- On the way up, each group lies inside the next. -/
theorem isChain (ha : h.Ascent id ids) :
    ids.IsChain fun child parent => h.IsParent parent child := by
  induction ha with
  | top => exact .singleton _
  | up stored inside above ih =>
      refine List.isChain_cons.2 ⟨?_, ih⟩
      intro above' habove'
      rw [above.head?] at habove'
      cases habove'
      exact ⟨_, stored, inside⟩

/-- The way up ends at a group that lies inside none. -/
theorem last_alone (ha : h.Ascent id ids) :
    ∃ top g, ids.getLast? = some top ∧ h.lookup top = some g ∧ g.parent = none := by
  induction ha with
  | top stored alone => exact ⟨_, _, rfl, stored, alone⟩
  | up stored inside above ih =>
      obtain ⟨top, g, hlast, hg, hnone⟩ := ih
      refine ⟨top, g, ?_, hg, hnone⟩
      rw [List.getLast?_cons, hlast]
      rfl

/-- An ascent remains while the groups on it keep their parents. -/
theorem mono (hkeep : ∀ {id g}, h.lookup id = some g →
      ∃ g', h'.lookup id = some g' ∧ g'.parent = g.parent)
    (ha : h.Ascent id ids) : h'.Ascent id ids := by
  induction ha with
  | top stored alone =>
      obtain ⟨g', hg', hparent⟩ := hkeep stored
      exact .top hg' (hparent.trans alone)
  | up stored inside above ih =>
      obtain ⟨g', hg', hparent⟩ := hkeep stored
      exact .up hg' (hparent.trans inside) ih

/-- The way up from a group goes on from its parent. -/
theorem of_isParent {parent child : String} (hparent : h.IsParent parent child)
    (ha : h.Ascent child ids) : ∃ ids', h.Ascent parent ids' ∧ ids = child :: ids' := by
  obtain ⟨g, hg, hinside⟩ := hparent
  cases ha with
  | top stored alone =>
      cases hg.symm.trans stored
      rw [hinside] at alone
      cases alone
  | up stored inside above =>
      cases hg.symm.trans stored
      cases hinside.symm.trans inside
      exact ⟨_, above, rfl⟩

end Ascent

/-- What is above a group has a shorter ascent. -/
theorem ascent_of_transGen {a b : String} (hab : Relation.TransGen h.IsParent a b) :
    ∀ {ids}, h.Ascent b ids → ∃ ids', h.Ascent a ids' ∧ ids'.length < ids.length := by
  induction hab with
  | single hparent =>
      intro ids hids
      obtain ⟨ids', hids', rfl⟩ := hids.of_isParent hparent
      exact ⟨ids', hids', Nat.lt_succ_self _⟩
  | tail _ hparent ih =>
      intro ids hids
      obtain ⟨ids', hids', rfl⟩ := hids.of_isParent hparent
      obtain ⟨ids'', hids'', hlt⟩ := ih hids'
      exact ⟨ids'', hids'', hlt.trans (Nat.lt_succ_self _)⟩

/-! ## Groups under their ids -/

/-- Stored ids, none of them twice, are no more than there are groups. -/
theorem length_le_size (hnodup : ids.Nodup) (hstored : ∀ id ∈ ids, ∃ g, h.lookup id = some g) :
    ids.length ≤ h.size := by
  have hsub : ids ⊆ h.keys := fun id hid => Table.mem_keys.2 (hstored id hid)
  have hlength := (List.subperm_of_subset hnodup hsub).length_le
  rwa [Table.keys, List.length_map] at hlength

/-- The values of a table of groups have its keys for their ids. -/
theorem map_id_values (hid : ∀ {id g}, h.lookup id = some g → g.id = id) :
    h.values.map (·.id) = h.keys := by
  unfold Table.values Table.keys
  rw [List.map_map]
  refine List.map_congr_left ?_
  rintro ⟨id, g⟩ hmem
  exact hid ((Table.lookup_eq_some_iff _ _ _).2 hmem)

/-- A listing names the groups in the order of their ids. -/
theorem map_id_all (hid : ∀ {id g}, h.lookup id = some g → g.id = id) :
    h.all.map (·.id) = h.keys := by
  unfold all
  rw [← map_id_values hid, Table.values, List.map_map, List.map_map]
  rfl

/-! ## Forests -/

/-- Groups stand under their ids, and from each of them an ascent leads to a group without a
parent. -/
structure Forest (h : Hierarchy) : Prop where
  group_id : ∀ {id g}, h.lookup id = some g → g.id = id
  ascent : ∀ {id g}, h.lookup id = some g → ∃ ids, h.Ascent id ids

/-- No groups are a forest. -/
theorem forest_empty : Forest ∅ where
  group_id hg := by cases hg
  ascent hg := by cases hg

namespace Forest

/-- A parent is there, because the way up goes on through it. -/
theorem parent_stored (hf : h.Forest) {parent : String} (hg : h.lookup id = some g)
    (hparent : g.parent = some parent) : ∃ g', h.lookup parent = some g' := by
  obtain ⟨ids, hids⟩ := hf.ascent hg
  obtain ⟨ids', habove, -⟩ := hids.of_isParent ⟨g, hg, hparent⟩
  exact habove.stored _ (List.mem_of_mem_head? habove.head?)

/-- No group is above itself, because the way up from it would be shorter than itself. -/
theorem acyclic (hf : h.Forest) (id : String) : ¬Relation.TransGen h.IsParent id id := by
  intro hcycle
  obtain ⟨_, -, g, hg, -⟩ := Relation.TransGen.tail'_iff.1 hcycle
  obtain ⟨ids, hids⟩ := hf.ascent hg
  obtain ⟨ids', hids', hlt⟩ := ascent_of_transGen hcycle hids
  rw [hids.unique hids'] at hlt
  exact Nat.lt_irrefl _ hlt

/-- A new group inside one that is there, or inside none, extends a forest. -/
theorem insert_new (hf : h.Forest) (hfree : h.lookup g.id = none)
    (hparent : ∀ parent, g.parent = some parent → ∃ g', h.lookup parent = some g') :
    Hierarchy.Forest (h.insert g.id g) := by
  have hkeep : ∀ {id g'}, h.lookup id = some g' →
      ∃ g'', (h.insert g.id g).lookup id = some g'' ∧ g''.parent = g'.parent := by
    intro id g' hg'
    exact ⟨g', Table.lookup_insert_of_free hfree hg', rfl⟩
  have hnew : Table.lookup (h.insert g.id g) g.id = some g := by
    rw [Table.lookup_insert, if_pos rfl]
  refine ⟨?_, ?_⟩
  · intro id g' hg'
    rw [Table.lookup_insert] at hg'
    split at hg'
    · next hid => cases hg'; exact hid.symm
    · exact hf.group_id hg'
  · intro id g' hg'
    rw [Table.lookup_insert] at hg'
    -- the way up from the new group goes through its parent, and all others stay
    split at hg'
    · next hid =>
      cases hg'
      subst hid
      cases hp : g.parent with
      | none => exact ⟨_, .top hnew hp⟩
      | some parent =>
          obtain ⟨g'', hg''⟩ := hparent parent hp
          obtain ⟨ids, hids⟩ := hf.ascent hg''
          exact ⟨_, .up hnew hp (hids.mono hkeep)⟩
    · obtain ⟨ids, hids⟩ := hf.ascent hg'
      exact ⟨ids, hids.mono hkeep⟩

/-- To change a group without moving it keeps a forest. -/
theorem insert_same (hf : h.Forest) {old : Group} (hold : h.lookup id = some old)
    (hid : g.id = old.id) (hparent : g.parent = old.parent) :
    Hierarchy.Forest (h.insert id g) := by
  have hbefore : ∀ {id' g'}, (h.insert id g).lookup id' = some g' →
      ∃ g'', h.lookup id' = some g'' ∧ g'.id = g''.id := by
    intro id' g' hg'
    rw [Table.lookup_insert] at hg'
    split at hg'
    · next hid' => cases hg'; exact ⟨old, hid' ▸ hold, hid⟩
    · exact ⟨g', hg', rfl⟩
  have hkeep : ∀ {id' g'}, h.lookup id' = some g' →
      ∃ g'', (h.insert id g).lookup id' = some g'' ∧ g''.parent = g'.parent := by
    intro id' g' hg'
    rcases Table.lookup_insert_of_stored hold hg' with hkept | ⟨rfl, hnew⟩
    · exact ⟨g', hkept, rfl⟩
    · exact ⟨g, hnew, hparent⟩
  refine ⟨?_, ?_⟩
  · intro id' g' hg'
    obtain ⟨g'', hg'', hsame⟩ := hbefore hg'
    exact hsame.trans (hf.group_id hg'')
  · intro id' g' hg'
    obtain ⟨g'', hg'', -⟩ := hbefore hg'
    obtain ⟨ids, hids⟩ := hf.ascent hg''
    exact ⟨ids, hids.mono hkeep⟩

/-! ## Paths -/

/-- With fuel enough, a chain of parents is the ascent, whatever was seen elsewhere. -/
theorem map_id_chainAvoiding (hf : h.Forest) (ha : h.Ascent id ids) :
    ∀ {seen fuel}, ids.length ≤ fuel → (∀ id' ∈ ids, id' ∉ seen) →
      (h.chainAvoiding seen fuel (some id)).map (·.id) = ids := by
  induction ha with
  | @top id g stored alone =>
      intro seen fuel hfuel hseen
      obtain ⟨fuel, rfl⟩ : ∃ n, fuel = n + 1 := ⟨fuel - 1, by simp at hfuel; omega⟩
      have hid : id ∉ seen := hseen id List.mem_cons_self
      have hrest : h.chainAvoiding (id :: seen) fuel none = [] := by cases fuel <;> rfl
      simp [chainAvoiding, stored, hid, alone, hrest, hf.group_id stored]
  | @up id parent g ids stored inside above ih =>
      intro seen fuel hfuel hseen
      obtain ⟨fuel, rfl⟩ : ∃ n, fuel = n + 1 := ⟨fuel - 1, by simp at hfuel; omega⟩
      have hid : id ∉ seen := hseen id List.mem_cons_self
      have hnodup := List.nodup_cons.1 (Ascent.up stored inside above).nodup
      have hrest : (h.chainAvoiding (id :: seen) fuel (some parent)).map (·.id) = ids := by
        refine ih (by simpa using hfuel) ?_
        intro id' hid' hmem
        rcases List.mem_cons.1 hmem with rfl | hmem
        · exact hnodup.1 hid'
        · exact hseen id' (List.mem_cons_of_mem _ hid') hmem
      simp [chainAvoiding, stored, hid, inside, hrest, hf.group_id stored]

/-- **Paths.**  The path of a group is its ascent, read downwards and joined with dots. -/
theorem pathOf_eq (hf : h.Forest) (ha : h.Ascent id ids) : h.pathOf id = joinPath ids.reverse := by
  unfold pathOf chain
  rw [hf.map_id_chainAvoiding ha (length_le_size ha.nodup ha.stored) (by simp)]

/-- A hierarchy of the groups of a forest, in whatever order they come, is the forest. -/
theorem ofGroups_eq (hf : h.Forest) {groups : List Group} (hperm : groups.Perm h.values) :
    ofGroups groups = h := by
  have hkeys : ((groups.map fun g => (g.id, g)).map (·.1)).Nodup := by
    have hnodup := h.keys_nodup
    rw [← map_id_values hf.group_id] at hnodup
    rw [List.map_map]
    exact (hperm.map (·.id)).nodup_iff.2 hnodup
  refine Table.ext_lookup fun id => Option.ext fun g => ?_
  rw [ofGroups, Table.lookup_ofList_eq_some_iff hkeys, List.mem_map]
  constructor
  · rintro ⟨g', hmem, heq⟩
    cases heq
    obtain ⟨id, hid⟩ := Table.mem_values.1 (hperm.mem_iff.1 hmem)
    rwa [hf.group_id hid]
  · intro hg
    refine ⟨g, hperm.mem_iff.2 (Table.mem_values.2 ⟨id, hg⟩), ?_⟩
    rw [hf.group_id hg]

end Forest

/-- A way down: ids that lead from a group without a parent through its children to a group, and
none of them twice. -/
structure Descent (h : Hierarchy) (id : String) (ids : List String) : Prop where
  starts : ∃ top g, ids.head? = some top ∧ h.lookup top = some g ∧ g.parent = none
  descends : ids.IsChain h.IsParent
  nodup : ids.Nodup
  ends : ids.getLast? = some id

/-- An ascent is a descent, read backwards. -/
theorem Ascent.reverse (ha : h.Ascent id ids) : h.Descent id ids.reverse where
  starts := by
    rw [List.head?_reverse]
    exact ha.last_alone
  descends := List.isChain_reverse.2 ha.isChain
  nodup := List.nodup_reverse.2 ha.nodup
  ends := by
    rw [List.getLast?_reverse]
    exact ha.head?

/-- In a forest, a listing gives each group the path down to it. -/
theorem Forest.path_of_mem_all (hf : h.Forest) (hmem : g ∈ h.all) :
    ∃ ids, h.Descent g.id ids ∧ g.path = String.intercalate "." ids := by
  unfold all at hmem
  obtain ⟨⟨id, g⟩, hentry, rfl⟩ := List.mem_map.1 hmem
  have hg : h.lookup id = some g := (Table.lookup_eq_some_iff _ _ _).2 hentry
  obtain ⟨ids, hids⟩ := hf.ascent hg
  refine ⟨ids.reverse, ?_, hf.pathOf_eq hids⟩
  show h.Descent g.id ids.reverse
  rw [hf.group_id hg]
  exact hids.reverse

end Hierarchy

/-! ## The groups of a store -/

namespace Store

variable {s : Store}

/-- **The writes to groups.**  A call leaves the groups as they are, or it adds a group under a free
id and inside a parent that is there, or it changes the status of a group. -/
theorem groups_cases {now : Timestamp} {P : StoreCall → Table String Group → Prop}
    (kept : ∀ c, P c s.groups)
    (added : ∀ g, s.groups.lookup g.id = none →
      (∀ parent, g.parent = some parent → ∃ g', s.groups.lookup parent = some g') →
      P (.addGroup g) (s.groups.insert g.id g))
    (switched : ∀ id status old, s.groups.lookup id = some old →
      P (.setGroupStatus id status) (s.groups.insert id { old with status, updatedAt := now }))
    (c : StoreCall) : P c (s.answer now c).2.groups := by
  cases c with
  | policy | policiesOf | policyPage | client | clientBySecret | group | groups => exact kept _
  | addPolicy p | updatePolicy p | deletePolicy key =>
      simp only [answer, addPolicy, updatePolicy, deletePolicy]
      split <;> exact kept _
  | addClient c =>
      simp only [answer, addClient]
      split
      · exact kept _
      · split <;> exact kept _
  | setClientStatus id status =>
      simp only [answer, setClientStatus]
      cases s.clients.lookup id <;> exact kept _
  | addGroup g =>
      simp only [answer, addGroup]
      split
      · exact kept _
      · next hfree =>
        split
        · exact kept _
        · next hparent =>
          refine added g (Option.not_isSome_iff_eq_none.1 hfree) ?_
          intro parent hp
          rw [hp, Option.any_some, Bool.not_eq_true', Bool.not_eq_false] at hparent
          exact Option.isSome_iff_exists.1 hparent
  | setGroupStatus id status =>
      simp only [answer, setGroupStatus]
      cases hid : s.groups.lookup id with
      | none => exact kept _
      | some old => exact switched id status old hid

/-- **Calls.**  Every call keeps the groups a forest. -/
theorem forest_answer (hf : Hierarchy.Forest s.groups) (now : Timestamp) (c : StoreCall) :
    Hierarchy.Forest (s.answer now c).2.groups := by
  refine groups_cases (P := fun _ => Hierarchy.Forest) ?_ ?_ ?_ c
  · intro _
    exact hf
  · intro g hfree hparent
    exact hf.insert_new hfree hparent
  · intro id status old hold
    exact hf.insert_same hold rfl rfl

/-- The groups of every store that calls lead to are a forest. -/
theorem Built.forest (h : s.Built) : Hierarchy.Forest s.groups := by
  induction h with
  | empty => exact Hierarchy.forest_empty
  | answer _ now c ih => exact forest_answer ih now c

/-- **Groups form a forest.**  In every store that calls lead to, each parent is there and no group
is above itself.  A listing of the groups, in whatever order they were read, names each of them once
and gives it the path that leads to it from the top of its tree. -/
theorem groups_form_forest (h : s.Built) :
    (∀ id g parent, s.groups.lookup id = some g → g.parent = some parent →
      ∃ g', s.groups.lookup parent = some g') ∧
    (∀ id, ¬Relation.TransGen (Hierarchy.IsParent s.groups) id id) ∧
    ∀ groups : List Group, groups.Perm s.groups.values →
      (Hierarchy.ofGroups groups).all.map (·.id) = s.groups.keys ∧
      ∀ g ∈ (Hierarchy.ofGroups groups).all,
        ∃ ids, Hierarchy.Descent s.groups g.id ids ∧ g.path = String.intercalate "." ids := by
  have hf := h.forest
  refine ⟨fun _ _ _ => hf.parent_stored, hf.acyclic, ?_⟩
  intro groups hperm
  rw [hf.ofGroups_eq hperm]
  exact ⟨Hierarchy.map_id_all hf.group_id, fun g => hf.path_of_mem_all⟩

/-- The store to which calls lead from an empty one. -/
def answering (calls : List StoreCall) : Store :=
  calls.foldl (fun s c => (s.answer ⟨0, 0⟩ c).2) ∅

/-- What calls lead to from an empty store is a store that calls lead to. -/
theorem built_answering (calls : List StoreCall) : (answering calls).Built := by
  have hfrom : ∀ s : Store, s.Built →
      (calls.foldl (fun s c => (s.answer ⟨0, 0⟩ c).2) s).Built := by
    induction calls with
    | nil => exact fun _ hs => hs
    | cons c rest ih => exact fun s hs => ih _ (hs.answer _ c)
  exact hfrom ∅ .empty

/-- A wing in a house and a room in the wing, after calls that would have put the house inside
itself or inside the wing. -/
theorem rooms_form_forest :
    let group (id : String) (parent : Option String) : Group :=
      ⟨id, id, "", "ann", parent, .enabled, ⟨0, 0⟩, ⟨0, 0⟩, 0, ""⟩
    let s := answering [.addGroup (group "house" (some "house")), .addGroup (group "house" none),
      .addGroup (group "wing" (some "house")), .addGroup (group "house" (some "wing")),
      .setGroupStatus "wing" .disabled, .addGroup (group "room" (some "wing"))]
    s.groups.keys = ["house", "room", "wing"] ∧
      (¬Relation.TransGen (Hierarchy.IsParent s.groups) "house" "house") ∧
      (Hierarchy.ofGroups s.groups.values.reverse).all.map (·.path) =
        ["house", "house.wing.room", "house.wing"] ∧
      ∀ g ∈ (Hierarchy.ofGroups s.groups.values.reverse).all,
        ∃ ids, Hierarchy.Descent s.groups g.id ids ∧ g.path = String.intercalate "." ids := by
  intro group s
  obtain ⟨-, hacyclic, hlisted⟩ := groups_form_forest (s := s) (built_answering _)
  exact ⟨by decide +kernel, hacyclic "house", by decide +kernel,
    (hlisted _ (List.reverse_perm _)).2⟩

end Store

end Gatehouse
