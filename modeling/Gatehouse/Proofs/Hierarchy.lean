import Gatehouse.Proofs.Store.Forest
import Mathlib.Data.List.Induction

/-!
# Gatehouse.Proofs.Hierarchy — the walks up and down are converse

Nothing is assumed of the groups of a hierarchy: parents may be missing, and groups may lie above
themselves.  From every group there is still at most one way up, which `climb` follows without a
guard against cycles.  A group lies at a distance above another one (`Distance`) if that many steps
up lead to it and fewer do not.

Both walks have guards, and each of them a different one.  The walk up stops at a group that it has
met before, wherever on the way that is; the walk down passes over children that it has seen, from
whichever row.  Both list exactly what lies within the depth, at its distance.

* `mem_ancestors_iff` : what the walk up lists.
* `mem_descendants_iff` : what the walk down lists.
* `walks_converse` : one group is listed below another one where the other is listed above it.

A distance is where the two guards meet.  On the way up a group is met for the first time exactly if
no group was met twice before it (`distance_iff_injective`): once a step up has led to a place where
one has been, all further steps repeat what came after it, so a group that was not met by then is
not met at all.  On the way down a group is reached in the row of its distance, because it has been
seen if and only if fewer steps lead up from it.

So neither walk is compared with the other.  Each is compared with the distances, by an induction on
its own recursion, and the theorem about both is the meeting of two equivalences.
-/

namespace Gatehouse.Hierarchy

variable {h : Hierarchy} {id a b : String} {g : Group} {k : Nat}

/-! ## The hierarchy of a list -/

/-- Groups stand under their ids. -/
def Keyed (h : Hierarchy) : Prop := ∀ {id g}, h.lookup id = some g → g.id = id

theorem lookup_ofGroups_append (groups : List Group) (g : Group) (id : String) :
    (ofGroups (groups ++ [g])).lookup id =
      if id = g.id then some g else (ofGroups groups).lookup id := by
  have hinsert : ofGroups (groups ++ [g]) = (ofGroups groups).insert g.id g := by
    simp [ofGroups, Table.ofList]
  rw [hinsert, Table.lookup_insert]

theorem keyed_ofGroups (groups : List Group) : (ofGroups groups).Keyed := by
  induction groups using List.reverseRecOn with
  | nil =>
      intro id g hg
      cases hg
  | append_singleton groups last ih =>
      intro id g hg
      rw [lookup_ofGroups_append] at hg
      split at hg
      · next hid =>
        cases hg
        exact hid.symm
      · exact ih hg

/-- A hierarchy knows the ids of its list. -/
theorem contains_ofGroups {groups : List Group} (hid : id ∈ groups.map (·.id)) :
    (ofGroups groups).contains id = true := by
  unfold Table.contains
  induction groups using List.reverseRecOn with
  | nil => cases hid
  | append_singleton groups last ih =>
      rw [lookup_ofGroups_append]
      split
      · rfl
      · next hne =>
        simp only [List.map_append, List.map_cons, List.map_nil, List.mem_append,
          List.mem_singleton] at hid
        exact ih (hid.resolve_right hne)

/-! ## Distances -/

/-- The group that some steps up lead to, if all groups on the way are known. -/
def climb (h : Hierarchy) : Nat → String → Option String
  | 0, id => (h.lookup id).map fun _ => id
  | k + 1, id => (h.lookup id).bind fun g => g.parent.bind (h.climb k)

/-- The steps up that lead from one group to another one, if there are no fewer. -/
structure Distance (h : Hierarchy) (below above : String) (k : Nat) : Prop where
  reached : h.climb k below = some above
  nearest : ∀ j < k, h.climb j below ≠ some above

/-- No step leads from a known group to itself, and from an unknown one nowhere. -/
theorem climb_zero_eq_some_iff : h.climb 0 id = some a ↔ h.contains id = true ∧ id = a := by
  simp [climb, Table.contains, Option.isSome_iff_exists]

/-- The first of some steps leads to the parent, and the others go on from there. -/
theorem climb_succ_eq_some_iff : h.climb (k + 1) id = some a ↔
    ∃ parent, h.IsParent parent id ∧ h.climb k parent = some a := by
  simp only [climb, IsParent, Option.bind_eq_some_iff]
  constructor
  · rintro ⟨g, hg, parent, hparent, hrest⟩
    exact ⟨parent, ⟨g, hg, hparent⟩, hrest⟩
  · rintro ⟨parent, ⟨g, hg, hparent⟩, hrest⟩
    exact ⟨g, hg, parent, hparent, hrest⟩

/-- A group has at most one parent. -/
theorem IsParent.unique {parent parent' : String} (hp : h.IsParent parent id)
    (hp' : h.IsParent parent' id) : parent = parent' := by
  obtain ⟨g, hg, hparent⟩ := hp
  obtain ⟨g', hg', hparent'⟩ := hp'
  cases hg.symm.trans hg'
  exact Option.some.inj (hparent.symm.trans hparent')

theorem climb_succ (hparent : h.IsParent a id) : h.climb (k + 1) id = h.climb k a := by
  refine Option.ext fun top => ?_
  rw [climb_succ_eq_some_iff]
  constructor
  · rintro ⟨parent, hp, hrest⟩
    rwa [hparent.unique hp]
  · intro hrest
    exact ⟨a, hparent, hrest⟩

/-- Steps up go on from where steps up have led. -/
theorem climb_add (k j : Nat) (id : String) :
    h.climb (k + j) id = (h.climb k id).bind (h.climb j) := by
  induction k generalizing id with
  | zero =>
      rw [Nat.zero_add]
      cases hid : h.lookup id with
      | some g => simp [climb, hid]
      | none => cases j <;> simp [climb, hid]
  | succ k ih =>
      rw [Nat.add_right_comm, climb, climb, Option.bind_assoc]
      refine Option.bind_congr fun g _ => ?_
      rw [Option.bind_assoc]
      exact Option.bind_congr fun parent _ => ih parent

/-- **The shortest way has no loop.**  Steps up lead to a group for the first time exactly if they
have led nowhere twice until then. -/
theorem distance_iff_injective : h.Distance b a k ↔
    h.climb k b = some a ∧ ∀ i j, i < j → j ≤ k → h.climb i b ≠ h.climb j b := by
  constructor
  · rintro ⟨hreached, hnearest⟩
    refine ⟨hreached, ?_⟩
    intro i j hij hjk hloop
    -- the way without its steps from `i` to `j` is shorter
    have hshort : h.climb (i + (k - j)) b = some a := by
      calc h.climb (i + (k - j)) b = (h.climb i b).bind (h.climb (k - j)) := climb_add _ _ _
        _ = (h.climb j b).bind (h.climb (k - j)) := by rw [hloop]
        _ = h.climb (j + (k - j)) b := (climb_add _ _ _).symm
        _ = h.climb k b := by rw [Nat.add_sub_of_le hjk]
        _ = some a := hreached
    exact hnearest _ (by omega) hshort
  · rintro ⟨hreached, hinjective⟩
    refine ⟨hreached, ?_⟩
    intro j hj hearly
    exact hinjective j k hj le_rfl (hearly.trans hreached.symm)

/-! ## The walk up -/

/-- Whether a listing has a group at a level. -/
def Lists (groups : List Group) (id : String) (k : Nat) : Prop :=
  ∃ g ∈ groups, g.id = id ∧ g.level = k

theorem lists_iff_mem_map {groups : List Group} :
    Lists groups id k ↔ (id, k) ∈ groups.map fun g => (g.id, g.level) := by
  simp [Lists]

theorem lists_append {groups more : List Group} :
    Lists (groups ++ more) id k ↔ Lists groups id k ∨ Lists more id k := by
  simp only [Lists, List.mem_append, or_and_right, exists_or]

/-- A chain is listed with the places of its groups for their levels. -/
theorem lists_projectChain {groups : List Group} {level : Nat} :
    Lists (projectChain level groups) id k ↔
      ∃ i, k = level + i ∧ (groups.map (·.id))[i]? = some id := by
  induction groups generalizing level with
  | nil => simp [Lists, projectChain]
  | cons g rest ih =>
      have hsplit : Lists (projectChain level (g :: rest)) id k ↔
          (g.id = id ∧ level = k) ∨ Lists (projectChain (level + 1) rest) id k := by
        simp [Lists, projectChain, project]
      rw [hsplit, ih]
      constructor
      · rintro (⟨rfl, rfl⟩ | ⟨i, rfl, hi⟩)
        · exact ⟨0, rfl, rfl⟩
        · exact ⟨i + 1, by omega, hi⟩
      · rintro ⟨i, rfl, hi⟩
        cases i with
        | zero => exact Or.inl ⟨by simpa using hi, rfl⟩
        | succ i => exact Or.inr ⟨i, by omega, hi⟩

/-- Steps up meet nothing that was seen before and nothing twice. -/
structure Fresh (h : Hierarchy) (seen : List String) (k : Nat) (id : String) : Prop where
  unseen : ∀ i ≤ k, ∀ x ∈ seen, h.climb i id ≠ some x
  injective : ∀ i j, i < j → j ≤ k → h.climb i id ≠ h.climb j id

theorem fresh_zero {seen : List String} (hknown : h.contains id = true) :
    h.Fresh seen 0 id ↔ id ∉ seen := by
  have hhere : h.climb 0 id = some id := climb_zero_eq_some_iff.2 ⟨hknown, rfl⟩
  constructor
  · rintro ⟨hunseen, -⟩ hmem
    exact hunseen 0 le_rfl id hmem hhere
  · intro hid
    refine ⟨?_, by omega⟩
    intro i hi x hx hix
    obtain rfl : i = 0 := by omega
    rw [hhere, Option.some.injEq] at hix
    exact hid (hix ▸ hx)

/-- **One step of the guard.**  The way up from a group meets nothing twice and nothing that was
seen exactly if the way up from its parent does, once the group itself counts as seen. -/
theorem fresh_succ {seen : List String} {parent : String} (hparent : h.IsParent parent id)
    (hid : id ∉ seen) : h.Fresh seen (k + 1) id ↔ h.Fresh (id :: seen) k parent := by
  -- the group itself counts as step 0 on the way up, so the steps from its parent are moved by one
  have hhere : h.climb 0 id = some id := by
    obtain ⟨g, hg, -⟩ := hparent
    simp [climb, hg]
  have hup : ∀ i, h.climb (i + 1) id = h.climb i parent := fun i => climb_succ hparent
  constructor
  · rintro ⟨hunseen, hinjective⟩
    refine ⟨?_, ?_⟩
    · intro i hi x hx hix
      rw [← hup] at hix
      rcases List.mem_cons.1 hx with rfl | hx
      · exact hinjective 0 (i + 1) (by omega) (by omega) (hhere.trans hix.symm)
      · exact hunseen (i + 1) (by omega) x hx hix
    · intro i j hij hj heq
      rw [← hup, ← hup] at heq
      exact hinjective (i + 1) (j + 1) (by omega) (by omega) heq
  · rintro ⟨hunseen, hinjective⟩
    refine ⟨?_, ?_⟩
    · intro i hi x hx hix
      cases i with
      | zero =>
          rw [hhere, Option.some.injEq] at hix
          exact hid (hix ▸ hx)
      | succ i =>
          rw [hup] at hix
          exact hunseen i (by omega) x (List.mem_cons_of_mem _ hx) hix
    · intro i j hij hj heq
      obtain ⟨j, rfl⟩ : ∃ m, j = m + 1 := ⟨j - 1, by omega⟩
      rw [hup] at heq
      cases i with
      | zero => exact hunseen j (by omega) id List.mem_cons_self (heq.symm.trans hhere)
      | succ i =>
          rw [hup] at heq
          exact hinjective i j (by omega) (by omega) heq

/-- A chain goes on as long as it meets nothing that was seen before. -/
theorem chainAvoiding_getElem? (hkeyed : h.Keyed) {fuel : Nat} : ∀ {seen k id},
    ((h.chainAvoiding seen fuel (some id)).map (·.id))[k]? = some a ↔
      k < fuel ∧ h.climb k id = some a ∧ h.Fresh seen k id := by
  induction fuel with
  | zero => simp [chainAvoiding]
  | succ fuel ih =>
      intro seen k id
      rw [chainAvoiding]
      cases hg : h.lookup id with
      | none =>
          have hlost : h.climb k id = none := by cases k <;> simp [climb, hg]
          simp [hlost]
      | some g =>
          have hknown : h.contains id = true := by simp [Table.contains, hg]
          have hhere : h.climb 0 id = some id := climb_zero_eq_some_iff.2 ⟨hknown, rfl⟩
          -- the guard stops here if the group was seen, and then no way up from it is fresh
          by_cases hid : id ∈ seen
          · have hstale : ¬h.Fresh seen k id := fun hfresh =>
              hfresh.unseen 0 (Nat.zero_le _) id hid hhere
            simp [hid, hstale]
          · cases k with
            | zero => simp [hid, hhere, hkeyed hg, fresh_zero hknown]
            | succ k =>
                cases hparent : g.parent with
                | none =>
                    have hrest : h.chainAvoiding (id :: seen) fuel none = [] := by
                      cases fuel <;> rfl
                    simp [hid, hrest, climb, hg, hparent]
                | some parent =>
                    have hstep : h.IsParent parent id := ⟨g, hg, hparent⟩
                    rw [climb_succ hstep, fresh_succ hstep hid, Nat.succ_lt_succ_iff, ← ih]
                    simp [hid, hparent]

/-- **The walk up** lists what lies above a group and within the depth, each at its distance. -/
theorem mem_ancestors_iff (hkeyed : h.Keyed) {depth : Nat} :
    Lists (h.ancestors b depth) a k ↔ k ≤ depth ∧ h.Distance b a k := by
  have hfresh : h.Fresh [] k b ↔
      ∀ i j, i < j → j ≤ k → h.climb i b ≠ h.climb j b :=
    ⟨fun hfresh => hfresh.injective, fun hinjective => ⟨by simp, hinjective⟩⟩
  unfold ancestors chain
  rw [lists_projectChain, distance_iff_injective, ← hfresh, ← Nat.lt_succ_iff,
    ← chainAvoiding_getElem? hkeyed]
  simp

/-! ## The walk down -/

theorem mem_children : id ∈ h.children a ↔ h.IsParent a id := by
  simp [children, IsParent, Table.lookup_eq_some_iff]

/-- Children are reached unless they were seen, and all of them are seen then. -/
theorem mem_visitChildren {seen : List String} {path : String} {ids : List String} :
    (id ∈ (visitChildren seen path ids).1.map (·.id) ↔ id ∉ seen ∧ id ∈ ids) ∧
      (id ∈ (visitChildren seen path ids).2 ↔ id ∈ seen ∨ id ∈ ids) := by
  induction ids generalizing seen with
  | nil => simp [visitChildren]
  | cons c rest ih =>
      rw [visitChildren]
      split
      · next hc =>
        rw [ih.1, ih.2, List.mem_cons]
        constructor <;> grind
      · next hc =>
        simp only [List.map_cons, List.mem_cons, ih.1, ih.2]
        constructor <;> grind

/-- Whether a row has the parent of a group. -/
def ParentIn (h : Hierarchy) (row : List Reached) (id : String) : Prop :=
  ∃ parent ∈ row.map (·.id), h.IsParent parent id

/-- The next row has the children of a row that were not seen, and all of them are seen then.  Both
are said together, since what is seen after one group of the row decides what is new under the next
one. -/
theorem mem_nextRow {row : List Reached} {seen : List String} :
    (id ∈ (h.nextRow seen row).1.map (·.id) ↔ id ∉ seen ∧ h.ParentIn row id) ∧
      (id ∈ (h.nextRow seen row).2 ↔ id ∈ seen ∨ h.ParentIn row id) := by
  induction row generalizing seen with
  | nil => simp [nextRow, ParentIn]
  | cons r rest ih =>
      have hsplit : h.ParentIn (r :: rest) id ↔ id ∈ h.children r.id ∨ h.ParentIn rest id := by
        simp [ParentIn, mem_children]
      rw [hsplit, nextRow]
      simp only [List.map_append, List.mem_append, ih.1, ih.2, mem_visitChildren.1,
        mem_visitChildren.2]
      constructor <;> grind

/-- The groups at one distance below a group, with what has been seen when they are reached:
whatever lies below it within that many steps, and some of it nearer. -/
structure IsRow (h : Hierarchy) (root : String) (k : Nat) (seen : List String)
    (row : List Reached) : Prop where
  row : ∀ {id}, id ∈ row.map (·.id) ↔ h.Distance id root k
  seen : ∀ {id}, id ∈ seen ↔ ∃ i ≤ k, h.climb i id = some root

theorem isRow_root (hroot : h.contains a = true) : h.IsRow a 0 [a] [⟨a, a⟩] where
  row {id} := by
    rw [List.map_cons, List.map_nil, List.mem_singleton]
    constructor
    · rintro rfl
      exact ⟨climb_zero_eq_some_iff.2 ⟨hroot, rfl⟩, by omega⟩
    · rintro ⟨hreached, -⟩
      exact (climb_zero_eq_some_iff.1 hreached).2
  seen {id} := by
    rw [List.mem_singleton]
    constructor
    · rintro rfl
      exact ⟨0, le_rfl, climb_zero_eq_some_iff.2 ⟨hroot, rfl⟩⟩
    · rintro ⟨i, hi, hreached⟩
      obtain rfl : i = 0 := by omega
      exact (climb_zero_eq_some_iff.1 hreached).2

/-- **One row further down.**  A group is a step further away than its parent, unless there is a
shorter way, and then it has been seen. -/
theorem IsRow.next {seen : List String} {row : List Reached} (hrow : h.IsRow a k seen row) :
    h.IsRow a (k + 1) (h.nextRow seen row).2 (h.nextRow seen row).1 := by
  have hparent : ∀ {id}, h.ParentIn row id → h.climb (k + 1) id = some a := by
    rintro id ⟨parent, hmem, hstep⟩
    rw [climb_succ hstep]
    exact (hrow.row.1 hmem).reached
  -- a parent that is nearer than the row would have made the group seen
  have hlater : ∀ {id}, id ∉ seen → h.climb (k + 1) id = some a → h.ParentIn row id := by
    intro id hunseen hreached
    obtain ⟨parent, hstep, hrest⟩ := climb_succ_eq_some_iff.1 hreached
    refine ⟨parent, hrow.row.2 ⟨hrest, ?_⟩, hstep⟩
    intro i hi hshort
    exact hunseen (hrow.seen.2 ⟨i + 1, hi, (climb_succ hstep).trans hshort⟩)
  refine ⟨?_, ?_⟩
  · intro id
    rw [mem_nextRow.1]
    constructor
    · rintro ⟨hunseen, hin⟩
      refine ⟨hparent hin, ?_⟩
      intro i hi hshort
      exact hunseen (hrow.seen.2 ⟨i, Nat.le_of_lt_succ hi, hshort⟩)
    · rintro ⟨hreached, hnearest⟩
      have hunseen : id ∉ seen := by
        intro hmem
        obtain ⟨i, hi, hshort⟩ := hrow.seen.1 hmem
        exact hnearest i (Nat.lt_succ_of_le hi) hshort
      exact ⟨hunseen, hlater hunseen hreached⟩
  · intro id
    rw [mem_nextRow.2]
    constructor
    · rintro (hmem | hin)
      · obtain ⟨i, hi, hreached⟩ := hrow.seen.1 hmem
        exact ⟨i, Nat.le_succ_of_le hi, hreached⟩
      · exact ⟨k + 1, le_rfl, hparent hin⟩
    · rintro ⟨i, hi, hreached⟩
      by_cases hmem : id ∈ seen
      · exact Or.inl hmem
      · have hlast : i = k + 1 := by
          by_contra hne
          exact hmem (hrow.seen.2 ⟨i, by omega, hreached⟩)
        exact Or.inr (hlater hmem (hlast ▸ hreached))

theorem Distance.contains (hab : h.Distance b a k) : h.contains b = true := by
  have hreached := hab.reached
  cases hb : h.lookup b with
  | some g => simp [Table.contains, hb]
  | none => cases k <;> simp [climb, hb] at hreached

theorem lists_projectRow (hkeyed : h.Keyed) {seen : List String} {row : List Reached} {level : Nat}
    (hrow : h.IsRow a level seen row) :
    Lists (h.projectRow level row) b k ↔ k = level ∧ h.Distance b a level := by
  rw [← hrow.row]
  constructor
  · rintro ⟨g, hg, rfl, rfl⟩
    obtain ⟨r, hr, hlisted⟩ := List.mem_filterMap.1 hg
    obtain ⟨stored, hstored, rfl⟩ := Option.map_eq_some_iff.1 hlisted
    exact ⟨rfl, List.mem_map.2 ⟨r, hr, (hkeyed hstored).symm⟩⟩
  · rintro ⟨rfl, hmem⟩
    obtain ⟨r, hr, rfl⟩ := List.mem_map.1 hmem
    obtain ⟨g, hg⟩ := Option.isSome_iff_exists.1 (hrow.row.1 hmem).contains
    have hid : g.id = r.id := hkeyed hg
    refine ⟨project g k r.path, ?_, hid, rfl⟩
    exact List.mem_filterMap.2 ⟨r, hr, by rw [hg]; rfl⟩

/-- From one row on, the rows list what lies as far below the root as they go. -/
theorem lists_rowsFrom (hkeyed : h.Keyed) {fuel : Nat} : ∀ {seen row level},
    h.IsRow a level seen row → (Lists (h.rowsFrom seen level row fuel) b k ↔
      level ≤ k ∧ k ≤ level + fuel ∧ h.Distance b a k) := by
  induction fuel with
  | zero =>
      intro seen row level hrow
      rw [rowsFrom, lists_projectRow hkeyed hrow]
      grind
  | succ fuel ih =>
      intro seen row level hrow
      rw [rowsFrom, lists_append, lists_projectRow hkeyed hrow, ih hrow.next]
      grind

/-- **The walk down** lists what lies below a group and within the depth, each at its distance. -/
theorem mem_descendants_iff (hkeyed : h.Keyed) (hroot : h.contains a = true) {depth : Nat} :
    Lists (h.descendants a depth) b k ↔ k ≤ depth ∧ h.Distance b a k := by
  unfold descendants
  rw [lists_rowsFrom hkeyed (isRow_root hroot)]
  simp

/-! ## Both walks -/

/-- **The walks are converse.**  For every list of groups, whatever their parents are, and every two
groups of it: both walks exist, and one group stands at a level of the walk down from another one
exactly if the other stands at that level of the walk up from it.  Both do exactly if the level is
within the depth and is the distance between the groups. -/
theorem walks_converse (groups : List Group) {a b : String} (ha : a ∈ groups.map (·.id))
    (hb : b ∈ groups.map (·.id)) (level : Nat) :
    ∃ below above, (ofGroups groups).walk a .descendants level = some below ∧
      (ofGroups groups).walk b .ancestors level = some above ∧
      ∀ k, (Lists below b k ↔ Lists above a k) ∧
        (Lists below b k ↔ k ≤ clampLevel level ∧ (ofGroups groups).Distance b a k) := by
  have hkeyed : (ofGroups groups).Keyed := keyed_ofGroups groups
  have hroot : (ofGroups groups).contains a = true := contains_ofGroups ha
  refine ⟨_, _, if_pos hroot, if_pos (contains_ofGroups hb), ?_⟩
  intro k
  constructor
  · rw [mem_descendants_iff hkeyed hroot, mem_ancestors_iff hkeyed]
  · exact mem_descendants_iff hkeyed hroot

/-- Below a group that stands twice in the list, lies on a cycle of three and has a group beside the
cycle; two more groups have a parent that is missing and themselves for a parent. -/
theorem walks_converse_cycle :
    let group (id : String) (parent : Option String) : Group :=
      ⟨id, id, "", "ann", parent, .enabled, ⟨0, 0⟩, ⟨0, 0⟩, 0, ""⟩
    let groups := [group "a" none, group "b" (some "a"), group "c" (some "b"),
      group "d" (some "gone"), group "e" (some "e"), group "f" (some "c"), group "a" (some "c")]
    "a" ∈ groups.map (·.id) ∧ "f" ∈ groups.map (·.id) ∧
      ((ofGroups groups).walk "a" .descendants 0).map (·.map fun g => (g.id, g.level)) =
        some [("a", 0), ("b", 1), ("c", 2), ("f", 3)] ∧
      ((ofGroups groups).walk "f" .ancestors 0).map (·.map fun g => (g.id, g.level)) =
        some [("f", 0), ("c", 1), ("b", 2), ("a", 3)] ∧
      (ofGroups groups).Distance "f" "a" 3 := by
  intro group groups
  have hdown : ((ofGroups groups).walk "a" .descendants 0).map
      (·.map fun g => (g.id, g.level)) = some [("a", 0), ("b", 1), ("c", 2), ("f", 3)] := by
    decide +kernel
  refine ⟨by decide, by decide, hdown, by decide +kernel, ?_⟩
  obtain ⟨below, above, hbelow, -, hlisted⟩ :=
    walks_converse groups (a := "a") (b := "f") (by decide) (by decide) 0
  rw [hbelow, Option.map_some, Option.some.injEq] at hdown
  have hlists : Lists below "f" 3 := by
    rw [lists_iff_mem_map, hdown]
    decide
  exact ((hlisted 3).2.1 hlists).2

end Gatehouse.Hierarchy
