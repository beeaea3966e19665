import Gatehouse.Proofs.Hierarchy.Descendants
import Gatehouse.Proofs.Store.Copy

/-!
# Gatehouse.Proofs.Hierarchy.Loading — the order in which groups are held does not show

A hash table hands its entries out in an order of its own.  `Loaded` is a hierarchy over such
tables: the groups in any order, and an index of children that was filled in that order.  Its walks
go group by group, with a queue and with what has been seen.

The order is lost in two places, where children and where all ids are sorted (`below_load`,
`ids_load`).  From there on a loaded hierarchy lists what a `Hierarchy` lists (`follow_rowAt`,
`chainBy_lookup`), and a `Hierarchy` is the same whatever order its groups came in
(`ofGroups_eq_of_perm`).

There are two differences to bridge.  One is that of the tables: what is found, what is below a
group and what all ids are, is the same for every order of loading, once it is sorted.  The other is
that of the walks: a queue holds the rest of a row and the beginning of the next one, so it goes
from row to row if a whole row is taken from its front at a time (`follow_row`).  The number of
rounds is bounded by the number of groups, which is enough because no group enters the queue twice.

That the ids are distinct is needed.  Of two groups with one id a table keeps the one that came
last, and which this is depends on the order.
-/

namespace Gatehouse.Hierarchy

/-! ## Hierarchies over hash tables -/

/-- Groups in the order in which a hash table holds them, and the ids that are noted below each. -/
structure Loaded where
  groups : List Group
  index : Table String (List String)

/-- Notes a group below its parent, after those that are noted there. -/
def note (index : Table String (List String)) (g : Group) : Table String (List String) :=
  match g.parent with
  | none => index
  | some parent => index.insert parent ((index.lookup parent).getD [] ++ [g.id])

/-- The groups that a table hands out in some order, noted in that order. -/
def load (order : List Group) : Loaded := ⟨order, order.foldl note ∅⟩

/-- The chain of parents that a look-up gives, without the ids of `seen`. -/
def chainBy (find : String → Option Group) (seen : List String) : Nat → Option String → List Group
  | 0, _ => []
  | _, none => []
  | fuel + 1, some id =>
    match find id with
    | none => []
    | some g => if id ∈ seen then [] else g :: chainBy find (id :: seen) fuel g.parent

namespace Loaded

variable (l : Loaded)

/-- The group under an id. -/
def find (id : String) : Option Group := l.groups.find? fun g => g.id = id

/-- The ids below an id, sorted. -/
def below (id : String) : List String := inOrder (fun c => c) ((l.index.lookup id).getD [])

/-- All ids, sorted. -/
def ids : List String := inOrder (fun c => c) (l.groups.map (·.id))

/-- Lists the groups of a queue and those below them.  A group that is not yet at the depth puts its
children that were not seen at the end of the queue. -/
def follow (depth : Nat) : Nat → List (Nat × Reached) → List String → List Group
  | 0, _, _ => []
  | _, [], _ => []
  | fuel + 1, (level, r) :: queue, seen =>
    match l.find r.id with
    | none => follow depth fuel queue seen
    | some g =>
      if level = depth then project g level r.path :: follow depth fuel queue seen
      else
        let (fresh, seen) := visitChildren seen r.path (l.below r.id)
        project g level r.path :: follow depth fuel (queue ++ fresh.map (level + 1, ·)) seen

/-- The walk down; the queue has no group twice. -/
def descendants (root : String) (depth : Nat) : List Group :=
  l.follow depth l.groups.length [(0, ⟨root, root⟩)] [root]

/-- The walk up. -/
def ancestors (root : String) (depth : Nat) : List Group :=
  projectChain 0 (chainBy l.find [] (depth + 1) (some root))

/-- A walk from a group that is there. -/
def walk (root : String) (d : Direction) (level : Nat) : Option (List Group) :=
  if (l.find root).isSome then
    some (match d with
      | .ancestors => l.ancestors root (clampLevel level)
      | .descendants => l.descendants root (clampLevel level))
  else none

/-- Every group by id, with its full path. -/
def all : List Group := l.ids.filterMap fun id => (l.find id).map fun g =>
  project g 0 (joinPath ((chainBy l.find [] l.groups.length (some id)).map (·.id)).reverse)

end Loaded

variable {h : Hierarchy} {groups groups' order : List Group} {root id : String} {k depth : Nat}

/-! ## What a hierarchy holds -/

/-- **A hierarchy does not know the order of its list.** -/
theorem ofGroups_eq_of_perm (hids : (groups.map (·.id)).Nodup) (hperm : groups.Perm groups') :
    ofGroups groups = ofGroups groups' := by
  have hids' : (groups'.map (·.id)).Nodup := (hperm.map _).nodup_iff.1 hids
  have hfst : ∀ gs : List Group, (gs.map fun g => (g.id, g)).map (·.1) = gs.map (·.id) := by
    intro gs
    simp
  apply Table.ext_lookup
  intro id
  apply Option.ext
  intro g
  rw [ofGroups, ofGroups, Table.lookup_ofList_eq_some_iff (by rwa [hfst]),
    Table.lookup_ofList_eq_some_iff (by rwa [hfst]), (hperm.map _).mem_iff]

/-- The values of a hierarchy are the groups of its list. -/
theorem perm_values_ofGroups (hids : (groups.map (·.id)).Nodup) :
    groups.Perm (ofGroups groups).values := by
  have hkeyed : (ofGroups groups).Keyed := keyed_ofGroups groups
  have hvalues : (ofGroups groups).values.Nodup := by
    apply List.Nodup.of_map (·.id)
    rw [map_id_values hkeyed]
    exact Table.keys_nodup _
  rw [List.perm_ext_iff_of_nodup hids.of_map hvalues]
  intro g
  rw [Table.mem_values]
  have hlookup : ∀ id, (ofGroups groups).lookup id = some g ↔
      (id, g) ∈ groups.map fun g => (g.id, g) := by
    intro id
    rw [ofGroups, Table.lookup_ofList_eq_some_iff (by simpa [Function.comp_def] using hids)]
  simp [hlookup]

/-- The children of a group among the values. -/
theorem children_eq_map_values (hkeyed : h.Keyed) (id : String) :
    h.children id = (h.values.filter fun g => g.parent = some id).map (·.id) := by
  unfold children Table.values
  rw [List.filter_map, List.map_map]
  apply List.map_congr_left
  rintro ⟨id', g⟩ hmem
  exact (hkeyed ((Table.lookup_eq_some_iff _ _ _).2 (List.mem_of_mem_filter hmem))).symm

/-! ## What is read of a loaded hierarchy -/

/-- One more group is noted at the end of what is noted below its parent. -/
theorem lookup_note (index : Table String (List String)) (g : Group) (id : String) :
    ((note index g).lookup id).getD [] =
      (index.lookup id).getD [] ++ if g.parent = some id then [g.id] else [] := by
  cases hparent : g.parent with
  | none => simp [note, hparent]
  | some parent =>
      by_cases hid : id = parent
      · simp [note, hparent, hid]
      · simp [note, hparent, hid, Ne.symm hid]

/-- The index has the children of a group in the order in which they were noted. -/
theorem lookup_foldl_note (order : List Group) (index : Table String (List String)) (id : String) :
    ((order.foldl note index).lookup id).getD [] =
      (index.lookup id).getD [] ++ (order.filter fun g => g.parent = some id).map (·.id) := by
  induction order generalizing index with
  | nil => simp
  | cons g rest ih =>
      rw [List.foldl_cons, ih, lookup_note]
      by_cases hparent : g.parent = some id <;> simp [hparent]

section Loading

variable (hids : (groups.map (·.id)).Nodup) (horder : order.Perm groups)
include hids horder

/-- What is found under an id does not depend on the order, since the ids are distinct. -/
theorem find_load : (load order).find = (ofGroups groups).lookup := by
  rw [lookup_ofGroups]
  funext id
  apply find?_eq_of_perm (horder.trans (List.reverse_perm groups).symm)
  intro a ha b hb hida hidb
  have hsame : a.id = b.id := (of_decide_eq_true hida).trans (of_decide_eq_true hidb).symm
  exact List.inj_on_of_nodup_map hids (List.mem_reverse.1 ha) (List.mem_reverse.1 hb) hsame

/-- **Children are sorted**, so the order in which they were noted is lost. -/
theorem below_load : (load order).below = (ofGroups groups).children := by
  funext id
  have hkeyed : (ofGroups groups).Keyed := keyed_ofGroups groups
  have hvalues : order.Perm (ofGroups groups).values := horder.trans (perm_values_ofGroups hids)
  apply inOrder_eq_of_perm
  · rw [children_eq_map_values hkeyed]
    show (((order.foldl note ∅).lookup id).getD []).Perm _
    rw [lookup_foldl_note]
    exact (hvalues.filter _).map _
  · exact ((ofGroups groups).children_pairwise id).imp compareOfLessAndEq_eq_lt.2

/-- **Ids are sorted**, so the order in which the table holds them is lost. -/
theorem ids_load : (load order).ids = (ofGroups groups).keys := by
  have hkeyed : (ofGroups groups).Keyed := keyed_ofGroups groups
  apply inOrder_eq_of_perm
  · rw [← map_id_values hkeyed]
    exact (horder.trans (perm_values_ofGroups hids)).map _
  · rw [Table.keys, List.pairwise_map]
    exact (ofGroups groups).sorted

/-- A loaded hierarchy has as many groups as a hierarchy. -/
theorem length_load : (load order).groups.length = (ofGroups groups).size := by
  have hlength := (horder.trans (perm_values_ofGroups hids)).length_eq
  rwa [Table.values, List.length_map] at hlength

end Loading

/-! ## The walks over hash tables -/

/-- The two walks up make the same steps. -/
theorem chainBy_lookup (h : Hierarchy) (seen : List String) (fuel : Nat) (start : Option String) :
    chainBy h.lookup seen fuel start = h.chainAvoiding seen fuel start := by
  fun_induction h.chainAvoiding seen fuel start with
  | case1 => simp [chainBy]
  | case2 => simp [chainBy]
  | case3 seen fuel id hid => simp [chainBy, hid]
  | case4 seen fuel id first hfirst hid => simp [chainBy, hfirst, hid]
  | case5 seen fuel id first hfirst hid ih => simp [chainBy, hfirst, hid, ih]

section Queue

variable {l : Loaded} (hfind : l.find = h.lookup) (hbelow : l.below = h.children)
include hfind hbelow

/-- A row that is at the front of the queue is listed, and its children come behind what is in the
queue already. -/
theorem follow_row {row : List Reached} (hknown : ∀ r ∈ row, h.contains r.id = true)
    (hk : k ≠ depth) (next : List Reached) (seen : List String) (fuel : Nat) :
    l.follow depth (fuel + row.length) (row.map (k, ·) ++ next.map (k + 1, ·)) seen =
      h.projectRow k row ++ l.follow depth fuel
        ((next ++ (h.nextRow seen row).1).map (k + 1, ·)) (h.nextRow seen row).2 := by
  induction row generalizing next seen with
  | nil => simp [projectRow, nextRow]
  | cons r rest ih =>
      obtain ⟨hfirst, hrest⟩ := List.forall_mem_cons.1 hknown
      obtain ⟨g, hg⟩ := Option.isSome_iff_exists.1 hfirst
      simp only [List.length_cons, ← Nat.add_assoc, List.map_cons, List.cons_append,
        Loaded.follow, hfind, hg, hk, if_false, hbelow, List.append_assoc, ← List.map_append]
      rw [ih hrest]
      simp [projectRow, nextRow, hg]

omit hbelow in
/-- A row at the depth is listed, and nothing below it. -/
theorem follow_last {row : List Reached} (hknown : ∀ r ∈ row, h.contains r.id = true)
    (seen : List String) (fuel : Nat) :
    l.follow depth (fuel + row.length) (row.map (depth, ·)) seen = h.projectRow depth row := by
  induction row with
  | nil => cases fuel <;> simp [Loaded.follow, projectRow]
  | cons r rest ih =>
      obtain ⟨hfirst, hrest⟩ := List.forall_mem_cons.1 hknown
      obtain ⟨g, hg⟩ := Option.isSome_iff_exists.1 hfirst
      simp [Loaded.follow, hfind, hg, ih hrest, projectRow]

/-- **The queue goes from row to row.**  When it holds exactly one row, what follows is this row and
all those below it down to the depth, if there are rounds enough for all of them. -/
theorem follow_rowAt (hkeyed : h.Keyed) (hroot : h.contains root = true) {fuel more : Nat}
    (hk : k + more = depth)
    (hfuel : (h.rowsFrom (h.rowAt root k).2 k (h.rowAt root k).1 more).length ≤ fuel) :
    l.follow depth fuel ((h.rowAt root k).1.map (k, ·)) (h.rowAt root k).2 =
      h.rowsFrom (h.rowAt root k).2 k (h.rowAt root k).1 more := by
  have hknown : ∀ k, ∀ r ∈ (h.rowAt root k).1, h.contains r.id = true :=
    fun k r hr => ((mem_idsAt hroot).1 (List.mem_map_of_mem hr)).contains
  have hlength : ∀ k, (h.projectRow k (h.rowAt root k).1).length = (h.rowAt root k).1.length := by
    intro k
    have hids := congrArg List.length (map_id_entriesAt hkeyed hroot k)
    rwa [List.length_map, idsAt, List.length_map] at hids
  induction more generalizing k fuel with
  | zero =>
      obtain rfl : k = depth := hk
      rw [rowsFrom, hlength] at hfuel
      obtain ⟨rest, rfl⟩ := Nat.exists_eq_add_of_le' hfuel
      exact follow_last hfind (hknown k) _ rest
  | succ more ih =>
      have hrows : h.rowsFrom (h.rowAt root k).2 k (h.rowAt root k).1 (more + 1) =
          h.projectRow k (h.rowAt root k).1 ++
            h.rowsFrom (h.rowAt root (k + 1)).2 (k + 1) (h.rowAt root (k + 1)).1 more := rfl
      rw [hrows, List.length_append, hlength] at hfuel
      obtain ⟨rest, rfl⟩ := Nat.exists_eq_add_of_le' (Nat.le_of_add_right_le hfuel)
      have hdeeper : k ≠ depth := by omega
      -- the whole row is taken from the queue at once, and the next one has been put behind it
      have hrow := follow_row hfind hbelow (hknown k) hdeeper [] (h.rowAt root k).2 rest
      rw [List.map_nil, List.append_nil, List.nil_append] at hrow
      rw [hrows, hrow]
      exact congrArg _ (ih (by omega) (by omega))

/-- With as many rounds as there are groups the queue runs empty. -/
theorem descendants_of_views (hkeyed : h.Keyed) (hroot : h.contains root = true)
    (hsize : l.groups.length = h.size) : l.descendants root depth = h.descendants root depth := by
  have hlength : (h.descendants root depth).length ≤ h.size := by
    rw [← List.length_map (·.id)]
    apply length_le_size (nodup_descendants hkeyed hroot depth)
    intro id hid
    obtain ⟨e, he, rfl⟩ := List.mem_map.1 hid
    obtain ⟨g, -, -, hg, -⟩ := (mem_descendants hkeyed hroot).1 he
    exact ⟨g, hg⟩
  apply follow_rowAt hfind hbelow hkeyed hroot (k := 0) (Nat.zero_add depth)
  rw [hsize]
  exact hlength

end Queue

/-- The walk up needs nothing but what is found under an id. -/
theorem ancestors_of_find {l : Loaded} (hfind : l.find = h.lookup) (root : String) (depth : Nat) :
    l.ancestors root depth = h.ancestors root depth := by
  unfold Loaded.ancestors ancestors chain
  rw [hfind, chainBy_lookup]

/-- The listing needs what is found, all ids in their order, and how many there are. -/
theorem all_of_views {l : Loaded} (hfind : l.find = h.lookup) (hids : l.ids = h.keys)
    (hsize : l.groups.length = h.size) : l.all = h.all := by
  unfold Loaded.all all
  rw [hids, hfind, hsize, Table.keys, List.filterMap_map]
  apply List.filterMap_eq_map_iff_forall_eq_some.2
  rintro ⟨id, g⟩ hmem
  have hg : h.lookup id = some g := (Table.lookup_eq_some_iff _ _ _).2 hmem
  simp [hg, chainBy_lookup, pathOf, chain]

/-! ## Loading -/

/-- **A loaded hierarchy lists what a hierarchy lists**, in whatever order its groups are held. -/
theorem load_agrees (hids : (groups.map (·.id)).Nodup) (horder : order.Perm groups) :
    (load order).all = (ofGroups groups).all ∧
      ∀ root d level, (load order).walk root d level = (ofGroups groups).walk root d level := by
  have hkeyed : (ofGroups groups).Keyed := keyed_ofGroups groups
  have hfind := find_load hids horder
  have hsize := length_load hids horder
  refine ⟨all_of_views hfind (ids_load hids horder) hsize, ?_⟩
  intro root d level
  unfold Loaded.walk walk Table.contains
  rw [hfind]
  split
  · next hroot =>
    cases d with
    | ancestors => rw [ancestors_of_find hfind]
    | descendants =>
        rw [descendants_of_views hfind (below_load hids horder) hkeyed hroot hsize]
  · rfl

/-- **The order of loading does not show.**  Of two lists with the same groups, no two under one id
but otherwise with whatever parents, the hierarchies list the same entries in the same order, and
every walk is the same.  And so are the listings and the walks over hash tables, in whatever order
the tables hold the groups and hand them out. -/
theorem load_order_hidden {groups groups' : List Group} (hids : (groups.map (·.id)).Nodup)
    (hperm : groups.Perm groups') :
    (ofGroups groups).all = (ofGroups groups').all ∧
    (∀ root d level, (ofGroups groups).walk root d level = (ofGroups groups').walk root d level) ∧
    ∀ order order' : List Group, order.Perm groups → order'.Perm groups' →
      (load order).all = (load order').all ∧
      (load order).all = (ofGroups groups).all ∧
      ∀ root d level, (load order).walk root d level = (load order').walk root d level ∧
        (load order).walk root d level = (ofGroups groups).walk root d level := by
  have hsame : ofGroups groups = ofGroups groups' := ofGroups_eq_of_perm hids hperm
  refine ⟨by rw [hsame], by simp [hsame], ?_⟩
  intro order order' horder horder'
  obtain ⟨hall, hwalk⟩ := load_agrees hids horder
  obtain ⟨hall', hwalk'⟩ := load_agrees hids (horder'.trans hperm.symm)
  refine ⟨hall.trans hall'.symm, hall, ?_⟩
  intro root d level
  exact ⟨(hwalk root d level).trans (hwalk' root d level).symm, hwalk root d level⟩

/-- Four groups on and below a cycle of two, in the orders in which two tables might hold them. -/
theorem load_order_hidden_cycle :
    let group (id : String) (parent : Option String) : Group :=
      ⟨id, id, "", "ann", parent, .enabled, ⟨0, 0⟩, ⟨0, 0⟩, 0, ""⟩
    let groups := [group "a" (some "b"), group "b" (some "a"), group "c" (some "a"),
      group "d" (some "gone")]
    let groups' := [group "d" (some "gone"), group "c" (some "a"), group "b" (some "a"),
      group "a" (some "b")]
    (groups.map (·.id)).Nodup ∧ groups.Perm groups' ∧
      (ofGroups groups).all = (ofGroups groups').all ∧
      (load groups).all = (load groups').all ∧
      ((load groups').walk "a" .descendants 0).map (·.map (·.path)) =
        some ["a", "a.b", "a.c"] := by
  intro group groups groups'
  have hids : (groups.map (·.id)).Nodup := by decide
  have hperm : groups.Perm groups' := (List.reverse_perm groups).symm
  have hpaths : ((ofGroups groups).walk "a" .descendants 0).map (·.map (·.path)) =
      some ["a", "a.b", "a.c"] := by
    decide +kernel
  obtain ⟨hall, -, hloaded⟩ := load_order_hidden hids hperm
  obtain ⟨hsame, -, hwalk⟩ := hloaded groups groups' (List.Perm.refl _) (List.Perm.refl _)
  obtain ⟨horders, hagrees⟩ := hwalk "a" .descendants 0
  refine ⟨hids, hperm, hall, hsame, ?_⟩
  rw [← horders, hagrees]
  exact hpaths

end Gatehouse.Hierarchy
