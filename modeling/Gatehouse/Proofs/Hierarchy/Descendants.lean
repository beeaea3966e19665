import Gatehouse.Proofs.Hierarchy.Lineage
import Mathlib.Data.List.Flatten

/-!
# Gatehouse.Proofs.Hierarchy.Descendants — what the walk down lists, and in which order

The walk down is made of rows, one for each distance (`rowAt`).  What holds of it is said of one row
after the other, each from the row above it:

* `exists_line_of_mem_rowAt` : every group has been reached along a line, and its path is that line;
* `inTurn_rowAt` : a row is in the order of the row above it, and under one parent in that of ids.

Which groups a row has is known from their distances.  `descendants_exact` puts this together.

The path is the part that distances do not say.  It is put together from above while the walk goes
down, by adding the id of a child to the path of the parent that reached it.  A group with a
distance is reached by one parent only, since it has only one; so the path spells out the line, and
a line is determined by its end and its length.

The order is said of parents, so it is a relation between two groups and the row above them
(`InTurn`).  For the listing as a whole the row above may be replaced by the listing itself, in
which it stands in one piece (`InTurn.mono`).
-/

namespace Gatehouse.Hierarchy

variable {h : Hierarchy} {root id : String} {e g : Group} {ids : List String} {k depth : Nat}

/-! ## Rows -/

/-- The groups at one distance below a group, and what has been seen when they are reached. -/
def rowAt (h : Hierarchy) (root : String) : Nat → List Reached × List String
  | 0 => ([⟨root, root⟩], [root])
  | k + 1 => h.nextRow (h.rowAt root k).2 (h.rowAt root k).1

/-- The ids of a row. -/
def idsAt (h : Hierarchy) (root : String) (k : Nat) : List String := (h.rowAt root k).1.map (·.id)

/-- The entries of a row. -/
def entriesAt (h : Hierarchy) (root : String) (k : Nat) : List Group :=
  h.projectRow k (h.rowAt root k).1

/-- The rows from one level on are the entries of the levels that follow. -/
theorem rowsFrom_rowAt (h : Hierarchy) (root : String) (level fuel : Nat) :
    h.rowsFrom (h.rowAt root level).2 level (h.rowAt root level).1 fuel =
      (List.range' level (fuel + 1)).flatMap (h.entriesAt root) := by
  induction fuel generalizing level with
  | zero => simp [rowsFrom, entriesAt]
  | succ fuel ih =>
      rw [List.range'_succ, List.flatMap_cons, ← ih (level + 1)]
      rfl

/-- **The walk down is its rows**, one after the other. -/
theorem descendants_eq_flatMap (h : Hierarchy) (root : String) (depth : Nat) :
    h.descendants root depth = (List.range (depth + 1)).flatMap (h.entriesAt root) := by
  rw [List.range_eq_range']
  exact h.rowsFrom_rowAt root 0 depth

/-- Each row is what its distance says, by going from row to row. -/
theorem isRow_rowAt (hroot : h.contains root = true) (k : Nat) :
    h.IsRow root k (h.rowAt root k).2 (h.rowAt root k).1 := by
  induction k with
  | zero => exact isRow_root hroot
  | succ k ih => exact ih.next

/-- A row has the groups at its distance. -/
theorem mem_idsAt (hroot : h.contains root = true) :
    id ∈ h.idsAt root k ↔ h.Distance id root k :=
  (isRow_rowAt hroot k).row

/-- A group has one distance. -/
theorem Distance.unique {j : Nat} (hj : h.Distance id root j) (hk : h.Distance id root k) :
    j = k := by
  rcases Nat.lt_trichotomy j k with hlt | heq | hlt
  · exact absurd hj.reached (hk.nearest j hlt)
  · exact heq
  · exact absurd hk.reached (hj.nearest k hlt)

/-! ## Paths -/

theorem path_of_mem_visitChildren {seen : List String} {path : String} {r : Reached}
    (hr : r ∈ (visitChildren seen path ids).1) : r.path = path ++ "." ++ r.id := by
  induction ids generalizing seen with
  | nil => simp [visitChildren] at hr
  | cons c rest ih =>
      rw [visitChildren] at hr
      split at hr
      · exact ih hr
      · rcases List.mem_cons.1 hr with rfl | hr
        · rfl
        · exact ih hr

/-- A path goes on from the path of the parent. -/
theorem path_of_mem_nextRow {seen : List String} {row : List Reached} {r : Reached}
    (hr : r ∈ (h.nextRow seen row).1) :
    ∃ above ∈ row, h.IsParent above.id r.id ∧ r.path = above.path ++ "." ++ r.id := by
  induction row generalizing seen with
  | nil => simp [nextRow] at hr
  | cons above rest ih =>
      rw [nextRow] at hr
      rcases List.mem_append.1 hr with hchild | hlater
      · refine ⟨above, List.mem_cons_self, ?_, path_of_mem_visitChildren hchild⟩
        have hid : r.id ∈ (visitChildren seen above.path (h.children above.id)).1.map (·.id) :=
          List.mem_map_of_mem hchild
        exact mem_children.1 (mem_visitChildren.1.1 hid).2
      · obtain ⟨above', hmem, hstep⟩ := ih hlater
        exact ⟨above', List.mem_cons_of_mem _ hmem, hstep⟩

/-- **Every group has been reached along a line**, and its path is that line. -/
theorem exists_line_of_mem_rowAt (hroot : h.contains root = true) {r : Reached}
    (hr : r ∈ (h.rowAt root k).1) :
    ∃ ids, Line h.lookup ids ∧ ids.head? = some root ∧ ids.getLast? = some r.id ∧
      ids.length = k + 1 ∧ r.path = joinPath ids := by
  induction k generalizing r with
  | zero =>
      obtain rfl : r = ⟨root, root⟩ := by simpa [rowAt] using hr
      exact ⟨[root], line_singleton hroot, rfl, rfl, rfl, by simp [joinPath]⟩
  | succ k ih =>
      obtain ⟨above, hmem, hparent, hpath⟩ := path_of_mem_nextRow hr
      obtain ⟨ids, hline, hstart, hend, hlength, habove⟩ := ih hmem
      have hne : ids ≠ [] := by
        rintro rfl
        simp at hlength
      have hdistance : h.Distance r.id root (k + 1) :=
        (mem_idsAt hroot).1 (List.mem_map_of_mem hr)
      have hlonger : (ids ++ [r.id]).length = k + 2 := by simp [hlength]
      refine ⟨ids ++ [r.id], ?_, ?_, List.getLast?_concat, hlonger, ?_⟩
      -- the line goes one step further; it meets no group twice because it is as long as the
      -- distance
      · apply line_of_distance _ _ List.getLast?_concat hlonger hdistance
        · intro id hid
          rcases List.mem_append.1 hid with hid | hid
          · exact hline.known id hid
          · rw [List.mem_singleton.1 hid]
            exact hdistance.contains
        · refine List.isChain_append.2 ⟨hline.descends, List.isChain_singleton _, ?_⟩
          intro last hlast child hchild
          rw [hend] at hlast
          cases hlast
          cases hchild
          exact hparent
      · rw [List.head?_append_of_ne_nil _ hne, hstart]
      · rw [hpath, habove]
        simp [joinPath, String.intercalate_append_of_ne_nil hne (List.cons_ne_nil _ _)]

/-! ## The order of a row -/

/-- Whether two groups are in the order of their parents, or under one parent in that of their
ids. -/
def InTurn (h : Hierarchy) (above : List String) (a b : String) : Prop :=
  ∃ p q, h.IsParent p a ∧ h.IsParent q b ∧ ([p, q].Sublist above ∨ p = q ∧ a < b)

theorem InTurn.mono {above above' : List String} (hsub : above.Sublist above') {a b : String}
    (hab : h.InTurn above a b) : h.InTurn above' a b := by
  obtain ⟨p, q, hp, hq, hbefore | hsame⟩ := hab
  · exact ⟨p, q, hp, hq, Or.inl (hbefore.trans hsub)⟩
  · exact ⟨p, q, hp, hq, Or.inr hsame⟩

/-- Nothing comes before itself. -/
theorem InTurn.ne {above : List String} (habove : above.Nodup) {a b : String}
    (hab : h.InTurn above a b) : a ≠ b := by
  rintro rfl
  obtain ⟨p, q, hp, hq, hbefore | ⟨-, hlt⟩⟩ := hab
  · obtain rfl : p = q := hp.unique hq
    exact List.nodup_iff_sublist.1 habove p hbefore
  · exact absurd hlt (String.lt_irrefl a)

/-- Children are listed by increasing ids. -/
theorem children_pairwise (h : Hierarchy) (id : String) :
    (h.children id).Pairwise (· < ·) := by
  have hkeys : (h.children id).Sublist h.keys := List.filter_sublist.map _
  exact h.pairwise_keys.sublist hkeys

/-- Those children that were not seen stay in their order. -/
theorem visitChildren_sublist (seen : List String) (path : String) (ids : List String) :
    ((visitChildren seen path ids).1.map (·.id)).Sublist ids := by
  induction ids generalizing seen with
  | nil => simp [visitChildren]
  | cons c rest ih =>
      rw [visitChildren]
      split
      · exact (ih _).cons c
      · exact (ih _).cons_cons c

/-- The next row goes by the places of the parents in the row before it, and under one parent by
ids.  The induction is on the row, so what comes of its first group stands before what comes of all
others. -/
theorem inTurn_nextRow {seen : List String} (row : List Reached) :
    ((h.nextRow seen row).1.map (·.id)).Pairwise (h.InTurn (row.map (·.id))) := by
  induction row generalizing seen with
  | nil => simp [nextRow]
  | cons above rest ih =>
      rw [nextRow, List.map_append, List.map_cons, List.pairwise_append]
      have hchild : ∀ {id},
          id ∈ (visitChildren seen above.path (h.children above.id)).1.map (·.id) →
            h.IsParent above.id id := fun hid => mem_children.1 (mem_visitChildren.1.1 hid).2
      refine ⟨?_, ?_, ?_⟩
      · -- under the first parent the ids increase
        have hsorted := (h.children_pairwise above.id).sublist
          (visitChildren_sublist seen above.path (h.children above.id))
        apply hsorted.imp_of_mem
        intro a b ha hb hlt
        exact ⟨above.id, above.id, hchild ha, hchild hb, Or.inr ⟨rfl, hlt⟩⟩
      · exact ih.imp (InTurn.mono (List.sublist_cons_self _ _))
      · intro a ha b hb
        obtain ⟨parent, hmem, hstep⟩ := (mem_nextRow.1.1 hb).2
        have hbefore : [above.id, parent].Sublist (above.id :: rest.map (·.id)) :=
          (List.singleton_sublist.2 hmem).cons_cons above.id
        exact ⟨above.id, parent, hchild ha, hstep, Or.inl hbefore⟩

/-- **A row is in the order of the row above it.** -/
theorem inTurn_rowAt (h : Hierarchy) (root : String) (k : Nat) :
    (h.idsAt root (k + 1)).Pairwise (h.InTurn (h.idsAt root k)) :=
  inTurn_nextRow _

/-- No row has a group twice: a group that is in turn before another one is another one. -/
theorem idsAt_nodup (h : Hierarchy) (root : String) (k : Nat) : (h.idsAt root k).Nodup := by
  induction k with
  | zero => exact List.nodup_singleton root
  | succ k ih => exact (h.inTurn_rowAt root k).imp (InTurn.ne ih)

/-! ## The entries of a row -/

theorem mem_entriesAt : e ∈ h.entriesAt root k ↔
    ∃ r ∈ (h.rowAt root k).1, ∃ g, h.lookup r.id = some g ∧ project g k r.path = e := by
  simp [entriesAt, projectRow]

theorem level_of_mem_entriesAt (he : e ∈ h.entriesAt root k) : e.level = k := by
  obtain ⟨r, -, g, -, rfl⟩ := mem_entriesAt.1 he
  rfl

/-- Every group of a row has an entry. -/
theorem map_id_entriesAt (hkeyed : h.Keyed) (hroot : h.contains root = true) (k : Nat) :
    (h.entriesAt root k).map (·.id) = h.idsAt root k := by
  unfold entriesAt projectRow idsAt
  rw [List.map_filterMap]
  apply List.filterMap_eq_map_iff_forall_eq_some.2
  intro r hr
  have hknown : h.contains r.id = true :=
    ((mem_idsAt hroot).1 (List.mem_map_of_mem hr)).contains
  obtain ⟨g, hg⟩ := Option.isSome_iff_exists.1 hknown
  simp [hg, project, hkeyed hg]

/-- **The entries of a row** are the groups at the end of the lines of its length. -/
theorem mem_entriesAt_iff (hkeyed : h.Keyed) (hroot : h.contains root = true) :
    e ∈ h.entriesAt root k ↔ ∃ g ids, h.lookup e.id = some g ∧ Line h.lookup ids ∧
      ids.head? = some root ∧ ids.getLast? = some e.id ∧ ids.length = k + 1 ∧
      e = project g k (joinPath ids) := by
  rw [mem_entriesAt]
  constructor
  · rintro ⟨r, hr, g, hg, rfl⟩
    obtain ⟨ids, hline, hstart, hend, hlength, hpath⟩ := exists_line_of_mem_rowAt hroot hr
    rw [hkeyed.id_project hg]
    exact ⟨g, ids, hg, hline, hstart, hend, hlength, by rw [hpath]⟩
  · rintro ⟨g, ids, hg, hline, hstart, hend, hlength, heq⟩
    have hmem : e.id ∈ h.idsAt root k :=
      (mem_idsAt hroot).2 (hline.distance hstart hend hlength)
    obtain ⟨r, hr, hid⟩ := List.mem_map.1 hmem
    obtain ⟨ids', hline', -, hend', hlength', hpath⟩ := exists_line_of_mem_rowAt hroot hr
    rw [hid] at hend'
    have hsame : ids' = ids := hline'.unique hline hend' hend (hlength'.trans hlength.symm)
    refine ⟨r, hr, g, hid ▸ hg, ?_⟩
    rw [heq, hpath, hsame]

/-! ## The whole walk -/

theorem map_id_descendants (hkeyed : h.Keyed) (hroot : h.contains root = true) (depth : Nat) :
    (h.descendants root depth).map (·.id) = (List.range (depth + 1)).flatMap (h.idsAt root) := by
  rw [descendants_eq_flatMap, List.map_flatMap]
  apply List.flatMap_congr
  intro k _
  exact map_id_entriesAt hkeyed hroot k

/-- The walk has no group twice, neither within a row nor in two rows, since a group has one
distance. -/
theorem nodup_descendants (hkeyed : h.Keyed) (hroot : h.contains root = true) (depth : Nat) :
    ((h.descendants root depth).map (·.id)).Nodup := by
  rw [map_id_descendants hkeyed hroot, List.nodup_flatMap]
  refine ⟨fun k _ => h.idsAt_nodup root k, ?_⟩
  apply List.nodup_range.imp
  intro j k hjk id hj hk
  exact hjk (((mem_idsAt hroot).1 hj).unique ((mem_idsAt hroot).1 hk))

/-- The walk lists the groups at the ends of lines from the root that are within the depth. -/
theorem mem_descendants (hkeyed : h.Keyed) (hroot : h.contains root = true) :
    e ∈ h.descendants root depth ↔ ∃ g ids k, h.lookup e.id = some g ∧ k ≤ depth ∧
      Line h.lookup ids ∧ ids.head? = some root ∧ ids.getLast? = some e.id ∧ ids.length = k + 1 ∧
      e = project g k (joinPath ids) := by
  rw [descendants_eq_flatMap, List.mem_flatMap]
  simp only [List.mem_range, Nat.lt_succ_iff, mem_entriesAt_iff hkeyed hroot]
  grind

/-- The root stands alone in the first row. -/
theorem head?_descendants (hkeyed : h.Keyed) (hroot : h.contains root = true) (depth : Nat) :
    ((h.descendants root depth).map (·.id)).head? = some root := by
  rw [map_id_descendants hkeyed hroot, List.range_succ_eq_map]
  rfl

/-- Whether one entry of a listing has its place before another one: it is on a lower level, or on
the same level with a parent that is listed before the other's, or under the same parent with a
smaller id. -/
def Precedes (listed : List String) (a b : Group) : Prop :=
  a.level < b.level ∨ a.level = b.level ∧ ∃ p q, a.parent = some p ∧ b.parent = some q ∧
    ([p, q].Sublist listed ∨ p = q ∧ a.id < b.id)

theorem precedes_of_inTurn (hkeyed : h.Keyed) {r s : Reached}
    (hturn : h.InTurn ids r.id s.id) {a b : Group} (ha : h.lookup r.id = some a)
    (hb : h.lookup s.id = some b) (k : Nat) :
    Precedes ids (project a k r.path) (project b k s.path) := by
  obtain ⟨p, q, ⟨a', ha', hp⟩, ⟨b', hb', hq⟩, hplace⟩ := hturn
  cases ha.symm.trans ha'
  cases hb.symm.trans hb'
  refine Or.inr ⟨rfl, p, q, hp, hq, ?_⟩
  show [p, q].Sublist ids ∨ p = q ∧ a.id < b.id
  rw [hkeyed ha, hkeyed hb]
  exact hplace

theorem pairwise_entriesAt (hkeyed : h.Keyed) {listed : List String}
    (hturn : (h.idsAt root k).Pairwise (h.InTurn listed)) :
    (h.entriesAt root k).Pairwise (Precedes listed) := by
  unfold entriesAt projectRow
  rw [List.pairwise_filterMap]
  apply (List.pairwise_map.1 hturn).imp
  intro r s hrs a ha b hb
  obtain ⟨a, hfound, rfl⟩ := Option.map_eq_some_iff.1 ha
  obtain ⟨b, hfound', rfl⟩ := Option.map_eq_some_iff.1 hb
  exact precedes_of_inTurn hkeyed hrs hfound hfound' k

/-- The order of the whole listing: between rows by level, and within a row by the row above, which
stands in the listing before it. -/
theorem pairwise_descendants (hkeyed : h.Keyed) (hroot : h.contains root = true) (depth : Nat) :
    (h.descendants root depth).Pairwise (Precedes ((h.descendants root depth).map (·.id))) := by
  rw [map_id_descendants hkeyed hroot, descendants_eq_flatMap, List.pairwise_flatMap]
  constructor
  · intro k hk
    apply pairwise_entriesAt hkeyed
    cases k with
    | zero => exact List.pairwise_singleton _ _
    | succ k =>
        -- the row above is a part of what is listed
        have habove : [k].Sublist (List.range (depth + 1)) := by
          simp at hk ⊢
          omega
        have hsub := habove.flatMap (h.idsAt root)
        rw [List.flatMap_singleton] at hsub
        exact (h.inTurn_rowAt root k).imp (InTurn.mono hsub)
  · apply List.pairwise_lt_range.imp
    intro j k hjk a ha b hb
    refine Or.inl ?_
    rwa [level_of_mem_entriesAt ha, level_of_mem_entriesAt hb]

/-- **The walk down.**  For every list of groups, whatever their parents are, every known root and
every level, the walk exists.  It lists exactly the groups at the end of a line from the root that
is within the depth, each once, as the list has it but with the length of that line for its level
and the line for its path.  The root comes first, and the entries are in order: by level, then by
the place of the parent, then by id. -/
theorem descendants_exact (groups : List Group) {root : String} (hroot : root ∈ groups.map (·.id))
    (level : Nat) : ∃ below, (ofGroups groups).walk root .descendants level = some below ∧
      (below.map (·.id)).Nodup ∧
      (∀ e, e ∈ below ↔ ∃ g ids k, latest groups e.id = some g ∧ k ≤ clampLevel level ∧
        Line (latest groups) ids ∧ ids.head? = some root ∧ ids.getLast? = some e.id ∧
        ids.length = k + 1 ∧ e = { g with level := k, path := String.intercalate "." ids }) ∧
      (below.map (·.id)).head? = some root ∧
      below.Pairwise (Precedes (below.map (·.id))) := by
  have hkeyed : (ofGroups groups).Keyed := keyed_ofGroups groups
  have hknown : (ofGroups groups).contains root = true := contains_ofGroups hroot
  refine ⟨_, if_pos hknown, nodup_descendants hkeyed hknown _, ?_,
    head?_descendants hkeyed hknown _, pairwise_descendants hkeyed hknown _⟩
  intro e
  rw [← lookup_ofGroups]
  exact mem_descendants hkeyed hknown

/-- Two levels below a group that lies below itself.  The group "c" stands twice in the list, at
first outside; "d" comes after "e" because its parent comes after that of "e"; "f" lies too deep,
and "x" below a group that is missing. -/
theorem descendants_exact_cycle :
    let group (id : String) (parent : Option String) : Group :=
      ⟨id, id, "", "ann", parent, .enabled, ⟨0, 0⟩, ⟨0, 0⟩, 0, ""⟩
    let groups := [group "c" none, group "f" (some "e"), group "e" (some "b"),
      group "x" (some "gone"), group "d" (some "c"), group "c" (some "a"), group "b" (some "a"),
      group "a" (some "e")]
    "a" ∈ groups.map (·.id) ∧ ∃ below,
      (ofGroups groups).walk "a" .descendants 2 = some below ∧
      below.map (fun g => (g.id, g.level, g.path)) =
        [("a", 0, "a"), ("b", 1, "a.b"), ("c", 1, "a.c"), ("e", 2, "a.b.e"), ("d", 2, "a.c.d")] ∧
      below.Pairwise (Precedes ["a", "b", "c", "e", "d"]) := by
  intro group groups
  have hlisted : ((ofGroups groups).walk "a" .descendants 2).map
      (·.map fun g => (g.id, g.level, g.path)) =
        some [("a", 0, "a"), ("b", 1, "a.b"), ("c", 1, "a.c"), ("e", 2, "a.b.e"),
          ("d", 2, "a.c.d")] := by
    decide +kernel
  have hroot : "a" ∈ groups.map (·.id) := by decide
  obtain ⟨below, hbelow, -, -, -, horder⟩ := descendants_exact groups hroot 2
  rw [hbelow, Option.map_some, Option.some.injEq] at hlisted
  have hids : below.map (·.id) = ["a", "b", "c", "e", "d"] := by
    have hfirst := congrArg (·.map (·.1)) hlisted
    simpa [Function.comp_def] using hfirst
  rw [hids] at horder
  exact ⟨hroot, below, hbelow, hlisted, horder⟩

end Gatehouse.Hierarchy
