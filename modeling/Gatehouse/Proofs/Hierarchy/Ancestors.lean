import Gatehouse.Proofs.Hierarchy.Lineage

/-!
# Gatehouse.Proofs.Hierarchy.Ancestors — the longest way up

From a known group there is one longest way up that meets no group twice (`Longest`), whether it
ends at a group without a parent, at one whose parent is missing, or because it would close a cycle.

The walk up and the listing of all groups follow parents with different bounds: the one by the depth
that was asked for, the other by the number of groups, which no way up exceeds.  Both are parts of
the longest way: `chain_eq_take` for the walk and `pathOf_eq_of_longest` for the listing.

That no way up is longer than there are groups is the only place where numbers come in.  A way that
meets no group twice is a list of ids without repetition, all of them known, so it is no longer than
the list of all ids.  A bound that is at least as large never cuts anything off.

The entries of the walk are those of the list except for two fields.  The level is the place on the
way, and the path is what is left of the walk from there on, read downwards; so the path of the
first entry is cut off at the top if the depth does not reach, while the listing has the whole.
-/

namespace Gatehouse.Hierarchy

variable {h : Hierarchy} {id : String} {e g : Group} {ids seen up : List String} {fuel most : Nat}
  {start : Option String}

/-! ## Chains of parents -/

/-- What is on a chain is stored and was not seen before. -/
theorem mem_chainAvoiding (hkeyed : h.Keyed) (hg : g ∈ h.chainAvoiding seen fuel start) :
    h.lookup g.id = some g ∧ g.id ∉ seen := by
  fun_induction h.chainAvoiding seen fuel start with
  | case1 | case2 | case3 | case4 => cases hg
  | case5 seen fuel id first hfirst hid ih =>
      rcases List.mem_cons.1 hg with rfl | hg
      · rw [hkeyed hfirst]
        exact ⟨hfirst, hid⟩
      · obtain ⟨hstored, hfresh⟩ := ih hg
        exact ⟨hstored, fun hmem => hfresh (List.mem_cons_of_mem _ hmem)⟩

/-- A chain begins where it is started. -/
theorem head?_chainAvoiding (hkeyed : h.Keyed)
    (hg : (h.chainAvoiding seen fuel start).head? = some g) : start = some g.id := by
  fun_induction h.chainAvoiding seen fuel start with
  | case1 | case2 | case3 | case4 => cases hg
  | case5 seen fuel id first hfirst hid ih =>
      cases hg
      rw [hkeyed hfirst]

/-- No group is on a chain twice, since each is seen by the time its parent is looked up. -/
theorem nodup_chainAvoiding (hkeyed : h.Keyed) :
    ((h.chainAvoiding seen fuel start).map (·.id)).Nodup := by
  fun_induction h.chainAvoiding seen fuel start with
  | case1 | case2 | case3 | case4 => exact List.nodup_nil
  | case5 seen fuel id first hfirst hid ih =>
      refine List.nodup_cons.2 ⟨?_, ih⟩
      intro hmem
      obtain ⟨g, hg, hsame⟩ := List.mem_map.1 hmem
      have hagain : g.id = id := hsame.trans (hkeyed hfirst)
      exact (mem_chainAvoiding hkeyed hg).2 (hagain ▸ List.mem_cons_self)

/-- Each group on a chain is followed by its parent. -/
theorem isChain_chainAvoiding (hkeyed : h.Keyed) :
    ((h.chainAvoiding seen fuel start).map (·.id)).IsChain
      fun child parent => h.IsParent parent child := by
  fun_induction h.chainAvoiding seen fuel start with
  | case1 | case2 | case3 | case4 => exact List.isChain_nil
  | case5 seen fuel id first hfirst hid ih =>
      refine List.isChain_cons.2 ⟨?_, ih⟩
      intro parent hparent
      rw [List.head?_map] at hparent
      obtain ⟨above, habove, rfl⟩ := Option.map_eq_some_iff.1 hparent
      show h.IsParent above.id first.id
      rw [hkeyed hfirst]
      exact ⟨first, hfirst, head?_chainAvoiding hkeyed habove⟩

/-- A smaller bound cuts a chain off. -/
theorem take_chainAvoiding (h : Hierarchy) (seen : List String) (fuel most : Nat)
    (start : Option String) :
    (h.chainAvoiding seen fuel start).take most = h.chainAvoiding seen (min most fuel) start := by
  fun_induction h.chainAvoiding seen fuel start generalizing most with
  | case1 => simp [chainAvoiding]
  | case2 => cases min most _ <;> simp [chainAvoiding]
  | case3 seen fuel id hid => cases most <;> simp [chainAvoiding, hid]
  | case4 seen fuel id first hfirst hid => cases most <;> simp [chainAvoiding, hfirst, hid]
  | case5 seen fuel id first hfirst hid ih =>
      cases most with
      | zero => simp [chainAvoiding]
      | succ most => simp [Nat.succ_min_succ, chainAvoiding, hfirst, hid, ih]

/-! ## Ways up -/

/-- A way up from a group, read downwards, is a line. -/
theorem line_chain (hkeyed : h.Keyed) : Line h.lookup ((h.chain most id).map (·.id)).reverse where
  known id' hid' := by
    obtain ⟨g, hg, rfl⟩ := List.mem_map.1 (List.mem_reverse.1 hid')
    rw [(mem_chainAvoiding hkeyed hg).1]
    rfl
  descends := List.isChain_reverse.2 (isChain_chainAvoiding hkeyed)
  distinct := List.nodup_reverse.2 (nodup_chainAvoiding hkeyed)

/-- A line is no longer than there are groups. -/
theorem Line.length_le (hline : Line h.lookup ids) : ids.length ≤ h.size :=
  length_le_size hline.distinct fun id hid => Option.isSome_iff_exists.1 (hline.known id hid)

/-- No bound that is larger than the number of groups makes a difference. -/
theorem chain_eq_take (hkeyed : h.Keyed) (most : Nat) (id : String) :
    h.chain most id = (h.chain h.size id).take most := by
  unfold chain
  rw [take_chainAvoiding]
  rcases Nat.le_total most h.size with hle | hle
  · rw [Nat.min_eq_left hle]
  · have hline : Line h.lookup ((h.chain most id).map (·.id)).reverse := line_chain hkeyed
    have hlength : (h.chain most id).length ≤ h.size := by
      simpa using hline.length_le
    calc h.chainAvoiding [] most (some id)
        = (h.chainAvoiding [] most (some id)).take h.size := (List.take_of_length_le hlength).symm
      _ = h.chainAvoiding [] (min h.size most) (some id) := take_chainAvoiding ..
      _ = h.chainAvoiding [] (min most h.size) (some id) := by rw [Nat.min_comm]

/-- The longest way up from a group that meets no group twice. -/
structure Longest (find : String → Option Group) (id : String) (up : List String) : Prop where
  starts : up.head? = some id
  line : Line find up.reverse
  longest : ∀ {other : List String}, other.head? = some id → Line find other.reverse →
    other.length ≤ up.length

/-- A way up that is short enough is the beginning of a chain. -/
theorem isPrefix_chain (hkeyed : h.Keyed) (hstart : up.head? = some id)
    (hline : Line h.lookup up.reverse) (hmost : up.length ≤ most) :
    up <+: (h.chain most id).map (·.id) := by
  have hend : up.reverse.getLast? = some id := by rwa [List.getLast?_reverse]
  have hclimb : ∀ {i}, i < up.length → h.climb i id = up[i]? := by
    intro i hi
    rw [hline.climb hend (by simpa using hi), List.reverse_reverse]
  have hdistinct : up.Nodup := List.nodup_reverse.1 hline.distinct
  rw [List.prefix_iff_getElem?]
  intro i hi
  apply (chainAvoiding_getElem? hkeyed).2
  refine ⟨by omega, by rw [hclimb hi, List.getElem?_eq_getElem hi], by simp, ?_⟩
  intro j j' hj hj'
  rw [hclimb (by omega), hclimb (by omega)]
  exact List.nodup_iff_getElem?_ne_getElem?.1 hdistinct j j' hj (by omega)

/-- The chain with as many steps as there are groups is the longest way up. -/
theorem longest_chain (hkeyed : h.Keyed) (hknown : h.contains id = true) :
    Longest h.lookup id ((h.chain h.size id).map (·.id)) where
  starts := by
    have hline : Line h.lookup [id].reverse := line_singleton hknown
    obtain ⟨rest, hrest⟩ := isPrefix_chain hkeyed rfl hline hline.length_le
    rw [← hrest]
    rfl
  line := line_chain hkeyed
  longest hstart hline := by
    have hle := hline.length_le
    rw [List.length_reverse] at hle
    exact (isPrefix_chain hkeyed hstart hline hle).length_le

/-- There is one longest way up. -/
theorem longest_iff (hkeyed : h.Keyed) (hknown : h.contains id = true) :
    Longest h.lookup id up ↔ up = (h.chain h.size id).map (·.id) := by
  constructor
  · intro hup
    have hchain := longest_chain hkeyed hknown
    have hlength : up.length = ((h.chain h.size id).map (·.id)).length :=
      le_antisymm (hchain.longest hup.starts hup.line) (hup.longest hchain.starts hchain.line)
    apply List.reverse_injective
    apply hup.line.unique hchain.line
    · rw [List.getLast?_reverse, hup.starts]
    · rw [List.getLast?_reverse, hchain.starts]
    · simpa using hlength
  · rintro rfl
    exact longest_chain hkeyed hknown

/-! ## The walk up -/

/-- The entry in a place of a chain has its place for its level and the rest of the chain for its
path. -/
theorem getElem?_projectChain (level : Nat) (groups : List Group) (i : Nat) :
    (projectChain level groups)[i]? = groups[i]?.map fun g =>
      project g (level + i) (joinPath ((groups.drop i).map (·.id)).reverse) := by
  induction groups generalizing level i with
  | nil => simp [projectChain]
  | cons g rest ih =>
      cases i with
      | zero => simp [projectChain]
      | succ i => simp [projectChain, ih, Nat.add_right_comm, Nat.add_assoc]

theorem map_id_projectChain (level : Nat) (groups : List Group) :
    (projectChain level groups).map (·.id) = groups.map (·.id) := by
  induction groups generalizing level with
  | nil => rfl
  | cons g rest ih => simp [projectChain, project, ih]

/-- The walk up is the longest way, as far as the depth goes. -/
theorem map_id_ancestors (hkeyed : h.Keyed) (hknown : h.contains id = true)
    (hup : Longest h.lookup id up) (depth : Nat) :
    (h.ancestors id depth).map (·.id) = up.take (min up.length (depth + 1)) := by
  rw [ancestors, map_id_projectChain, chain_eq_take hkeyed, List.map_take,
    ← (longest_iff hkeyed hknown).1 hup, List.take_eq_take_min, Nat.min_comm]

/-- The entry of a group on the walk up has the rest of the walk, read downwards, for its path. -/
theorem getElem?_ancestors (hkeyed : h.Keyed) {depth i : Nat}
    (he : (h.ancestors id depth)[i]? = some e) :
    ∃ g, h.lookup e.id = some g ∧ e = project g i
      (joinPath (((h.ancestors id depth).map (·.id)).drop i).reverse) := by
  rw [ancestors, map_id_projectChain]
  rw [ancestors, getElem?_projectChain] at he
  obtain ⟨g, hg, rfl⟩ := Option.map_eq_some_iff.1 he
  refine ⟨g, (mem_chainAvoiding hkeyed (List.mem_of_getElem? hg)).1, ?_⟩
  rw [Nat.zero_add, List.map_drop]

/-! ## The listing of all groups -/

/-- The path of a group is the longest way up from it, read downwards. -/
theorem pathOf_eq_of_longest (hkeyed : h.Keyed) (hknown : h.contains id = true)
    (hup : Longest h.lookup id up) : h.pathOf id = joinPath up.reverse := by
  rw [(longest_iff hkeyed hknown).1 hup]
  rfl

/-- The listing has every known group, with the longest way up for its path. -/
theorem mem_all_iff (hkeyed : h.Keyed) :
    e ∈ h.all ↔ ∃ g up, h.lookup e.id = some g ∧ Longest h.lookup e.id up ∧
      e = project g 0 (joinPath up.reverse) := by
  have hentry : e ∈ h.all ↔ ∃ id g, h.lookup id = some g ∧ project g 0 (h.pathOf id) = e := by
    simp [all, Table.lookup_eq_some_iff]
  have hknown : ∀ {id g}, h.lookup id = some g → h.contains id = true := by
    intro id g hg
    simp [Table.contains, hg]
  rw [hentry]
  constructor
  · rintro ⟨id, g, hg, rfl⟩
    rw [hkeyed.id_project hg]
    exact ⟨g, _, hg, longest_chain hkeyed (hknown hg), rfl⟩
  · rintro ⟨g, up, hg, hup, heq⟩
    refine ⟨e.id, g, hg, ?_⟩
    rw [pathOf_eq_of_longest hkeyed (hknown hg) hup]
    exact heq.symm

/-- The listing goes by increasing ids. -/
theorem pairwise_all (hkeyed : h.Keyed) : (h.all.map (·.id)).Pairwise (· < ·) := by
  rw [map_id_all hkeyed]
  exact h.pairwise_keys

/-! ## Both -/

/-- The first path of the walk up is the end of the path in the listing. -/
theorem exists_first_listed (hkeyed : h.Keyed) (hknown : h.contains id = true)
    (hup : Longest h.lookup id up) (depth : Nat) :
    ∃ first listed, (h.ancestors id depth).head? = some first ∧ listed ∈ h.all ∧ listed.id = id ∧
      listed.path = joinPath up.reverse ∧ first.path =
        joinPath (up.reverse.drop (up.length - min up.length (depth + 1))) := by
  obtain ⟨g, hg⟩ := Option.isSome_iff_exists.1 hknown
  have hlisted : project g 0 (joinPath up.reverse) ∈ h.all := by
    rw [mem_all_iff hkeyed]
    rw [hkeyed.id_project hg]
    exact ⟨g, up, hg, hup, rfl⟩
  have hids := map_id_ancestors hkeyed hknown hup depth
  have hfirst : ((h.ancestors id depth).map (·.id)).head? = some id := by
    obtain ⟨rest, rfl⟩ : ∃ rest, up = id :: rest := List.head?_eq_some_iff.1 hup.starts
    rw [hids, List.length_cons, Nat.succ_min_succ]
    rfl
  rw [List.head?_map] at hfirst
  obtain ⟨first, hhead, -⟩ := Option.map_eq_some_iff.1 hfirst
  refine ⟨first, _, hhead, hlisted, hkeyed.id_project hg _ _, rfl, ?_⟩
  rw [List.head?_eq_getElem?] at hhead
  obtain ⟨g', -, rfl⟩ := getElem?_ancestors hkeyed hhead
  rw [hids, List.drop_zero, ← List.reverse_take]
  rfl

/-- **The walk up and the listing** follow the longest way up.  For every list of groups, whatever
their parents are: the listing has every group once, by increasing id, on level zero and with its
longest way up, read downwards, for its path.  From every known group there is one longest way up.
The walk up exists, lists as much of that way as the depth allows, as the list has the groups but
with their places for their levels and the rest of the way, read downwards, for their paths.  So its
first path is the end of the path in the listing. -/
theorem ancestors_exact (groups : List Group) :
    (((ofGroups groups).all.map (·.id)).Pairwise (· < ·) ∧
      ∀ e, e ∈ (ofGroups groups).all ↔ ∃ g up, latest groups e.id = some g ∧
        Longest (latest groups) e.id up ∧
        e = { g with level := 0, path := String.intercalate "." up.reverse }) ∧
    ∀ id ∈ groups.map (·.id), ∀ level, ∃ up above,
      (∀ other, Longest (latest groups) id other ↔ other = up) ∧
      (ofGroups groups).walk id .ancestors level = some above ∧
      let m := min up.length (clampLevel level + 1)
      above.map (·.id) = up.take m ∧
      (∀ i e, above[i]? = some e → ∃ g, latest groups e.id = some g ∧ e =
        { g with level := i, path := String.intercalate "." ((up.take m).drop i).reverse }) ∧
      ∃ first listed, above.head? = some first ∧ listed ∈ (ofGroups groups).all ∧
        listed.id = id ∧ listed.path = String.intercalate "." up.reverse ∧
        first.path = String.intercalate "." (up.reverse.drop (up.length - m)) := by
  have hkeyed : (ofGroups groups).Keyed := keyed_ofGroups groups
  rw [← lookup_ofGroups]
  refine ⟨⟨pairwise_all hkeyed, fun e => mem_all_iff hkeyed⟩, ?_⟩
  intro id hid level
  have hknown : (ofGroups groups).contains id = true := contains_ofGroups hid
  have hup := longest_chain hkeyed hknown
  have hids := map_id_ancestors hkeyed hknown hup (clampLevel level)
  refine ⟨_, _, fun other => longest_iff hkeyed hknown, if_pos hknown, hids, ?_,
    exists_first_listed hkeyed hknown hup _⟩
  intro i e he
  rw [← hids]
  exact getElem?_ancestors hkeyed he

/-- A group below a cycle of three, and a walk up from it that ends before the cycle is closed. -/
theorem ancestors_exact_cycle :
    let group (id : String) (parent : Option String) : Group :=
      ⟨id, id, "", "ann", parent, .enabled, ⟨0, 0⟩, ⟨0, 0⟩, 0, ""⟩
    let groups := [group "b" none, group "d" (some "a"), group "c" (some "a"),
      group "a" (some "b"), group "e" (some "gone"), group "b" (some "c")]
    "d" ∈ groups.map (·.id) ∧ ∃ up above,
      (∀ other, Longest (latest groups) "d" other ↔ other = up) ∧
      String.intercalate "." up.reverse = "c.b.a.d" ∧
      (ofGroups groups).walk "d" .ancestors 2 = some above ∧
      above.map (fun g => (g.id, g.level, g.path)) =
        [("d", 0, "b.a.d"), ("a", 1, "b.a"), ("b", 2, "b")] := by
  intro group groups
  have hlisted : (ofGroups groups).all.map (fun g => (g.id, g.path)) =
      [("a", "c.b.a"), ("b", "a.c.b"), ("c", "b.a.c"), ("d", "c.b.a.d"), ("e", "e")] := by
    decide +kernel
  have hwalk : ((ofGroups groups).walk "d" .ancestors 2).map
      (·.map fun g => (g.id, g.level, g.path)) =
        some [("d", 0, "b.a.d"), ("a", 1, "b.a"), ("b", 2, "b")] := by
    decide +kernel
  obtain ⟨up, above, hup, habove, -, -, -, listed, -, hmem, hid, hpath, -⟩ :=
    (ancestors_exact groups).2 "d" (by decide) 2
  rw [habove, Option.map_some, Option.some.injEq] at hwalk
  have hentry : (listed.id, listed.path) ∈ (ofGroups groups).all.map fun g => (g.id, g.path) :=
    List.mem_map_of_mem hmem
  rw [hlisted, hid, hpath] at hentry
  exact ⟨by decide, up, above, hup, by simpa using hentry, habove, hwalk⟩

end Gatehouse.Hierarchy
