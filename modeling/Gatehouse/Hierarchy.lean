import Gatehouse.Entity
import Gatehouse.Table

/-!
# Gatehouse.Hierarchy — walks through nested groups

Groups point to their parents.  A `Hierarchy` holds the groups by id, and of two groups with one id
the later.  Nothing is assumed of the pointers: they may dangle and they may form cycles.

* `walk id .ancestors` is the chain of parents from a group upwards, without repetition.
* `walk id .descendants` lists the groups below a group by increasing distance, and at one distance
  in the order of their parents and then of their ids.
* `all` lists every group by id.

Each listed group carries the path that leads to it, from the top downwards and joined by dots.

The store keeps groups acyclic, but a listing is also made of what a database returned or of what a
caller may see, where parents are missing; so a walk must end on its own account.  Upwards that is
the list of ids that were met (`chainAvoiding`), which stops at the first that comes again.
Downwards it is the set of what has been reached, shared by a whole row: a group that two groups
lead to is entered at the first of them.  The depth of both is bounded besides, and the fuel of the
recursions is that bound and no more.

Where groups come from in some order, from a hash table or a query, the table sorts it away: it is
ordered by id, `children` keeps that order, and nothing here looks at the order of its input but
where two groups have one id.  `Gatehouse.Proofs.Hierarchy` and the modules under it say what the
walks list, in which order, and how the two are related.
-/

namespace Gatehouse

/-! ## Depths -/

/-- The depth of a walk for which `level` was asked: zero asks for the most, which is five. -/
def clampLevel (level : Nat) : Nat := if level = 0 then 5 else min (max level 1) 5

theorem clampLevel_le (level : Nat) : clampLevel level ≤ 5 := by
  unfold clampLevel; split <;> omega

theorem clampLevel_pos (level : Nat) : 1 ≤ clampLevel level := by
  unfold clampLevel; split <;> omega

/-! ## Hierarchies -/

/-- Groups by id. -/
abbrev Hierarchy := Table String Group

namespace Hierarchy

/-- The hierarchy of a list of groups; of two groups with one id the later stands. -/
def ofGroups (groups : List Group) : Hierarchy := Table.ofList (groups.map fun g => (g.id, g))

/-- The ids of the groups directly below a group, in increasing order. -/
def children (h : Hierarchy) (id : String) : List String :=
  (h.entries.filter fun e => e.2.parent = some id).map (·.1)

/-- The path through a list of ids. -/
def joinPath (ids : List String) : String := String.intercalate "." ids

/-- The chain of groups from an id upwards, without the ids of `seen`; it has at most `fuel` groups.
It ends at a group without a parent, at a parent that is not there, and before an id that was met
before. -/
def chainAvoiding (h : Hierarchy) (seen : List String) : Nat → Option String → List Group
  | 0, _ => []
  | _, none => []
  | fuel + 1, some id =>
    match h.lookup id with
    | none => []
    | some g =>
      if id ∈ seen then [] else g :: chainAvoiding h (id :: seen) fuel g.parent

/-- The chain of at most `most` groups from an id upwards, without repetition. -/
def chain (h : Hierarchy) (most : Nat) (id : String) : List Group :=
  h.chainAvoiding [] most (some id)

/-- A group as an entry of a listing. -/
def project (g : Group) (level : Nat) (path : String) : Group := { g with level, path }

/-- The entries of a chain of parents: each at its distance, with the path down to it. -/
def projectChain (level : Nat) : List Group → List Group
  | [] => []
  | g :: rest =>
    project g level (joinPath ((g :: rest).map (·.id)).reverse) :: projectChain (level + 1) rest

/-- The walk from a group to its ancestors. -/
def ancestors (h : Hierarchy) (root : String) (depth : Nat) : List Group :=
  projectChain 0 (h.chain (depth + 1) root)

/-! ## Descendants -/

/-- A group that a walk has reached: its id and the path to it. -/
structure Reached where
  id : String
  path : String
deriving DecidableEq, Repr

/-- The children of one reached group that were not seen before, and what has been seen then.  A
child counts as seen from the moment it is entered, so the next group of the row cannot enter it
again. -/
def visitChildren (seen : List String) (path : String) :
    List String → List Reached × List String
  | [] => ([], seen)
  | c :: rest =>
    if c ∈ seen then visitChildren seen path rest
    else
      let (more, seen) := visitChildren (c :: seen) path rest
      (⟨c, path ++ "." ++ c⟩ :: more, seen)

/-- The groups one step below a row of reached groups, and what has been seen then. -/
def nextRow (h : Hierarchy) (seen : List String) : List Reached → List Reached × List String
  | [] => ([], seen)
  | r :: rest =>
    let (row, seen) := visitChildren seen r.path (h.children r.id)
    let (more, seen) := nextRow h seen rest
    (row ++ more, seen)

/-- The entries of a row of reached groups. -/
def projectRow (h : Hierarchy) (level : Nat) (row : List Reached) : List Group :=
  row.filterMap fun r => (h.lookup r.id).map fun g => project g level r.path

/-- The rows from one level downwards, as many as `fuel` says. -/
def rowsFrom (h : Hierarchy) (seen : List String) (level : Nat) (row : List Reached) :
    Nat → List Group
  | 0 => h.projectRow level row
  | fuel + 1 =>
    let (next, seen) := h.nextRow seen row
    h.projectRow level row ++ rowsFrom h seen (level + 1) next fuel

/-- The walk from a group to its descendants. -/
def descendants (h : Hierarchy) (root : String) (depth : Nat) : List Group :=
  h.rowsFrom [root] 0 [⟨root, root⟩] depth

/-! ## Walks and listings -/

/-- A walk from a group, which is its first entry; there is none from an unknown group. -/
def walk (h : Hierarchy) (root : String) (d : Direction) (level : Nat) : Option (List Group) :=
  if h.contains root then
    some (match d with
      | .ancestors => h.ancestors root (clampLevel level)
      | .descendants => h.descendants root (clampLevel level))
  else none

/-- The path of a group from the top of its branch. -/
def pathOf (h : Hierarchy) (id : String) : String :=
  joinPath ((h.chain h.size id).map (·.id)).reverse

/-- Every group by id, with its full path. -/
def all (h : Hierarchy) : List Group := h.entries.map fun e => project e.2 0 (h.pathOf e.1)

end Hierarchy

end Gatehouse
