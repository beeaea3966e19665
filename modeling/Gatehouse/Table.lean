import Std.Data.TreeMap

/-!
# Gatehouse.Table — finite maps in key order

A `Table` is a list of entries with strictly increasing keys.  The order is part of the type, so a
listing of a table is sorted by key without further ado, and two tables with the same look-ups are
the same table (`Table.ext_lookup`).

One lemma per operation says what it does to look-up: `lookup_insert`, `lookup_erase`,
`lookup_modify`.  With them a table can be reasoned about as a finite map, and its order is only
looked at where a listing is.

Tables are lists and not trees, for they are compared and decided about: equality of tables is
equality of their entries.  Keys need an order that is transitive and in which only equal keys
compare as equal (`TransOrd`, `LawfulEqOrd`); an insertion walks to the place of its key, and the
entries behind it stay.

* `ofList` builds a table from entries in any order, of which the later ones stand;
  `ofList_entries` says that a table is the table of its own entries.
* `lookup_eq_some_iff` goes from look-ups to entries and back.
-/

namespace Gatehouse

open Std

universe u v

/-- Entries with strictly increasing keys. -/
structure Table (κ : Type u) (α : Type v) [Ord κ] where
  entries : List (κ × α)
  sorted : entries.Pairwise fun a b => compare a.1 b.1 = .lt

namespace Table

variable {κ : Type u} {α : Type v} [Ord κ]

theorem ext_entries {s t : Table κ α} (h : s.entries = t.entries) : s = t := by
  cases s; cases t; cases h; rfl

instance [DecidableEq κ] [DecidableEq α] : DecidableEq (Table κ α) := fun s t =>
  if h : s.entries = t.entries then .isTrue (ext_entries h)
  else .isFalse fun e => h (e ▸ rfl)

/-- The table without entries. -/
def empty : Table κ α := ⟨[], .nil⟩

instance : EmptyCollection (Table κ α) := ⟨empty⟩
instance : Inhabited (Table κ α) := ⟨empty⟩

/-- The keys, in increasing order. -/
def keys (t : Table κ α) : List κ := t.entries.map (·.1)

/-- The values, in the order of their keys. -/
def values (t : Table κ α) : List α := t.entries.map (·.2)

/-- The number of entries. -/
def size (t : Table κ α) : Nat := t.entries.length

variable [DecidableEq κ]

/-- The value under a key, if there is one. -/
def lookup (t : Table κ α) (k : κ) : Option α := t.entries.lookup k

/-- Whether a key has an entry. -/
def contains (t : Table κ α) (k : κ) : Bool := (t.lookup k).isSome

/-- Puts an entry in its place, replacing one under the same key. -/
def insertEntry (k : κ) (a : α) : List (κ × α) → List (κ × α)
  | [] => [(k, a)]
  | e :: rest => match compare k e.1 with
    | .lt => (k, a) :: e :: rest
    | .eq => (k, a) :: rest
    | .gt => e :: insertEntry k a rest

omit [DecidableEq κ] in
theorem mem_insertEntry {k : κ} {a : α} {es : List (κ × α)} {e : κ × α}
    (h : e ∈ insertEntry k a es) : e = (k, a) ∨ e ∈ es := by
  induction es with
  | nil => simpa [insertEntry] using h
  | cons x rest ih =>
    cases hc : compare k x.1 <;> simp [insertEntry, hc] at h ⊢ <;> grind

omit [DecidableEq κ] in
theorem sorted_insertEntry [TransOrd κ] [LawfulEqOrd κ] (k : κ) (a : α) {es : List (κ × α)}
    (h : es.Pairwise fun a b => compare a.1 b.1 = .lt) :
    (insertEntry k a es).Pairwise fun a b => compare a.1 b.1 = .lt := by
  induction es with
  | nil => simp [insertEntry]
  | cons x rest ih =>
    rw [List.pairwise_cons] at h
    cases hc : compare k x.1 with
    | lt =>
      simp only [insertEntry, hc, List.pairwise_cons]
      refine ⟨?_, h.1, h.2⟩
      intro y hy
      rcases List.mem_cons.1 hy with rfl | hy
      · exact hc
      · exact TransCmp.lt_trans hc (h.1 y hy)
    | eq =>
      simp only [insertEntry, hc, List.pairwise_cons]
      have := LawfulEqOrd.eq_of_compare hc
      exact ⟨fun y hy => this ▸ h.1 y hy, h.2⟩
    | gt =>
      -- the new entry lands somewhere behind `x`, and its key is above that of `x`
      simp only [insertEntry, hc, List.pairwise_cons]
      refine ⟨?_, ih h.2⟩
      intro y hy
      rcases mem_insertEntry hy with rfl | hy
      · exact OrientedCmp.lt_of_gt hc
      · exact h.1 y hy

/-- Adds an entry or replaces the value under its key. -/
def insert [TransOrd κ] [LawfulEqOrd κ] (t : Table κ α) (k : κ) (a : α) : Table κ α :=
  ⟨insertEntry k a t.entries, sorted_insertEntry k a t.sorted⟩

/-- Drops the entries whose key and value satisfy `p`. -/
def eraseWhere (t : Table κ α) (p : κ → α → Bool) : Table κ α :=
  ⟨t.entries.filter fun e => !p e.1 e.2, t.sorted.filter _⟩

/-- Drops the entry under a key. -/
def erase (t : Table κ α) (k : κ) : Table κ α := t.eraseWhere fun k' _ => k' = k

/-- Changes the value under a key, if there is one. -/
def modify (t : Table κ α) (k : κ) (f : α → α) : Table κ α :=
  ⟨t.entries.map fun e => if e.1 = k then (e.1, f e.2) else e, by
    rw [List.pairwise_map]
    refine t.sorted.imp ?_
    intro a b h
    split <;> split <;> exact h⟩

/-- The table of a list of entries; of two entries with one key the later stands. -/
def ofList [TransOrd κ] [LawfulEqOrd κ] (es : List (κ × α)) : Table κ α :=
  es.foldl (fun t e => t.insert e.1 e.2) ∅

/-! ## Look-up after each operation -/

@[simp] theorem lookup_empty (k : κ) : (∅ : Table κ α).lookup k = none := rfl

omit [Ord κ] in
theorem lookup_entries_cons (e : κ × α) (es : List (κ × α)) (k : κ) :
    (e :: es).lookup k = if k = e.1 then some e.2 else es.lookup k := by
  rw [List.lookup_cons]
  by_cases h : k = e.1
  · simp [h]
  · rw [beq_eq_false_iff_ne.2 h, if_neg h]

omit [Ord κ] in
theorem mem_of_lookup_entries {es : List (κ × α)} {k : κ} {a : α} (h : es.lookup k = some a) :
    (k, a) ∈ es := by
  induction es with
  | nil => simp at h
  | cons x rest ih =>
    rw [lookup_entries_cons] at h
    split at h
    · next e => obtain rfl := Option.some.inj h; simp [e]
    · exact List.mem_cons_of_mem _ (ih h)

theorem lookup_entries_of_mem [LawfulEqOrd κ] {es : List (κ × α)} {k : κ} {a : α}
    (hs : es.Pairwise fun a b => compare a.1 b.1 = .lt) (h : (k, a) ∈ es) :
    es.lookup k = some a := by
  induction es with
  | nil => simp at h
  | cons x rest ih =>
    rw [List.pairwise_cons] at hs
    rw [lookup_entries_cons]
    rcases List.mem_cons.1 h with rfl | h
    · simp
    · have hne : k ≠ x.1 := by
        intro e
        have hlt := hs.1 _ h
        rw [← e] at hlt
        simp [ReflCmp.compare_self] at hlt
      rw [if_neg hne, ih hs.2 h]

/-- Look-up finds exactly the listed entries. -/
theorem lookup_eq_some_iff [LawfulEqOrd κ] (t : Table κ α) (k : κ) (a : α) :
    t.lookup k = some a ↔ (k, a) ∈ t.entries :=
  ⟨mem_of_lookup_entries, lookup_entries_of_mem t.sorted⟩

theorem mem_values [LawfulEqOrd κ] {t : Table κ α} {a : α} :
    a ∈ t.values ↔ ∃ k, t.lookup k = some a := by
  unfold values
  rw [List.mem_map]
  constructor
  · rintro ⟨⟨k, a'⟩, hmem, rfl⟩
    exact ⟨k, (lookup_eq_some_iff _ _ _).2 hmem⟩
  · rintro ⟨k, hk⟩
    exact ⟨(k, a), (lookup_eq_some_iff _ _ _).1 hk, rfl⟩

theorem mem_keys [LawfulEqOrd κ] {t : Table κ α} {k : κ} :
    k ∈ t.keys ↔ ∃ a, t.lookup k = some a := by
  unfold keys
  rw [List.mem_map]
  constructor
  · rintro ⟨⟨k', a⟩, hmem, rfl⟩
    exact ⟨a, (lookup_eq_some_iff _ _ _).2 hmem⟩
  · rintro ⟨a, ha⟩
    exact ⟨(k, a), (lookup_eq_some_iff _ _ _).1 ha, rfl⟩

omit [DecidableEq κ] in
theorem keys_nodup [LawfulEqOrd κ] (t : Table κ α) : t.keys.Nodup := by
  unfold keys
  rw [List.Nodup, List.pairwise_map]
  refine t.sorted.imp ?_
  intro a b hlt heq
  rw [heq] at hlt
  simp [ReflCmp.compare_self] at hlt

theorem lookup_insertEntry [TransOrd κ] [LawfulEqOrd κ] (k : κ) (a : α) (es : List (κ × α))
    (hs : es.Pairwise fun a b => compare a.1 b.1 = .lt) (k' : κ) :
    (insertEntry k a es).lookup k' = if k' = k then some a else es.lookup k' := by
  induction es with
  | nil => simp [insertEntry, lookup_entries_cons]
  | cons x rest ih =>
    rw [List.pairwise_cons] at hs
    cases hc : compare k x.1 with
    | lt => simp only [insertEntry, hc]; rw [lookup_entries_cons]
    | eq =>
      have e := LawfulEqOrd.eq_of_compare hc
      simp only [insertEntry, hc]
      rw [lookup_entries_cons, lookup_entries_cons, ← e]
      by_cases h : k' = k <;> simp [h]
    | gt =>
      have hne : k ≠ x.1 := by
        intro e; rw [e] at hc; simp [ReflCmp.compare_self] at hc
      simp only [insertEntry, hc, lookup_entries_cons, ih hs.2]
      by_cases hx : k' = x.1
      · subst hx; simp [Ne.symm hne]
      · simp [hx]

@[simp] theorem lookup_insert [TransOrd κ] [LawfulEqOrd κ] (t : Table κ α) (k k' : κ) (a : α) :
    (t.insert k a).lookup k' = if k' = k then some a else t.lookup k' :=
  lookup_insertEntry k a t.entries t.sorted k'

theorem lookup_insert_of_free [TransOrd κ] [LawfulEqOrd κ] {t : Table κ α} {k k' : κ} {a b : α}
    (hfree : t.lookup k = none) (h : t.lookup k' = some a) :
    (t.insert k b).lookup k' = some a := by
  have hne : k' ≠ k := by
    rintro rfl
    rw [hfree] at h
    cases h
  rw [lookup_insert, if_neg hne, h]

/-- What is replaced gives way to the new value, and all else remains. -/
theorem lookup_insert_of_stored [TransOrd κ] [LawfulEqOrd κ] {t : Table κ α} {k k' : κ}
    {a a' b : α} (hstored : t.lookup k = some a) (h : t.lookup k' = some a') :
    (t.insert k b).lookup k' = some a' ∨ a' = a ∧ (t.insert k b).lookup k' = some b := by
  rw [lookup_insert]
  split
  · next hk =>
    rw [hk, hstored] at h
    exact Or.inr ⟨(Option.some.inj h).symm, rfl⟩
  · exact Or.inl h

theorem contains_insert_iff [TransOrd κ] [LawfulEqOrd κ] {t : Table κ α} {k k' : κ} {a : α} :
    (t.insert k a).contains k' = true ↔ k' = k ∨ t.contains k' = true := by
  unfold contains
  rw [lookup_insert]
  by_cases h : k' = k <;> simp [h]

theorem lookup_foldl_insert [TransOrd κ] [LawfulEqOrd κ] (es : List (κ × α)) (t : Table κ α)
    (k : κ) : (es.foldl (fun t e => t.insert e.1 e.2) t).lookup k =
      es.foldl (fun found e => if k = e.1 then some e.2 else found) (t.lookup k) := by
  induction es generalizing t with
  | nil => rfl
  | cons e rest ih => rw [List.foldl_cons, List.foldl_cons, ih, lookup_insert]

/-- In the table of a list the last entry under a key stands. -/
theorem lookup_ofList [TransOrd κ] [LawfulEqOrd κ] (es : List (κ × α)) (k : κ) :
    (ofList es).lookup k =
      es.foldl (fun found e => if k = e.1 then some e.2 else found) none :=
  lookup_foldl_insert es ∅ k

theorem lookup_eraseWhere [LawfulEqOrd κ] (t : Table κ α) (p : κ → α → Bool) (k : κ) :
    (t.eraseWhere p).lookup k = (t.lookup k).filter fun a => !p k a := by
  ext a
  simp [lookup_eq_some_iff, eraseWhere, Option.filter_eq_some_iff]

@[simp] theorem lookup_erase [LawfulEqOrd κ] (t : Table κ α) (k k' : κ) :
    (t.erase k).lookup k' = if k' = k then none else t.lookup k' := by
  rw [erase, lookup_eraseWhere]
  by_cases h : k' = k
  · simp [h]
  · cases t.lookup k' <;> simp [h]

omit [Ord κ] in
theorem lookup_modifyEntries (es : List (κ × α)) (k k' : κ) (f : α → α) :
    (es.map fun e => if e.1 = k then (e.1, f e.2) else e).lookup k' =
      if k' = k then (es.lookup k').map f else es.lookup k' := by
  induction es with
  | nil => simp
  | cons x rest ih =>
    simp only [List.map_cons, lookup_entries_cons, ih]
    by_cases hx : x.1 = k <;> by_cases h : k' = x.1 <;> grind

@[simp] theorem lookup_modify (t : Table κ α) (k k' : κ) (f : α → α) :
    (t.modify k f).lookup k' = if k' = k then (t.lookup k').map f else t.lookup k' :=
  lookup_modifyEntries t.entries k k' f

/-- A value that is modified stays under its key. -/
theorem contains_modify (t : Table κ α) (k k' : κ) (f : α → α) :
    (t.modify k f).contains k' = t.contains k' := by
  unfold contains
  rw [lookup_modify]
  split
  · rw [Option.isSome_map]
  · rfl

theorem contains_erase_of_ne [LawfulEqOrd κ] {k k' : κ} (hne : k' ≠ k) (t : Table κ α) :
    (t.erase k).contains k' = t.contains k' := by
  unfold contains
  rw [lookup_erase, if_neg hne]

/-- Tables with the same look-ups are equal. -/
theorem ext_lookup [TransOrd κ] [LawfulEqOrd κ] {s t : Table κ α}
    (h : ∀ k, s.lookup k = t.lookup k) : s = t := by
  -- two lists in one strict order that have the same members are the same list
  apply ext_entries
  have mem : ∀ e, e ∈ s.entries ↔ e ∈ t.entries := by
    intro e
    rw [← lookup_eq_some_iff, ← lookup_eq_some_iff, h]
  have irrefl : ∀ e : κ × α, ¬ compare e.1 e.1 = .lt := by
    intro e; simp [ReflCmp.compare_self]
  have nodup : ∀ u : Table κ α, u.entries.Nodup := by
    intro u
    refine u.sorted.imp ?_
    rintro a b hab rfl
    exact irrefl a hab
  refine List.Perm.eq_of_pairwise ?_ s.sorted t.sorted
    ((List.perm_ext_iff_of_nodup (nodup s) (nodup t)).2 mem)
  intro a b _ _ (hab : compare a.1 b.1 = .lt) (hba : compare b.1 a.1 = .lt)
  exact absurd (TransCmp.lt_trans hab hba) (irrefl a)

/-! ## Tables of lists -/

omit [Ord κ] in
theorem foldl_found_eq_some_iff {es : List (κ × α)} (hkeys : (es.map (·.1)).Nodup) {k : κ} {a : α}
    (found : Option α) :
    es.foldl (fun found e => if k = e.1 then some e.2 else found) found = some a ↔
      (k, a) ∈ es ∨ k ∉ es.map (·.1) ∧ found = some a := by
  induction es generalizing found with
  | nil => simp
  | cons e rest ih =>
      obtain ⟨k', a'⟩ := e
      rw [List.map_cons, List.nodup_cons] at hkeys
      rw [List.foldl_cons, ih hkeys.2, List.mem_cons, List.map_cons, List.mem_cons]
      by_cases hk : k = k'
      · subst hk
        have hrest : (k, a) ∉ rest := fun hmem => hkeys.1 (List.mem_map.2 ⟨_, hmem, rfl⟩)
        simp [hkeys.1, hrest, eq_comm]
      · simp [hk]

/-- The table of a list whose keys are distinct holds its entries and nothing else. -/
theorem lookup_ofList_eq_some_iff [TransOrd κ] [LawfulEqOrd κ] {es : List (κ × α)}
    (hkeys : (es.map (·.1)).Nodup) {k : κ} {a : α} :
    (ofList es).lookup k = some a ↔ (k, a) ∈ es := by
  rw [lookup_ofList, foldl_found_eq_some_iff hkeys]
  simp

/-- A table is the table of its own entries. -/
theorem ofList_entries [TransOrd κ] [LawfulEqOrd κ] (t : Table κ α) : ofList t.entries = t := by
  refine ext_lookup fun k => ?_
  ext a
  rw [lookup_ofList_eq_some_iff t.keys_nodup, lookup_eq_some_iff]

end Table

end Gatehouse
