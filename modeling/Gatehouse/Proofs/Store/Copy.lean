import Gatehouse.Table
import Mathlib.Data.List.Nodup

/-!
# Gatehouse.Proofs.Store.Copy — lists that hold what a table holds

A table keeps its values in the order of their keys.  Another store may keep the same values in a
list, in whatever order they came or happen to be read in.  `Copy` is the relation between the two,
for values that stand under keys of their own; the list may hold each value in another form, which
has the same key, as a database does whose instants are coarser.

What a table answers is what is found in such a list (`Copy.find?_key`, `Copy.find?_eq`).  The order
of the list must not show, so what is found has to be the only value that there is for the question;
and where a listing is ordered, its order has to be strict (`Copy.inOrder_filter`).

What is done to the table can be done to the list: a value is added at the end (`Copy.insert`),
changed in its place (`Copy.modify`) or left out (`Copy.erase`).  With these three a relation
between two stores is kept by induction over the calls that both are given.
-/

namespace Gatehouse

open Std

/-! ## Lists in another order -/

/-- If only one value satisfies a predicate, it is found in any order. -/
theorem find?_eq_of_perm {α : Type} {P : α → Bool} {as bs : List α} (h : as.Perm bs)
    (hunique : ∀ a ∈ bs, ∀ b ∈ bs, P a = true → P b = true → a = b) : as.find? P = bs.find? P := by
  have hany : ∀ cs : List α, cs.Pairwise fun _ _ => True :=
    fun _ => List.pairwise_of_forall fun _ _ => trivial
  have hfilter : as.filter P = bs.filter P := by
    refine List.Perm.eq_of_pairwise ?_ (hany _) (hany _) (h.filter P)
    intro a b ha hb _ _
    obtain ⟨ha, hPa⟩ := List.mem_filter.1 ha
    obtain ⟨hb, hPb⟩ := List.mem_filter.1 hb
    exact hunique a (h.mem_iff.1 ha) b hb hPa hPb
  rw [← List.head?_filter, hfilter, List.head?_filter]

section Order

variable {α κ : Type} [Ord κ] [TransOrd κ] [LawfulEqOrd κ]

/-- Values in the order of their keys. -/
def inOrder (key : α → κ) (as : List α) : List α :=
  as.mergeSort fun a b => (compare (key a) (key b)).isLE

omit [LawfulEqOrd κ] in
/-- Values that are sorted are in order. -/
theorem pairwise_inOrder (key : α → κ) (as : List α) :
    (inOrder key as).Pairwise fun a b => (compare (key a) (key b)).isLE = true := by
  refine List.pairwise_mergeSort (fun a b c => TransCmp.isLE_trans) (fun a b => ?_) as
  have hswap : compare (key b) (key a) = (compare (key a) (key b)).swap := OrientedCmp.eq_swap
  rw [hswap]
  cases compare (key a) (key b) <;> rfl

/-- Values with keys in strict order are what any list of them is sorted to. -/
theorem inOrder_eq_of_perm {key : α → κ} {as bs : List α} (h : as.Perm bs)
    (hsorted : bs.Pairwise fun a b => compare (key a) (key b) = .lt) : inOrder key as = bs := by
  have hnodup : (bs.map key).Nodup := by
    rw [List.Nodup, List.pairwise_map]
    refine hsorted.imp fun {a b} hlt heq => ?_
    rw [heq] at hlt
    simp only [ReflCmp.compare_self, reduceCtorEq] at hlt
  have hperm : (inOrder key as).Perm bs := (List.mergeSort_perm as _).trans h
  have hle : bs.Pairwise fun a b => (compare (key a) (key b)).isLE = true :=
    hsorted.imp fun hlt => by rw [hlt]; rfl
  refine List.Perm.eq_of_pairwise ?_ (pairwise_inOrder key as) hle hperm
  intro a b ha hb hab hba
  have hkey : key a = key b := LawfulEqOrd.eq_of_compare (OrientedCmp.isLE_antisymm hab hba)
  exact List.inj_on_of_nodup_map hnodup (hperm.mem_iff.1 ha) hb hkey

end Order

/-! ## Tables -/

section Tables

variable {κ α : Type} [Ord κ] [TransOrd κ] [LawfulEqOrd κ] [DecidableEq κ] {t : Table κ α} {k : κ}

/-- To change what is there is to put the change in its place. -/
theorem Table.insert_eq_modify {a : α} (g : α → α) (h : t.lookup k = some a) :
    t.insert k (g a) = t.modify k g := by
  refine Table.ext_lookup fun k' => ?_
  rw [Table.lookup_insert, Table.lookup_modify]
  split
  · next hk =>
    rw [hk, h]
    rfl
  · rfl

/-- To change what is not there changes nothing. -/
theorem Table.modify_of_free (g : α → α) (h : t.lookup k = none) : t.modify k g = t := by
  refine Table.ext_lookup fun k' => ?_
  rw [Table.lookup_modify]
  split
  · next hk =>
    rw [hk, h]
    rfl
  · rfl

/-- To remove what is not there changes nothing. -/
theorem Table.erase_of_free (h : t.lookup k = none) : t.erase k = t := by
  refine Table.ext_lookup fun k' => ?_
  rw [Table.lookup_erase]
  split
  · next hk => rw [hk, h]
  · rfl

end Tables

/-! ## Copies of a table -/

/-- Whether a list has the values of a table in the form that `f` gives them.  Values stand under
their own keys, which that form leaves. -/
structure Copy {κ α : Type} [Ord κ] [DecidableEq κ] (key : α → κ) (f : α → α) (t : Table κ α)
    (as : List α) : Prop where
  key_form : ∀ a, key (f a) = key a
  keyed : ∀ {k a}, t.lookup k = some a → key a = k
  perm : as.Perm (t.values.map f)

namespace Copy

variable {κ α : Type} [Ord κ] [LawfulEqOrd κ] [DecidableEq κ] {key : α → κ} {f : α → α}
  {t : Table κ α} {as : List α}

omit [LawfulEqOrd κ] in
/-- Nothing is a copy of an empty table. -/
theorem empty (h : ∀ a, key (f a) = key a) : Copy key f ∅ [] :=
  ⟨h, nofun, List.Perm.nil⟩

/-- A value of the table stands under its key. -/
theorem lookup_key (h : Copy key f t as) {a : α} (ha : a ∈ t.values) :
    t.lookup (key a) = some a := by
  obtain ⟨k, hk⟩ := Table.mem_values.1 ha
  rwa [h.keyed hk]

/-- Two values of the table have different keys. -/
theorem eq_of_key (h : Copy key f t as) {a b : α} (ha : a ∈ t.values) (hb : b ∈ t.values)
    (hkey : key a = key b) : a = b := by
  have hlookup := h.lookup_key ha
  rw [hkey, h.lookup_key hb] at hlookup
  exact (Option.some.inj hlookup).symm

/-- The key of an entry is the key of its value. -/
theorem key_entry (h : Copy key f t as) {e : κ × α} (he : e ∈ t.entries) : key e.2 = e.1 :=
  h.keyed ((Table.lookup_eq_some_iff t e.1 e.2).2 he)

/-! ### What is found -/

omit [LawfulEqOrd κ] in
/-- What only one value of the table satisfies is found in the list as it is in the table. -/
theorem find?_eq (h : Copy key f t as) {P : α → Bool} (hP : ∀ a, P (f a) = P a)
    (hunique : ∀ a ∈ t.values, ∀ b ∈ t.values, P a = true → P b = true → a = b) :
    as.find? P = (t.values.find? P).map f := by
  have hform : P ∘ f = P := funext hP
  rw [find?_eq_of_perm h.perm, List.find?_map, hform]
  intro a' ha' b' hb' hPa hPb
  obtain ⟨a, ha, rfl⟩ := List.mem_map.1 ha'
  obtain ⟨b, hb, rfl⟩ := List.mem_map.1 hb'
  rw [hP] at hPa hPb
  rw [hunique a ha b hb hPa hPb]

/-- What a table has under a key is found in the list. -/
theorem find?_key (h : Copy key f t as) (k : κ) :
    as.find? (key · = k) = (t.lookup k).map f := by
  have hfound : t.values.find? (key · = k) = t.lookup k := by
    cases hfind : t.values.find? (key · = k) with
    | some a =>
        have hkey := List.find?_some hfind
        rw [← of_decide_eq_true hkey, h.lookup_key (List.mem_of_find?_eq_some hfind)]
    | none =>
        cases hk : t.lookup k with
        | none => rfl
        | some a =>
            have hno := List.find?_eq_none.1 hfind a (Table.mem_values.2 ⟨k, hk⟩)
            exact absurd (decide_eq_true (h.keyed hk)) hno
  rw [h.find?_eq (fun a => by rw [h.key_form]), hfound]
  intro a ha b hb hka hkb
  exact h.eq_of_key ha hb ((of_decide_eq_true hka).trans (of_decide_eq_true hkb).symm)

omit [LawfulEqOrd κ] in
/-- Those values of a table that satisfy a predicate are found in the list; they are sorted as they
are in the table, if that is an order of theirs. -/
theorem inOrder_filter {κ' : Type} [Ord κ'] [TransOrd κ'] [LawfulEqOrd κ'] {key' : α → κ'}
    (h : Copy key f t as) (hkey' : ∀ a, key' (f a) = key' a) {P : α → Bool}
    (hP : ∀ a, P (f a) = P a)
    (hsorted : (t.values.filter P).Pairwise fun a b => compare (key' a) (key' b) = .lt) :
    inOrder key' (as.filter P) = (t.values.filter P).map f := by
  have hform : P ∘ f = P := funext hP
  have hperm : (as.filter P).Perm ((t.values.filter P).map f) := by
    have hfilter := h.perm.filter P
    rwa [List.filter_map, hform] at hfilter
  refine inOrder_eq_of_perm hperm ?_
  rw [List.pairwise_map]
  simp only [hkey']
  exact hsorted

/-- To change in a list what is not in the table changes nothing. -/
theorem map_of_free (h : Copy key f t as) {k : κ} (hk : t.lookup k = none) (g : α → α) :
    (as.map fun a => if key a = k then g a else a) = as := by
  have hne : ∀ a ∈ as, key a ≠ k := by
    rintro a' ha' rfl
    obtain ⟨a, ha, rfl⟩ := List.mem_map.1 (h.perm.mem_iff.1 ha')
    rw [h.key_form, h.lookup_key ha] at hk
    cases hk
  have hsame : (as.map fun a => if key a = k then g a else a) = as.map id :=
    List.map_congr_left fun a ha => if_neg (hne a ha)
  rw [hsame, List.map_id]

/-- The values of a table stand in the order of their keys. -/
theorem pairwise_values (h : Copy key f t as) :
    t.values.Pairwise fun a b => compare (key a) (key b) = .lt := by
  rw [Table.values, List.pairwise_map]
  refine t.sorted.imp_of_mem fun {e e'} he he' hlt => ?_
  rw [h.key_entry he, h.key_entry he']
  exact hlt

/-! ### What is done -/

omit [LawfulEqOrd κ] [DecidableEq κ] in
/-- To put an entry in its place is to put it in front, but for the order. -/
theorem perm_insertEntry {k : κ} {es : List (κ × α)} (hfree : ∀ e ∈ es, compare k e.1 ≠ .eq)
    (a : α) : (Table.insertEntry k a es).Perm ((k, a) :: es) := by
  induction es with
  | nil => exact List.Perm.refl _
  | cons e es ih =>
      obtain ⟨he, hes⟩ := List.forall_mem_cons.1 hfree
      cases hc : compare k e.1 with
      | lt =>
          rw [Table.insertEntry, hc]
      | eq => exact absurd hc he
      | gt =>
          rw [Table.insertEntry, hc]
          exact ((ih hes).cons e).trans (List.Perm.swap _ _ _)

/-- A value that is added to the table is added to the list. -/
theorem insert [TransOrd κ] (h : Copy key f t as) {a : α} (hfree : t.lookup (key a) = none)
    (ha : f a = a) : Copy key f (t.insert (key a) a) (as ++ [a]) := by
  have hentries : ∀ e ∈ t.entries, compare (key a) e.1 ≠ .eq := by
    intro e he heq
    have hlookup := (Table.lookup_eq_some_iff t e.1 e.2).2 he
    rw [← LawfulEqOrd.eq_of_compare heq, hfree] at hlookup
    cases hlookup
  have hvalues : (t.insert (key a) a).values.Perm (a :: t.values) :=
    (perm_insertEntry hentries a).map _
  refine ⟨h.key_form, ?_, ?_⟩
  · intro k b hb
    rw [Table.lookup_insert] at hb
    split at hb
    · next hk =>
      cases hb
      exact hk.symm
    · exact h.keyed hb
  · have hform := hvalues.map f
    rw [List.map_cons, ha] at hform
    exact (List.perm_append_singleton a as).trans ((h.perm.cons a).trans hform.symm)

/-- A value that is changed in the table is changed in the list. -/
theorem modify (h : Copy key f t as) (k : κ) {f' g g' : α → α} (hkey : ∀ a, key (g a) = key a)
    (hform : ∀ a, key (f' a) = key a) (hsame : ∀ a, key a = k → g' (f a) = f' (g a))
    (hother : ∀ a, key a ≠ k → f a = f' a) :
    Copy key f' (t.modify k g) (as.map fun a => if key a = k then g' a else a) := by
  have hvalues : (t.modify k g).values = t.values.map fun a => if key a = k then g a else a := by
    rw [Table.values, Table.values, Table.modify, List.map_map, List.map_map]
    refine List.map_congr_left fun e he => ?_
    show (if e.1 = k then (e.1, g e.2) else e).2 = if key e.2 = k then g e.2 else e.2
    rw [h.key_entry he]
    split <;> rfl
  refine ⟨hform, ?_, ?_⟩
  · intro k' a ha
    rw [Table.lookup_modify] at ha
    split at ha
    · obtain ⟨b, hb, rfl⟩ := Option.map_eq_some_iff.1 ha
      rw [hkey]
      exact h.keyed hb
    · exact h.keyed ha
  · have hchanged := h.perm.map fun a => if key a = k then g' a else a
    rw [List.map_map] at hchanged
    -- value by value: in the list the form comes first, and in the table the change does
    have hpoint : (fun a => if key a = k then g' a else a) ∘ f =
        f' ∘ fun a => if key a = k then g a else a := by
      funext a
      show (if key (f a) = k then g' (f a) else f a) = f' (if key a = k then g a else a)
      rw [h.key_form]
      split
      · next hk => exact hsame a hk
      · next hk => exact hother a hk
    rwa [hvalues, List.map_map, ← hpoint]

/-- A value that is removed from the table is left out of the list. -/
theorem erase (h : Copy key f t as) (k : κ) :
    Copy key f (t.erase k) (as.filter fun a => !(key a = k)) := by
  have hvalues : (t.erase k).values = t.values.filter fun a => !(key a = k) := by
    show (t.entries.filter fun e => !decide (e.1 = k)).map (·.2) = _
    rw [Table.values, List.filter_map]
    refine congrArg (List.map _) (List.filter_congr fun e he => ?_)
    rw [Function.comp_apply, h.key_entry he]
  have hform : (fun a => !decide (key a = k)) ∘ f = fun a => !decide (key a = k) :=
    funext fun a => by rw [Function.comp_apply, h.key_form]
  refine ⟨h.key_form, ?_, ?_⟩
  · intro k' a ha
    rw [Table.lookup_erase] at ha
    split at ha
    · cases ha
    · exact h.keyed ha
  · rw [hvalues]
    have hfilter := h.perm.filter fun a => !decide (key a = k)
    rwa [List.filter_map, hform] at hfilter

end Copy

end Gatehouse
