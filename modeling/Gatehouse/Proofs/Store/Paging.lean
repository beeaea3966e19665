import Gatehouse.Proofs.Store.Forest

/-!
# Gatehouse.Proofs.Store.Paging — paging neither loses nor repeats an item

A listing is asked for by offsets, and a reader goes from one page to the next by the limit that the
pages have, until the offset reaches the total that they tell.  Nothing is kept between two pages,
so that the reader gets all of the listing, and nothing twice, depends on the pages being cut from
one list in one order.

A `Book` is a listing that can be read so: its pages agree on the total, and its limit is not zero,
so there is a last page (`Book.pagesFrom`).  The limit is the one that the pages have, which need
not be the one that was asked for: zero is replaced by a usual number and a large one is cut down.

* `Book.shows_of_windows` : a book whose pages are windows on a list shows all of the list.  This is
  an induction over the pages, from any offset on.
* `paging_exact` : both listings are such books, that of the policies in a store (`Store.book`) and
  that of groups that were filtered before (`GroupQuery.book`).
-/

namespace Gatehouse

open Gatehouse.Time

/-! ## Books -/

/-- A page of a listing, whatever is listed. -/
structure Sheet (α : Type) where
  total : Nat
  offset : Nat
  limit : Nat
  items : List α

/-- A listing that is read page by page. -/
structure Book (α : Type) where
  page : Nat → Sheet α
  total : Nat
  limit : Nat
  total_page : ∀ offset, (page offset).total = total
  limit_pos : 0 < limit

namespace Book

variable {α : Type} {b : Book α} {listing : List α}

/-- The pages that are met from an offset on, each a limit further, until the offset reaches the
total that is told there. -/
def pagesFrom (b : Book α) (offset : Nat) : List (Sheet α) :=
  if (b.page offset).total ≤ offset then [] else b.page offset :: b.pagesFrom (offset + b.limit)
termination_by b.total - offset
decreasing_by
  next hmore =>
  rw [b.total_page] at hmore
  have hlimit := b.limit_pos
  omega

/-- Whether a book shows a list: every page tells how long the list is, all pages but the last are
full, one after the other they are the list, and behind its end there is nothing. -/
structure Shows (b : Book α) (listing : List α) : Prop where
  total : ∀ offset, (b.page offset).total = listing.length
  offset : ∀ offset, (b.page offset).offset = offset
  limit : ∀ offset, (b.page offset).limit = b.limit
  whole : (b.pagesFrom 0).flatMap Sheet.items = listing
  full : ∀ page ∈ (b.pagesFrom 0).dropLast, page.items.length = b.limit
  behind : ∀ offset, listing.length ≤ offset → (b.page offset).items = []

/-- Whether the pages of a book are windows on a list. -/
def Windows (b : Book α) (listing : List α) : Prop :=
  ∀ offset, b.page offset =
    ⟨listing.length, offset, b.limit, (listing.drop offset).take b.limit⟩

/-- At the end of the list no page follows. -/
theorem pagesFrom_of_le (h : b.Windows listing) {offset : Nat} (hend : listing.length ≤ offset) :
    b.pagesFrom offset = [] := by
  rw [pagesFrom, h, if_pos hend]

/-- Before the end of the list another page follows. -/
theorem pagesFrom_of_lt (h : b.Windows listing) {offset : Nat} (hmore : offset < listing.length) :
    b.pagesFrom offset = b.page offset :: b.pagesFrom (offset + b.limit) := by
  rw [pagesFrom, if_neg]
  rw [h]
  exact Nat.not_le.2 hmore

/-- What is met from an offset on is the rest of the list. -/
theorem items_pagesFrom (h : b.Windows listing) (offset : Nat) :
    (b.pagesFrom offset).flatMap Sheet.items = listing.drop offset := by
  fun_induction pagesFrom b offset with
  | case1 offset hend =>
      rw [h] at hend
      exact (List.drop_eq_nil_of_le hend).symm
  | case2 offset _ ih =>
      rw [List.flatMap_cons, ih, h, ← List.drop_drop]
      exact List.take_append_drop _ _

/-- A page after which there is another one is full. -/
theorem length_of_mem_dropLast (h : b.Windows listing) (offset : Nat) :
    ∀ page ∈ (b.pagesFrom offset).dropLast, page.items.length = b.limit := by
  fun_induction pagesFrom b offset with
  | case1 offset hend => exact fun _ hpage => nomatch hpage
  | case2 offset hmore ih =>
      rcases Nat.lt_or_ge (offset + b.limit) listing.length with hnext | hlast
      · rw [pagesFrom_of_lt h hnext] at ih ⊢
        rw [List.dropLast_cons_cons, List.forall_mem_cons]
        refine ⟨?_, ih⟩
        rw [h, List.length_take, List.length_drop]
        omega
      · rw [pagesFrom_of_le h hlast]
        exact fun _ hpage => nomatch hpage

/-- **Windows show all of a list.** -/
theorem shows_of_windows (h : b.Windows listing) : b.Shows listing where
  total offset := by rw [h]
  offset offset := by rw [h]
  limit offset := by rw [h]
  whole := items_pagesFrom h 0
  full := length_of_mem_dropLast h 0
  behind offset hend := by
    rw [h, List.drop_eq_nil_of_le hend]
    exact List.take_nil

end Book

/-! ## Policies -/

/-- A page of policies as a page. -/
def PolicyPage.sheet (p : PolicyPage) : Sheet Policy := ⟨p.total, p.offset, p.limit, p.policies⟩

/-- Keys are ordered by their subjects, and then by their objects. -/
theorem PolicyKey.compare_eq_lt_iff {k k' : PolicyKey} : compare k k' = .lt ↔
    k.subject < k'.subject ∨ k.subject = k'.subject ∧ k.object < k'.object := by
  rw [compare_def, Ordering.then_eq_lt, Std.compare_eq_iff_eq]
  exact or_congr compareOfLessAndEq_eq_lt (and_congr_right fun _ => compareOfLessAndEq_eq_lt)

namespace PolicyQuery

/-- Whether a policy matches every filter that a query gives. -/
structure Matches (q : PolicyQuery) (p : Policy) : Prop where
  owner : ∀ owner, q.owner = some owner → p.owner = owner
  subject : ∀ subject, q.subject = some subject → p.subject = subject
  object : ∀ object, q.object = some object → p.object = object
  action : ∀ action, q.action = some action → action ∈ p.actions

/-- A query admits a policy exactly if the policy matches its filters. -/
theorem admits_eq_true_iff {q : PolicyQuery} {p : Policy} : q.admits p = true ↔ q.Matches p := by
  unfold admits Policy.hasAction
  rw [Bool.and_eq_true, Bool.and_eq_true, Bool.and_eq_true, Option.all_eq_true, Option.all_eq_true,
    Option.all_eq_true, Option.all_eq_true]
  simp only [decide_eq_true_eq, List.contains_iff_mem]
  constructor
  · rintro ⟨⟨⟨howner, hsubject⟩, hobject⟩, haction⟩
    exact ⟨fun _ h => (howner _ h).symm, fun _ h => (hsubject _ h).symm,
      fun _ h => (hobject _ h).symm, haction⟩
  · intro h
    exact ⟨⟨⟨fun _ ho => (h.owner _ ho).symm, fun _ hs => (h.subject _ hs).symm⟩,
      fun _ ho => (h.object _ ho).symm⟩, h.action⟩

end PolicyQuery

namespace Store

variable {s t : Store} {q : PolicyQuery}

/-- The policies of a store that a query is about, as a book. -/
def book (s : Store) (q : PolicyQuery) : Book Policy where
  page offset := (s.policyPage { q with offset }).sheet
  total := (s.policies.values.filter q.admits).length
  limit := q.effectiveLimit
  total_page _ := rfl
  limit_pos := effectiveLimit_pos q.limit

/-- The pages of policies are windows on the policies that a query admits. -/
theorem windows_book (s : Store) (q : PolicyQuery) :
    (s.book q).Windows (s.policies.values.filter q.admits) := fun _ => rfl

/-- A policy is stored exactly if it stands under its key. -/
theorem mem_values_iff (h : s.Sound) {p : Policy} :
    p ∈ s.policies.values ↔ s.policies.lookup p.key = some p := by
  rw [Table.mem_values]
  refine ⟨?_, fun hp => ⟨_, hp⟩⟩
  rintro ⟨key, hp⟩
  rwa [h.policy_key hp]

/-- Policies are listed in the order of their keys. -/
theorem increasing_values (h : s.Sound) :
    s.policies.values.Pairwise fun p p' => compare p.key p'.key = .lt := by
  have hkey : ∀ e ∈ s.policies.entries, e.2.key = e.1 := fun e he =>
    h.policy_key ((Table.lookup_eq_some_iff _ _ _).2 he)
  unfold Table.values
  rw [List.pairwise_map]
  refine s.policies.sorted.imp_of_mem fun {e e'} he he' hlt => ?_
  rw [hkey e he, hkey e' he']
  exact hlt

/-- Every store with the same tables answers with the page of the book. -/
theorem answer_policyPage (h : s.SameTables t) (now : Timestamp) (q : PolicyQuery) (offset : Nat) :
    ∃ page, t.answer now (.policyPage { q with offset }) = (.ok page, t.countRead) ∧
      page.sheet = (s.book q).page offset := by
  refine ⟨_, rfl, ?_⟩
  unfold policyPage
  rw [h.1]
  rfl

end Store

/-! ## Groups -/

/-- A page of groups as a page. -/
def GroupsPage.sheet (p : GroupsPage) : Sheet Group := ⟨p.total, p.offset, p.limit, p.groups⟩

/-- Groups that are left of a query, as a book. -/
def GroupQuery.book (q : GroupQuery) (groups : List Group) : Book Group where
  page offset := (GroupsPage.paginate groups offset q.effectiveLimit).sheet
  total := groups.length
  limit := q.effectiveLimit
  total_page _ := rfl
  limit_pos := effectiveLimit_pos q.limit

/-- The pages of groups are windows on the groups that are left. -/
theorem GroupQuery.windows_book (q : GroupQuery) (groups : List Group) :
    (q.book groups).Windows groups := fun _ => rfl

/-! ## Paging -/

namespace Store

variable {s : Store}

/-- **Paging neither loses nor repeats an item.**  For every store in memory and every query of
policies, with any limit: the pages that the store answers with, however many reads there were
before, are those of a book with the effective limit, and the book shows the stored policies that
match the filters, in increasing order of subject and object, so each of them once.  Every list of
groups, cut by any query of groups, is shown in the same way. -/
theorem paging_exact (h : s.Built) (q : PolicyQuery) :
    (s.book q).limit = q.effectiveLimit ∧
    (∀ t, s.SameTables t → ∀ now offset, ∃ page,
      t.answer now (.policyPage { q with offset }) = (.ok page, t.countRead) ∧
        page.sheet = (s.book q).page offset) ∧
    (∃ listing, (s.book q).Shows listing ∧
      (∀ p, p ∈ listing ↔ s.policies.lookup p.key = some p ∧ q.Matches p) ∧
      listing.Pairwise fun p p' =>
        p.subject < p'.subject ∨ p.subject = p'.subject ∧ p.object < p'.object) ∧
    ∀ (groups : List Group) (query : GroupQuery),
      (query.book groups).limit = query.effectiveLimit ∧
      (∀ offset, (GroupsPage.paginate groups offset query.effectiveLimit).sheet =
        (query.book groups).page offset) ∧
      (query.book groups).Shows groups := by
  refine ⟨rfl, fun t hsame now offset => answer_policyPage hsame now q offset, ?_, ?_⟩
  · refine ⟨_, Book.shows_of_windows (windows_book s q), fun p => ?_, ?_⟩
    · rw [List.mem_filter, mem_values_iff h.sound, PolicyQuery.admits_eq_true_iff]
    · refine ((increasing_values h.sound).filter _).imp fun hlt => ?_
      exact PolicyKey.compare_eq_lt_iff.1 hlt
  · intro groups query
    exact ⟨rfl, fun _ => rfl, Book.shows_of_windows (query.windows_book groups)⟩

/-- A policy of Ann's on a meter. -/
def granted (subject action : String) : Policy :=
  ⟨"ann", subject, "meter", [action], ⟨0, 0⟩, ⟨0, 0⟩, "ann"⟩

/-- Four readers of a meter and somebody who may only write to it. -/
def readers : Store :=
  .answering [.addPolicy (granted "eve" "m_read"), .addPolicy (granted "bob" "m_read"),
    .addPolicy (granted "dan" "m_write"), .addPolicy (granted "ann" "m_read"),
    .addPolicy (granted "carl" "m_read")]

/-- Three to a page, the four readers are listed on a full page and another one, and nobody else is;
behind them there is nothing. -/
theorem paging_exact_readers :
    let q : PolicyQuery := { limit := 3, action := some "m_read" }
    let b := readers.book q
    readers.Built ∧ (∀ offset, (b.page offset).total = 4 ∧ (b.page offset).limit = 3) ∧
      (∀ page ∈ (b.pagesFrom 0).dropLast, page.items.length = 3) ∧
      (b.page 18446744073709551615).items = [] ∧
      granted "eve" "m_read" ∈ (b.pagesFrom 0).flatMap Sheet.items ∧
      granted "dan" "m_write" ∉ (b.pagesFrom 0).flatMap Sheet.items := by
  intro q b
  have hbuilt : readers.Built := built_answering _
  obtain ⟨hlimit, -, ⟨listing, hshows, hmem, -⟩, -⟩ := paging_exact hbuilt q
  have htotal : listing.length = 4 := (hshows.total 0).symm.trans (by decide +kernel)
  refine ⟨hbuilt, fun offset => ⟨?_, ?_⟩, hshows.full, hshows.behind _ ?_, ?_, ?_⟩
  · rw [hshows.total, htotal]
  · rw [hshows.limit, hlimit]
    rfl
  · rw [htotal]
    decide
  · rw [hshows.whole, hmem]
    refine ⟨by decide +kernel, nofun, nofun, nofun, ?_⟩
    rintro action ⟨⟩
    exact List.mem_singleton_self _
  · rw [hshows.whole, hmem]
    exact fun hdan => absurd (hdan.2.action "m_read" rfl) (by decide)

end Store

end Gatehouse
