import Gatehouse.Proofs.Service.Outcome
import Gatehouse.Proofs.Store.Forest
import Gatehouse.Proofs.Store.Grants

/-!
# Gatehouse.Proofs.Service.Browsing — listings of groups show what they should

There are two listings of groups.  The one takes a walk, or all groups, and leaves out what a status
does not admit and what the caller may not see (`Store.shown`).  The other takes the policies of a
client and has the groups that they are about, as far as there are such groups
(`Store.memberships`).  Both count what is left, and then cut a page.

* `ends_visibleGroups` : the engine looks for the caller's policies once, and not group by group.
* `Store.mem_memberships`, `Store.pairwise_memberships` : the groups that a client is connected to,
  each of them once, since a client has one policy on a group.
* `listings_exact` : what each of the two listings is answered.

The order of the three steps is what a caller can see of it.  The total counts what is left after
leaving out, so it counts nothing that the caller may not see; and pages are cut from what is left,
so a page that is not the last one is full.  If groups were left out of pages that were cut before,
the gaps would tell of the groups that are missing.

The first listing keeps the order of the walk.  The second is made of policies, whose order says
nothing about groups, and is sorted by id.
-/

namespace Gatehouse

open Gatehouse.Time

/-! ## What a caller may see -/

/-- A walk exists exactly from a group that is stored. -/
theorem Hierarchy.walk_eq_none_iff {h : Hierarchy} {root : String} {d : Direction} {level : Nat} :
    h.walk root d level = none ↔ h.lookup root = none := by
  unfold walk Table.contains
  cases h.lookup root with
  | none => exact iff_of_true rfl rfl
  | some g => exact iff_of_false nofun nofun

/-- The groups that a query is about, before any are left out: those of a walk or all of them. -/
def GroupQuery.listed? (q : GroupQuery) (h : Hierarchy) : Option (List Group) :=
  match q.id with
  | some root => h.walk root q.walkDirection q.level
  | none => some h.all

theorem GroupQuery.listed?_eq_none_iff {q : GroupQuery} {h : Hierarchy} :
    q.listed? h = none ↔ ∃ root, q.id = some root ∧ h.lookup root = none := by
  unfold listed?
  cases q.id with
  | none => simp
  | some root => simp [Hierarchy.walk_eq_none_iff]

namespace Store

variable {s : Store} {claims : Claims} {client : String} {status : Status} {g : Group}

/-- Whether a caller may see a group: as an admin, as its owner, or by a policy on it that carries
`g_list`. -/
def Shows (s : Store) (claims : Claims) (g : Group) : Prop :=
  claims.isAdmin = true ∨ g.owner = claims.subject ∨
    ∃ p, s.policies.lookup ⟨claims.subject, g.id⟩ = some p ∧ "g_list" ∈ p.actions

instance : Decidable (s.Shows claims g) :=
  decidable_of_iff
    (claims.isAdmin = true ∨ g.owner = claims.subject ∨
      (s.policies.lookup ⟨claims.subject, g.id⟩).any (·.hasAction "g_list") = true)
    (by simp [Shows, Option.any_eq_true, Policy.hasAction])

/-- What is left of a list of groups for a caller who asks for a status. -/
def shown (s : Store) (claims : Claims) (status : Status) (listed : List Group) : List Group :=
  listed.filter fun g => status.admits g.status && decide (s.Shows claims g)

/-- The objects of the policies of a subject that carry an action are the objects on which the
subject holds it. -/
theorem mem_objects_iff (h : s.Sound) {subject object action : String} :
    object ∈ ((s.policiesOf subject).filter (·.hasAction action)).map (·.object) ↔
      ∃ p, s.policies.lookup ⟨subject, object⟩ = some p ∧ action ∈ p.actions := by
  rw [List.mem_map]
  constructor
  · rintro ⟨p, hp, rfl⟩
    obtain ⟨hmem, haction⟩ := List.mem_filter.1 hp
    exact ⟨p, (mem_policiesOf h).1 hmem, by simpa [Policy.hasAction] using haction⟩
  · rintro ⟨p, hp, haction⟩
    obtain rfl : p.object = object := congrArg PolicyKey.object (h.policy_key hp)
    refine ⟨p, List.mem_filter.2 ⟨(mem_policiesOf h).2 hp, ?_⟩, rfl⟩
    simpa [Policy.hasAction] using haction

/-! ## What a client is connected to -/

/-- Whether a caller may list what a client is connected to: as an admin, or by a decision. -/
def MayList (s : Store) (claims : Claims) (client : String) : Prop :=
  claims.isAdmin = true ∨ s.evaluate .client claims.subject client "c_list" = .ok true

/-- The groups with a status that the policies of a client are about. -/
def memberships (s : Store) (client : String) (status : Status) : List Group :=
  ((s.policiesOf client).filterMap fun p => s.groups.lookup p.object).filter
    fun g => status.admits g.status

/-- The groups of a client only depend on the tables. -/
theorem memberships_of_sameTables {t : Store} (h : s.SameTables t) :
    t.memberships client status = s.memberships client status := by
  unfold memberships policiesOf
  rw [h.1, h.2.2]

theorem mem_memberships (h : s.Built) : g ∈ s.memberships client status ↔
    s.groups.lookup g.id = some g ∧ s.policies.contains ⟨client, g.id⟩ = true ∧
      status.admits g.status = true := by
  unfold memberships Table.contains
  rw [List.mem_filter, List.mem_filterMap, ← and_assoc]
  refine and_congr_left fun _ => ?_
  constructor
  · rintro ⟨p, hp, hg⟩
    have hid : g.id = p.object := h.forest.group_id hg
    rw [hid, (mem_policiesOf h.sound).1 hp]
    exact ⟨hg, rfl⟩
  · rintro ⟨hg, hconnected⟩
    obtain ⟨p, hp⟩ := Option.isSome_iff_exists.1 hconnected
    have hobject : p.object = g.id := congrArg PolicyKey.object (h.sound.policy_key hp)
    rw [← hobject] at hp hg
    exact ⟨p, (mem_policiesOf h.sound).2 hp, hg⟩

/-- A subject has one policy on an object. -/
theorem pairwise_policiesOf (h : s.Sound) (subject : String) :
    (s.policiesOf subject).Pairwise fun p q => p.object ≠ q.object := by
  have hkeys : s.policies.entries.Pairwise fun e e' => e.1 ≠ e'.1 :=
    List.pairwise_map.1 s.policies.keys_nodup
  have hkey : ∀ e ∈ s.policies.entries, e.2.key = e.1 := fun e he =>
    h.policy_key ((Table.lookup_eq_some_iff _ _ _).2 he)
  unfold policiesOf Table.values
  rw [List.pairwise_filter, List.pairwise_map]
  -- of one subject, two policies on one object would have one key
  refine hkeys.imp_of_mem fun {e e'} he he' hne hsubject hsubject' hobject => hne ?_
  rw [← hkey e he, ← hkey e' he']
  exact congrArg₂ PolicyKey.mk
    ((of_decide_eq_true hsubject).trans (of_decide_eq_true hsubject').symm) hobject

theorem pairwise_memberships (h : s.Built) (client : String) (status : Status) :
    (s.memberships client status).Pairwise fun a b => a.id ≠ b.id := by
  unfold memberships
  refine List.Pairwise.filter _ (List.Pairwise.filterMap _ ?_ (pairwise_policiesOf h.sound client))
  intro p q hne a ha b hb
  rw [h.forest.group_id ha, h.forest.group_id hb]
  exact hne

end Store

/-- Groups with different ids, when they have been sorted, stand in increasing order. -/
theorem Group.pairwise_mergeSort {groups : List Group}
    (h : groups.Pairwise fun a b => a.id ≠ b.id) :
    (groups.mergeSort fun a b => a.id ≤ b.id).Pairwise fun a b => a.id < b.id :=
  increasing_of_sorted (sorted_mergeSort Group.id groups)
    ((List.mergeSort_perm groups _).symm.pairwise h fun hne => hne.symm)

namespace World

variable {w : World} {tokens : TokenIssuer} {token : String} {claims : Claims}

/-! ## The two listings -/

/-- What the engine lets through is what the caller may see: everything for an admin, and otherwise
what the caller owns or may list by a policy of this subject.  The policies are looked for once, so
the list of their objects stands for all decisions. -/
theorem ends_visibleGroups (h : w.Sound) (claims : Claims) (listed : List Group) (status : Status) :
    w.Ends (Engine.visibleGroups claims listed status) fun r _ =>
      r = .ok (w.store.shown claims status listed) := by
  unfold Engine.visibleGroups Store.shown
  cases hadmin : claims.isAdmin with
  | true =>
      refine ends_pure (congrArg Except.ok (List.filter_congr fun g _ => ?_))
      have hshows : w.store.Shows claims g := Or.inl hadmin
      simp [hshows]
  | false =>
      refine ends_read_bind h.reliable (c := .policiesOf claims.subject) rfl rfl (ends_pure ?_)
      -- the two filters, one after the other, are one
      rw [List.filter_filter]
      refine congrArg Except.ok (List.filter_congr fun g _ => ?_)
      rw [Bool.and_comm]
      congr 1
      rw [Bool.eq_iff_iff, Bool.or_eq_true, decide_eq_true_iff, decide_eq_true_iff,
        List.contains_iff_mem, Store.mem_objects_iff h.store, Store.Shows, hadmin]
      exact (or_iff_right Bool.false_ne_true).symm

theorem ends_visiblePage (h : w.Sound) (claims : Claims) (listed : List Group)
    (query : GroupQuery) :
    w.Ends (Engine.visibleGroups claims listed query.status >>= fun visible =>
        pure (GroupsPage.paginate visible query.offset query.effectiveLimit)) fun r _ =>
      r = .ok (.paginate (w.store.shown claims query.status listed) query.offset
        query.effectiveLimit) :=
  ends_bind_of_answer (ends_visibleGroups h claims listed query.status) fun _ => ends_pure rfl

/-- The first listing, by the walk that the query asks for. -/
theorem ends_listGroups (hfaults : w.faults = []) (hbuilt : w.store.Built)
    (hbearer : w.Admits tokens token claims) (query : GroupQuery) :
    w.Ends (Engine.listGroups tokens token query) fun r _ =>
      r = match query.listed? w.store.groups with
        | none => .error .notFound
        | some listed => .ok (.paginate (w.store.shown claims query.status listed) query.offset
            query.effectiveLimit) := by
  have h : w.Sound := ⟨hfaults, hbuilt.sound⟩
  -- the hierarchy of what the store lists is the table of groups itself
  have hgroups : Hierarchy.ofGroups w.store.groups.values = w.store.groups :=
    hbuilt.forest.ofGroups_eq (List.Perm.refl _)
  refine ends_bind_of_ok (run_caller hbearer.1 hbearer.2) ?_
  refine ends_read_bind h.reliable (c := .groups) rfl rfl ?_
  rw [hgroups]
  unfold GroupQuery.listed?
  cases query.id with
  | none => exact ends_visiblePage (h.reread _) claims _ query
  | some root =>
      dsimp only
      cases Hierarchy.walk w.store.groups root query.walkDirection query.level with
      | none => exact ends_throw rfl
      | some listed => exact ends_visiblePage (h.reread _) claims listed query

/-- The groups of some policies are looked up one by one; policies that are about no group are
passed over. -/
theorem ends_memberships (h : w.Sound) (status : Status) (policies : List Policy) :
    w.Ends (Engine.memberships status policies) fun r _ =>
      r = .ok ((policies.filterMap fun p => w.store.groups.lookup p.object).filter
        fun g => status.admits g.status) := by
  induction policies generalizing w with
  | nil => exact ends_pure rfl
  | cons p rest ih =>
      refine ends_read_bind h.reliable (c := .group p.object) rfl rfl ?_
      refine ends_bind_of_answer (ih (h.reread _)) fun w' => ?_
      rw [List.filterMap_cons]
      cases w.store.groups.lookup p.object with
      | none => exact ends_pure rfl
      | some g =>
          refine ends_pure (congrArg Except.ok ?_)
          dsimp only
          rw [List.filter_cons]
          rfl

theorem ends_membershipsPage (h : w.Sound) (client : String) (query : GroupQuery) :
    w.Ends (Procedure.store (.policiesOf client) >>= fun policies =>
        Engine.memberships query.status policies >>= fun groups =>
          pure (GroupsPage.paginate (groups.mergeSort fun a b => a.id ≤ b.id) query.offset
            query.effectiveLimit)) fun r _ =>
      r = .ok (.paginate
        ((w.store.memberships client query.status).mergeSort fun a b => a.id ≤ b.id)
        query.offset query.effectiveLimit) := by
  refine ends_read_bind h.reliable (c := .policiesOf client) rfl rfl ?_
  exact ends_bind_of_answer (ends_memberships (h.reread _) query.status _) fun _ => ends_pure rfl

/-- **The right to list.**  A decision is asked for, unless the caller is an admin, and then a
procedure goes on or is refused. -/
theorem ends_mayList (h : w.Sound) (claims : Claims) (client : String) {α : Type}
    {rest : Unit → Procedure α} {Q : Except ApiError α → World → Prop}
    (hpassed : ∀ w' : World, w'.Sound → w.store.SameTables w'.store →
      w.store.MayList claims client → w'.Ends (rest ()) Q)
    (hrefused : ∀ w', ¬w.store.MayList claims client → Q (.error .authorization) w') :
    w.Ends (if (!claims.isAdmin) = true then do
        let allowed ← Engine.decide .client claims.subject client "c_list"
        if (!allowed) = true then throw ApiError.authorization >>= rest else rest ()
      else rest ()) Q := by
  refine ends_gate (P := fun w' => w'.Sound ∧ w.store.SameTables w'.store)
    (w.store.MayList claims client) Or.inl ⟨h, rfl, rfl, rfl⟩ (fun hadmin => ?_)
    (fun w' hw' => hpassed w' hw'.1 hw'.2) fun w' _ => hrefused w'
  obtain ⟨w', hrun, hsound, hsame⟩ := exists_run_decide h .client claims.subject client "c_list"
  obtain ⟨allowed, hallowed⟩ : ∃ b,
      w.store.evaluate .client claims.subject client "c_list" = .ok b :=
    Decision.Facts.exists_evaluate (by decide)
  rw [hallowed] at hrun
  refine ⟨allowed, w', hrun, ⟨hsound, hsame⟩, ?_⟩
  rw [Store.MayList, hadmin, hallowed, or_iff_right Bool.false_ne_true, Except.ok.injEq]

/-- The second listing, in the order in which it is refused: there is no such client, the caller may
not list it, or neither. -/
theorem ends_listMemberships (hfaults : w.faults = []) (hbuilt : w.store.Built)
    (hbearer : w.Admits tokens token claims) (client : String) (query : GroupQuery) :
    w.Ends (Engine.listMemberships tokens token client query) fun r _ =>
      (w.store.clients.lookup client = none ∧ r = .error .notFound) ∨
      (w.store.clients.lookup client ≠ none ∧ ¬w.store.MayList claims client ∧
        r = .error .authorization) ∨
      (w.store.clients.lookup client ≠ none ∧ w.store.MayList claims client ∧ r = .ok (.paginate
        ((w.store.memberships client query.status).mergeSort fun a b => a.id ≤ b.id)
        query.offset query.effectiveLimit)) := by
  have h : w.Sound := ⟨hfaults, hbuilt.sound⟩
  refine ends_bind_of_ok (run_caller hbearer.1 hbearer.2) ?_
  refine ends_read_bind h.reliable (c := .client client) rfl rfl ?_
  refine ends_refuse (fun hnone => Or.inl ⟨Option.isNone_iff_eq_none.1 hnone, rfl⟩) fun hsome => ?_
  have hfound : w.store.clients.lookup client ≠ none := mt Option.isNone_iff_eq_none.2 hsome
  refine ends_mayList (h.reread _) claims client (fun w' hsound hsame hlist => ?_) fun w' hno => ?_
  · refine ends_mono (ends_membershipsPage hsound client query) ?_
    rintro r w'' rfl
    rw [Store.memberships_of_sameTables hsame]
    exact Or.inr (Or.inr ⟨hfound, hlist, rfl⟩)
  · exact Or.inr (Or.inl ⟨hfound, hno, rfl⟩)

/-- **Listings show exactly what they should.**  For every store in memory, everyone with an access
token and every query of groups: there is no listing of a walk from a group that is not stored.
Otherwise the listing is the walk, or all groups, in the same order and without those groups that
the status does not admit or that the caller may not see; what is shown is a page of it, and the
total counts all of it.  The groups of a client are listed for admins and for who is granted to list
them, if there is such a client: these are the stored groups with an admitted status on which the
client has a policy, each once and by increasing id. -/
theorem listings_exact (tokens : TokenIssuer) (hfaults : w.faults = []) (hbuilt : w.store.Built)
    (hbearer : w.Admits tokens token claims) (query : GroupQuery) :
    let s := w.store
    let page (listing : List Group) : GroupsPage :=
      { total := listing.length
        offset := query.offset
        limit := query.effectiveLimit
        groups := (listing.drop query.offset).take query.effectiveLimit }
    let groups := (w.run (Engine.listGroups tokens token query)).1
    (groups = .error .notFound ↔ ∃ root, query.id = some root ∧ s.groups.lookup root = none) ∧
    (∀ listed, query.listed? s.groups = some listed → groups = .ok (page (listed.filter
      fun g => query.status.admits g.status && decide (s.Shows claims g)))) ∧
    ∀ client,
      let memberships := (w.run (Engine.listMemberships tokens token client query)).1
      let allowed := claims.isAdmin = true ∨
        s.evaluate .client claims.subject client "c_list" = .ok true
      (memberships = .error .notFound ↔ s.clients.lookup client = none) ∧
      (memberships = .error .authorization ↔ s.clients.lookup client ≠ none ∧ ¬allowed) ∧
      (s.clients.lookup client ≠ none → allowed → ∃ listing, memberships = .ok (page listing) ∧
        listing.Pairwise (fun a b => a.id < b.id) ∧ ∀ g, g ∈ listing ↔
          s.groups.lookup g.id = some g ∧ s.policies.contains ⟨client, g.id⟩ = true ∧
            query.status.admits g.status = true) := by
  intro s page groups
  have hgroups : groups = match query.listed? s.groups with
      | none => .error .notFound
      | some listed => .ok (page (s.shown claims query.status listed)) :=
    ends_listGroups hfaults hbuilt hbearer query
  refine ⟨?_, ?_, ?_⟩
  · rw [hgroups, ← GroupQuery.listed?_eq_none_iff]
    cases query.listed? s.groups with
    | none => exact iff_of_true rfl rfl
    | some listed => exact iff_of_false nofun nofun
  · intro listed hlisted
    rw [hgroups, hlisted]
    rfl
  · intro client memberships allowed
    -- no client, no right to list it, or a listing
    have hmemberships := ends_listMemberships hfaults hbuilt hbearer client query
    change (_ ∧ memberships = _) ∨ (_ ∧ _ ∧ memberships = _) ∨ (_ ∧ _ ∧ memberships = _)
      at hmemberships
    rcases hmemberships with ⟨hnone, hanswer⟩ | ⟨hfound, hno, hanswer⟩ | ⟨hfound, hlist, hanswer⟩
    · rw [hanswer]
      exact ⟨iff_of_true rfl hnone, iff_of_false nofun fun h => h.1 hnone,
        fun hfound => absurd hnone hfound⟩
    · rw [hanswer]
      exact ⟨iff_of_false nofun hfound, iff_of_true rfl ⟨hfound, hno⟩,
        fun _ hallowed => absurd hallowed hno⟩
    · rw [hanswer]
      refine ⟨iff_of_false nofun hfound, iff_of_false nofun fun h => h.2 hlist, fun _ _ => ?_⟩
      refine ⟨_, rfl, Group.pairwise_mergeSort (Store.pairwise_memberships hbuilt _ _), ?_⟩
      intro g
      rw [List.mem_mergeSort]
      exact Store.mem_memberships hbuilt

/-- Ann's hall has a room of hers and an attic of Bob's, and her meter is connected to the hall, to
the attic and to a cellar that there is not.  Bob may list the room. -/
def annsHouse : Store :=
  let group (id owner : String) (parent : Option String) : Group :=
    ⟨id, id, "", owner, parent, .enabled, ⟨0, 0⟩, ⟨0, 0⟩, 0, ""⟩
  let policy (subject object action : String) : Policy :=
    ⟨"ann", subject, object, [action], ⟨0, 0⟩, ⟨0, 0⟩, "ann"⟩
  .answering [.addGroup (group "hall" "ann" none), .addGroup (group "room" "ann" (some "hall")),
    .addGroup (group "attic" "bob" (some "hall")),
    .addClient ⟨"meter", "meter", "ann", "key", .enabled, ⟨0, 0⟩, ⟨0, 0⟩⟩,
    .addPolicy (policy "meter" "hall" "m_read"), .addPolicy (policy "meter" "cellar" "m_read"),
    .addPolicy (policy "meter" "attic" "m_read"), .addPolicy (policy "bob" "room" "g_list")]

/-- Bob is shown the second of two groups below the hall, and nothing of Ann's meter; among the
groups that it is connected to Ann finds the attic and no cellar. -/
theorem listings_exact_hall :
    let w : World := { empty 60000000000 0 with store := annsHouse }
    let query : GroupQuery := { id := some "hall", direction := -1, offset := 1, limit := 1 }
    let listing (r : Except ApiError GroupsPage) : Except ApiError (Nat × List String) :=
      r.map fun page => (page.total, page.groups.map (·.id))
    w.faults = [] ∧ w.store.Built ∧
      listing (w.run (Engine.listGroups .named "bob" query)).1 = .ok (2, ["room"]) ∧
      (w.run (Engine.listGroups .named "bob" { query with id := some "cellar" })).1 =
        .error .notFound ∧
      (w.run (Engine.listMemberships .named "bob" "meter" query)).1 = .error .authorization ∧
      ∃ groups : List Group, (w.run (Engine.listMemberships .named "ann" "meter" query)).1 =
          .ok ⟨groups.length, 1, 1, (groups.drop 1).take 1⟩ ∧
        (∃ g ∈ groups, g.id = "attic") ∧ ∀ g ∈ groups, g.id ≠ "cellar" := by
  intro w query listing
  have hfaults : w.faults = [] := rfl
  have hbuilt : w.store.Built := Store.built_answering _
  have hbob : w.Admits .named "bob" ⟨"bob", .user, "", .access, 0, 0⟩ := ⟨rfl, rfl⟩
  have hann : w.Admits .named "ann" ⟨"ann", .user, "", .access, 0, 0⟩ := ⟨rfl, rfl⟩
  obtain ⟨-, hgroups, hmemberships⟩ := listings_exact .named hfaults hbuilt hbob query
  obtain ⟨hunknown, -, -⟩ :=
    listings_exact .named hfaults hbuilt hbob { query with id := some "cellar" }
  obtain ⟨-, -, hann⟩ := listings_exact .named hfaults hbuilt hann query
  obtain ⟨-, hrefused, -⟩ := hmemberships "meter"
  obtain ⟨-, -, hlisted⟩ := hann "meter"
  refine ⟨hfaults, hbuilt, ?_, hunknown.2 ⟨"cellar", rfl, by decide +kernel⟩,
    hrefused.2 (by decide +kernel), ?_⟩
  · have hwalk : query.listed? w.store.groups =
        some (Hierarchy.descendants w.store.groups "hall" 5) := by
      decide +kernel
    rw [hgroups _ hwalk]
    decide +kernel
  · obtain ⟨groups, hanswer, -, hmem⟩ := hlisted (by decide +kernel) (Or.inr (by decide +kernel))
    refine ⟨groups, hanswer, ?_, ?_⟩
    · obtain ⟨attic, hattic⟩ := Option.isSome_iff_exists.1
        (show (w.store.groups.lookup "attic").isSome = true by decide +kernel)
      have hid : attic.id = "attic" := hbuilt.forest.group_id hattic
      refine ⟨attic, (hmem attic).2 ⟨hid.symm ▸ hattic, ?_, rfl⟩, hid⟩
      rw [hid]
      decide +kernel
    · intro g hg hcellar
      obtain ⟨hstored, -⟩ := (hmem g).1 hg
      rw [hcellar] at hstored
      cases hstored.symm.trans (show w.store.groups.lookup "cellar" = none by decide +kernel)

end World

end Gatehouse
