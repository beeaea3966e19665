import Gatehouse.Proofs.Sql.Twin

/-!
# Gatehouse.Proofs.Sql.Fidelity — what is read back is what was saved

A store that a database keeps writes what it is given into rows and makes values of rows again.
What it has saved it gives back under every key and in every listing, at the resolution of the
database (`ReadsPolicy`, `ReadsClient`, `ReadsGroup`).  All that this takes of the database is that
it accepts no two entries with the same key (`EnforcesKeys`).

What becomes of it later is what becomes of it in a store in memory (`values_are_read_back`).  Which
rows a database refuses does not matter there, as long as both stores save the same; a database that
does what is declared of its tables saves what a store in memory does, but for groups inside
themselves (`Paired.answer_declared`).
-/

namespace Gatehouse.Sql

open Layout Gatehouse.Time

/-! ## Keys -/

/-- The columns in which no two entries of a table agree, as they are declared. -/
def keysOf (table : String) : List (List String) :=
  if table = policies then [["subject", "object"]]
  else if table = clients then [["id"], ["secret"]]
  else if table = groups then [["id"]]
  else []

/-- Whether two entries agree in some columns. -/
def Entry.agree (e e' : Entry) (columns : List String) : Bool :=
  columns.all fun column => e.value column = e'.value column

/-- Whether no entry is accepted that has a key of another one. -/
def EnforcesKeys (refuse : Constraints) : Prop :=
  ∀ t table e, refuse t table e = none →
    ∀ key ∈ keysOf table, ∀ e' ∈ t.rows table, e'.agree e key = false

/-- Two entries agree in a column of texts exactly if the texts are the same. -/
theorem agree_text {e e' : Entry} {column s s' : String} (h : e.value column = .text s)
    (h' : e'.value column = .text s') : e.agree e' [column] = decide (s = s') := by
  show (decide (e.value column = e'.value column) && true) = _
  simp only [h, h', Bool.and_true, Value.text.injEq]

/-- The entries of two policies agree in subject and object exactly if the policies have one key. -/
theorem agree_policyKey (p p' : Policy) :
    (policyEntry p).agree (policyEntry p') ["subject", "object"] = decide (p.key = p'.key) := by
  show (decide (Value.text p.subject = .text p'.subject) &&
    (decide (Value.text p.object = .text p'.object) && true)) = _
  rw [Bool.and_true, ← Bool.decide_and]
  simp only [Value.text.injEq, Policy.key, PolicyKey.mk.injEq]

/-! ## The only value under a key -/

/-- Whether a list has a value, and no other one with its key. -/
def Sole {α κ : Type} (key : α → κ) (a : α) (as : List α) : Prop :=
  a ∈ as ∧ ∀ b ∈ as, key b = key a → b = a

section Sole

variable {α κ : Type} {key : α → κ} {a : α} {as bs : List α}

/-- A value whose key was free is the only one with it. -/
theorem sole_concat (hfree : ∀ b ∈ as, key b ≠ key a) : Sole key a (as ++ [a]) := by
  refine ⟨List.mem_append_right as (List.mem_singleton_self a), fun b hb hkey => ?_⟩
  rcases List.mem_append.1 hb with hb | hb
  · exact absurd hkey (hfree b hb)
  · exact List.mem_singleton.1 hb

/-- A value that is alone is alone in any selection that has it. -/
theorem Sole.of_subset (h : Sole key a as) (ha : a ∈ bs) (hsub : bs ⊆ as) : Sole key a bs :=
  ⟨ha, fun b hb => h.2 b (hsub hb)⟩

theorem Sole.map {f : α → α} (h : Sole key a as) (hform : ∀ b, key (f b) = key b) :
    Sole key (f a) (as.map f) := by
  refine ⟨List.mem_map_of_mem h.1, fun b' hb' hkey => ?_⟩
  obtain ⟨b, hb, rfl⟩ := List.mem_map.1 hb'
  rw [hform, hform] at hkey
  rw [h.2 b hb hkey]

theorem Sole.find? [DecidableEq κ] (h : Sole key a as) {k : κ} (hk : key a = k) :
    as.find? (key · = k) = some a := by
  cases hfind : as.find? (key · = k) with
  | none => exact absurd (decide_eq_true hk) (List.find?_eq_none.1 hfind a h.1)
  | some b =>
      have hkey := List.find?_some hfind
      have hsame : key b = key a := (of_decide_eq_true hkey).trans hk.symm
      rw [h.2 b (List.mem_of_find?_eq_some hfind) hsame]

end Sole

/-! ## Reading -/

/-- Whether a store gives back a policy: under its key, among those of its subject, and on a page of
every listing that admits it.  No other policy with its key is ever listed. -/
structure ReadsPolicy (ask : (c : StoreCall) → c.Reply) (p : Policy) : Prop where
  byKey : ask (.policy p.key) = .ok (some p)
  bySubject : ∃ ps, ask (.policiesOf p.subject) = .ok ps ∧ Sole Policy.key p ps
  listed : ∀ q : PolicyQuery, q.admits p = true →
    ∃ offset page, ask (.policyPage { q with offset }) = .ok page ∧ p ∈ page.policies
  alone : ∀ q page, ask (.policyPage q) = .ok page → ∀ p' ∈ page.policies, p'.key = p.key → p' = p

/-- Whether a store gives back a client: under its id and for its secret. -/
structure ReadsClient (ask : (c : StoreCall) → c.Reply) (c : Client) : Prop where
  byId : ask (.client c.id) = .ok (some c)
  bySecret : ask (.clientBySecret c.secret) = .ok (some c)

/-- Whether a store gives back a group: under its id and, once, among all groups. -/
structure ReadsGroup (ask : (c : StoreCall) → c.Reply) (g : Group) : Prop where
  byId : ask (.group g.id) = .ok (some g)
  listed : ∃ gs, ask .groups = .ok gs ∧ Sole Group.id g gs

section Reading

variable {refuse : Constraints} {now : Timestamp} {t : Tables} {k : Contents}

theorem mem_inOrder {α κ : Type} [Ord κ] {key : α → κ} {a : α} {as : List α} :
    a ∈ inOrder key as ↔ a ∈ as := List.mem_mergeSort

/-- A policy that is alone under its key is given back by every call that it belongs to. -/
theorem readsPolicy_of_sole (hk : Holds t k) {p : Policy} (h : Sole Policy.key p k.policies) :
    ReadsPolicy (fun c => (t.answer refuse now c).1) p.kept where
  byKey := by
    have hfound := congrArg (Option.map Policy.kept) (h.find? (k := p.key) rfl)
    exact (hk.answer refuse now (.policy p.key)).1.trans (congrArg Except.ok hfound)
  bySubject := by
    refine ⟨_, (hk.answer refuse now (.policiesOf p.subject)).1, ?_⟩
    refine Sole.map (h.of_subset ?_ fun p' hp' => ?_) fun _ => rfl
    · exact mem_inOrder.2 (List.mem_filter.2 ⟨h.1, decide_eq_true rfl⟩)
    · exact (List.mem_filter.1 (mem_inOrder.1 hp')).1
  listed := by
    intro q hadmits
    have hfound : p ∈ inOrder Policy.key (k.policies.filter q.admits) :=
      mem_inOrder.2 (List.mem_filter.2 ⟨h.1, hadmits⟩)
    obtain ⟨before, rest, hsplit⟩ := List.append_of_mem hfound
    refine ⟨before.length, _, (hk.answer refuse now (.policyPage _)).1, List.mem_map_of_mem ?_⟩
    show p ∈ ((inOrder Policy.key (k.policies.filter q.admits)).drop before.length).take _
    obtain ⟨limit, hlimit⟩ := Nat.exists_eq_add_one.2 (effectiveLimit_pos q.limit)
    rw [hsplit, List.drop_left, PolicyQuery.effectiveLimit, hlimit]
    exact List.mem_cons_self
  alone := by
    intro q page hpage p' hp' hkey
    obtain rfl := Except.ok.inj ((hk.answer refuse now (.policyPage q)).1.symm.trans hpage)
    obtain ⟨p'', hshown, rfl⟩ := List.mem_map.1 hp'
    have hstored := mem_inOrder.1 (List.mem_of_mem_drop (List.mem_of_mem_take hshown))
    exact congrArg Policy.kept (h.2 p'' (List.mem_filter.1 hstored).1 hkey)

/-- A client that is alone under its id and with its secret is given back for both. -/
theorem readsClient_of_sole (hk : Holds t k) {c : Client} (hid : Sole Client.id c k.clients)
    (hsecret : Sole Client.secret c k.clients) :
    ReadsClient (fun call => (t.answer refuse now call).1) c.kept where
  byId := by
    have hfound := congrArg (Option.map Client.kept) (hid.find? (k := c.id) rfl)
    exact (hk.answer refuse now (.client c.id)).1.trans (congrArg Except.ok hfound)
  bySecret := by
    have hfound := congrArg (Option.map Client.kept) (hsecret.find? (k := c.secret) rfl)
    exact (hk.answer refuse now (.clientBySecret c.secret)).1.trans (congrArg Except.ok hfound)

/-- A group that is alone under its id is given back under it and among all groups. -/
theorem readsGroup_of_sole (hk : Holds t k) {g : Group} (h : Sole Group.id g k.groups) :
    ReadsGroup (fun c => (t.answer refuse now c).1) g.kept where
  byId := by
    have hfound := congrArg (Option.map Group.kept) (h.find? (k := g.id) rfl)
    exact (hk.answer refuse now (.group g.id)).1.trans (congrArg Except.ok hfound)
  listed := by
    refine ⟨_, (hk.answer refuse now .groups).1, ?_⟩
    refine Sole.map (h.of_subset ?_ fun g' hg' => ?_) fun _ => rfl
    · exact mem_inOrder.2 h.1
    · exact mem_inOrder.1 hg'

/-! ### What was saved -/

/-- What is saved has not been refused, and is there. -/
theorem Holds.saved (hk : Holds t k) {c : StoreCall} (hc : c.isSave = true)
    (hok : (t.answer refuse now c).1.isOk = true) :
    refusal refuse t c = none ∧ Holds (t.answer refuse now c).2 (k.adding c) := by
  obtain ⟨hreply, hk'⟩ := hk.answer refuse now c
  obtain ⟨haccepted, hadded⟩ := k.answer_of_isSave now (refusal refuse t c) hc
  rw [hreply, haccepted] at hok
  rw [hadded, if_pos hok] at hk'
  exact ⟨Option.isNone_iff_eq_none.1 hok, hk'⟩

/-- What is accepted has no key of what is there. -/
theorem agree_of_accepted {α : Type} {entry : α → Entry} {table : String} {as : List α} {e : Entry}
    (hkeys : EnforcesKeys refuse) (hrows : t.rows table = as.map entry)
    (haccepted : refuse t table e = none) {key : List String} (hkey : key ∈ keysOf table) :
    ∀ a ∈ as, (entry a).agree e key = false := by
  intro a ha
  refine hkeys t table e haccepted key hkey (entry a) ?_
  rw [hrows]
  exact List.mem_map_of_mem ha

/-- **A policy that was saved** is given back from then on. -/
theorem readsPolicy_of_saved (hkeys : EnforcesKeys refuse) (hk : Holds t k) {p : Policy}
    (h : (t.answer refuse now (.addPolicy p)).1 = .ok ()) (now' : Timestamp) :
    ReadsPolicy (fun c => ((t.answer refuse now (.addPolicy p)).2.answer refuse now' c).1)
      p.kept := by
  obtain ⟨haccepted, hk'⟩ := hk.saved (c := .addPolicy p) rfl (by rw [h]; rfl)
  refine readsPolicy_of_sole hk' (sole_concat fun p' hp' => ?_)
  have hno := agree_of_accepted hkeys hk.policies haccepted
    (List.mem_singleton_self ["subject", "object"]) p' hp'
  rw [agree_policyKey] at hno
  exact of_decide_eq_false hno

/-- **A client that was saved** is given back from then on. -/
theorem readsClient_of_saved (hkeys : EnforcesKeys refuse) (hk : Holds t k) {c : Client}
    (h : (t.answer refuse now (.addClient c)).1 = .ok ()) (now' : Timestamp) :
    ReadsClient (fun call => ((t.answer refuse now (.addClient c)).2.answer refuse now' call).1)
      c.kept := by
  obtain ⟨haccepted, hk'⟩ := hk.saved (c := .addClient c) rfl (by rw [h]; rfl)
  have hno : ∀ key ∈ keysOf clients, ∀ c' ∈ k.clients,
      (clientEntry c').agree (clientEntry c) key = false :=
    fun key hkey => agree_of_accepted hkeys hk.clients haccepted hkey
  refine readsClient_of_sole hk' (sole_concat fun c' hc' => ?_) (sole_concat fun c' hc' => ?_)
  · have hid := hno ["id"] (by decide) c' hc'
    rw [agree_text rfl rfl] at hid
    exact of_decide_eq_false hid
  · have hsecret := hno ["secret"] (by decide) c' hc'
    rw [agree_text rfl rfl] at hsecret
    exact of_decide_eq_false hsecret

/-- **A group that was saved** is given back from then on. -/
theorem readsGroup_of_saved (hkeys : EnforcesKeys refuse) (hk : Holds t k) {g : Group}
    (h : (t.answer refuse now (.addGroup g)).1 = .ok ()) (now' : Timestamp) :
    ReadsGroup (fun c => ((t.answer refuse now (.addGroup g)).2.answer refuse now' c).1)
      g.kept := by
  obtain ⟨haccepted, hk'⟩ := hk.saved (c := .addGroup g) rfl (by rw [h]; rfl)
  refine readsGroup_of_sole hk' (sole_concat fun g' hg' => ?_)
  have hid := agree_of_accepted hkeys hk.groups haccepted (List.mem_singleton_self ["id"]) g' hg'
  rw [agree_text rfl rfl] at hid
  exact of_decide_eq_false hid

end Reading

/-! ## What is declared

A database that does what is declared of the tables of a store, and refuses nothing else. -/

/-- The columns of a table that refer to a column of another one, as they are declared. -/
def referencesOf (table : String) : List (String × String × String) :=
  if table = groups then [("parent_id", groups, "id")] else []

/-- Whether an entry refers to another one that is not there; it may refer to itself. -/
def dangles (t : Tables) (table : String) (e : Entry) : Bool :=
  (referencesOf table).any fun (column, table', column') =>
    e.value column ≠ .null &&
      !((t.add table e).rows table').any fun e' => e'.value column' = e.value column

/-- Refuses entries with a key of another one, and those that refer to what is not there. -/
def declared : Constraints := fun t table e =>
  if (keysOf table).any fun key => (t.rows table).any (·.agree e key) then
    some ⟨"23505", "duplicate key value violates unique constraint"⟩
  else if dangles t table e then
    some ⟨"23503", "insert or update violates foreign key constraint"⟩
  else none

/-- An entry is accepted if no key of it is taken and nothing that it refers to is missing. -/
theorem isNone_declared (t : Tables) (table : String) (e : Entry) :
    (declared t table e).isNone =
      (!((keysOf table).any fun key => (t.rows table).any (·.agree e key)) &&
        !dangles t table e) := by
  rw [declared]
  cases (keysOf table).any fun key => (t.rows table).any (·.agree e key) <;>
    cases dangles t table e <;> rfl

/-- What is declared keeps two entries from having one key. -/
theorem enforcesKeys_declared : EnforcesKeys declared := by
  intro t table e haccepted key hkey e' he'
  have hnone : (declared t table e).isNone = true := by rw [haccepted]; rfl
  rw [isNone_declared, Bool.and_eq_true, Bool.not_eq_true', List.any_eq_false] at hnone
  have hno := hnone.1 key hkey
  rw [List.any_eq_true] at hno
  exact Bool.eq_false_iff.2 fun hagree => hno ⟨e', he', hagree⟩

section Declared

variable {t : Tables} {s : Store} {k : Contents} {d : Dates}

/-- Some entry of a table agrees with a new one if and only if a value does. -/
theorem any_agree {α : Type} {entry : α → Entry} {table : String} {as : List α} {P : α → Bool}
    {e : Entry} {key : List String} (hrows : t.rows table = as.map entry)
    (h : ∀ a, (entry a).agree e key = P a) : ((t.rows table).any (·.agree e key)) = as.any P := by
  rw [hrows, List.any_map]
  exact congrArg as.any (funext h)

/-- A group may be inside one that is there, or inside itself. -/
theorem dangles_group (hk : Holds t k) (g : Group) :
    dangles t groups (groupEntry g) =
      g.parent.any fun parent => !((k.groups ++ [g]).any (·.id = parent)) := by
  have hrows : (t.add groups (groupEntry g)).rows groups = (k.groups ++ [g]).map groupEntry := by
    show (t.put groups (t.rows groups ++ [groupEntry g])).rows groups = _
    rw [Tables.rows_put, hk.groups, List.map_append]
    rfl
  show ((decide (Value.ofOption g.parent ≠ .null) &&
    !((t.add groups (groupEntry g)).rows groups).any fun e =>
      decide (e.value "id" = Value.ofOption g.parent)) || false) = _
  rw [hrows, List.any_map, Bool.or_false]
  cases g.parent with
  | none => rfl
  | some parent =>
      have hid : ((fun e => decide (e.value "id" = Value.ofOption (some parent))) ∘ groupEntry) =
          fun g' => decide (g'.id = parent) :=
        funext fun g' => decide_eq_decide.2 (by rw [← Value.text.injEq g'.id parent]; rfl)
      rw [hid]
      rfl

/-- A database that does what is declared saves what a store in memory does, unless it is a group
inside itself. -/
theorem hasRoom_eq (h : Twin d s k) (hs : s.Sound) (hk : Holds t k) {c : StoreCall}
    (hc : c.isSave = true) (hself : ∀ g, c = .addGroup g → g.parent ≠ some g.id) :
    s.hasRoom c = (refusal declared t c).isNone := by
  cases c with
  | policy | policiesOf | policyPage | client | clientBySecret | group | groups | updatePolicy
  | deletePolicy | setClientStatus | setGroupStatus => cases hc
  | addPolicy p =>
      have hkey : ((t.rows policies).any (·.agree (policyEntry p) ["subject", "object"])) =
          s.policies.contains p.key := by
        rw [any_agree hk.policies fun p' => agree_policyKey p' p, ← List.isSome_find?,
          h.find?_policy]
        rfl
      show (!s.policies.contains p.key) = (declared t policies (policyEntry p)).isNone
      rw [isNone_declared, ← hkey]
      show _ = (!(_ || false) && true)
      rw [Bool.or_false, Bool.and_true]
  | addClient c =>
      have hid : ((t.rows clients).any (·.agree (clientEntry c) ["id"])) =
          s.clients.contains c.id := by
        rw [any_agree hk.clients fun c' => agree_text rfl rfl, ← List.isSome_find?,
          h.find?_client, Option.isSome_map]
        rfl
      have hsecret : ((t.rows clients).any (·.agree (clientEntry c) ["secret"])) =
          (s.clientBySecret c.secret).isSome := by
        rw [any_agree hk.clients fun c' => agree_text rfl rfl, ← List.isSome_find?,
          h.find?_secret hs, Option.isSome_map]
      show (!s.clients.contains c.id && (s.clientBySecret c.secret).isNone) =
        (declared t clients (clientEntry c)).isNone
      rw [isNone_declared, ← hid, ← Option.not_isSome, ← hsecret]
      -- of a client two keys are declared, and no reference
      show _ = (!(_ || (_ || false)) && true)
      rw [Bool.or_false, Bool.not_or, Bool.and_true]
  | addGroup g =>
      have hid : ((t.rows groups).any (·.agree (groupEntry g) ["id"])) =
          s.groups.contains g.id := by
        rw [any_agree hk.groups fun g' => agree_text rfl rfl, ← List.isSome_find?,
          h.find?_group, Option.isSome_map]
        rfl
      show (!s.groups.contains g.id && g.parent.all s.groups.contains) =
        (declared t groups (groupEntry g)).isNone
      rw [isNone_declared, ← hid]
      show _ = (!(_ || false) && !dangles t groups (groupEntry g))
      rw [Bool.or_false, dangles_group hk]
      congr 1
      cases hparent : g.parent with
      | none => rfl
      | some parent =>
          -- the new group is not its own parent, so the parent is one that was there before
          have hother : g.id ≠ parent := fun heq => hself g rfl (by rw [hparent, heq])
          have hstored : k.groups.any (·.id = parent) = s.groups.contains parent := by
            rw [← List.isSome_find?, h.find?_group, Option.isSome_map]
            rfl
          rw [Option.all_some, Option.any_some, Bool.not_not, List.any_append, hstored]
          simp [hother]

/-- With a database that does what is declared, any call may be made to both stores but one that
adds a group inside itself. -/
theorem Paired.answer_declared (h : Paired declared s t d) (c : StoreCall) (here there : Timestamp)
    (hself : ∀ g, c = .addGroup g → g.parent ≠ some g.id) :
    Paired declared (s.answer here c).2 (t.answer declared there c).2 (d.after there s c) := by
  refine .answer h c here there fun hc => ?_
  obtain ⟨hs, k, hk, htwin⟩ := h.twin
  rw [(hk.answer declared there c).1, (Store.answer_of_isSave here s hc).1,
    (k.answer_of_isSave there (refusal declared t c) hc).1]
  exact hasRoom_eq htwin hs.sound hk hc hself

end Declared

/-! ## The result -/

/-- **What is read back is what was saved.**  Whatever calls were made before, a store that a
database keeps gives back what it has saved, at the resolution of the database and, of a group,
without level and path.  After the same calls it answers every call that adds nothing as a store in
memory does, but for that resolution and for the time at which a status was set. -/
theorem values_are_read_back (refuse : Constraints) :
    (EnforcesKeys refuse → ∀ t : Tables, t.Built refuse → ∀ now now',
      (∀ p, (t.answer refuse now (.addPolicy p)).1 = .ok () →
        ReadsPolicy (fun c => ((t.answer refuse now (.addPolicy p)).2.answer refuse now' c).1)
          p.kept) ∧
      (∀ c, (t.answer refuse now (.addClient c)).1 = .ok () →
        ReadsClient (fun call => ((t.answer refuse now (.addClient c)).2.answer refuse now' call).1)
          c.kept) ∧
      ∀ g, (t.answer refuse now (.addGroup g)).1 = .ok () →
        ReadsGroup (fun c => ((t.answer refuse now (.addGroup g)).2.answer refuse now' c).1)
          g.kept) ∧
    ∀ s t d, Paired refuse s t d → ∀ c here there, c.isSave = false →
      (t.answer refuse there c).1 = (s.answer here c).1.map ((d.after there s c).readBack c) := by
  constructor
  · intro hkeys t ht now now'
    obtain ⟨k, hk⟩ := ht.holds
    exact ⟨fun p h => readsPolicy_of_saved hkeys hk h now',
      fun c h => readsClient_of_saved hkeys hk h now',
      fun g h => readsGroup_of_saved hkeys hk h now'⟩
  · intro s t d h c here there hc
    obtain ⟨hs, k, hk, htwin⟩ := h.twin
    exact (hk.answer refuse there c).1.trans (htwin.alike hs hc).1

/-- A policy that was saved at a time between two microseconds, and a client whose status was set at
other times in either store. -/
theorem saved_policy_and_switched_client :
    let p : Policy := ⟨"ann", "bob", "room", ["m_read"], ⟨1700000000, 1999⟩, ⟨1700000000, 0⟩, ""⟩
    let c : Client := ⟨"svc", "Service", "ann", "s3cret", .enabled, ⟨1, 0⟩, ⟨1, 0⟩⟩
    let saved := (Tables.empty.answer declared ⟨5, 0⟩ (.addPolicy p)).2
    let s := ((Store.empty.answer ⟨5, 0⟩ (.addClient c)).2.answer ⟨6, 0⟩
      (.setClientStatus "svc" .disabled)).2
    let t := ((Tables.empty.answer declared ⟨5, 0⟩ (.addClient c)).2.answer declared ⟨7, 0⟩
      (.setClientStatus "svc" .disabled)).2
    (saved.answer declared ⟨9, 0⟩ (.policy p.key)).1 =
        .ok (some { p with createdAt := ⟨1700000000, 1000⟩ }) ∧
      (s.answer ⟨9, 0⟩ (.client "svc")).1 =
        .ok (some { c with status := .disabled, updatedAt := ⟨6, 0⟩ }) ∧
      (t.answer declared ⟨9, 0⟩ (.client "svc")).1 =
        .ok (some { c with status := .disabled, updatedAt := ⟨7, 0⟩ }) := by
  intro p c saved s t
  have hsaved : (Tables.empty.answer declared ⟨5, 0⟩ (.addPolicy p)).1 = .ok () :=
    (holds_empty.answer declared ⟨5, 0⟩ (.addPolicy p)).1
  let d : Dates := ⟨setDate (fun _ => none) "svc" ⟨7, 0⟩, fun _ => none⟩
  have hpaired : Paired declared s t d :=
    (Paired.empty.answer_declared (.addClient c) ⟨5, 0⟩ ⟨5, 0⟩ nofun).answer_declared
      (.setClientStatus "svc" .disabled) ⟨6, 0⟩ ⟨7, 0⟩ nofun
  have hread := (((values_are_read_back declared).1 enforcesKeys_declared .empty .empty ⟨5, 0⟩
    ⟨9, 0⟩).1 p hsaved).byKey
  have hclient := (values_are_read_back declared).2 s t d hpaired (.client "svc") ⟨9, 0⟩ ⟨9, 0⟩ rfl
  have hkept : p.kept = { p with createdAt := ⟨1700000000, 1000⟩ } := by decide
  have hhere : s.clients.lookup "svc" =
      some { c with status := .disabled, updatedAt := ⟨6, 0⟩ } := by decide
  have hdated : (s.clients.lookup "svc").map (fun c => (d.client c).kept) =
      some { c with status := .disabled, updatedAt := ⟨7, 0⟩ } := by decide
  rw [Policy.kept_key] at hread
  rw [← hkept]
  exact ⟨hread, congrArg Except.ok hhere, hclient.trans (congrArg Except.ok hdated)⟩

end Gatehouse.Sql
