import Gatehouse.Proofs.Cache.Connectivity
import Gatehouse.Proofs.Service.Failure
import Gatehouse.Proofs.Store.Grants

/-!
# Gatehouse.Proofs.Service.Ownership — what comes with a new entity

Whoever creates a group or registers a client gets a policy on its id.  Ids are chosen by whoever
asks, and policies, clients, groups and the word for every client share one space of names, so that
policy may say more than that the entity is owned.  `creation_opens` says what: all decisions on
what existed before are as before but for `Store.opens`, and a new client is connected to what
policies of its id were about before it existed.

* `run_createGroup`, `run_registerClient` : what the store holds after each of the two.
* `creation_opens_others` : with some ids it opens what is owned by others.

What can be opened follows from the grounds of decisions.  A policy of the owner on the id is a
ground on the entity of that id, whichever kind it has; on every client, if the id is the word for
them; and on every client that is connected to the id, if policies on it were there before.  And it
makes the owner connected to the id, which matters if the owner's name is the id of a client.
`Store.opens` is the disjunction of these, and the theorem is an equation of decisions, so nothing
else is opened and nothing is closed.

The owner gets the actions that owners get, a group's or a client's, and no others.  What is opened
to everybody else, by the connection of the owner, are actions that they hold on the id already.
-/

namespace Gatehouse

open Gatehouse.Time

/-! ## What the store holds afterwards -/

namespace Store

variable {s t : Store}

/-- The tables after a group was written and then the policy of its owner. -/
theorem adds_of_group {g : Group} {p : Policy} {value : Unit} {entry : TraceEntry}
    (h : s.Follows [.read p.key none, .wrote (.addGroup g) value, .wrote (.addPolicy p) (),
      .audited entry] t) :
    s.Adds p t ∧ t.clients = s.clients ∧ t.groups = s.groups.insert g.id g := by
  obtain ⟨hfree, _, u, v, hu, hgroup, _, u', v', hu', hpolicy, ht⟩ := h
  obtain rfl : v = { u with groups := u.groups.insert g.id g } := hgroup
  obtain ⟨-, rfl⟩ := hpolicy
  obtain ⟨hpolicies, hclients, hgroups⟩ := hu.trans (.refl u)
  refine ⟨⟨hfree, ?_⟩, ?_, ?_⟩
  · rw [ht.1, hu'.1, hpolicies]
  · rw [ht.2.1, hu'.2.1, hclients]
  · rw [ht.2.2, hu'.2.2, hgroups]

/-- The tables after a client was written and then the policy of its owner. -/
theorem adds_of_client {c : Client} {p : Policy} {value : Unit} {entry : TraceEntry}
    (h : s.Follows [.read p.key none, .wrote (.addClient c) value, .wrote (.addPolicy p) (),
      .audited entry] t) :
    s.Adds p t ∧ t.clients = s.clients.insert c.id c ∧ t.groups = s.groups := by
  obtain ⟨hfree, _, u, v, hu, hclient, _, u', v', hu', hpolicy, ht⟩ := h
  obtain rfl : v = { u with clients := u.clients.insert c.id c } := hclient
  obtain ⟨-, rfl⟩ := hpolicy
  obtain ⟨hpolicies, hclients, hgroups⟩ := hu
  refine ⟨⟨hfree, ?_⟩, ?_, ?_⟩
  · rw [ht.1, hu'.1, hpolicies]
  · rw [ht.2.1, hu'.2.1, hclients]
  · rw [ht.2.2, hu'.2.2, hgroups]

end Store

/-! ## What is noted -/

namespace Engine

open Procedure

/-- What is noted of a group that is created for a holder. -/
def FoundsGroup (holder : String) (asked : Group) (es : List Deed) (r : Except ApiError Group) :
    Prop :=
  ∀ g, r = .ok g → g.owner = holder ∧ (asked.id = "" ∨ g.id = asked.id) ∧
    ∃ time, es = [.read ⟨holder, g.id⟩ none, .wrote (.addGroup g) (),
      .wrote (.addPolicy (ownerPolicy time holder g.id groupActions)) (), .audited (groupEntry g)]

/-- What is noted of a client that is registered for a holder. -/
def FoundsClient (holder : String) (asked : Client) (es : List Deed) (r : Except ApiError Client) :
    Prop :=
  ∀ c, r = .ok c → c.owner = holder ∧ (asked.id = "" ∨ c.id = asked.id) ∧ c.status = .enabled ∧
    ∃ time, es = [.read ⟨holder, c.id⟩ none, .wrote (.addClient c) (),
      .wrote (.addPolicy (ownerPolicy time holder c.id clientActions)) (), .audited (clientEntry c)]

variable (tokens : TokenIssuer)

/-- A group and the policy of its owner, once both are known. -/
theorem does_foundGroup {holder : String} (asked : Group) {g : Group} (howner : g.owner = holder)
    (hid : asked.id = "" ∨ g.id = asked.id) :
    (ensureOwnerSlot holder g.id >>= fun _ => store (.addGroup g) >>= fun _ =>
      saveOwnerPolicy holder g.id groupActions >>= fun _ => note (groupEntry g) >>= fun _ =>
      pure g).Does (FoundsGroup holder asked) := by
  refine does_settle rfl (fun _ _ _ _ => nofun) fun value time => tells_note_bind rfl ?_
  rintro _ ⟨⟩
  exact ⟨howner, hid, time, rfl⟩

/-- A group is created for the subject of the token, under the id that was asked for or under a
fresh one. -/
theorem founds_createGroup (token : String) (asked : Group) :
    ∃ rest, createGroup tokens token asked = caller tokens token >>= rest ∧
      ∀ c, (rest c).Does (FoundsGroup c.subject asked) := by
  refine ⟨_, rfl, fun c => ?_⟩
  have hfound (parent : Option String) (time : Timestamp) (id : String)
      (hid : asked.id = "" ∨ id = asked.id) :=
    does_foundGroup asked
      (g := { asked with
        id, parent, owner := c.subject, status := .enabled, createdAt := time,
        updatedAt := time, level := 0, path := "" }) rfl hid
  cases asked.parent
  case' some parent => refine does_bind (idle_checkParent _ _) fun _ => ?_
  -- with a parent or without one, the same steps follow
  all_goals
    refine does_bind idle_now fun time => does_name_bind fun id hid => ?_
    exact hfound _ time id hid

/-- A client and the policy of its owner, once both are known. -/
theorem does_foundClient {holder : String} (asked : Client) {c : Client} (howner : c.owner = holder)
    (hid : asked.id = "" ∨ c.id = asked.id) (hstatus : c.status = .enabled) :
    (ensureOwnerSlot holder c.id >>= fun _ => store (.addClient c) >>= fun _ =>
      saveOwnerPolicy holder c.id clientActions >>= fun _ => note (clientEntry c) >>= fun _ =>
      pure c).Does (FoundsClient holder asked) := by
  refine does_settle rfl (fun _ _ _ _ => nofun) fun value time => tells_note_bind rfl ?_
  rintro _ ⟨⟩
  exact ⟨howner, hid, hstatus, time, rfl⟩

/-- A client is registered for the subject of the token, under the id that was asked for or under a
fresh one, and it is enabled. -/
theorem founds_registerClient (token : String) (asked : Client) :
    ∃ rest, registerClient tokens token asked = caller tokens token >>= rest ∧
      ∀ c, (rest c).Does (FoundsClient c.subject asked) := by
  refine ⟨_, rfl, fun c => does_bind idle_now fun time => ?_⟩
  refine does_name_bind fun id hid => does_name_bind fun secret _ => ?_
  exact does_foundClient asked
    (c := { asked with
      id, secret, owner := c.subject, status := .enabled, createdAt := time,
      updatedAt := time }) rfl hid rfl

end Engine

/-! ## Runs -/

namespace World

variable {w w' : World} {tokens : TokenIssuer} {token : String} {claims : Claims}

/-- What is done behind an accepted token leads to what the store holds afterwards. -/
theorem follows_of_run (h : w.Reliable)
    (hparse : tokens.parse (Timestamp.ofNanos w.clock).seconds token = .ok claims)
    (haccess : claims.kind = .access) {α : Type} {rest : Claims → Procedure α}
    {C : List Deed → Except ApiError α → Prop} (hrest : (rest claims).Does C) {a : α}
    (hrun : w.run (Engine.caller tokens token >>= rest) = (.ok a, w')) :
    ∃ es, C es (.ok a) ∧ w.store.Follows es w'.store := by
  rw [run_bind_of_ok (run_caller hparse haccess)] at hrun
  obtain ⟨_, ⟨looks, core, hlooks, rfl, hcore⟩, hfollows, -⟩ := run_follows hrest h
  rw [hrun] at hcore hfollows
  rcases hcore with hcore | ⟨-, e, he⟩
  · exact ⟨core, hcore, Store.follows_of_looks hlooks hfollows⟩
  · cases he

/-- **A group that was created** stands in its table, and the policy of its owner in the other. -/
theorem run_createGroup (h : w.Sound)
    (hparse : tokens.parse (Timestamp.ofNanos w.clock).seconds token = .ok claims)
    (haccess : claims.kind = .access) {asked g : Group}
    (hrun : w.run (Engine.createGroup tokens token asked) = (.ok g, w')) :
    g.owner = claims.subject ∧ (asked.id = "" ∨ g.id = asked.id) ∧
      w'.store.clients = w.store.clients ∧ w'.store.groups = w.store.groups.insert g.id g ∧
      ∃ time, w.store.Adds (Engine.ownerPolicy time claims.subject g.id groupActions) w'.store := by
  obtain ⟨rest, heq, hrest⟩ := Engine.founds_createGroup tokens token asked
  rw [heq] at hrun
  obtain ⟨es, hfounds, hfollows⟩ := follows_of_run h.reliable hparse haccess (hrest claims) hrun
  obtain ⟨howner, hid, time, rfl⟩ := hfounds g rfl
  obtain ⟨hadds, hclients, hgroups⟩ := Store.adds_of_group
    (p := Engine.ownerPolicy time claims.subject g.id groupActions) hfollows
  exact ⟨howner, hid, hclients, hgroups, time, hadds⟩

/-- **A client that was registered** stands in its table, and the policy of its owner in the
other. -/
theorem run_registerClient (h : w.Sound)
    (hparse : tokens.parse (Timestamp.ofNanos w.clock).seconds token = .ok claims)
    (haccess : claims.kind = .access) {asked c : Client}
    (hrun : w.run (Engine.registerClient tokens token asked) = (.ok c, w')) :
    c.owner = claims.subject ∧ (asked.id = "" ∨ c.id = asked.id) ∧ c.status = .enabled ∧
      w'.store.clients = w.store.clients.insert c.id c ∧ w'.store.groups = w.store.groups ∧
      ∃ time,
        w.store.Adds (Engine.ownerPolicy time claims.subject c.id clientActions) w'.store := by
  obtain ⟨rest, heq, hrest⟩ := Engine.founds_registerClient tokens token asked
  rw [heq] at hrun
  obtain ⟨es, hfounds, hfollows⟩ := follows_of_run h.reliable hparse haccess (hrest claims) hrun
  obtain ⟨howner, hid, hstatus, time, rfl⟩ := hfounds c rfl
  obtain ⟨hadds, hclients, hgroups⟩ := Store.adds_of_client
    (p := Engine.ownerPolicy time claims.subject c.id clientActions) hfollows
  exact ⟨howner, hid, hstatus, hclients, hgroups, time, hadds⟩

/-! ## Decisions afterwards -/

/-- What the creation of a group opens.  Decisions on other groups are as before, since a decision
on a group asks about no other object. -/
theorem opens_createGroup (h : w.Sound)
    (hparse : tokens.parse (Timestamp.ofNanos w.clock).seconds token = .ok claims)
    (haccess : claims.kind = .access) {asked g : Group}
    (hrun : w.run (Engine.createGroup tokens token asked) = (.ok g, w')) :
    (∀ subject object action, w'.store.evaluate .client subject object action =
      (w.store.evaluate .client subject object action).map
        (· || w.store.opens claims.subject g.id groupActions subject object action)) ∧
    ∀ subject object action, object ≠ g.id →
      w'.store.evaluate .group subject object action =
        w.store.evaluate .group subject object action := by
  obtain ⟨-, -, hclients, hgroups, time, hadds⟩ := run_createGroup h hparse haccess hrun
  constructor
  · intro subject object action
    -- no client has changed, so no owner of one has
    have hkept : w'.store.facts.clientOwner object = w.store.facts.clientOwner object := by
      show (w'.store.clients.lookup object).map _ = _
      rw [hclients]
      rfl
    exact Store.evaluate_client_of_added h.store (h.of_run hrun).store hadds hkept subject action
  · intro subject object action hother
    -- only the new group has an owner that it had not before
    have hkept : w'.store.facts.groupOwner object = w.store.facts.groupOwner object := by
      show (w'.store.groups.lookup object).map _ = _
      rw [hgroups, Table.lookup_insert, if_neg hother]
      rfl
    rw [Store.evaluate_group_of_added hadds hkept]
    show (w.store.evaluate .group subject object action).map
      (· || (subject == claims.subject && object == g.id && groupActions.contains action)) = _
    rw [beq_false_of_ne hother, Bool.and_false, Bool.false_and]
    simp only [Bool.or_false]
    exact congrFun Except.map_id _

/-- What the registration of a client opens.  The client itself is left out: it is new, and its
owner may do everything with it.  A group that has its id may be opened too, by the same policy. -/
theorem opens_registerClient (h : w.Sound)
    (hparse : tokens.parse (Timestamp.ofNanos w.clock).seconds token = .ok claims)
    (haccess : claims.kind = .access) {asked c : Client}
    (hrun : w.run (Engine.registerClient tokens token asked) = (.ok c, w')) :
    (∀ subject object action, object ≠ c.id →
      w'.store.evaluate .client subject object action =
        (w.store.evaluate .client subject object action).map
          (· || w.store.opens claims.subject c.id clientActions subject object action)) ∧
    ∀ subject object action, w'.store.evaluate .group subject object action =
      (w.store.evaluate .group subject object action).map
        (· || (subject == claims.subject && object == c.id && clientActions.contains action)) := by
  obtain ⟨-, -, -, hclients, hgroups, time, hadds⟩ := run_registerClient h hparse haccess hrun
  constructor
  · intro subject object action hother
    have hkept : w'.store.facts.clientOwner object = w.store.facts.clientOwner object := by
      show (w'.store.clients.lookup object).map _ = _
      rw [hclients, Table.lookup_insert, if_neg hother]
      rfl
    exact Store.evaluate_client_of_added h.store (h.of_run hrun).store hadds hkept subject action
  · intro subject object action
    have hkept : w'.store.facts.groupOwner object = w.store.facts.groupOwner object := by
      show (w'.store.groups.lookup object).map _ = _
      rw [hgroups]
      rfl
    exact Store.evaluate_group_of_added hadds hkept subject action

/-- To what a new client is connected. -/
theorem connects_registerClient (h : w.Coherent)
    (hparse : tokens.parse (Timestamp.ofNanos w.clock).seconds token = .ok claims)
    (haccess : claims.kind = .access) {asked c : Client}
    (hrun : w.run (Engine.registerClient tokens token asked) = (.ok c, w')) (channel : String) :
    (w'.run (Engine.canAccessById channel c.id)).1 = .ok () ↔
      w.store.policies.contains ⟨c.id, channel⟩ = true ∨
        c.id = claims.subject ∧ channel = c.id := by
  obtain ⟨-, -, hstatus, hclients, -, time, hadds⟩ :=
    run_registerClient h.toSound hparse haccess hrun
  have hcoherent : w'.Coherent := by
    have hafter := h.run (Engine.settles_serve tokens (.registerClient token asked))
      (Engine.timely_serve tokens (.registerClient token asked))
    rw [show w.run (Engine.serve tokens (.registerClient token asked)) = _ from hrun] at hafter
    exact hafter
  have henabled : (w'.store.clients.lookup c.id).any (·.status = .enabled) = true := by
    rw [hclients, Table.lookup_insert, if_pos rfl]
    exact decide_eq_true hstatus
  refine Iff.trans ?_ (hadds.contains c.id channel)
  rw [hcoherent.run_canAccessById, Store.connects, henabled, Bool.and_true]
  cases w'.store.policies.contains ⟨c.id, channel⟩ with
  | true => exact iff_of_true rfl rfl
  | false => exact iff_of_false nofun nofun

/-- **What a new entity opens.**  After every history, whoever creates a group or registers a client
gets the policy of its owner.  All decisions on clients are as before but for what this policy
opens, those on groups are as before unless a client has the id of a group, and a new client is
connected to what policies of its id were about before, and to itself if its owner has its id. -/
theorem creation_opens (tokens : TokenIssuer) {w₀ : World} (hopened : w₀.Opened)
    (visits : List Visit) (wait : Nat) {token : String} {claims : Claims} :
    let w := (w₀.after tokens visits).elapse wait
    tokens.parse (Timestamp.ofNanos w.clock).seconds token = .ok claims →
    claims.kind = .access →
    (∀ asked g w', w.run (Engine.createGroup tokens token asked) = (.ok g, w') →
      g.owner = claims.subject ∧ (asked.id = "" ∨ g.id = asked.id) ∧
      (∀ subject object action, w'.store.evaluate .client subject object action =
        (w.store.evaluate .client subject object action).map
          (· || w.store.opens claims.subject g.id groupActions subject object action)) ∧
      ∀ subject object action, object ≠ g.id →
        w'.store.evaluate .group subject object action =
          w.store.evaluate .group subject object action) ∧
    ∀ asked c w', w.run (Engine.registerClient tokens token asked) = (.ok c, w') →
      c.owner = claims.subject ∧ (asked.id = "" ∨ c.id = asked.id) ∧
      (∀ subject object action, object ≠ c.id →
        w'.store.evaluate .client subject object action =
          (w.store.evaluate .client subject object action).map
            (· || w.store.opens claims.subject c.id clientActions subject object action)) ∧
      (∀ subject object action, w'.store.evaluate .group subject object action =
        (w.store.evaluate .group subject object action).map
          (· || (subject == claims.subject && object == c.id && clientActions.contains action))) ∧
      ∀ channel, (w'.run (Engine.canAccessById channel c.id)).1 = .ok () ↔
        w.store.policies.contains ⟨c.id, channel⟩ = true ∨
          c.id = claims.subject ∧ channel = c.id := by
  intro w hparse haccess
  have hcoherent : w.Coherent := (hopened.coherent.after tokens visits).elapse wait
  -- what is cached matters only for the connection, which is read through the caches
  have hsound : w.Sound := hcoherent.toSound
  constructor
  · intro asked g w' hrun
    obtain ⟨howner, hid, -⟩ := run_createGroup hsound hparse haccess hrun
    exact ⟨howner, hid, opens_createGroup hsound hparse haccess hrun⟩
  · intro asked c w' hrun
    obtain ⟨howner, hid, -⟩ := run_registerClient hsound hparse haccess hrun
    obtain ⟨hclients, hgroups⟩ := opens_registerClient hsound hparse haccess hrun
    exact ⟨howner, hid, hclients, hgroups, connects_registerClient hcoherent hparse haccess hrun⟩

/-- A group of a name as it is asked for. -/
def askedGroup (id : String) : Group :=
  ⟨id, "", "", "", none, .enabled, ⟨0, 0⟩, ⟨0, 0⟩, 0, ""⟩

/-- A client of a name as it is asked for. -/
def askedClient (id : String) : Client := ⟨id, "", "", id, .enabled, ⟨0, 0⟩, ⟨0, 0⟩⟩

/-- A history in which Ann gets a room, a meter and a client named Bob.  The meter is connected to a
hall and a bell to the room, and Carl has a policy on an attic; there is no hall, bell or attic
yet. -/
def annsHistory : List Visit :=
  let policy (subject object : String) : Policy :=
    ⟨"", subject, object, ["m_write"], ⟨0, 0⟩, ⟨0, 0⟩, ""⟩
  [⟨0, .createGroup "ann" (askedGroup "room")⟩, ⟨0, .registerClient "ann" (askedClient "meter")⟩,
   ⟨0, .registerClient "ann" (askedClient "bob")⟩, ⟨0, .addPolicy "ann" (policy "meter" "hall")⟩,
   ⟨0, .addPolicy "ann" (policy "bell" "room")⟩, ⟨0, .addPolicy "ann" (policy "carl" "attic")⟩]

/-- A new lobby and a new lamp open neither the meter nor the room to Bob. -/
theorem creation_opens_nothing :
    let w := ((empty 60000000000 0).after .named annsHistory).elapse 5
    let created := w.run (Engine.createGroup .named "bob" (askedGroup "lobby"))
    let registered := w.run (Engine.registerClient .named "bob" (askedClient "lamp"))
    (empty 60000000000 0).Opened ∧
      created.2.store.evaluate .client "bob" "meter" "m_write" = .ok false ∧
      registered.2.store.evaluate .group "bob" "room" "m_write" = .ok false ∧
      (registered.2.run (Engine.canAccessById "room" "lamp")).1 ≠ .ok () := by
  intro w created registered
  have hopened : (empty 60000000000 0).Opened := opened_empty _ _
  obtain ⟨hgroup, hclient⟩ := @creation_opens .named _ hopened annsHistory 5 "bob"
    ⟨"bob", .user, "", .access, 0, 0⟩ rfl rfl
  have hcreated : created.1 = .ok { askedGroup "lobby" with
      owner := "bob", createdAt := ⟨0, 5⟩, updatedAt := ⟨0, 5⟩ } := by decide +kernel
  have hregistered : registered.1 = .ok { askedClient "lamp" with
      owner := "bob", createdAt := ⟨0, 5⟩, updatedAt := ⟨0, 5⟩ } := by decide +kernel
  obtain ⟨-, -, hmeter, -⟩ := hgroup _ _ created.2 (Prod.ext hcreated rfl)
  obtain ⟨-, -, -, hroom, hlamp⟩ := hclient _ _ registered.2 (Prod.ext hregistered rfl)
  refine ⟨hopened, (hmeter _ _ _).trans ?_, (hroom _ _ _).trans ?_, (hlamp "room").not.2 ?_⟩
  · decide +kernel
  · decide +kernel
  · decide +kernel

/-- By the ids that he chooses, Bob gets rights on the meter, on the client of his name and on the
room, Carl gets rights on that client, and a client that Bob registers is connected to the room. -/
theorem creation_opens_others :
    let w := (empty 60000000000 0).after .named annsHistory
    let created (id : String) := w.run (Engine.createGroup .named "bob" (askedGroup id))
    let registered (id : String) := w.run (Engine.registerClient .named "bob" (askedClient id))
    let mayWrite (kind : EntityType) (subject object : String) (w : World) :=
      w.store.evaluate kind subject object "m_write"
    -- no decision grants any of it before
    (mayWrite .client "bob" "meter" w = .ok false ∧ mayWrite .client "bob" "bob" w = .ok false ∧
      mayWrite .client "carl" "bob" w = .ok false ∧ mayWrite .group "bob" "room" w = .ok false) ∧
    ((created "things").1.isOk ∧ mayWrite .client "bob" "meter" (created "things").2 = .ok true) ∧
    ((created "meter").1.isOk ∧ mayWrite .client "bob" "meter" (created "meter").2 = .ok true) ∧
    ((created "hall").1.isOk ∧ mayWrite .client "bob" "meter" (created "hall").2 = .ok true) ∧
    ((created "attic").1.isOk ∧ mayWrite .client "bob" "bob" (created "attic").2 = .ok true ∧
      mayWrite .client "carl" "bob" (created "attic").2 = .ok true) ∧
    ((registered "room").1.isOk ∧ mayWrite .group "bob" "room" (registered "room").2 = .ok true) ∧
    ((registered "bell").1.isOk ∧
      ((registered "bell").2.run (Engine.canAccessById "room" "bell")).1 = .ok ()) := by
  decide +kernel

end World

end Gatehouse
