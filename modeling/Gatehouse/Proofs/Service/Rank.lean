import Gatehouse.Proofs.Service.Effect
import Gatehouse.Proofs.Service.Gate
import Mathlib.Data.Set.Basic

/-!
# Gatehouse.Proofs.Service.Rank — users who update policies pass on no more than they hold

A user may give a policy other actions only if all of them are among the actions of the user's own
policy on the same object.  So an update may move actions from one subject to another, and it may
shrink the very policy that allowed it, but on no object does it bring up an action that no policy
grants.  What one operation does not bring up, a run does not either.

* `ranks_updatePolicy` : what is noted of an update by a user.
* `shrinks_serve` : no operation of a user but those that create adds to `Store.actionsOn`.
* `rights_never_grow` : the same of runs.

Actions are counted by object and not by subject, because that is what an update keeps.  The subject
of the policy that is updated may well get actions that it did not have; what it gets are actions
that the user who updates has on this object, so somebody had them already.

The own policy is looked up by the update itself, and the trace says so (`Ranks`).  That matters for
a policy that is updated by its own subject: it is read before it is written, so it allows what it
grants at that time and not what it will grant.

The three operations that create are left out for a reason.  Whoever adds a policy may grant any
action on any object; only to change a policy that exists takes a rank.
-/

namespace Gatehouse

open Gatehouse.Time

/-! ## The actions on an object -/

namespace Store

variable {s t u : Store}

/-- The actions that policies grant on an object, to whomever. -/
def actionsOn (s : Store) (object : String) : Set String :=
  { action | ∃ subject p, s.policies.lookup ⟨subject, object⟩ = some p ∧ p.hasAction action = true }

/-- Whether a store grants no more than another one, by policies that are there too and have the
same owners. -/
structure Shrinks (s t : Store) : Prop where
  actions : ∀ object, t.actionsOn object ⊆ s.actionsOn object
  owners : ∀ {key p'}, t.policies.lookup key = some p' →
    ∃ p, s.policies.lookup key = some p ∧ p.owner = p'.owner

/-- Where no policy has changed, nothing is granted that was not. -/
theorem shrinks_of_eq (h : t.policies = s.policies) : s.Shrinks t := by
  constructor
  · intro object action
    rintro ⟨subject, p, hp, haction⟩
    rw [h] at hp
    exact ⟨subject, p, hp, haction⟩
  · intro key p' hp'
    rw [h] at hp'
    exact ⟨p', hp', rfl⟩

/-- What is granted after two steps was granted before the first. -/
theorem Shrinks.trans (h : s.Shrinks t) (h' : t.Shrinks u) : s.Shrinks u := by
  constructor
  · intro object
    exact (h'.actions object).trans (h.actions object)
  · intro key p'' hp''
    obtain ⟨p', hp', howner'⟩ := h'.owners hp''
    obtain ⟨p, hp, howner⟩ := h.owners hp'
    exact ⟨p, hp, howner.trans howner'⟩

/-- To remove a policy grants nothing. -/
theorem shrinks_of_erase {key : PolicyKey} (h : t.policies = s.policies.erase key) :
    s.Shrinks t := by
  have hbefore : ∀ {key' p}, t.policies.lookup key' = some p → s.policies.lookup key' = some p := by
    intro key' p hp
    rw [h, Table.lookup_erase] at hp
    split at hp
    · cases hp
    · exact hp
  constructor
  · rintro object action ⟨subject, p, hp, haction⟩
    exact ⟨subject, p, hbefore hp, haction⟩
  · exact fun hp => ⟨_, hbefore hp, rfl⟩

/-- To amend a policy by actions that another policy on its object covers brings up nothing. -/
theorem shrinks_of_amend {updated own : Policy} {subject : String}
    (hown : s.policies.lookup ⟨subject, updated.object⟩ = some own)
    (hcovers : own.covers updated.actions = true)
    (h : t.policies = s.policies.modify updated.key (amend · updated)) : s.Shrinks t := by
  constructor
  · rintro object action ⟨subject', p, hp, haction⟩
    rw [h, Table.lookup_modify] at hp
    split at hp
    · next hkey =>
      obtain ⟨rfl, rfl⟩ := PolicyKey.mk.inj hkey
      obtain ⟨old, -, rfl⟩ := Option.map_eq_some_iff.1 hp
      have hmem : action ∈ updated.actions := List.contains_iff_mem.1 haction
      exact ⟨subject, own, hown, List.all_eq_true.1 hcovers action hmem⟩
    · exact ⟨subject', p, hp, haction⟩
  · intro key p' hp'
    rw [h, Table.lookup_modify] at hp'
    split at hp'
    · obtain ⟨old, hold, rfl⟩ := Option.map_eq_some_iff.1 hp'
      exact ⟨old, hold, rfl⟩
    · exact ⟨p', hp', rfl⟩

end Store

/-! ## Updates by users -/

namespace Procedure

/-- A policy is looked up and noted, and what follows is done, or the look-up fails. -/
theorem tells_policy_bind {β : Type} {Q : List Deed → Except ApiError β → Prop} {key : PolicyKey}
    {f : Option Policy → Procedure β} (hfailed : ∀ e, Q [] (.error e))
    (hf : ∀ found, (f found).Tells fun es r => Q (.read key found :: es) r) :
    (store (.policy key) >>= f).Tells Q := by
  refine ⟨trivial, ?_⟩
  rintro (e | found)
  · exact hfailed _
  · exact hf found

end Procedure

namespace Engine

open Procedure

/-- What is noted of an update by a user: the user's own policy on the object covers the new
actions. -/
def Ranks (subject : String) (asked : Policy) (es : List Deed) (r : Except ApiError Policy) :
    Prop :=
  ∀ updated, r = .ok updated → ∃ own existing entry, own.covers updated.actions = true ∧
    updated.key = existing.key ∧ es = [.read ⟨subject, asked.object⟩ (some own),
      .read asked.key (some existing), .wrote (.updatePolicy updated) (), .audited entry]

/-- What is noted of an update by whoever is no admin: the own policy was looked up and covers what
was asked for, then the policy to be updated was looked up, and then it was written. -/
theorem ranks_updatePolicy (tokens : TokenIssuer) (token : String) (asked : Policy) :
    ∃ rest, updatePolicy tokens token asked = caller tokens token >>= rest ∧
      ∀ c, c.isAdmin = false → (rest c).Does (Ranks c.subject asked) := by
  refine ⟨_, rfl, fun c huser => does_bind (idle_ofExcept _ _) fun _ => does_of_tells ?_⟩
  rw [huser]
  refine tells_policy_bind (fun _ => nofun) fun own => ?_
  cases hcovers : own.any (·.covers (Policy.normalizeActions asked.actions)) with
  | false => exact nofun
  | true =>
      obtain ⟨own, rfl, hcovers⟩ := (Option.any_eq_true _ _).1 hcovers
      refine tells_policy_bind (fun _ => nofun) ?_
      rintro (_ | existing)
      · exact nofun
      · dsimp only
        split
        · exact nofun
        · refine tells_now_bind fun time => tells_write_bind rfl (fun _ => nofun) fun _ => ?_
          refine tells_tryCache_bind (tells_note_bind rfl ?_)
          rintro _ ⟨⟩
          exact ⟨own, existing, _, hcovers, rfl, rfl⟩

end Engine

/-! ## Runs -/

namespace Operation

/-- Whether an operation creates nothing. -/
def AddsNothing : Operation → Prop
  | addPolicy _ _ | createGroup _ _ | registerClient _ _ => False
  | _ => True

/-- Whether the token of an operation, if it has one that parses, is that of a user. -/
def ByUser (tokens : TokenIssuer) (time : Int) (op : Operation) : Prop :=
  ∀ token c, op.token? = some token → tokens.parse time token = .ok c → c.role = .user

end Operation

namespace World

variable {tokens : TokenIssuer} {w w' : World}

/-- Whether all operations of a history create nothing and are those of users. -/
def Restrained (tokens : TokenIssuer) : List Visit → World → Prop
  | [], _ => True
  | v :: rest, w => v.op.AddsNothing ∧
    v.op.ByUser tokens (Timestamp.ofNanos (w.elapse v.wait).clock).seconds ∧
    Restrained tokens rest ((w.elapse v.wait).run (Engine.serve tokens v.op)).2

/-- What is answered behind a token was let through by it. -/
theorem accepted_of_run {α : Type} {token : String} {kind : TokenKind} {f : Claims → Procedure α}
    {a : α} (hrun : (w.run (Engine.claims tokens token kind >>= f)).1 = .ok a) :
    ∃ c, tokens.parse (Timestamp.ofNanos w.clock).seconds token = .ok c ∧ c.kind = kind := by
  by_contra hrefused
  let s : Site World MemoryLog := ⟨w, w.outbox, w.metrics, w.trace⟩
  obtain ⟨⟨reason, herror⟩, -⟩ := Site.run_claims_refused_bind (B := .memory)
    (L := MemoryLog.eventLog) (s := s) (f := f) hrefused
  have hsame : (w.run (Engine.claims tokens token kind >>= f)).1 = _ :=
    congrArg Prod.fst (Site.run_world _ s)
  rw [hsame, herror] at hrun
  cases hrun

/-- An update by a user that is answered takes its actions from the user's own policy on the same
object. -/
theorem covers_of_updatePolicy (h : w.Reliable) (hstore : w.store.Sound) {token : String}
    {asked updated : Policy}
    (huser : (Operation.updatePolicy token asked).ByUser tokens (Timestamp.ofNanos w.clock).seconds)
    (hrun : (w.run (Engine.updatePolicy tokens token asked)).1 = .ok updated) :
    ∃ subject own, w.store.policies.lookup ⟨subject, updated.object⟩ = some own ∧
      own.covers updated.actions = true := by
  obtain ⟨rest, heq, hrest⟩ := Engine.ranks_updatePolicy tokens token asked
  rw [heq] at hrun
  obtain ⟨c, hparse, haccess⟩ := accepted_of_run hrun
  have hrole : c.isAdmin = false := by
    unfold Claims.isAdmin
    rw [huser token c rfl hparse]
    rfl
  obtain ⟨es, hranks, hfollows⟩ :=
    follows_of_run h hparse haccess (hrest c hrole) (Prod.ext hrun rfl)
  obtain ⟨own, existing, _, hcovers, hkey, rfl⟩ := hranks updated rfl
  obtain ⟨hown, hexisting, -⟩ := hfollows
  -- what was found under the key that was asked for has that key
  obtain ⟨-, hobject⟩ := PolicyKey.mk.inj (hkey.trans (hstore.policy_key hexisting))
  exact ⟨c.subject, own, hobject ▸ hown, hcovers⟩

/-- **An operation of a user that creates nothing** brings up no right. -/
theorem shrinks_serve (h : w.Reliable) (hstore : w.store.Sound) {op : Operation}
    (hop : op.AddsNothing) (huser : op.ByUser tokens (Timestamp.ofNanos w.clock).seconds) :
    w.store.Shrinks (w.run (Engine.serve tokens op)).2.store := by
  obtain ⟨hchanges, -⟩ := changes_serve tokens h op
  cases hanswer : (w.run (Engine.serve tokens op)).1 with
  | error e =>
      rw [hanswer] at hchanges
      exact Store.shrinks_of_eq hchanges.1
  | ok a =>
      rw [hanswer] at hchanges
      cases op with
      | addPolicy | createGroup | registerClient => exact False.elim hop
      | updatePolicy token asked =>
          obtain ⟨-, -, hpolicies, -⟩ := hchanges
          obtain ⟨subject, own, hown, hcovers⟩ := covers_of_updatePolicy h hstore huser hanswer
          exact Store.shrinks_of_amend hown hcovers hpolicies
      | deletePolicy token key => exact Store.shrinks_of_erase hchanges.1
      | enableGroup | disableGroup | enableClient | disableClient =>
          exact Store.shrinks_of_eq hchanges.2.1
      | issue | refresh | identify | authorize | listPolicies | canAccessByKey | canAccessById
      | identifyThing | listGroups | listMemberships => exact Store.shrinks_of_eq hchanges.1

/-- What operations do not bring up, a history does not. -/
theorem shrinks_after (h : w.Reliable) (hstore : w.store.Sound) {more : List Visit}
    (hmore : w.Restrained tokens more) : w.store.Shrinks (w.after tokens more).store := by
  induction more generalizing w with
  | nil => exact Store.shrinks_of_eq rfl
  | cons v rest ih =>
      obtain ⟨hop, huser, hrest⟩ := hmore
      have helapsed : (w.elapse v.wait).Reliable := h
      have hstep := shrinks_serve helapsed hstore hop huser
      exact hstep.trans
        (ih (changes_serve tokens helapsed v.op).2 (sound_run (w := w.elapse v.wait) _ hstore)
          hrest)

/-- **Rights never grow.**  After every history, whatever users do one after the other but add
policies, create groups and register clients: no action is granted on an object that was not granted
on it before, and all policies were there before and had the same owners. -/
theorem rights_never_grow (tokens : TokenIssuer) {w₀ : World} (hreliable : w₀.Reliable)
    (hbuilt : w₀.store.Built) (visits more : List Visit) :
    let w := w₀.after tokens visits
    let w' := w.after tokens more
    Restrained tokens more w →
      (∀ object, w'.store.actionsOn object ⊆ w.store.actionsOn object) ∧
      ∀ key p', w'.store.policies.lookup key = some p' →
        ∃ p, w.store.policies.lookup key = some p ∧ p.owner = p'.owner := by
  intro w w' hmore
  obtain ⟨hlater, hstore⟩ : w.Reliable ∧ w.store.Sound :=
    hreliable.keeps_after hbuilt.sound
      (fun _ op _ hs => sound_run (Engine.serve tokens op) hs) visits
  obtain ⟨hactions, howners⟩ := shrinks_after hlater hstore hmore
  exact ⟨hactions, fun _ _ => howners⟩

/-- The tokens of the issuer for examples are those of users. -/
theorem byUser_named (time : Int) (op : Operation) : op.ByUser .named time := by
  rintro token c - ⟨⟩
  rfl

/-- The policy of a subject on the room as it is asked for. -/
def askedPolicy (subject action : String) : Policy :=
  ⟨"", subject, "room", [action], ⟨0, 0⟩, ⟨0, 0⟩, ""⟩

/-- A history in which Ann gets a room and lets Bob write in it. -/
def lendingHistory : List Visit :=
  [⟨0, .createGroup "ann" (askedGroup "room")⟩, ⟨0, .addPolicy "ann" (askedPolicy "bob" "m_write")⟩]

/-- Ann lets Bob add to the room instead and gives up all but reading.  That Bob may write again is
refused then, since she may not herself.  Bob, who owns nothing, removes her policy. -/
def lendingUpdates : List Visit :=
  [⟨1, .updatePolicy "ann" (askedPolicy "bob" "g_add")⟩,
   ⟨1, .updatePolicy "ann" (askedPolicy "ann" "m_read")⟩,
   ⟨1, .updatePolicy "ann" (askedPolicy "bob" "m_write")⟩,
   ⟨1, .deletePolicy "bob" ⟨"ann", "room"⟩⟩]

/-- What Bob is left with is what Ann could do in the beginning. -/
theorem lending_never_grows :
    let w := (empty 60000000000 0).after .named lendingHistory
    let w' := w.after .named lendingUpdates
    Restrained .named lendingUpdates w ∧
      w'.store.policies.values.map (fun p => (p.subject, p.owner, p.actions)) =
        [("bob", "ann", ["g_add"])] ∧
      ∀ object, w'.store.actionsOn object ⊆ w.store.actionsOn object := by
  intro w w'
  have hmore : Restrained .named lendingUpdates w :=
    ⟨trivial, byUser_named _ _, trivial, byUser_named _ _, trivial, byUser_named _ _, trivial,
      byUser_named _ _, trivial⟩
  have hreliable : (empty 60000000000 0).Reliable := fun _ => rfl
  exact ⟨hmore, by decide +kernel,
    (rights_never_grow .named hreliable .empty lendingHistory lendingUpdates hmore).1⟩

end World

end Gatehouse
