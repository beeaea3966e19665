import Gatehouse.Proofs.Cache.Retention
import Gatehouse.Proofs.Service.Provenance
import Gatehouse.Proofs.Service.Update

/-!
# Gatehouse.Proofs.Cache.Recall — granted rights are served from the cache

Four operations grant rights: a policy is added or updated, or an entity is created and its owner
gets a policy.  Each of them stores a policy and caches it in the same moment (`World.Grants`), so
the policy is retained for as long as entries last.

* `Retains.serve` : an operation retains a policy unless it revises it.  Which operations do is read
  off their traces (`Operation.revised?`), so operations that break off are covered as well.
* `Retains.after` : so does a history that revises the policy nowhere (`World.Spares`) and that ends
  before the deadline.
* `Retains.authorize` : whatever a policy grants that is retained is authorized without the store.
* `granted_served_from_cache` : rights that were granted are served from the cache.

That the store is not asked is said of the store that is left behind.  It counts its reads, so a
look-up that went past the cache would leave another store, and the equation covers reading and
writing at once.

Entities are created under names that are given or fresh.  Neither is empty, and this has to be
carried along, because an object without a name is refused before any cache is asked.
-/

namespace Gatehouse

open Gatehouse.Time

/-! ## Operations that revise a policy -/

namespace Operation

/-- Whether an operation asks for the policy under a key to be amended or removed. -/
def Revises (key : PolicyKey) : Operation → Prop
  | updatePolicy _ p => p.key = key
  | deletePolicy _ key' => key' = key
  | _ => False

variable {op : Operation} {es : List Deed} {key : PolicyKey}

theorem not_revises_of_looks (h : ∀ d ∈ es, d.IsRead) : ∀ d ∈ es, ¬d.Revises key := by
  intro d hd hrevises
  cases d with
  | read => exact hrevises
  | wrote | refused | audited => exact h _ hd

/-- An operation that breaks off has revised nothing. -/
theorem not_revises_of_breaks (h : op.Breaks es) : ∀ d ∈ es, ¬d.Revises key := by
  cases op with
  | addPolicy | updatePolicy | deletePolicy | enableGroup | disableGroup | enableClient
  | disableClient =>
      obtain ⟨c, e, rfl⟩ := h
      exact List.forall_mem_singleton.2 id
  | createGroup | registerClient =>
      obtain ⟨entity, -, ⟨e⟩ | ⟨value, p, e, hkey⟩⟩ := h
      · simp [Deed.Revises]
      · simp [Deed.Revises]
  | issue | refresh | identify | authorize | listPolicies | canAccessByKey | canAccessById
  | identifyThing | listGroups | listMemberships => exact False.elim h

/-- The key of the policy that an operation, answered so, has amended or removed. -/
def revised? : (op : Operation) → op.Answer → Option PolicyKey
  | updatePolicy _ _, (updated : Policy) => some updated.key
  | deletePolicy _ key, _ => some key
  | _, _ => none

/-- A revision among the deeds of an operation that was answered is the one that its answer names.
The two operations that can revise a policy note it first and a record of it second; all others note
deeds of other kinds. -/
theorem revised?_of_leaves {a : op.Answer} (h : op.Leaves a es) {d : Deed} (hd : d ∈ es)
    (hrevises : d.Revises key) : op.revised? a = some key := by
  cases op with
  -- only an update and a removal revise a policy that may be cached
  | addPolicy token p =>
      obtain ⟨-, -, rfl⟩ := h
      rcases List.mem_pair.1 hd with rfl | rfl <;> exact False.elim hrevises
  | updatePolicy token p =>
      obtain ⟨-, -, rfl⟩ := h
      rcases List.mem_pair.1 hd with rfl | rfl
      · exact congrArg some hrevises
      · exact False.elim hrevises
  | deletePolicy token key' =>
      obtain ⟨caller, rfl⟩ := h
      rcases List.mem_pair.1 hd with rfl | rfl
      · exact congrArg some hrevises
      · exact False.elim hrevises
  | createGroup | registerClient =>
      obtain ⟨-, time, rfl⟩ := h
      simp only [List.mem_cons, List.not_mem_nil, or_false] at hd
      rcases hd with rfl | rfl | rfl | rfl <;> exact False.elim hrevises
  | enableGroup | disableGroup | enableClient | disableClient =>
      obtain ⟨caller, rfl⟩ := h
      rcases List.mem_pair.1 hd with rfl | rfl <;> exact False.elim hrevises
  | refresh token =>
      obtain ⟨subject, rfl⟩ := h
      cases List.mem_singleton.1 hd
      exact False.elim hrevises
  | issue request =>
      obtain rfl := h
      cases List.mem_singleton.1 hd
      exact False.elim hrevises
  | identify | authorize | listPolicies | canAccessByKey | canAccessById | identifyThing
  | listGroups | listMemberships =>
      obtain rfl := h
      exact absurd hd List.not_mem_nil

/-- What is noted of an operation that was not answered, or not so that it revised the policy, has
no revision of the policy in it. -/
theorem not_revises_of_told {r : Except ApiError op.Answer} (htold : op.Told es r)
    (hspared : ∀ a, r = .ok a → op.revised? a ≠ some key) : ∀ d ∈ es, ¬d.Revises key := by
  rcases htold with ⟨reason, e, rfl, -⟩ | ⟨looks, core, hlooks, rfl, hcore⟩
  · exact List.forall_mem_singleton.2 id
  · refine List.forall_mem_append.2 ⟨not_revises_of_looks hlooks, ?_⟩
    -- after the looks an operation broke off, was carried out, or ended where it was
    rcases hcore with hacts | ⟨rfl, -⟩
    · cases r with
      | error e => exact not_revises_of_breaks hacts
      | ok a => exact fun d hd hrevises => hspared a rfl (revised?_of_leaves hacts hd hrevises)
    · exact List.forall_mem_nil _

/-- The key and the actions of the policy that an operation, answered so, has granted.  Those of a
policy that is added or updated are the ones asked for, put in order; an owner gets all that there
are for the type of the entity. -/
def granted? : (op : Operation) → op.Answer → Option (PolicyKey × List String)
  | addPolicy _ p, _ | updatePolicy _ p, _ => some (p.key, Policy.normalizeActions p.actions)
  | createGroup _ _, (g : Group) => some (⟨g.owner, g.id⟩, groupActions)
  | registerClient _ _, (c : Client) => some (⟨c.owner, c.id⟩, clientActions)
  | _, _ => none

end Operation

namespace World

variable {w₀ w w' : World} {tokens : TokenIssuer} {p : Policy} {deadline : Nat} {α β : Type}
  {x : Procedure α} {f : α → Procedure β} {R : Except ApiError β → World → Prop}

/-! ## What no run changes -/

/-- What no run changes of a sound world: that it is sound, the time, and for how long policies are
remembered. -/
structure Steady (w w' : World) : Prop where
  sound : w'.Sound
  clock : w'.clock = w.clock
  ttl : w'.caches.policies.ttl = w.caches.policies.ttl

theorem Sound.steady (h : w.Sound) (x : Program service α) :
    w.Steady (x.run World.answer w).2 := by
  induction x generalizing w with
  | done a => exact ⟨h, rfl, rfl⟩
  | ask c next ih =>
      have hstep : (w.answer c).2.clock = w.clock ∧
          (w.answer c).2.caches.policies.ttl = w.caches.policies.ttl := by
        refine answer_cases h (P := fun _ _ w' => w'.clock = w.clock ∧
          w'.caches.policies.ttl = w.caches.policies.ttl) ?_ ?_ ?_ c
        · exact fun _ => ⟨rfl, rfl⟩
        · exact fun c => ⟨rfl, (Caches.ttl_answer _ _ c).1⟩
        · intro _ _ w' _ _ hcaches _ hclock
          exact ⟨hclock, by rw [hcaches]⟩
      obtain ⟨hsound, hclock, httl⟩ := ih _ (h.answer c)
      exact ⟨hsound, hclock.trans hstep.1, httl.trans hstep.2⟩

theorem Steady.refl (h : w.Sound) : w.Steady w := ⟨h, rfl, rfl⟩

theorem Steady.trans (h : w₀.Steady w) (h' : w.Steady w') : w₀.Steady w' :=
  ⟨h'.sound, h'.clock.trans h.clock, h'.ttl.trans h.ttl⟩

/-- Of a step whose value does not matter, nothing else needs to be known. -/
theorem ends_steady_bind (h : w₀.Steady w) (hrefused : ∀ e w', R (.error e) w')
    (hf : ∀ a w', w₀.Steady w' → w'.Ends (f a) R) : w.Ends (x >>= f) R := by
  refine ends_bind (Q := fun _ w' => w₀.Steady w') (h.trans (h.sound.steady x.run))
    (fun e w' _ => hrefused e w') ?_
  exact fun a w' hsteady => hf a w' hsteady

/-! ## Operations and histories -/

/-- An update that is carried out is one of those that have been described. -/
theorem ends_updatePolicy (h : w.Sound) (token : String) (p : Policy) :
    w.Ends (Engine.updatePolicy tokens token p) fun r w' =>
      ∀ updated, r = .ok updated → ∃ claims, w.Updates claims p (.ok updated) w' := by
  -- whom no token admits does not get as far as an update
  by_cases hadmitted : ∃ claims, w.Admits tokens token claims
  · obtain ⟨claims, hadmits⟩ := hadmitted
    refine ends_mono (updates_updatePolicy h hadmits p) ?_
    rintro r w' hupdates updated rfl
    exact ⟨claims, hupdates⟩
  · exact ends_caller_bind refused fun claims hadmits => absurd ⟨claims, hadmits⟩ hadmitted

theorem Updates.key_eq (h : w.Sound) {claims : Claims} {p updated : Policy}
    (hupdates : w.Updates claims p (.ok updated) w') : updated.key = p.key := by
  cases hupdates with
  | amended _ _ hstored _ hupdated =>
      subst hupdated
      have hkey := h.store.policy_key hstored
      exact hkey

/-- Only what an operation is asked to revise is revised by it. -/
theorem revises_of_revised? (h : w.Sound) {op : Operation} {a : op.Answer} {key : PolicyKey}
    (hanswer : (w.run (Engine.serve tokens op)).1 = .ok a) (hrevised : op.revised? a = some key) :
    op.Revises key := by
  cases op with
  | deletePolicy token key' => exact Option.some.inj hrevised
  | updatePolicy token p =>
      obtain ⟨claims, hupdates⟩ := ends_updatePolicy h token p a hanswer
      exact (hupdates.key_eq h).symm.trans (Option.some.inj hrevised)
  | issue | refresh | identify | authorize | addPolicy | listPolicies | canAccessByKey
  | canAccessById | identifyThing | createGroup | registerClient | listGroups | listMemberships
  | enableGroup | disableGroup | enableClient | disableClient => cases hrevised

/-- Whether an operation, run in a world, amends or removes the policy under a key. -/
def Revised (w : World) (tokens : TokenIssuer) (key : PolicyKey) (op : Operation) : Prop :=
  op.Revises key ∧ ∃ a, (w.run (Engine.serve tokens op)).1 = .ok a

/-- **An operation** retains a policy unless it revises it. -/
theorem Retains.serve (h : w.Retains p deadline) {op : Operation}
    (hspared : ¬w.Revised tokens p.key op) :
    (w.run (Engine.serve tokens op)).2.Retains p deadline := by
  obtain ⟨es, htold, hretains⟩ := @run_retains _ _ _ w p deadline
    (Engine.tells_serve tokens op) (Engine.timely_serve tokens op w h.toSound)
  refine hretains (Engine.remembers_serve tokens op) h ?_
  refine Operation.not_revises_of_told htold ?_
  intro a hanswer hrevised
  exact hspared ⟨revises_of_revised? h.toSound hanswer hrevised, a, hanswer⟩

/-- Whether no operation of a history amends or removes the policy under a key. -/
def Spares (tokens : TokenIssuer) (key : PolicyKey) : List Visit → World → Prop
  | [], _ => True
  | v :: rest, w => ¬(w.elapse v.wait).Revised tokens key v.op ∧
    Spares tokens key rest ((w.elapse v.wait).run (Engine.serve tokens v.op)).2

/-- Time does not go back. -/
theorem clock_le_after (h : w.Sound) (tokens : TokenIssuer) (visits : List Visit) :
    w.clock ≤ (w.after tokens visits).clock := by
  induction visits generalizing w with
  | nil => exact Nat.le_refl _
  | cons v rest ih =>
      have hsteady : (w.elapse v.wait).Steady
          ((w.elapse v.wait).run (Engine.serve tokens v.op)).2 :=
        (h.elapse v.wait).steady _
      have hlater := ih hsteady.sound
      rw [hsteady.clock] at hlater
      exact Nat.le_trans (Nat.le_add_right _ _) hlater

theorem Retains.elapse (h : w.Retains p deadline) {nanos : Nat}
    (hearly : w.clock + nanos < deadline) : (w.elapse nanos).Retains p deadline :=
  ⟨h.toSound.elapse nanos, h.stored, h.cached, hearly,
    Nat.le_trans h.renewable (Nat.add_le_add_right (Nat.le_add_right _ _) _)⟩

/-- **A history** that ends before the deadline retains a policy that it spares. -/
theorem Retains.after (h : w.Retains p deadline) {visits : List Visit}
    (hspares : Spares tokens p.key visits w) (hearly : (w.after tokens visits).clock < deadline) :
    (w.after tokens visits).Retains p deadline := by
  induction visits generalizing w with
  | nil => exact h
  | cons v rest ih =>
      have hsound : (w.elapse v.wait).Sound := h.toSound.elapse v.wait
      have hsteady : (w.elapse v.wait).Steady
          ((w.elapse v.wait).run (Engine.serve tokens v.op)).2 :=
        hsound.steady _
      -- the clock only goes on, so the deadline has not passed at the first operation either
      have hclock := clock_le_after hsteady.sound tokens rest
      rw [hsteady.clock] at hclock
      exact ih ((h.elapse (Nat.lt_of_le_of_lt hclock hearly)).serve hspares.1) hspares.2 hearly

/-! ## Grants -/

/-- Whether a policy is stored and cached in a world that comes from another one without a lapse of
time. -/
structure Grants (w : World) (p : Policy) (w' : World) : Prop extends w.Steady w' where
  stored : w'.store.policies.lookup p.key = some p
  cached : w'.caches.policies.entries.lookup p.key =
    some ⟨p, w.clock + w.caches.policies.ttl⟩

/-- A policy that is granted is retained for as long as entries last. -/
theorem Grants.retains (h : w.Grants p w') (hlive : 0 < w.caches.policies.ttl) :
    w'.Retains p (w.clock + w.caches.policies.ttl) where
  toSound := h.sound
  stored := h.stored
  cached := ⟨_, Nat.le_refl _, h.cached⟩
  early := by
    rw [h.clock]
    exact Nat.lt_add_of_pos_right hlive
  renewable := by rw [h.clock, h.ttl]

theorem Grants.remark (h : w.Grants p w') (e : TraceEntry) : w.Grants p (w'.remark e) :=
  ⟨⟨⟨h.sound.faults, h.sound.store⟩, h.clock, h.ttl⟩, h.stored, h.cached⟩

/-- A policy that is stored and then cached is granted. -/
theorem Steady.grants_remember (h : w.Steady w')
    (hstored : w'.store.policies.lookup p.key = some p) : w.Grants p (w'.remember p) where
  sound := ⟨h.sound.faults, h.sound.store⟩
  clock := h.clock
  ttl := h.ttl
  stored := hstored
  cached := by
    rw [lookup_remember, h.clock, h.ttl]

/-- A policy that was added is cached next. -/
theorem ends_grant_bind {f : Unit → Procedure β} (h : w₀.Steady w)
    (hrefused : ∀ e w', R (.error e) w')
    (hf : ∀ w', w₀.Grants p w' → w'.Ends (f ()) R) :
    w.Ends (Procedure.store (.addPolicy p) >>= fun _ => Engine.cachePolicy p >>= f) R := by
  refine ends_bind (Q := fun r w' => r = .ok () → w.Steady w' ∧
    w'.store.policies.lookup p.key = some p) ?_ (fun e w' _ => hrefused e w') ?_
  · show (w.run _).1 = .ok () → _
    intro hadded
    refine ⟨h.sound.steady _, ?_⟩
    exact Store.confirms_addPolicy (answer_of_run_store h.sound (Prod.ext hadded rfl))
  · rintro ⟨⟩ w' hadded
    obtain ⟨hsteady, hstored⟩ := hadded rfl
    refine ends_bind_of_ok (run_cachePolicy hsteady.sound p) (hf _ ?_)
    exact (h.trans hsteady).grants_remember hstored

theorem ends_addPolicy (h : w.Sound) (token : String) (p : Policy) :
    w.Ends (Engine.addPolicy tokens token p) fun r w' => ∀ added, r = .ok added →
      p.validate = .ok () ∧ added.key = p.key ∧
        added.actions = Policy.normalizeActions p.actions ∧ w.Grants added w' := by
  refine ends_caller_bind refused fun claims _ => ?_
  cases hvalid : p.validate with
  | error e => exact fun added he => nomatch he
  | ok =>
      refine ends_now_bind (ends_grant_bind (.refl h) refused fun w' hgrants => ?_)
      refine ends_note_bind (ends_pure ?_)
      rintro added ⟨⟩
      exact ⟨rfl, rfl, rfl, hgrants.remark _⟩

/-- An entity that is created comes with a policy of its owner. -/
theorem ends_creation {owner object : String} {actions : List String} {entity : StoreCall}
    {f : Unit → Procedure β} (h : w₀.Steady w) (hrefused : ∀ e w', R (.error e) w')
    (hf : ∀ (time : Timestamp) (w' : World),
      w₀.Grants (Engine.ownerPolicy time owner object actions) w' → w'.Ends (f ()) R) :
    w.Ends (Engine.ensureOwnerSlot owner object >>= fun _ => Procedure.store entity >>= fun _ =>
      Engine.saveOwnerPolicy owner object actions >>= f) R := by
  refine ends_steady_bind h hrefused fun _ w₁ h₁ => ?_
  refine ends_steady_bind h₁ hrefused fun _ w₂ h₂ => ?_
  rw [Engine.saveOwnerPolicy_bind]
  exact ends_now_bind (ends_grant_bind h₂ hrefused fun w₃ h₃ => hf _ w₃ h₃)

/-- A name that is not given is a fresh one, and not empty either. -/
theorem ends_name_bind {given : String} {f : String → Procedure β} (h : w₀.Steady w)
    (hf : ∀ name w', name ≠ "" → w₀.Steady w' → w'.Ends (f name) R) :
    w.Ends (if given = "" then Procedure.freshId >>= f else pure given >>= f) R := by
  split
  · exact hf _ _ (freshName_ne_empty w.ids) (h.trans (h.sound.steady Procedure.freshId.run))
  · next hgiven => exact hf given w hgiven h

theorem ends_createGroup (h : w.Sound) (token : String) (asked : Group) :
    w.Ends (Engine.createGroup tokens token asked) fun r w' => ∀ g, r = .ok g →
      g.id ≠ "" ∧ ∃ time, w.Grants (Engine.ownerPolicy time g.owner g.id groupActions) w' := by
  refine ends_caller_bind refused fun claims _ => ?_
  have hsteady : w.Steady w := .refl h
  generalize w = w₁ at hsteady ⊢
  cases asked.parent
  case' some parent => refine ends_steady_bind hsteady refused fun _ w₁ hsteady => ?_
  -- with a parent or without one, the same steps follow
  all_goals
    refine ends_now_bind (ends_name_bind hsteady fun id w₂ hid h₂ => ?_)
    refine ends_creation h₂ refused fun time w₃ h₃ => ?_
    refine ends_note_bind (ends_pure ?_)
    rintro g ⟨⟩
    exact ⟨hid, time, h₃.remark _⟩

theorem ends_registerClient (h : w.Sound) (token : String) (asked : Client) :
    w.Ends (Engine.registerClient tokens token asked) fun r w' => ∀ c, r = .ok c →
      c.id ≠ "" ∧ ∃ time, w.Grants (Engine.ownerPolicy time c.owner c.id clientActions) w' := by
  refine ends_caller_bind refused fun claims _ => ?_
  refine ends_now_bind (ends_name_bind (.refl h) fun id w₁ hid h₁ => ?_)
  refine ends_name_bind h₁ fun secret w₂ _ h₂ => ?_
  refine ends_creation h₂ refused fun time w₃ h₃ => ?_
  refine ends_note_bind (ends_pure ?_)
  rintro c ⟨⟩
  exact ⟨hid, time, h₃.remark _⟩

theorem Updates.grants (h : w.Sound) {claims : Claims} {p updated : Policy} (hsteady : w.Steady w')
    (hupdates : w.Updates claims p (.ok updated) w') : p.validate = .ok () ∧ updated.key = p.key ∧
      updated.actions = Policy.normalizeActions p.actions ∧ w.Grants updated w' := by
  have hkey : updated.key = p.key := hupdates.key_eq h
  cases hupdates with
  | amended hvalid _ _ _ hupdated hpolicies _ _ hcached =>
      refine ⟨hvalid, hkey, by rw [hupdated], hsteady, ?_, ?_⟩
      · rw [hpolicies, if_pos hkey]
      · rw [hkey, hcached]

/-- **Every operation that grants rights** stores and caches one policy with these rights.  The
object of the policy has a name, since a policy without one is not valid and an entity without one
gets a fresh one. -/
theorem grants_serve (h : w.Sound) {op : Operation} {a : op.Answer} {key : PolicyKey}
    {actions : List String} (hanswer : (w.run (Engine.serve tokens op)).1 = .ok a)
    (hgranted : op.granted? a = some (key, actions)) :
    key.object ≠ "" ∧ ∃ p : Policy, p.key = key ∧ p.actions = actions ∧
      w.Grants p (w.run (Engine.serve tokens op)).2 := by
  cases op with
  | addPolicy token p =>
      cases hgranted
      obtain ⟨hvalid, hkey, hactions, hgrants⟩ := ends_addPolicy h token p a hanswer
      exact ⟨(Policy.validate_eq_ok_iff.1 hvalid).2.1, a, hkey, hactions, hgrants⟩
  | updatePolicy token p =>
      cases hgranted
      obtain ⟨claims, hupdates⟩ := ends_updatePolicy h token p a hanswer
      obtain ⟨hvalid, hkey, hactions, hgrants⟩ := hupdates.grants h (h.steady _)
      exact ⟨(Policy.validate_eq_ok_iff.1 hvalid).2.1, a, hkey, hactions, hgrants⟩
  | createGroup token g =>
      cases hgranted
      obtain ⟨hid, time, hgrants⟩ := ends_createGroup h token g a hanswer
      exact ⟨hid, _, rfl, rfl, hgrants⟩
  | registerClient token c =>
      cases hgranted
      obtain ⟨hid, time, hgrants⟩ := ends_registerClient h token c a hanswer
      exact ⟨hid, _, rfl, rfl, hgrants⟩
  -- nothing else grants
  | issue | refresh | identify | authorize | deletePolicy | listPolicies | canAccessByKey
  | canAccessById | identifyThing | listGroups | listMemberships | enableGroup | disableGroup
  | enableClient | disableClient => cases hgranted

/-! ## Recall -/

/-- A policy that is retained is found in the cache. -/
theorem Retains.peek (h : w.Retains p deadline) :
    w.caches.policies.peek w.clock p.key = some p := by
  obtain ⟨expiresAt, hdeadline, hcached⟩ := h.cached
  have hlive : w.clock < expiresAt := Nat.lt_of_lt_of_le h.early hdeadline
  unfold TtlMap.peek CachedEntry.isLive
  simp [hcached, hlive]

/-- Whatever a policy grants that is retained is authorized, and the store is not asked. -/
theorem Retains.authorize (h : w.Retains p deadline) {token entityType action : String}
    {claims : Claims} {kind : EntityType} (hadmits : w.Admits tokens token claims)
    (hsubject : claims.subject = p.subject) (hobject : p.object ≠ "")
    (hkind : EntityType.ofName? entityType = some kind) (haction : kind.isAction action = true)
    (hcarries : action ∈ p.actions) :
    w.Ends (Engine.authorize tokens token entityType p.object action) fun r w' =>
      r = .ok () ∧ w'.store = w.store := by
  obtain ⟨w', hrun, hstore⟩ := run_cachedAllows h.toSound ⟨claims.subject, p.object⟩ action
  have hhit : (w.caches.policies.peek w.clock ⟨claims.subject, p.object⟩).any
      (·.hasAction action) = true := by
    rw [hsubject, show (⟨p.subject, p.object⟩ : PolicyKey) = p.key from rfl, h.peek]
    simpa [Policy.hasAction] using hcarries
  refine ends_bind_of_ok (run_caller hadmits.1 hadmits.2) ?_
  rw [hkind]
  show w.Ends (if p.object = "" then _ else if (!kind.isAction action) = true then _ else
    Engine.cachedAllows ⟨claims.subject, p.object⟩ action >>= _) _
  rw [if_neg hobject, haction, if_neg (by decide)]
  refine ends_bind_of_ok hrun ?_
  rw [hhit]
  exact ⟨rfl, hstore⟩

/-- **Granted rights are served from the cache.**  After every history, an operation that grants a
subject actions on an object stores a policy with exactly these actions.  Whatever operations
follow, as long as none of them amends or removes this policy and it is cached for longer than the
time that went by, the subject is authorized to every one of the actions that suits the type of the
entity, and the store is not asked for anything: it is the same as before, the count of its reads
included. -/
theorem granted_served_from_cache (tokens : TokenIssuer) {w₀ : World} (hopened : w₀.Opened)
    (visits : List Visit) (wait : Nat) (op : Operation) (a : op.Answer) {key : PolicyKey}
    {actions : List String} :
    let w := (w₀.after tokens visits).elapse wait
    let w₁ := (w.run (Engine.serve tokens op)).2
    (w.run (Engine.serve tokens op)).1 = .ok a →
    op.granted? a = some (key, actions) →
    (∃ p, w₁.store.policies.lookup key = some p ∧ p.actions = actions) ∧
      ∀ (more : List Visit) (later : Nat),
        let w₂ := (w₁.after tokens more).elapse later
        Spares tokens key more w₁ →
        w₂.clock < w.clock + w.caches.policies.ttl →
        ∀ {token entityType action : String} {claims : Claims} {kind : EntityType},
          w₂.Admits tokens token claims →
          claims.subject = key.subject →
          EntityType.ofName? entityType = some kind →
          kind.isAction action = true →
          action ∈ actions →
          (w₂.run (Engine.authorize tokens token entityType key.object action)).1 = .ok () ∧
            (w₂.run (Engine.authorize tokens token entityType key.object action)).2.store =
              w₂.store := by
  intro w w₁ hanswer hgranted
  have hsound : w.Sound := ((hopened.coherent.after tokens visits).elapse wait).toSound
  obtain ⟨hobject, p, rfl, rfl, hgrants⟩ := grants_serve hsound hanswer hgranted
  refine ⟨⟨p, hgrants.stored, rfl⟩, ?_⟩
  intro more later w₂ hspares hearly token entityType action claims kind hadmits hsubject hkind
    haction hcarries
  have hclock : w₁.clock ≤ (w₁.after tokens more).clock := clock_le_after hgrants.sound tokens more
  rw [hgrants.clock] at hclock
  -- before the deadline there is only time if entries last at all
  have hlive : 0 < w.caches.policies.ttl := by
    have : w₂.clock = (w₁.after tokens more).clock + later := rfl
    omega
  have hafter : (w₁.after tokens more).Retains p (w.clock + w.caches.policies.ttl) :=
    (hgrants.retains hlive).after hspares (Nat.lt_of_le_of_lt (Nat.le_add_right _ later) hearly)
  exact (hafter.elapse hearly).authorize hadmits hsubject hobject hkind haction hcarries

/-- Bob is let into Ann's meter and out of it again, and tries to take it over; Ann switches it
off. -/
def meterTraffic : List Visit :=
  [⟨1, .addPolicy "ann" ⟨"", "bob", "meter", ["m_read"], ⟨0, 0⟩, ⟨0, 0⟩, ""⟩⟩,
   ⟨1, .updatePolicy "bob" ⟨"", "ann", "meter", ["m_write"], ⟨0, 0⟩, ⟨0, 0⟩, ""⟩⟩,
   ⟨1, .deletePolicy "ann" ⟨"bob", "meter"⟩⟩,
   ⟨1, .disableClient "ann" "meter"⟩]

/-- Until a minute after she registered her meter Ann may delete it, and the store is not asked. -/
theorem granted_served_meter :
    let key : PolicyKey := ⟨"ann", "meter"⟩
    let w := ((empty 60000000000 0).after .named []).elapse 5
    let op : Operation := .registerClient "ann" ⟨"meter", "", "", "key", .enabled, ⟨0, 0⟩, ⟨0, 0⟩⟩
    let w₁ := (w.run (Engine.serve .named op)).2
    let w₂ := (w₁.after .named meterTraffic).elapse 59999999995
    (empty 60000000000 0).Opened ∧ Spares .named key meterTraffic w₁ ∧
      (w₂.run (Engine.authorize .named "ann" "client" key.object "c_delete")).1 = .ok () ∧
      (w₂.run (Engine.authorize .named "ann" "client" key.object "c_delete")).2.store =
        w₂.store := by
  intro key w op w₁ w₂
  have hopened : (empty 60000000000 0).Opened := opened_empty _ _
  let meter : Client := ⟨"meter", "", "ann", "key", .enabled, .ofNanos 5, .ofNanos 5⟩
  have hanswer : (w.run (Engine.registerClient .named "ann"
      ⟨"meter", "", "", "key", .enabled, ⟨0, 0⟩, ⟨0, 0⟩⟩)).1 = .ok meter := by
    decide +kernel
  obtain ⟨-, hserved⟩ := @granted_served_from_cache .named _ hopened [] 5 op meter
    key clientActions hanswer rfl
  have hrefused : (((w₁.after .named (meterTraffic.take 1)).elapse 1).run
      (Engine.updatePolicy .named "bob"
        ⟨"", "ann", "meter", ["m_write"], ⟨0, 0⟩, ⟨0, 0⟩, ""⟩)).1 =
      .error .higherPolicyRank := by
    decide +kernel
  have hother : (⟨"bob", "meter"⟩ : PolicyKey) ≠ key := by decide
  have hspares : Spares .named key meterTraffic w₁ := by
    refine ⟨fun h => h.1, ?_, fun h => hother h.1, fun h => h.1, trivial⟩
    rintro ⟨-, a, ha⟩
    cases hrefused.symm.trans ha
  have hadmits : w₂.Admits .named "ann" ⟨"ann", .user, "", .access, 0, 0⟩ := ⟨rfl, rfl⟩
  have hclock : w₂.clock < w.clock + w.caches.policies.ttl := by decide +kernel
  refine ⟨hopened, hspares, ?_⟩
  subst w₂ w₁ w
  exact hserved meterTraffic 59999999995 hspares hclock hadmits rfl rfl rfl (by decide)

end World

end Gatehouse
