import Gatehouse.Proofs.Cache.Discipline
import Gatehouse.Service.Engine

/-!
# Gatehouse.Proofs.Cache.Engine — the engine keeps both duties

Most operations of the engine only take plain steps.  Of the others, those that put entries have
just seen or made the store confirm them (`timely_serve`), and those that withdraw entries clear
them before they end (`settles_serve`).

There is one lemma for each procedure and each duty, and it follows the procedure step by step with
the rules of `Gatehouse.Proofs.Cache.Discipline`; a procedure that calls another cites the lemma of
that one and does not look into it.  Which operations are of which kind can be read off the two
theorems at the ends of the sections.

Three operations withdraw something.  To update a policy withdraws every other policy under its key,
and the put of the new one clears these; to delete a policy withdraws it and the connection that it
made; and to disable a client withdraws what is known under its secret and all its connections.  In
each the argument comes down to an inclusion of sets: what the call to the store withdrew is
contained in what the calls to the caches clear.

Those that put something put what the store has just taken or has just shown.  That the store still
confirms it at the put is clear in a run alone, and only there: between the two steps of such an
operation nobody else takes one.
-/

namespace Gatehouse

open Gatehouse.Time

namespace Engine

open Procedure

variable (tokens : TokenIssuer)

/-! ## Plain operations -/

theorem plain_cacheRemark (message : String) (fields : List (String × FieldValue))
    (e : CacheError) : (cacheRemark message fields e).Plain :=
  plain_note _

theorem plain_claims (token : String) (expected : TokenKind) :
    (claims tokens token expected).Plain := by
  refine plain_bind plain_now ?_
  intro time
  split
  · refine plain_bind (plain_note _) ?_
    intro _
    exact plain_throw _
  · next claims _ =>
      split
      · exact plain_pure _
      · refine plain_bind (plain_note _) ?_
        intro _
        exact plain_throw _

theorem plain_caller (token : String) : (caller tokens token).Plain := plain_claims tokens token _

theorem plain_holds (subject object action : String) : (holds subject object action).Plain := by
  refine plain_bind (plain_store trivial) ?_
  intro p
  exact plain_pure _

theorem plain_mayChange (claims : Claims) (owner object action : String) :
    (mayChange claims owner object action).Plain := by
  unfold mayChange
  split
  · exact plain_pure _
  · split
    · exact plain_pure _
    · exact plain_holds _ _ _

theorem plain_decide (entityType : EntityType) (subject object action : String) :
    (decide entityType subject object action).Plain := by
  refine Program.asks_bind (Program.asks_interpret ?_ _) ?_
  · intro c
    cases c with
    | policy | policiesOf | clientOwner | groupOwner => exact ⟨trivial, fun _ => trivial⟩
  · intro _
    trivial

theorem plain_cachedAllows (key : PolicyKey) (action : String) :
    (cachedAllows key action).Plain := by
  refine plain_bind (plain_step rfl) ?_
  rintro (e | cached)
  · refine plain_bind (plain_cacheRemark _ _ _) ?_
    intro _
    refine plain_bind (plain_pure _) ?_
    intro cached
    refine plain_bind (plain_step trivial) ?_
    intro _
    exact plain_pure _
  · refine plain_bind (plain_pure _) ?_
    intro cached
    refine plain_bind (plain_step trivial) ?_
    intro _
    exact plain_pure _

theorem plain_authorize (token entityType object action : String) :
    (authorize tokens token entityType object action).Plain := by
  refine plain_bind (plain_caller tokens token) ?_
  intro claims
  cases EntityType.ofName? entityType with
  | none => exact plain_throw _
  | some kind =>
      refine plain_ite (plain_ite ?_ fun _ => trivial) fun _ => trivial
      refine plain_bind (plain_cachedAllows _ _) ?_
      intro hit
      refine plain_ite ?_ fun _ => plain_pure _
      refine plain_bind (plain_decide _ _ _ _) ?_
      intro granted
      exact plain_ite (plain_throw _) fun _ => plain_pure _

theorem plain_issue (request : IssueRequest) (refreshed : Bool) :
    (issue tokens request refreshed).Plain := by
  refine plain_bind plain_now ?_
  intro time
  refine plain_bind (plain_ofExcept _ _) ?_
  intro pair
  refine plain_bind (plain_note _) ?_
  intro _
  exact plain_pure _

theorem plain_refresh (token : String) : (refresh tokens token).Plain := by
  refine plain_bind (plain_claims tokens token _) ?_
  intro claims
  exact plain_issue tokens _ _

theorem plain_listPolicies (token : String) (query : PolicyQuery) :
    (listPolicies tokens token query).Plain := by
  refine plain_bind (plain_caller tokens token) ?_
  intro claims
  refine plain_bind (plain_ofExcept _ _) ?_
  intro _
  exact plain_store trivial

theorem plain_ensureOwnerSlot (owner object : String) : (ensureOwnerSlot owner object).Plain := by
  refine plain_bind (plain_store trivial) ?_
  intro found
  exact plain_ite (plain_pure _) fun _ => plain_throw _

theorem plain_checkParent (claims : Claims) (parent : String) :
    (checkParent claims parent).Plain := by
  refine plain_bind (plain_store trivial) ?_
  rintro (_ | parent)
  · exact plain_throw _
  · refine plain_bind (plain_mayChange _ _ _ _) ?_
    intro allowed
    exact plain_ite (plain_pure _) fun _ => plain_throw _

theorem plain_visibleGroups (claims : Claims) (groups : List Group) (status : Status) :
    (visibleGroups claims groups status).Plain := by
  refine plain_ite ?_ fun _ => plain_pure _
  refine plain_bind (plain_store trivial) ?_
  intro policies
  exact plain_pure _

theorem plain_listGroups (token : String) (query : GroupQuery) :
    (listGroups tokens token query).Plain := by
  refine plain_bind (plain_caller tokens token) ?_
  intro claims
  refine plain_bind (plain_store trivial) ?_
  intro stored
  have hrest : ∀ groups, (do
      let visible ← visibleGroups claims groups query.status
      return GroupsPage.paginate visible query.offset query.effectiveLimit).Plain := by
    intro groups
    refine plain_bind (plain_visibleGroups _ _ _) ?_
    intro visible
    exact plain_pure _
  cases query.id with
  | none => exact plain_bind (plain_pure _) hrest
  | some root =>
      dsimp only
      cases (Hierarchy.ofGroups stored).walk root query.walkDirection query.level with
      | none => exact plain_throw _
      | some groups => exact hrest groups

theorem plain_memberships (status : Status) (policies : List Policy) :
    (memberships status policies).Plain := by
  induction policies with
  | nil => exact plain_pure _
  | cons p rest ih =>
      refine plain_bind (plain_store trivial) ?_
      intro found
      refine plain_bind ih ?_
      intro groups
      cases found with
      | none => exact plain_pure _
      | some g => exact plain_pure _

theorem plain_listMemberships (token client : String) (query : GroupQuery) :
    (listMemberships tokens token client query).Plain := by
  refine plain_bind (plain_caller tokens token) ?_
  intro claims
  refine plain_bind (plain_store trivial) ?_
  intro found
  refine plain_ite (plain_ite ?_ fun hrest => ?_) fun _ => trivial
  · refine plain_bind (plain_store trivial) ?_
    intro policies
    refine plain_bind (plain_memberships _ _) ?_
    intro groups
    exact plain_pure _
  · refine plain_bind (plain_decide _ _ _ _) ?_
    intro granted
    exact plain_ite hrest fun _ => trivial

theorem plain_setGroupStatus (token id : String) (status : Status) :
    (setGroupStatus tokens token id status).Plain := by
  refine plain_bind (plain_caller tokens token) ?_
  intro claims
  refine plain_bind (plain_store trivial) ?_
  rintro (_ | group)
  · exact plain_throw _
  · refine plain_bind (plain_mayChange _ _ _ _) ?_
    intro allowed
    refine plain_ite (plain_ite ?_ fun _ => trivial) fun _ => trivial
    refine plain_bind (plain_store trivial) ?_
    intro group
    refine plain_bind (plain_note _) ?_
    intro _
    exact plain_pure _

/-! ## Clearing -/

/-- A cache that fails is taken for one that gave some answer. -/
theorem forall_reply {α : Type} {P : Except CacheError α → Prop} (hok : ∀ a, P (.ok a))
    (herror : (∀ a, P (.ok a)) → ∀ e, P (.error e)) : ∀ reply, P reply := by
  rintro (e | a)
  · exact herror hok e
  · exact hok a

section Clearing

variable {β : Type} {owed : Set Memo}

/-- What a call is to clear counts as cleared whatever the cache replies: worlds in which caches
fail are not sound. -/
theorem settles_tryCache_bind {c : CacheCall} {message : String}
    {fields : List (String × FieldValue)} {f : Unit → Procedure β}
    (hf : (f ()).Settles (owed \ c.cleared)) : (tryCache c message fields >>= f).Settles owed := by
  rintro (e | a)
  · intro _
    exact hf
  · exact hf

theorem settles_tryCache {c : CacheCall} {message : String} {fields : List (String × FieldValue)}
    (h : owed ⊆ c.cleared) : (tryCache c message fields).Settles owed := by
  have hclear : owed \ c.cleared = ∅ := Set.sdiff_eq_empty.2 h
  rintro (e | a)
  · intro _
    exact hclear
  · exact hclear

end Clearing

theorem settles_addPolicy (token : String) (p : Policy) : (addPolicy tokens token p).Settles ∅ := by
  refine settles_bind (settles_of_plain (plain_caller tokens token)) ?_
  intro claims
  refine settles_bind (settles_of_plain (plain_ofExcept _ _)) ?_
  intro _
  refine settles_bind (settles_of_plain plain_now) ?_
  intro time
  refine settles_bind (settles_of_plain (plain_store trivial)) ?_
  intro _
  refine settles_tryCache_bind ?_
  rw [Set.empty_sdiff]
  exact settles_note_bind rfl

/-- The policy that is remembered takes the place of the one that was amended. -/
theorem settles_updatePolicy (token : String) (p : Policy) :
    (updatePolicy tokens token p).Settles ∅ := by
  refine settles_bind (settles_of_plain (plain_caller tokens token)) ?_
  intro claims
  refine settles_bind (settles_of_plain (plain_ofExcept _ _)) ?_
  intro _
  refine settles_ite ?_ fun hrest => ?_
  · refine settles_bind (settles_of_plain (plain_store trivial)) ?_
    rintro (_ | existing)
    · rfl
    · refine settles_ite ?_ fun _ => rfl
      refine settles_bind (settles_of_plain plain_now) ?_
      intro time
      refine settles_store_bind ?_
      intro _
      -- the put clears every other policy under the key, and no more was withdrawn
      refine settles_tryCache_bind (settles_note_bind (Set.sdiff_eq_empty.2 ?_))
      rintro (_ | _ | _) hm
      · exact hm
      · exact hm
      · exact hm
  · refine settles_bind (settles_of_plain (plain_store trivial)) ?_
    intro own
    exact settles_ite hrest fun _ => rfl

/-- A policy that is deleted is forgotten, and with it the connection that it may have been. -/
theorem settles_deletePolicy (token : String) (key : PolicyKey) :
    (deletePolicy tokens token key).Settles ∅ := by
  refine settles_bind (settles_of_plain (plain_caller tokens token)) ?_
  intro claims
  refine settles_ite ?_ fun _ => rfl
  refine settles_store_bind ?_
  intro _
  -- the policy goes from one cache and the connection that it made from another
  refine settles_tryCache_bind (settles_tryCache_bind (settles_note ?_))
  rw [Set.sdiff_sdiff, Set.sdiff_eq_empty]
  rintro (_ | _ | _) hm
  · exact Or.inl hm
  · exact False.elim hm
  · exact Or.inr hm

/-- A client whose status becomes one of the two that clients have is forgotten if it has to be. -/
theorem settles_setClientStatus (token id : String) {status : Status}
    (hstatus : status = .enabled ∨ status = .disabled) :
    (setClientStatus tokens token id status).Settles ∅ := by
  refine settles_bind (settles_of_plain (plain_caller tokens token)) ?_
  intro claims
  refine settles_bind (settles_of_plain (plain_store trivial)) ?_
  rintro (_ | client)
  · rfl
  · refine settles_bind (settles_of_plain (plain_mayChange _ _ _ _)) ?_
    intro allowed
    refine settles_ite (settles_ite ?_ fun _ => rfl) fun _ => rfl
    refine settles_store_bind ?_
    intro client
    rcases hstatus with rfl | rfl
    -- to enable a client withdraws nothing
    · rw [if_neg (by decide)]
      refine settles_note_bind ?_
      refine Set.eq_empty_of_forall_notMem ?_
      rintro (_ | _ | _) hm
      · exact hm
      · exact hm.1 rfl
      · exact hm.1 rfl
    -- to disable one withdraws its secret and all its connections
    · rw [if_pos rfl]
      refine settles_tryCache_bind (settles_tryCache_bind (settles_note_bind ?_))
      show _ = ∅
      rw [Set.sdiff_sdiff, Set.sdiff_eq_empty]
      rintro (_ | _ | _) hm
      · exact False.elim hm
      · exact Or.inl hm.2.2
      · exact Or.inr hm.2

theorem settles_identifyThing (key : String) : (identifyThing key).Settles ∅ := by
  refine settles_ite ?_ fun _ => rfl
  refine settles_bind (settles_of_plain (plain_step rfl)) ?_
  refine forall_reply (fun cached => ?_) fun hok e => ?_
  · refine settles_bind (settles_of_plain (plain_pure _)) ?_
    rintro (_ | id)
    · refine settles_bind (settles_of_plain (plain_store trivial)) ?_
      rintro (_ | client)
      · rfl
      · refine settles_ite ?_ fun _ => rfl
        refine settles_tryCache_bind ?_
        exact Set.empty_sdiff _
    · rfl
  · refine settles_bind (settles_of_plain (plain_cacheRemark _ _ _)) ?_
    intro _
    exact hok none

theorem settles_canAccessById (channel client : String) :
    (canAccessById channel client).Settles ∅ := by
  refine settles_bind (settles_of_plain (plain_step rfl)) ?_
  refine forall_reply (fun cached => ?_) fun hok e => ?_
  · refine settles_bind (settles_of_plain (plain_pure _)) ?_
    intro known
    refine settles_ite ?_ fun _ => rfl
    refine settles_bind (settles_of_plain (plain_store trivial)) ?_
    intro connection
    refine settles_ite ?_ fun _ => rfl
    refine settles_bind (settles_of_plain (plain_store trivial)) ?_
    intro found
    refine settles_ite ?_ fun _ => rfl
    exact settles_tryCache (Set.empty_subset _)
  · refine settles_bind (settles_of_plain (plain_cacheRemark _ _ _)) ?_
    intro _
    exact hok false

theorem settles_canAccessByKey (channel key : String) :
    (canAccessByKey channel key).Settles ∅ := by
  refine settles_bind (settles_identifyThing key) ?_
  intro client
  refine settles_bind (settles_canAccessById channel client) ?_
  intro _
  rfl

theorem settles_saveOwnerPolicy (owner object : String) (actions : List String) :
    (saveOwnerPolicy owner object actions).Settles ∅ := by
  refine settles_bind (settles_of_plain plain_now) ?_
  intro time
  refine settles_bind (settles_of_plain (plain_store trivial)) ?_
  intro _
  exact settles_tryCache (Set.empty_subset _)

/-- What all creations end in owes nothing, as long as the call that stores the entity does not. -/
theorem settles_creation {α : Type} {owner id : String} {actions : List String} {c : StoreCall}
    (hplain : (ServiceCall.store c).Plain) {e : TraceEntry} {a : α} :
    (ensureOwnerSlot owner id >>= fun _ => store c >>= fun _ =>
      saveOwnerPolicy owner id actions >>= fun _ => note e >>= fun _ => pure a).Settles ∅ := by
  refine settles_bind (settles_of_plain (plain_ensureOwnerSlot _ _)) ?_
  intro _
  refine settles_bind (settles_of_plain (plain_store hplain)) ?_
  intro _
  refine settles_bind (settles_saveOwnerPolicy _ _ _) ?_
  intro _
  exact settles_note_bind rfl

theorem settles_createGroup (token : String) (g : Group) :
    (createGroup tokens token g).Settles ∅ := by
  refine settles_bind (settles_of_plain (plain_caller tokens token)) ?_
  intro claims
  cases g.parent
  case' some parent => refine settles_bind (settles_of_plain (plain_checkParent _ _)) fun _ => ?_
  -- with a parent or without one, the same steps follow
  all_goals
    refine settles_bind (settles_of_plain plain_now) ?_
    intro time
    refine settles_ite_bind (settles_of_plain plain_freshId) (settles_of_plain (plain_pure _)) ?_
    intro id
    exact settles_creation (c := .addGroup _) trivial

theorem settles_registerClient (token : String) (c : Client) :
    (registerClient tokens token c).Settles ∅ := by
  refine settles_bind (settles_of_plain (plain_caller tokens token)) ?_
  intro claims
  refine settles_bind (settles_of_plain plain_now) ?_
  intro time
  refine settles_ite_bind (settles_of_plain plain_freshId) (settles_of_plain (plain_pure _)) ?_
  intro id
  refine settles_ite_bind (settles_of_plain plain_freshId) (settles_of_plain (plain_pure _)) ?_
  intro secret
  exact settles_creation (c := .addClient _) trivial

/-- **Every operation clears what it withdraws before it ends.** -/
theorem settles_serve (op : Operation) : (serve tokens op).Settles ∅ := by
  cases op with
  | issue request => exact settles_of_plain (plain_issue tokens _ _)
  | refresh token => exact settles_of_plain (plain_refresh tokens token)
  | identify token =>
      exact settles_of_plain (plain_bind (plain_caller tokens token) fun _ => plain_pure _)
  | authorize => exact settles_of_plain (plain_authorize tokens _ _ _ _)
  | addPolicy token p => exact settles_addPolicy tokens token p
  | updatePolicy token p => exact settles_updatePolicy tokens token p
  | deletePolicy token key => exact settles_deletePolicy tokens token key
  | listPolicies token query => exact settles_of_plain (plain_listPolicies tokens token query)
  | canAccessByKey channel key => exact settles_canAccessByKey channel key
  | canAccessById channel client => exact settles_canAccessById channel client
  | identifyThing key => exact settles_identifyThing key
  | createGroup token g => exact settles_createGroup tokens token g
  | registerClient token c => exact settles_registerClient tokens token c
  | listGroups token query => exact settles_of_plain (plain_listGroups tokens token query)
  | listMemberships => exact settles_of_plain (plain_listMemberships tokens _ _ _)
  | enableGroup | disableGroup => exact settles_of_plain (plain_setGroupStatus tokens _ _ _)
  | enableClient token id => exact settles_setClientStatus tokens token id (Or.inl rfl)
  | disableClient token id => exact settles_setClientStatus tokens token id (Or.inr rfl)

/-! ## Putting -/

/-- A put is timely if the store confirms the entry at this moment. -/
theorem timelyIn_tryCache {w : World} (hw : w.Sound) {c : CacheCall} {message : String}
    {fields : List (String × FieldValue)} (h : ∀ m, c.put? = some m → w.store.Confirms m) :
    (tryCache c message fields).TimelyIn w := by
  refine timelyIn_bind ⟨?_, trivial⟩ ?_
  · show ∀ m, c.put? = some m → (w.answerCache c).2.store.Confirms m
    rw [World.answerCache_eq hw]
    exact h
  · rintro (e | a) w' hrun
    · exact timely_of_plain (plain_cacheRemark _ _ _) w' (hw.of_run hrun)
    · trivial

theorem timely_tryCache {c : CacheCall} (h : c.put? = none) (message : String)
    (fields : List (String × FieldValue)) : (tryCache c message fields).Timely := by
  intro w hw
  refine timelyIn_tryCache hw ?_
  intro m hput
  cases h.symm.trans hput

theorem timely_note (e : TraceEntry) : (note e).Timely := timely_of_plain (plain_note e)

theorem timelyIn_cachePolicy {w : World} (hw : w.Sound) {p : Policy}
    (h : w.store.Confirms (.policy p.key p)) : (cachePolicy p).TimelyIn w := by
  refine timelyIn_tryCache hw ?_
  rintro m hput
  cases hput
  exact h

/-- A policy that was added may be remembered. -/
theorem timely_addPolicy_bind {β : Type} {p : Policy} {f : Unit → Procedure β}
    (hf : ∀ w, w.Sound → w.store.Confirms (.policy p.key p) → (f ()).TimelyIn w) :
    (store (.addPolicy p) >>= f).Timely := by
  intro w hw
  refine timelyIn_bind (timely_store _ w hw) ?_
  rintro ⟨⟩ w' hrun
  exact hf w' (hw.of_run hrun) (Store.confirms_addPolicy (World.answer_of_run_store hw hrun))

theorem timely_addPolicy (token : String) (p : Policy) : (addPolicy tokens token p).Timely := by
  refine timely_bind (timely_of_plain (plain_caller tokens token)) ?_
  intro claims
  refine timely_bind (timely_of_plain (plain_ofExcept _ _)) ?_
  intro _
  refine timely_bind (timely_of_plain plain_now) ?_
  intro time
  refine timely_addPolicy_bind ?_
  intro w hw hadded
  refine timelyIn_bind (timelyIn_cachePolicy hw hadded) ?_
  intro _ w' hrun
  exact timely_of_plain (plain_bind (plain_note _) fun _ => plain_pure _) w' (hw.of_run hrun)

/-- The policy that is remembered is the one that was found, with what was changed in it. -/
theorem timely_updatePolicy (token : String) (p : Policy) :
    (updatePolicy tokens token p).Timely := by
  refine timely_bind (timely_of_plain (plain_caller tokens token)) ?_
  intro claims
  refine timely_bind (timely_of_plain (plain_ofExcept _ _)) ?_
  intro _
  refine timely_ite ?_ fun hrest => ?_
  · intro w hw
    refine timelyIn_bind (timely_store _ w hw) ?_
    intro found w' hrun
    have hw' : w'.Sound := hw.of_run hrun
    obtain ⟨hfound, hstore⟩ := World.of_run_read hw rfl hrun
    obtain rfl : w.store.policies.lookup p.key = found := Except.ok.inj hfound
    cases hlookup : w.store.policies.lookup p.key with
    | none => trivial
    | some existing =>
        have hkey : existing.key = p.key := hw.store.policy_key hlookup
        refine timelyIn_ite (fun _ => ?_) fun _ => trivial
        refine timelyIn_bind (timely_of_plain plain_now w' hw') ?_
        intro time w'' hnow
        obtain rfl : w' = w'' := congrArg Prod.snd (World.run_now.symm.trans hnow)
        refine timelyIn_bind (timely_store _ w' hw') ?_
        rintro ⟨⟩ w'' hupdate
        have hw'' : w''.Sound := hw'.of_run hupdate
        -- no other operation runs, so the policy that was found is still the one that is stored
        have hexisting : w'.store.policies.lookup existing.key = some existing := by
          rw [hstore, hkey]
          exact hlookup
        refine timelyIn_bind (timelyIn_cachePolicy hw'' ?_) ?_
        · exact Store.confirms_updatePolicy hexisting rfl (World.answer_of_run_store hw' hupdate)
        · intro _ w''' hrun
          exact timely_of_plain (plain_bind (plain_note _) fun _ => plain_pure _) w'''
            (hw''.of_run hrun)
  · refine timely_bind (timely_store _) ?_
    intro own
    exact timely_ite hrest fun _ => timely_of_plain trivial

theorem timely_deletePolicy (token : String) (key : PolicyKey) :
    (deletePolicy tokens token key).Timely := by
  refine timely_bind (timely_of_plain (plain_caller tokens token)) ?_
  intro claims
  refine timely_ite ?_ fun _ => timely_of_plain trivial
  refine timely_bind (timely_store _) ?_
  intro _
  refine timely_bind (timely_tryCache rfl _ _) ?_
  intro _
  refine timely_bind (timely_tryCache rfl _ _) ?_
  intro _
  exact timely_note _

theorem timely_setClientStatus (token id : String) (status : Status) :
    (setClientStatus tokens token id status).Timely := by
  refine timely_bind (timely_of_plain (plain_caller tokens token)) ?_
  intro claims
  refine timely_bind (timely_store _) ?_
  rintro (_ | client)
  · exact timely_of_plain trivial
  · refine timely_bind (timely_of_plain (plain_mayChange _ _ _ _)) ?_
    intro allowed
    refine timely_ite (timely_ite ?_ fun _ => timely_of_plain trivial) fun _ =>
      timely_of_plain trivial
    refine timely_bind (timely_store _) ?_
    intro client
    refine timely_ite ?_ fun hrest => ?_
    · exact timely_of_plain (plain_bind (plain_note _) fun _ => plain_pure _)
    · refine timely_bind (timely_tryCache rfl _ _) ?_
      intro _
      refine timely_bind (timely_tryCache rfl _ _) ?_
      intro _
      exact hrest

/-- The client that is remembered was just found enabled under the secret. -/
theorem timely_identifyThing (key : String) : (identifyThing key).Timely := by
  refine timely_ite ?_ fun _ => timely_of_plain trivial
  refine timely_bind (timely_of_plain (plain_step rfl)) ?_
  refine forall_reply (fun cached => ?_) fun hok e => ?_
  · refine timely_bind (timely_of_plain (plain_pure _)) ?_
    rintro (_ | id)
    · intro w hw
      refine timelyIn_bind (timely_store _ w hw) ?_
      rintro (_ | client) w' hrun
      · trivial
      · obtain ⟨hfound, hstore⟩ := World.of_run_read hw rfl hrun
        -- what is put was read from the store, and the store has not changed since
        obtain ⟨⟨id, hid⟩, hsecret⟩ := Store.clientBySecret_eq_some (Except.ok.inj hfound)
        obtain rfl : client.id = id := hw.store.client_id hid
        refine timelyIn_ite (fun henabled => ?_) fun _ => trivial
        refine timelyIn_bind (timelyIn_tryCache (hw.of_run hrun) ?_) fun _ _ _ => trivial
        rintro m hput
        cases hput
        rw [hstore]
        exact ⟨client, hid, hsecret, not_not.1 henabled⟩
    · exact timely_of_plain (plain_pure _)
  · refine timely_bind (timely_of_plain (plain_cacheRemark _ _ _)) ?_
    intro _
    exact hok none

/-- The connection that is remembered was just found: a policy, and then an enabled client. -/
theorem timely_canAccessById (channel client : String) : (canAccessById channel client).Timely := by
  refine timely_bind (timely_of_plain (plain_step rfl)) ?_
  refine forall_reply (fun cached => ?_) fun hok e => ?_
  · refine timely_bind (timely_of_plain (plain_pure _)) ?_
    intro known
    refine timely_ite ?_ fun _ => timely_of_plain (plain_pure _)
    intro w hw
    refine timelyIn_bind (timely_store _ w hw) ?_
    intro connection w' hpolicy
    have hw' : w'.Sound := hw.of_run hpolicy
    obtain ⟨hconnection, hstore⟩ := World.of_run_read hw rfl hpolicy
    obtain rfl : w.store.policies.lookup ⟨client, channel⟩ = connection :=
      Except.ok.inj hconnection
    refine timelyIn_ite (fun hsome => ?_) fun _ => trivial
    refine timelyIn_bind (timely_store _ w' hw') ?_
    intro found w'' hclient
    obtain ⟨hfound, hstore'⟩ := World.of_run_read hw' rfl hclient
    obtain rfl : w'.store.clients.lookup client = found := Except.ok.inj hfound
    refine timelyIn_ite (fun hany => ?_) fun _ => trivial
    refine timelyIn_tryCache (hw'.of_run hclient) ?_
    rintro m hput
    cases hput
    -- what is put was read in two steps, between which the store did not change
    have hconnected : w''.store.policies.contains ⟨client, channel⟩ = true := by
      rw [hstore', hstore]
      simpa [Table.contains, Option.isSome_iff_ne_none] using hsome
    have henabled : w''.store.Enabled client := by
      rw [hstore']
      simpa [Store.Enabled, Option.any_eq_true] using hany
    exact ⟨hconnected, henabled⟩
  · refine timely_bind (timely_of_plain (plain_cacheRemark _ _ _)) ?_
    intro _
    exact hok false

theorem timely_canAccessByKey (channel key : String) : (canAccessByKey channel key).Timely := by
  refine timely_bind (timely_identifyThing key) ?_
  intro client
  refine timely_bind (timely_canAccessById channel client) ?_
  intro _
  exact timely_of_plain (plain_pure _)

theorem timely_saveOwnerPolicy (owner object : String) (actions : List String) :
    (saveOwnerPolicy owner object actions).Timely := by
  refine timely_bind (timely_of_plain plain_now) ?_
  intro time
  refine timely_addPolicy_bind ?_
  intro w hw hadded
  exact timelyIn_cachePolicy hw hadded

/-- What all creations end in puts an entry only for the policy of the owner, once it is stored. -/
theorem timely_creation {α : Type} {owner id : String} {actions : List String} {c : StoreCall}
    {e : TraceEntry} {a : α} :
    (ensureOwnerSlot owner id >>= fun _ => store c >>= fun _ =>
      saveOwnerPolicy owner id actions >>= fun _ => note e >>= fun _ => pure a).Timely := by
  refine timely_bind (timely_of_plain (plain_ensureOwnerSlot _ _)) ?_
  intro _
  refine timely_bind (timely_store _) ?_
  intro _
  refine timely_bind (timely_saveOwnerPolicy _ _ _) ?_
  intro _
  exact timely_of_plain (plain_bind (plain_note _) fun _ => plain_pure _)

theorem timely_createGroup (token : String) (g : Group) : (createGroup tokens token g).Timely := by
  refine timely_bind (timely_of_plain (plain_caller tokens token)) ?_
  intro claims
  cases g.parent
  case' some parent => refine timely_bind (timely_of_plain (plain_checkParent _ _)) fun _ => ?_
  -- with a parent or without one, the same steps follow
  all_goals
    refine timely_bind (timely_of_plain plain_now) ?_
    intro time
    refine timely_ite_bind (timely_of_plain plain_freshId) (timely_of_plain (plain_pure _)) ?_
    intro id
    exact timely_creation

theorem timely_registerClient (token : String) (c : Client) :
    (registerClient tokens token c).Timely := by
  refine timely_bind (timely_of_plain (plain_caller tokens token)) ?_
  intro claims
  refine timely_bind (timely_of_plain plain_now) ?_
  intro time
  refine timely_ite_bind (timely_of_plain plain_freshId) (timely_of_plain (plain_pure _)) ?_
  intro id
  refine timely_ite_bind (timely_of_plain plain_freshId) (timely_of_plain (plain_pure _)) ?_
  intro secret
  exact timely_creation

/-- **Every operation that runs alone puts an entry only while the store confirms it.** -/
theorem timely_serve (op : Operation) : (serve tokens op).Timely := by
  cases op with
  | issue request => exact timely_of_plain (plain_issue tokens _ _)
  | refresh token => exact timely_of_plain (plain_refresh tokens token)
  | identify token =>
      exact timely_of_plain (plain_bind (plain_caller tokens token) fun _ => plain_pure _)
  | authorize => exact timely_of_plain (plain_authorize tokens _ _ _ _)
  | addPolicy token p => exact timely_addPolicy tokens token p
  | updatePolicy token p => exact timely_updatePolicy tokens token p
  | deletePolicy token key => exact timely_deletePolicy tokens token key
  | listPolicies token query => exact timely_of_plain (plain_listPolicies tokens token query)
  | canAccessByKey channel key => exact timely_canAccessByKey channel key
  | canAccessById channel client => exact timely_canAccessById channel client
  | identifyThing key => exact timely_identifyThing key
  | createGroup token g => exact timely_createGroup tokens token g
  | registerClient token c => exact timely_registerClient tokens token c
  | listGroups token query => exact timely_of_plain (plain_listGroups tokens token query)
  | listMemberships => exact timely_of_plain (plain_listMemberships tokens _ _ _)
  | enableGroup | disableGroup => exact timely_of_plain (plain_setGroupStatus tokens _ _ _)
  | enableClient | disableClient => exact timely_setClientStatus tokens _ _ _

end Engine

end Gatehouse
