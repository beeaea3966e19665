import Gatehouse.Proofs.Service.Deed
import Gatehouse.Service.Engine

/-!
# Gatehouse.Proofs.Service.Engine — what each operation does

Every operation looks first and acts last.  `Operation.Leaves` is what is noted of an operation that
is answered, and `Operation.Breaks` what may be noted of one that fails after it began to act: a
write that the store refused, and before it nothing but, where an entity and the policy of its owner
are created, the entity.

* `does_serve` : once the token is accepted, an operation looks for a while, and then it fails, or
  leaves what it is to leave, or breaks off.
* `tells_serve` : the same with the token before it.

This is the one place where operations are taken apart step by step for what they do.  Everything is
said whoever answers: over a store in memory, over a database, over a store that others use
meanwhile or that fails at any step.  So the traces are the interface between the engine and the
results on it, and an operation that is changed needs a new proof here and a new line in `Leaves` or
`Breaks`; what is built upon the traces stays.

Looks are not told apart.  What an operation looks at decides whether it goes on, but nothing of
that is left once it has been decided, and a result that needs to know why an operation was refused
states it of the operation in a world (`World.Ends`).

That a cache failed is not noted either.  Entries are put after the store has carried out a write,
and one that could not be put or removed is remarked on and otherwise ignored.
-/

namespace Gatehouse

open Gatehouse.Time

/-! ## Remarks and policies of operations -/

namespace Engine

/-- The remark on a new pair of tokens. -/
def tokenEntry (subject : String) (refreshed : Bool) : TraceEntry :=
  .audit "token_issued" "token pair issued"
    [("subject_id", .text subject), ("refreshed", .flag refreshed)]

/-- The remark on a policy that was added or updated. -/
def policyEntry (event message : String) (p : Policy) : TraceEntry :=
  .audit event message
    [("caller", .text p.updatedBy), ("subject", .text p.subject), ("object", .text p.object),
     ("actions", .text (joinActions p.actions))]

/-- The remark on a policy that was removed. -/
def deletionEntry (caller : String) (key : PolicyKey) : TraceEntry :=
  .audit "policy_deleted" "policy deleted"
    [("caller", .text caller), ("subject", .text key.subject), ("object", .text key.object)]

/-- The remark on a new group. -/
def groupEntry (g : Group) : TraceEntry :=
  .audit "group_created" "group created"
    [("owner", .text g.owner), ("group_id", .text g.id), ("parent_id", .text (g.parent.getD ""))]

/-- The remark on a new client. -/
def clientEntry (c : Client) : TraceEntry :=
  .audit "client_registered" "client registered"
    [("owner", .text c.owner), ("client_id", .text c.id)]

/-- The remark on a status that was changed. -/
def statusEntry (caller entity id : String) (status : Status) : TraceEntry :=
  .audit "status_changed" "status changed"
    [("caller", .text caller), ("entity", .text entity), ("id", .text id),
     ("status", .text status.name)]

/-- The policy that grants the owner of an entity all actions on it. -/
def ownerPolicy (time : Timestamp) (owner object : String) (actions : List String) : Policy :=
  ⟨owner, owner, object, actions, time, time, owner⟩

/-- What is noted of the creation of an entity that breaks off: the key of the owner's policy was
free, and the store refused the entity, or it took the entity and refused that policy. -/
inductive Stuck (entity : StoreCall) (key : PolicyKey) : List Deed → Prop where
  | entity (e : StorageError) : Stuck entity key [.read key none, .refused entity e]
  | policy (value : entity.Value) (p : Policy) (e : StorageError) (h : p.key = key) :
    Stuck entity key [.read key none, .wrote entity value, .refused (.addPolicy p) e]

end Engine

namespace Operation

open Engine

/-! ## What is noted -/

/-- What is noted of an operation that is answered, from its first act on. -/
def Leaves : (op : Operation) → op.Answer → List Deed → Prop
  | issue request, _, es => es = [.audited (tokenEntry request.subject false)]
  | refresh _, _, es => ∃ subject, es = [.audited (tokenEntry subject true)]
  | addPolicy _ p, (added : Policy), es =>
    p.validate = .ok () ∧ added.actions = Policy.normalizeActions p.actions ∧
      es = [.wrote (.addPolicy added) (),
        .audited (policyEntry "policy_added" "policy added" added)]
  | updatePolicy _ p, (updated : Policy), es =>
    p.validate = .ok () ∧ updated.actions = Policy.normalizeActions p.actions ∧
      es = [.wrote (.updatePolicy updated) (),
        .audited (policyEntry "policy_updated" "policy updated" updated)]
  | deletePolicy _ key, _, es =>
    ∃ caller, es = [.wrote (.deletePolicy key) (), .audited (deletionEntry caller key)]
  | createGroup _ _, (g : Group), es => g.status = .enabled ∧
    ∃ time, es = [.read ⟨g.owner, g.id⟩ none, .wrote (.addGroup g) (),
      .wrote (.addPolicy (ownerPolicy time g.owner g.id groupActions)) (), .audited (groupEntry g)]
  | registerClient _ _, (c : Client), es => c.status = .enabled ∧
    ∃ time, es = [.read ⟨c.owner, c.id⟩ none, .wrote (.addClient c) (),
      .wrote (.addPolicy (ownerPolicy time c.owner c.id clientActions)) (),
      .audited (clientEntry c)]
  | enableGroup _ id, (g : Group), es =>
    ∃ caller, es = [.wrote (.setGroupStatus id .enabled) g,
      .audited (statusEntry caller "group" id .enabled)]
  | disableGroup _ id, (g : Group), es =>
    ∃ caller, es = [.wrote (.setGroupStatus id .disabled) g,
      .audited (statusEntry caller "group" id .disabled)]
  | enableClient _ id, (c : Client), es =>
    ∃ caller, es = [.wrote (.setClientStatus id .enabled) c,
      .audited (statusEntry caller "client" id .enabled)]
  | disableClient _ id, (c : Client), es =>
    ∃ caller, es = [.wrote (.setClientStatus id .disabled) c,
      .audited (statusEntry caller "client" id .disabled)]
  | _, _, es => es = []

/-- What is noted of an operation that fails, from its first act on. -/
def Breaks : Operation → List Deed → Prop
  | addPolicy _ _, es | updatePolicy _ _, es | deletePolicy _ _, es | enableGroup _ _, es
  | disableGroup _ _, es | enableClient _ _, es | disableClient _ _, es =>
    ∃ c e, es = [.refused c e]
  | createGroup _ g, es => ∃ g' : Group, (g.id = "" ∨ g'.id = g.id) ∧
    Stuck (.addGroup g') ⟨g'.owner, g'.id⟩ es
  | registerClient _ c, es => ∃ c' : Client, (c.id = "" ∨ c'.id = c.id) ∧
    Stuck (.addClient c') ⟨c'.owner, c'.id⟩ es
  | _, _ => False

/-- What is noted of an operation from its first act on, by what it ends in. -/
def Acts (op : Operation) (es : List Deed) : Except ApiError op.Answer → Prop
  | .ok a => op.Leaves a es
  | .error _ => op.Breaks es

/-- The kind of token that an operation is asked with. -/
def tokenKind : Operation → TokenKind
  | refresh _ => .refresh
  | _ => .access

end Operation

namespace Engine

open Procedure

variable (tokens : TokenIssuer)

/-! ## Looking -/

theorem idle_holds (subject object action : String) : (holds subject object action).Idle := by
  refine idle_bind (idle_store rfl) ?_
  intro p
  exact idle_pure _

theorem idle_mayChange (claims : Claims) (owner object action : String) :
    (mayChange claims owner object action).Idle := by
  unfold mayChange
  split
  · exact idle_pure _
  · split
    · exact idle_pure _
    · exact idle_holds _ _ _

/-- A decision is a number of looks. -/
theorem idle_decide (entityType : EntityType) (subject object action : String) :
    (decide entityType subject object action).Idle := by
  have hreads : (Program.interpret relation
      (Decision.evaluate entityType subject object action).run).Tells ServiceCall.Inward
      ServiceCall.deeds fun es _ => ∀ d ∈ es, d.IsRead := by
    refine Program.tells_interpret (List.forall_mem_nil _) ?_ ?_ _
    · intro es es' hes hes'
      exact List.forall_mem_append.2 ⟨hes, hes'⟩
    · intro c
      cases c with
      | policy | policiesOf | clientOwner | groupOwner =>
          exact ⟨trivial, fun reply => List.forall_mem_append.2
            ⟨deeds_of_read rfl reply, List.forall_mem_nil _⟩⟩
  refine Program.tells_bind hreads ?_
  intro es decision hes
  exact List.forall_mem_append.2 ⟨hes, List.forall_mem_nil _⟩

theorem idle_cacheRemark (message : String) (fields : List (String × FieldValue))
    (e : CacheError) : (cacheRemark message fields e).Idle :=
  idle_step trivial fun _ _ hd => nomatch hd

theorem idle_cachedAllows (key : PolicyKey) (action : String) :
    (cachedAllows key action).Idle := by
  have hrest : ∀ cached : Option Policy, (do
      let _ ← step (.countLookup (cached.any (·.hasAction action)))
      return cached.any (·.hasAction action) : Procedure Bool).Idle := by
    intro cached
    refine idle_bind (idle_step trivial fun _ _ hd => nomatch hd) ?_
    intro _
    exact idle_pure _
  refine idle_bind (idle_cache _) ?_
  rintro (e | cached)
  · refine idle_bind (idle_cacheRemark _ _ _) ?_
    intro _
    exact hrest none
  · exact hrest cached

theorem idle_checkParent (claims : Claims) (parent : String) :
    (checkParent claims parent).Idle := by
  refine idle_bind (idle_store rfl) ?_
  rintro (_ | parent)
  · exact idle_throw _
  · refine idle_bind (idle_mayChange _ _ _ _) ?_
    intro allowed
    exact idle_ite (idle_pure _) fun _ => idle_throw _

theorem idle_visibleGroups (claims : Claims) (groups : List Group) (status : Status) :
    (visibleGroups claims groups status).Idle := by
  refine idle_ite ?_ fun _ => idle_pure _
  refine idle_bind (idle_store rfl) ?_
  intro policies
  exact idle_pure _

theorem idle_memberships (status : Status) (policies : List Policy) :
    (memberships status policies).Idle := by
  induction policies with
  | nil => exact idle_pure _
  | cons p rest ih =>
      refine idle_bind (idle_store rfl) ?_
      intro found
      refine idle_bind ih ?_
      intro groups
      cases found with
      | none => exact idle_pure _
      | some g => exact idle_pure _

theorem idle_tryCache (c : CacheCall) (message : String) (fields : List (String × FieldValue)) :
    (tryCache c message fields).Idle := by
  refine idle_bind (idle_cache _) ?_
  rintro (e | a)
  · exact idle_cacheRemark _ _ _
  · exact idle_pure _

/-- A cache that fails is taken for one that answers `unknown`. -/
theorem idle_cache_bind {α : Type} {c : CacheCall} {f : Except CacheError c.Value → Procedure α}
    (unknown : c.Value) (hok : ∀ cached, (f (.ok cached)).Idle)
    (herror : (f (.ok unknown)).Idle → ∀ e, (f (.error e)).Idle) : (cache c >>= f).Idle := by
  refine idle_bind (idle_cache _) ?_
  rintro (e | cached)
  · exact herror (hok unknown) e
  · exact hok cached

/-- To find a client by its secret is to look in the cache and then in the store, and to tell the
cache. -/
theorem idle_identifyThing (key : String) : (identifyThing key).Idle := by
  refine idle_ite ?_ fun _ => idle_throw _
  refine idle_cache_bind (c := .clientOf key) none ?_ ?_
  · intro cached
    refine idle_bind (idle_pure _) ?_
    rintro (_ | id)
    · refine idle_bind (idle_store rfl) ?_
      rintro (_ | client)
      · exact idle_throw _
      · refine idle_ite ?_ fun _ => idle_throw _
        refine idle_bind (idle_tryCache _ _ _) ?_
        intro _
        exact idle_pure _
    · exact idle_pure _
  · intro hnone e
    refine idle_bind (idle_cacheRemark _ _ _) ?_
    intro _
    exact hnone

/-- To find out about a connection is to look in the cache and then in the store, and to tell the
cache. -/
theorem idle_canAccessById (channel client : String) : (canAccessById channel client).Idle := by
  refine idle_cache_bind (c := .isConnected ⟨channel, client⟩) false ?_ ?_
  · intro cached
    refine idle_bind (idle_pure _) ?_
    intro known
    refine idle_ite ?_ fun _ => idle_pure _
    refine idle_bind (idle_store rfl) ?_
    intro connection
    refine idle_ite ?_ fun _ => idle_throw _
    refine idle_bind (idle_store rfl) ?_
    intro found
    exact idle_ite (idle_tryCache _ _ _) fun _ => idle_throw _
  · intro hunknown e
    refine idle_bind (idle_cacheRemark _ _ _) ?_
    intro _
    exact hunknown

theorem idle_canAccessByKey (channel key : String) : (canAccessByKey channel key).Idle := by
  refine idle_bind (idle_identifyThing key) ?_
  intro client
  refine idle_bind (idle_canAccessById channel client) ?_
  intro _
  exact idle_pure _

/-! ## Acting -/

section Acting

variable {α : Type}

/-- A cache that is asked for its effect neither fails nor leaves anything to note. -/
theorem tells_tryCache_bind {Q : List Deed → Except ApiError α → Prop} {c : CacheCall}
    {message : String} {fields : List (String × FieldValue)} {f : Unit → Procedure α}
    (hf : (f ()).Tells Q) : (tryCache c message fields >>= f).Tells Q := by
  refine ⟨trivial, ?_⟩
  rintro (e | a)
  · exact ⟨trivial, fun _ => hf⟩
  · exact hf

/-- The claims of a token are read without a note, or one remark says why they are not. -/
theorem tells_claims (token : String) (kind : TokenKind) :
    (claims tokens token kind).Tells fun es r =>
      (∃ reason e, es = [.audited (.authFailure reason)] ∧ r = .error e) ∨
        es = [] ∧ ∃ c, r = .ok c := by
  refine tells_now_bind fun time => ?_
  split
  · exact tells_note_bind rfl (Or.inl ⟨_, _, rfl, rfl⟩)
  · split
    · exact Or.inr ⟨rfl, _, rfl⟩
    · exact tells_note_bind rfl (Or.inl ⟨_, _, rfl, rfl⟩)

theorem does_issue {request : IssueRequest} {refreshed : Bool}
    {C : List Deed → Except ApiError TokenPair → Prop}
    (hC : ∀ pair, C [.audited (tokenEntry request.subject refreshed)] (.ok pair)) :
    (issue tokens request refreshed).Does C := by
  refine does_bind idle_now ?_
  intro time
  refine does_bind (idle_ofExcept _ _) ?_
  intro pair
  exact does_of_tells (tells_note_bind rfl (hC pair))

/-- The steps of granting an owner the actions on an entity, one after the other. -/
theorem saveOwnerPolicy_bind (owner object : String) (actions : List String)
    (f : Unit → Procedure α) : saveOwnerPolicy owner object actions >>= f = now >>= fun time =>
      store (.addPolicy (ownerPolicy time owner object actions)) >>= fun _ =>
        cachePolicy (ownerPolicy time owner object actions) >>= f := by
  refine (bind_assoc _ _ _).trans (congrArg (now >>= ·) (funext fun time => ?_))
  exact bind_assoc _ _ _

/-- The policy of an owner is refused, or it is written and cached and the creation goes on. -/
theorem tells_saveOwnerPolicy_bind {Q : List Deed → Except ApiError α → Prop}
    {owner object : String} {actions : List String} {f : Unit → Procedure α}
    (hrefused : ∀ p e, p.key = ⟨owner, object⟩ →
      Q [.refused (.addPolicy p) e] (.error (.ofStorage e)))
    (hf : ∀ time, (f ()).Tells fun es r =>
      Q (.wrote (.addPolicy (ownerPolicy time owner object actions)) () :: es) r) :
    (saveOwnerPolicy owner object actions >>= f).Tells Q := by
  rw [saveOwnerPolicy_bind]
  refine tells_now_bind fun time => ?_
  refine tells_write_bind rfl (fun e => hrefused _ e rfl) fun _ => ?_
  exact tells_tryCache_bind (hf time)

/-- A name that is not given is a fresh one. -/
theorem does_name_bind {C : List Deed → Except ApiError α → Prop} {given : String}
    {f : String → Procedure α} (hf : ∀ name, (given = "" ∨ name = given) → (f name).Does C) :
    (if given = "" then freshId >>= f else pure given >>= f).Does C := by
  split
  · next h => exact does_bind idle_freshId fun name => hf name (Or.inl h)
  · exact hf given (Or.inr rfl)

/-- The key of the owner's policy is looked up, and if it is free, the entity is written and then
that policy. -/
theorem does_settle {C : List Deed → Except ApiError α → Prop} {entity : StoreCall}
    {owner object : String} {actions : List String} {f : Unit → Procedure α}
    (hwrite : entity.isRead = false)
    (hstuck : ∀ es e, Stuck entity ⟨owner, object⟩ es → C es (.error e))
    (hf : ∀ value time, (f ()).Tells fun es r => C ([.read ⟨owner, object⟩ none,
      .wrote entity value,
      .wrote (.addPolicy (ownerPolicy time owner object actions)) ()] ++ es) r) :
    (ensureOwnerSlot owner object >>= fun _ => store entity >>= fun _ =>
      saveOwnerPolicy owner object actions >>= f).Does C := by
  have htail : (store entity >>= fun _ => saveOwnerPolicy owner object actions >>= f).Tells
      fun es r => C (.read ⟨owner, object⟩ none :: es) r := by
    refine tells_write_bind hwrite ?_ ?_
    · exact fun e => hstuck _ _ (.entity e)
    · intro value
      refine tells_saveOwnerPolicy_bind ?_ (hf value)
      exact fun p e hkey => hstuck _ _ (.policy value p e hkey)
  refine ⟨trivial, ?_⟩
  rintro (e | _ | p)
  -- the look-up failed, the key is free, or it is taken
  · exact ⟨[], [], List.forall_mem_nil _, rfl, Or.inr ⟨rfl, _, rfl⟩⟩
  · refine tells_mono htail ?_
    intro es r hes
    exact ⟨[], _, List.forall_mem_nil _, rfl, Or.inl hes⟩
  · exact ⟨[.read ⟨owner, object⟩ (some p)], [], List.forall_mem_singleton.2 trivial, rfl,
      Or.inr ⟨rfl, _, rfl⟩⟩

end Acting

/-! ## Behind the token -/

/-- Whether a procedure reads the claims of a token, and whatever these are, goes on to do what `C`
says.  The claims are read by the first step, so what comes before them is nothing. -/
def Gated {α : Type} (token : String) (kind : TokenKind) (x : Procedure α)
    (C : List Deed → Except ApiError α → Prop) : Prop :=
  ∃ rest, x = claims tokens token kind >>= rest ∧ ∀ c, (rest c).Does C

variable {tokens}

theorem gated_refresh (token : String) :
    Gated tokens token .refresh (refresh tokens token) (Operation.refresh token).Acts := by
  refine ⟨_, rfl, fun claims => does_issue _ fun pair => ?_⟩
  exact ⟨claims.subject, rfl⟩

theorem gated_identify (token : String) :
    Gated tokens token .access (serve tokens (.identify token)) (Operation.identify token).Acts :=
  ⟨_, rfl, fun _ => does_of_idle (idle_pure _) fun _ => rfl⟩

theorem gated_authorize (token entityType object action : String) :
    Gated tokens token .access (authorize tokens token entityType object action)
      (Operation.authorize token entityType object action).Acts := by
  refine ⟨_, rfl, fun claims => does_of_idle ?_ fun _ => rfl⟩
  cases EntityType.ofName? entityType with
  | none => exact idle_throw _
  | some kind =>
      refine idle_ite (idle_ite ?_ fun _ => idle_throw _) fun _ => idle_throw _
      refine idle_bind (idle_cachedAllows _ _) ?_
      intro hit
      refine idle_ite ?_ fun _ => idle_pure _
      refine idle_bind (idle_decide _ _ _ _) ?_
      intro granted
      exact idle_ite (idle_throw _) fun _ => idle_pure _

/-- A policy is checked, then written, then cached, then remarked on. -/
theorem gated_addPolicy (token : String) (p : Policy) :
    Gated tokens token .access (addPolicy tokens token p) (Operation.addPolicy token p).Acts := by
  refine ⟨_, rfl, fun claims => ?_⟩
  cases hvalid : p.validate with
  | error e => exact does_throw _
  | ok _ =>
      refine does_bind (idle_ofExcept _ _) fun _ => does_bind idle_now fun time => ?_
      refine does_of_tells (tells_write_bind rfl (fun e => ⟨_, e, rfl⟩) fun _ => ?_)
      refine tells_tryCache_bind (tells_note_bind rfl ?_)
      exact ⟨hvalid, rfl, rfl⟩

/-- The rank of the caller and the policy that is there are looked at before anything is written. -/
theorem gated_updatePolicy (token : String) (p : Policy) :
    Gated tokens token .access (updatePolicy tokens token p)
      (Operation.updatePolicy token p).Acts := by
  refine ⟨_, rfl, fun claims => ?_⟩
  cases hvalid : p.validate with
  | error e => exact does_throw _
  | ok _ =>
      refine does_bind (idle_ofExcept _ _) fun _ => does_ite ?_ fun hrest => ?_
      · refine does_bind (idle_store rfl) ?_
        rintro (_ | existing)
        · exact does_throw _
        · refine does_ite ?_ fun _ => does_throw _
          refine does_bind idle_now ?_
          intro time
          refine does_of_tells (tells_write_bind rfl (fun e => ⟨_, e, rfl⟩) fun _ => ?_)
          refine tells_tryCache_bind (tells_note_bind rfl ?_)
          exact ⟨hvalid, rfl, rfl⟩
      · refine does_bind (idle_store rfl) ?_
        intro own
        exact does_ite hrest fun _ => does_throw _

/-- A policy is removed from the store, then from the cache, and remarked on. -/
theorem gated_deletePolicy (token : String) (key : PolicyKey) :
    Gated tokens token .access (deletePolicy tokens token key)
      (Operation.deletePolicy token key).Acts := by
  refine ⟨_, rfl, fun claims => ?_⟩
  refine does_ite (does_of_tells ?_) fun _ => does_throw _
  refine tells_write_bind rfl (fun e => ⟨_, e, rfl⟩) fun _ => ?_
  refine tells_tryCache_bind (tells_tryCache_bind (tells_note_bind rfl ?_))
  exact ⟨claims.subject, rfl⟩

theorem gated_listPolicies (token : String) (query : PolicyQuery) :
    Gated tokens token .access (listPolicies tokens token query)
      (Operation.listPolicies token query).Acts := by
  refine ⟨_, rfl, fun claims => does_of_idle ?_ fun _ => rfl⟩
  exact idle_bind (idle_ofExcept _ _) fun _ => idle_store rfl

/-- A group and the policy of its owner are written, and there is a remark; or one of the two is
refused, and nothing follows. -/
theorem does_settleGroup (token : String) (asked g : Group) (hstatus : g.status = .enabled)
    (hid : asked.id = "" ∨ g.id = asked.id) :
    (ensureOwnerSlot g.owner g.id >>= fun _ => store (.addGroup g) >>= fun _ =>
      saveOwnerPolicy g.owner g.id groupActions >>= fun _ => note (groupEntry g) >>= fun _ =>
      pure g).Does (Operation.createGroup token asked).Acts := by
  refine does_settle rfl (fun es e hes => ⟨g, hid, hes⟩) fun value time => ?_
  exact tells_note_bind rfl ⟨hstatus, time, rfl⟩

/-- The parent is looked at first, and then the group is settled with its owner's policy. -/
theorem gated_createGroup (token : String) (g : Group) :
    Gated tokens token .access (createGroup tokens token g)
      (Operation.createGroup token g).Acts := by
  refine ⟨_, rfl, fun claims => ?_⟩
  have hsettle (parent : Option String) (time : Timestamp) (id : String)
      (hid : g.id = "" ∨ id = g.id) :=
    does_settleGroup token g
      { g with
        id, parent, owner := claims.subject, status := .enabled, createdAt := time,
        updatedAt := time, level := 0, path := "" } rfl hid
  cases g.parent
  case' some parent => refine does_bind (idle_checkParent _ _) fun _ => ?_
  -- with a parent or without one, the same steps follow
  all_goals
    refine does_bind idle_now fun time => does_name_bind fun id hid => ?_
    exact hsettle _ time id hid

/-- The same of a client. -/
theorem does_settleClient (token : String) (asked c : Client) (hstatus : c.status = .enabled)
    (hid : asked.id = "" ∨ c.id = asked.id) :
    (ensureOwnerSlot c.owner c.id >>= fun _ => store (.addClient c) >>= fun _ =>
      saveOwnerPolicy c.owner c.id clientActions >>= fun _ => note (clientEntry c) >>= fun _ =>
      pure c).Does (Operation.registerClient token asked).Acts := by
  refine does_settle rfl (fun es e hes => ⟨c, hid, hes⟩) fun value time => ?_
  exact tells_note_bind rfl ⟨hstatus, time, rfl⟩

/-- A client gets an id and a secret if none is given, and then it is settled with its owner's
policy. -/
theorem gated_registerClient (token : String) (c : Client) :
    Gated tokens token .access (registerClient tokens token c)
      (Operation.registerClient token c).Acts := by
  refine ⟨_, rfl, fun claims => does_bind idle_now fun time => ?_⟩
  refine does_name_bind fun id hid => does_name_bind fun secret _ => ?_
  exact does_settleClient token c
    { c with
      id, secret, owner := claims.subject, status := .enabled, createdAt := time,
      updatedAt := time } rfl hid

theorem gated_listGroups (token : String) (query : GroupQuery) :
    Gated tokens token .access (listGroups tokens token query)
      (Operation.listGroups token query).Acts := by
  refine ⟨_, rfl, fun claims => does_of_idle ?_ fun _ => rfl⟩
  refine idle_bind (idle_store rfl) ?_
  intro stored
  have hrest : ∀ groups, (do
      let visible ← visibleGroups claims groups query.status
      return GroupsPage.paginate visible query.offset query.effectiveLimit).Idle := by
    intro groups
    refine idle_bind (idle_visibleGroups _ _ _) ?_
    intro visible
    exact idle_pure _
  cases query.id with
  | none => exact hrest _
  | some root =>
      dsimp only
      cases (Hierarchy.ofGroups stored).walk root query.walkDirection query.level with
      | none => exact idle_throw _
      | some groups => exact hrest groups

theorem gated_listMemberships (token client : String) (query : GroupQuery) :
    Gated tokens token .access (listMemberships tokens token client query)
      (Operation.listMemberships token client query).Acts := by
  refine ⟨_, rfl, fun claims => does_of_idle ?_ fun _ => rfl⟩
  refine idle_bind (idle_store rfl) ?_
  intro found
  refine idle_ite (idle_ite ?_ fun hrest => ?_) fun _ => idle_throw _
  · refine idle_bind (idle_store rfl) ?_
    intro policies
    refine idle_bind (idle_memberships _ _) ?_
    intro groups
    exact idle_pure _
  · refine idle_bind (idle_decide _ _ _ _) ?_
    intro granted
    exact idle_ite hrest fun _ => idle_throw _

/-- A status that is changed is written and remarked on. -/
theorem gated_setGroupStatus (token id : String) (status : Status)
    {C : List Deed → Except ApiError Group → Prop}
    (hrefused : ∀ e e', C [.refused (.setGroupStatus id status) e] (.error e'))
    (hdone : ∀ caller (g : Group), C [.wrote (.setGroupStatus id status) g,
      .audited (statusEntry caller "group" id status)] (.ok g)) :
    Gated tokens token .access (setGroupStatus tokens token id status) C := by
  refine ⟨_, rfl, fun claims => does_bind (idle_store rfl) ?_⟩
  rintro (_ | group)
  · exact does_throw _
  · refine does_bind (idle_mayChange _ _ _ _) ?_
    intro allowed
    refine does_ite (does_ite (does_of_tells ?_) fun _ => does_throw _) fun _ => does_throw _
    refine tells_write_bind rfl (fun e => hrefused e _) fun group => ?_
    exact tells_note_bind rfl (hdone claims.subject group)

/-- A status that is changed is written and remarked on. -/
theorem gated_setClientStatus (token id : String) (status : Status)
    {C : List Deed → Except ApiError Client → Prop}
    (hrefused : ∀ e e', C [.refused (.setClientStatus id status) e] (.error e'))
    (hdone : ∀ caller (c : Client), C [.wrote (.setClientStatus id status) c,
      .audited (statusEntry caller "client" id status)] (.ok c)) :
    Gated tokens token .access (setClientStatus tokens token id status) C := by
  refine ⟨_, rfl, fun claims => does_bind (idle_store rfl) ?_⟩
  rintro (_ | client)
  · exact does_throw _
  · refine does_bind (idle_mayChange _ _ _ _) ?_
    intro allowed
    refine does_ite (does_ite (does_of_tells ?_) fun _ => does_throw _) fun _ => does_throw _
    refine tells_write_bind rfl (fun e => hrefused e _) fun client => ?_
    have hremark : (statusRemark claims.subject "client" id status >>= fun _ => pure client).Tells
        fun es r => C (.wrote (.setClientStatus id status) client :: es) r :=
      tells_note_bind rfl (hdone claims.subject client)
    split
    · exact tells_tryCache_bind (tells_tryCache_bind hremark)
    · exact hremark

variable (tokens)

/-- **What an operation does.**  It reads the claims of its token, if it has one.  Whatever these
are, it looks for a while, and then it fails or acts. -/
theorem does_serve (op : Operation) : match op.token? with
    | some token => Gated tokens token op.tokenKind (serve tokens op) op.Acts
    | none => (serve tokens op).Does op.Acts := by
  cases op with
  | issue request => exact does_issue tokens fun _ => rfl
  | refresh token => exact gated_refresh token
  | identify token => exact gated_identify token
  | authorize token entityType object action =>
      exact gated_authorize token entityType object action
  | addPolicy token p => exact gated_addPolicy token p
  | updatePolicy token p => exact gated_updatePolicy token p
  | deletePolicy token key => exact gated_deletePolicy token key
  | listPolicies token query => exact gated_listPolicies token query
  -- devices have no token, and write nothing
  | canAccessByKey channel key =>
      exact does_of_idle (idle_canAccessByKey channel key) fun _ => rfl
  | canAccessById channel client =>
      exact does_of_idle (idle_canAccessById channel client) fun _ => rfl
  | identifyThing key => exact does_of_idle (idle_identifyThing key) fun _ => rfl
  | createGroup token g => exact gated_createGroup token g
  | registerClient token c => exact gated_registerClient token c
  | listGroups token query => exact gated_listGroups token query
  | listMemberships token client query => exact gated_listMemberships token client query
  | enableGroup token id | disableGroup token id =>
      exact gated_setGroupStatus token id _ (fun e _ => ⟨_, e, rfl⟩) fun caller _ => ⟨caller, rfl⟩
  | enableClient token id | disableClient token id =>
      exact gated_setClientStatus token id _ (fun e _ => ⟨_, e, rfl⟩) fun caller _ => ⟨caller, rfl⟩

/-- **What is noted of an operation.**  Its token is refused with one remark, or it looks for a
while, and then it fails or acts. -/
theorem tells_serve (op : Operation) : (serve tokens op).Tells fun es r =>
    (∃ reason e, es = [.audited (.authFailure reason)] ∧ r = .error e) ∨
      Eventually op.Acts es r := by
  have hserve := does_serve tokens op
  cases htoken : op.token? with
  | none =>
      rw [htoken] at hserve
      exact tells_mono hserve fun _ _ => Or.inr
  | some token =>
      rw [htoken] at hserve
      obtain ⟨rest, heq, hrest⟩ := hserve
      rw [heq]
      refine tells_bind (tells_claims tokens token op.tokenKind) ?_ ?_
      · rintro es e (hrefused | ⟨-, c, hc⟩)
        · obtain ⟨reason, e', rfl, -⟩ := hrefused
          exact Or.inl ⟨reason, e, rfl, rfl⟩
        · cases hc
      · rintro es c (⟨reason, e, -, hr⟩ | ⟨rfl, -⟩)
        · cases hr
        · exact tells_mono (hrest c) fun _ _ => Or.inr

end Engine

end Gatehouse
