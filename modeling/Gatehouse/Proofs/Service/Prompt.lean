import Gatehouse.Proofs.Service.Engine

/-!
# Gatehouse.Proofs.Service.Prompt — refused before anything is touched

Three kinds of errors say that a request is not fit to be looked at: its token is not accepted, its
form is wrong, or it names a type of entities that does not exist.  `ServiceCall.touched` notes
every step of an operation that goes further than the clock and the remarks.

* `Spares` procedures never fail so, whatever they are answered.
* `Prompt` procedures fail so only before anything is touched, and never because of a token.

`Engine.guarded_serve` says that every operation with an access token reads its claims first and is
prompt from there on.

The two properties divide an operation at its first step that touches anything.  Before it there are
only checks of what was asked, which may fail in these ways; from it on there are errors of the
store and of rights, which may not.  A check that was moved behind a look at the store would make
its operation fail to be prompt, even if it could never be seen in an answer.

Decisions need a word of their own.  A decision fails if the action is none of the entity type,
which is an unfit request; but the engine asks for decisions only on actions that it has checked or
names itself, and then a decision fails with the store or not at all (`Decision.steady_evaluate`).
-/

namespace Gatehouse

open Gatehouse.Time

/-! ## Errors -/

namespace ApiError

/-- Whether an error says that a token is not accepted. -/
def IsAuthentication : ApiError → Prop
  | authentication _ => True
  | _ => False

/-- Whether an error says that a request is not fit to be looked at. -/
def IsUnfit : ApiError → Prop
  | authentication _ | malformed _ | invalidEntityType _ => True
  | _ => False

/-- A token that is not accepted makes a request unfit. -/
theorem isUnfit_of_isAuthentication {e : ApiError} (h : e.IsAuthentication) : e.IsUnfit := by
  cases e with
  | authentication => trivial
  | _ => cases h

/-- A store that fails does not say that the request was wrong. -/
theorem not_isUnfit_ofStorage (e : StorageError) : ¬(ofStorage e).IsUnfit := by
  cases e with
  | notFound | conflict | internal => exact id

theorem not_isAuthentication_ofPolicy (e : PolicyError) : ¬(ofPolicy e).IsAuthentication := by
  cases e with
  | emptySubject | emptyObject | emptyActions | invalidAction | invalidEntityType => exact id

end ApiError

/-! ## What is touched -/

/-- The steps that go further than the clock and the remarks. -/
def ServiceCall.touched : (c : ServiceCall) → c.Reply → List ServiceCall
  | .clock, _ | .note _, _ => []
  | c, _ => [c]

namespace Procedure

variable {α β : Type} {x : Procedure α} {f : α → Procedure β}

/-! ## Procedures that never find a request unfit -/

/-- Whatever a procedure is answered, it does not find a request unfit. -/
def Spares (x : Procedure α) : Prop := x.run.Returns fun r => ∀ e, r = .error e → ¬e.IsUnfit

theorem spares_pure (a : α) : (pure a : Procedure α).Spares := by
  rintro e he
  cases he

theorem spares_throw {e : ApiError} (he : ¬e.IsUnfit) : (throw e : Procedure α).Spares := by
  intro e' he'
  cases he'
  exact he

theorem spares_step (c : ServiceCall) : (step c).Spares := by
  intro reply e he
  cases he

theorem spares_store (c : StoreCall) : (store c).Spares := by
  rintro (e | value) e' he'
  · cases he'
    exact ApiError.not_isUnfit_ofStorage e
  · cases he'

/-- What two procedures do not say, they do not say one after the other. -/
theorem spares_bind (hx : x.Spares) (hf : ∀ a, (f a).Spares) : (x >>= f).Spares := by
  refine Program.returns_bind hx ?_
  rintro (e | a) ha
  · intro e' he'
    cases he'
    exact ha e rfl
  · exact hf a

theorem spares_ite {c : Prop} [Decidable c] {x y : Procedure α} (hy : y.Spares)
    (hx : y.Spares → x.Spares) : (if c then x else y).Spares := by
  split
  · exact hx hy
  · exact hy

theorem spares_now : now.Spares := spares_bind (spares_step _) fun _ => spares_pure _

/-- A name that is not given is a fresh one. -/
theorem spares_name_bind {given : String} {f : String → Procedure α}
    (hf : ∀ name, (f name).Spares) :
    (if given = "" then freshId >>= f else pure given >>= f).Spares := by
  refine spares_ite (hf given) ?_
  intro _
  exact spares_bind (spares_step _) hf

/-! ## Procedures that find a request unfit at once -/

/-- Whether a failure has nothing to do with a token, and comes before anything is touched if it
says that a request is unfit. -/
def Ordered (es : List ServiceCall) (r : Except ApiError α) : Prop :=
  ∀ e, r = .error e → ¬e.IsAuthentication ∧ (e.IsUnfit → es = [])

/-- Whoever never says that a request is unfit says it at no wrong time. -/
theorem ordered_of_fit (es : List ServiceCall) {r : Except ApiError α}
    (h : ∀ e, r = .error e → ¬e.IsUnfit) : Ordered es r := by
  intro e he
  have hfit : ¬e.IsUnfit := h e he
  refine ⟨fun hauthentication => hfit ?_, fun hunfit => absurd hunfit hfit⟩
  exact ApiError.isUnfit_of_isAuthentication hauthentication

/-- Whatever a procedure is answered, it does not fail because of a token, and it has touched
nothing if it finds a request unfit. -/
def Prompt (x : Procedure α) : Prop :=
  x.run.Tells (fun _ => True) ServiceCall.touched Ordered

theorem prompt_throw {e : ApiError} (he : ¬e.IsAuthentication) :
    (throw e : Procedure α).Prompt := by
  intro e' he'
  cases he'
  exact ⟨he, fun _ => rfl⟩

theorem Spares.prompt (hx : x.Spares) : x.Prompt :=
  Program.tells_of_returns hx fun es _ => ordered_of_fit es

/-- A check of what was asked, before anything is touched. -/
theorem prompt_ofExcept_bind {ε : Type} {convert : ε → ApiError} {r : Except ε α}
    (hconvert : ∀ e, ¬(convert e).IsAuthentication) (hf : ∀ a, (f a).Prompt) :
    (ofExcept convert r >>= f).Prompt := by
  cases r with
  | error e => exact prompt_throw (hconvert e)
  | ok a => exact hf a

/-- What may be unfit is looked at first, and what follows never says so. -/
theorem prompt_bind_of_spares (hx : x.Prompt) (hf : ∀ a, (f a).Spares) : (x >>= f).Prompt := by
  refine Program.tells_bind hx ?_
  rintro es (e | a) hes
  · intro e' he'
    cases he'
    rw [List.append_nil]
    exact hes e rfl
  · exact Program.tells_of_returns (hf a) fun es' _ => ordered_of_fit (es ++ es')

theorem prompt_ite {c : Prop} [Decidable c] {x y : Procedure α} (hx : x.Prompt) (hy : y.Prompt) :
    (if c then x else y).Prompt := by
  split
  · exact hx
  · exact hy

end Procedure

/-! ## Decisions -/

namespace Decision

/-- Whether an outcome fails with the store or not at all. -/
def Settled {α : Type} (r : Except DecisionError α) : Prop :=
  ∀ e, r = .error e → ∃ text, e = .storage text

/-- A reading that fails with the store only, as long as all its answers do. -/
def Steady {α : Type} (x : Reading α) : Prop := x.run.ReturnsIf (fun _ => Settled) Settled

variable {α β : Type} {x : Reading α} {f : α → Reading β}

theorem steady_pure (a : α) : Steady (pure a : Reading α) := by
  rintro e he
  cases he

theorem steady_ask (c : RelationCall) : Steady (ask c) := fun _ h => h

theorem steady_bind (hx : Steady x) (hf : ∀ a, Steady (f a)) : Steady (x >>= f) := by
  refine Program.returnsIf_bind hx ?_
  rintro (e | a) ha
  · intro e' he'
    cases he'
    exact ha e rfl
  · exact hf a

theorem steady_or {x y : Reading Bool} (hx : Steady x) (hy : Steady y) :
    Steady (do if ← x then return true else y) := by
  refine steady_bind hx ?_
  rintro (_ | _)
  · exact hy
  · exact steady_pure _

theorem steady_holds (subject object action : String) : Steady (holds subject object action) := by
  refine steady_bind (steady_ask _) ?_
  rintro (_ | p)
  · exact steady_pure _
  · exact steady_pure _

theorem steady_anyConnected (object : String) (policies : List Policy) :
    Steady (anyConnected object policies) := by
  induction policies with
  | nil => exact steady_pure _
  | cons p rest ih =>
      refine steady_bind (steady_ask _) ?_
      rintro (_ | q)
      · exact ih
      · exact steady_pure _

theorem steady_sharesGroup (subject object action : String) :
    Steady (sharesGroup subject object action) := by
  refine steady_bind (steady_ask _) ?_
  intro policies
  exact steady_anyConnected _ _

/-- A decision on an action that exists fails with the store only. -/
theorem steady_evaluate {entityType : EntityType} (subject object : String) {action : String}
    (haction : entityType.isAction action = true) :
    Steady (evaluate entityType subject object action) := by
  have howner : ∀ c : RelationCall, ∀ owns : c.Value → Bool,
      Steady (do return owns (← ask c)) := by
    intro c owns
    refine steady_bind (steady_ask c) ?_
    intro owner
    exact steady_pure _
  unfold evaluate
  rw [if_pos haction]
  cases entityType with
  | client =>
      refine steady_or (steady_holds _ _ _) (steady_or (steady_holds _ _ _) ?_)
      exact steady_or (steady_sharesGroup _ _ _) (howner (.clientOwner object) _)
  | group => exact steady_or (steady_holds _ _ _) (howner (.groupOwner object) _)

end Decision

namespace Engine

open Procedure

/-! ## What the engine does behind its checks -/

/-- What stands in for a question of a decision fails with the store only. -/
theorem returns_relation (c : RelationCall) : (relation c).Returns Decision.Settled := by
  cases c with
  | policy | policiesOf | clientOwner | groupOwner =>
      rintro (e | value) e' he'
      · cases he'
        exact ⟨e.message, rfl⟩
      · cases he'

theorem spares_holds (subject object action : String) : (holds subject object action).Spares := by
  refine spares_bind (spares_store _) ?_
  intro p
  exact spares_pure _

theorem spares_mayChange (claims : Claims) (owner object action : String) :
    (mayChange claims owner object action).Spares := by
  unfold mayChange
  split
  · exact spares_pure _
  · split
    · exact spares_pure _
    · exact spares_holds _ _ _

/-- Whatever the store answers, a decision on an action that exists fails with the store only. -/
theorem spares_decide {entityType : EntityType} (subject object : String) {action : String}
    (haction : entityType.isAction action = true) :
    (decide entityType subject object action).Spares := by
  have hsettled : Program.Returns Decision.Settled (Program.interpret relation
      (Decision.evaluate entityType subject object action).run) := by
    refine Program.returns_interpret ?_ (Decision.steady_evaluate subject object haction)
    exact returns_relation
  refine Program.returns_bind hsettled ?_
  rintro (e | granted) hdecision e' he'
  · obtain ⟨text, rfl⟩ := hdecision e rfl
    cases he'
    exact id
  · cases he'

theorem spares_tryCache (c : CacheCall) (message : String) (fields : List (String × FieldValue)) :
    (tryCache c message fields).Spares := by
  refine spares_bind (spares_step _) ?_
  rintro (e | a)
  · exact spares_step _
  · exact spares_pure _

/-- A cache that fails is taken for one that answers `unknown`. -/
theorem spares_cache_bind {α : Type} {c : CacheCall} {f : Except CacheError c.Value → Procedure α}
    (unknown : c.Value) (hok : ∀ cached, (f (.ok cached)).Spares)
    (herror : (f (.ok unknown)).Spares → ∀ e, (f (.error e)).Spares) : (cache c >>= f).Spares := by
  refine spares_bind (spares_step _) ?_
  rintro (e | cached)
  · exact herror (hok unknown) e
  · exact hok cached

theorem spares_cachedAllows (key : PolicyKey) (action : String) :
    (cachedAllows key action).Spares := by
  refine spares_cache_bind (c := .policy key) none ?_ ?_
  · intro cached
    refine spares_bind (spares_pure _) ?_
    intro known
    refine spares_bind (spares_step _) ?_
    intro _
    exact spares_pure _
  · intro hnone e
    refine spares_bind (spares_step _) ?_
    intro _
    exact hnone

theorem spares_canAccessById (channel client : String) : (canAccessById channel client).Spares := by
  refine spares_cache_bind (c := .isConnected ⟨channel, client⟩) false ?_ ?_
  · intro cached
    refine spares_bind (spares_pure _) ?_
    intro known
    refine spares_ite ?_ fun _ => spares_pure _
    refine spares_bind (spares_store _) ?_
    intro connection
    refine spares_ite ?_ fun _ => spares_throw id
    refine spares_bind (spares_store _) ?_
    intro found
    exact spares_ite (spares_tryCache _ _ _) fun _ => spares_throw id
  · intro hunknown e
    refine spares_bind (spares_step _) ?_
    intro _
    exact hunknown

theorem prompt_identifyThing (key : String) : (identifyThing key).Prompt := by
  refine prompt_ite (prompt_throw id) (Spares.prompt ?_)
  refine spares_cache_bind (c := .clientOf key) none ?_ ?_
  · intro cached
    refine spares_bind (spares_pure _) ?_
    rintro (_ | id)
    · refine spares_bind (spares_store _) ?_
      rintro (_ | client)
      · exact spares_throw id
      · refine spares_ite ?_ fun _ => spares_throw id
        refine spares_bind (spares_tryCache _ _ _) ?_
        intro _
        exact spares_pure _
    · exact spares_pure _
  · intro hnone e
    refine spares_bind (spares_step _) ?_
    intro _
    exact hnone

theorem prompt_canAccessByKey (channel key : String) : (canAccessByKey channel key).Prompt := by
  refine prompt_bind_of_spares (prompt_identifyThing key) ?_
  intro client
  refine spares_bind (spares_canAccessById channel client) ?_
  intro _
  exact spares_pure _

theorem spares_checkParent (claims : Claims) (parent : String) :
    (checkParent claims parent).Spares := by
  refine spares_bind (spares_store _) ?_
  rintro (_ | parent)
  · exact spares_throw id
  · refine spares_bind (spares_mayChange _ _ _ _) ?_
    intro allowed
    exact spares_ite (spares_pure _) fun _ => spares_throw id

theorem spares_ensureOwnerSlot (owner object : String) : (ensureOwnerSlot owner object).Spares := by
  refine spares_bind (spares_store _) ?_
  intro found
  exact spares_ite (spares_pure _) fun _ => spares_throw id

theorem spares_saveOwnerPolicy (owner object : String) (actions : List String) :
    (saveOwnerPolicy owner object actions).Spares := by
  refine spares_bind spares_now fun time => ?_
  refine spares_bind (spares_store _) ?_
  intro _
  exact spares_tryCache _ _ _

theorem spares_visibleGroups (claims : Claims) (groups : List Group) (status : Status) :
    (visibleGroups claims groups status).Spares := by
  refine spares_ite ?_ fun _ => spares_pure _
  refine spares_bind (spares_store _) ?_
  intro policies
  exact spares_pure _

theorem spares_memberships (status : Status) (policies : List Policy) :
    (memberships status policies).Spares := by
  induction policies with
  | nil => exact spares_pure _
  | cons p rest ih =>
      refine spares_bind (spares_store _) ?_
      intro found
      refine spares_bind ih ?_
      intro groups
      cases found with
      | none => exact spares_pure _
      | some g => exact spares_pure _

/-! ## Behind the token -/

/-- Whether a procedure reads the claims of a token, and whatever these are, is prompt from there
on. -/
def Guarded {α : Type} (tokens : TokenIssuer) (token : String) (kind : TokenKind)
    (x : Procedure α) : Prop :=
  ∃ rest, x = claims tokens token kind >>= rest ∧ ∀ c, (rest c).Prompt

variable {tokens : TokenIssuer}

theorem guarded_identify (token : String) :
    Guarded tokens token .access (serve tokens (.identify token)) :=
  ⟨_, rfl, fun _ => (spares_pure _).prompt⟩

theorem guarded_authorize (token entityType object action : String) :
    Guarded tokens token .access (authorize tokens token entityType object action) := by
  refine ⟨_, rfl, fun claims => ?_⟩
  cases EntityType.ofName? entityType with
  | none => exact prompt_throw id
  | some kind =>
      refine prompt_ite (prompt_throw id) ?_
      dsimp only
      split
      · exact prompt_throw id
      · next h =>
        have haction : kind.isAction action = true := by simpa using h
        refine (spares_bind (spares_cachedAllows _ _) ?_).prompt
        intro hit
        refine spares_ite ?_ fun _ => spares_pure _
        refine spares_bind (spares_decide _ _ haction) ?_
        intro granted
        exact spares_ite (spares_throw id) fun _ => spares_pure _

theorem guarded_addPolicy (token : String) (p : Policy) :
    Guarded tokens token .access (addPolicy tokens token p) := by
  refine ⟨_, rfl, fun claims => ?_⟩
  refine prompt_ofExcept_bind ApiError.not_isAuthentication_ofPolicy fun _ => Spares.prompt ?_
  refine spares_bind spares_now fun time => spares_bind (spares_store _) fun _ => ?_
  refine spares_bind (spares_tryCache _ _ _) fun _ => spares_bind (spares_step _) fun _ => ?_
  exact spares_pure _

theorem guarded_updatePolicy (token : String) (p : Policy) :
    Guarded tokens token .access (updatePolicy tokens token p) := by
  refine ⟨_, rfl, fun claims => ?_⟩
  refine prompt_ofExcept_bind ApiError.not_isAuthentication_ofPolicy fun _ => Spares.prompt ?_
  refine spares_ite ?_ fun hrest => ?_
  · refine spares_bind (spares_store _) ?_
    rintro (_ | existing)
    · exact spares_throw id
    · refine spares_ite ?_ fun _ => spares_throw id
      refine spares_bind spares_now fun time => spares_bind (spares_store _) fun _ => ?_
      refine spares_bind (spares_tryCache _ _ _) fun _ => spares_bind (spares_step _) fun _ => ?_
      exact spares_pure _
  · refine spares_bind (spares_store _) ?_
    intro own
    exact spares_ite hrest fun _ => spares_throw id

theorem guarded_deletePolicy (token : String) (key : PolicyKey) :
    Guarded tokens token .access (deletePolicy tokens token key) := by
  refine ⟨_, rfl, fun claims => ?_⟩
  refine prompt_ite (prompt_throw id) (Spares.prompt ?_)
  refine spares_bind (spares_store _) fun _ => spares_bind (spares_tryCache _ _ _) fun _ => ?_
  exact spares_bind (spares_tryCache _ _ _) fun _ => spares_step _

theorem guarded_listPolicies (token : String) (query : PolicyQuery) :
    Guarded tokens token .access (listPolicies tokens token query) := by
  refine ⟨_, rfl, fun claims => ?_⟩
  refine prompt_ofExcept_bind ApiError.not_isAuthentication_ofPolicy fun _ => ?_
  exact (spares_store _).prompt

theorem guarded_createGroup (token : String) (g : Group) :
    Guarded tokens token .access (createGroup tokens token g) := by
  refine ⟨_, rfl, fun claims => Spares.prompt ?_⟩
  cases g.parent
  case' some parent => refine spares_bind (spares_checkParent _ _) fun _ => ?_
  -- with a parent or without one, the same steps follow
  all_goals
    refine spares_bind spares_now fun time => spares_name_bind fun id => ?_
    refine spares_bind (spares_ensureOwnerSlot _ _) fun _ => ?_
    refine spares_bind (spares_store _) fun _ => ?_
    refine spares_bind (spares_saveOwnerPolicy _ _ _) fun _ => ?_
    exact spares_bind (spares_step _) fun _ => spares_pure _

theorem guarded_registerClient (token : String) (c : Client) :
    Guarded tokens token .access (registerClient tokens token c) := by
  refine ⟨_, rfl, fun claims => Spares.prompt ?_⟩
  refine spares_bind spares_now fun time => ?_
  refine spares_name_bind fun id => spares_name_bind fun secret => ?_
  refine spares_bind (spares_ensureOwnerSlot _ _) fun _ => ?_
  refine spares_bind (spares_store _) fun _ => ?_
  refine spares_bind (spares_saveOwnerPolicy _ _ _) fun _ => ?_
  exact spares_bind (spares_step _) fun _ => spares_pure _

theorem guarded_listGroups (token : String) (query : GroupQuery) :
    Guarded tokens token .access (listGroups tokens token query) := by
  refine ⟨_, rfl, fun claims => Spares.prompt ?_⟩
  refine spares_bind (spares_store _) ?_
  intro stored
  have hrest : ∀ groups, (do
      let visible ← visibleGroups claims groups query.status
      return GroupsPage.paginate visible query.offset query.effectiveLimit).Spares := by
    intro groups
    refine spares_bind (spares_visibleGroups _ _ _) ?_
    intro visible
    exact spares_pure _
  cases query.id with
  | none => exact hrest _
  | some root =>
      dsimp only
      cases (Hierarchy.ofGroups stored).walk root query.walkDirection query.level with
      | none => exact spares_throw id
      | some groups => exact hrest groups

theorem guarded_listMemberships (token client : String) (query : GroupQuery) :
    Guarded tokens token .access (listMemberships tokens token client query) := by
  refine ⟨_, rfl, fun claims => Spares.prompt ?_⟩
  refine spares_bind (spares_store _) ?_
  intro found
  refine spares_ite (spares_ite ?_ fun hrest => ?_) fun _ => spares_throw id
  · refine spares_bind (spares_store _) ?_
    intro policies
    refine spares_bind (spares_memberships _ _) ?_
    intro groups
    exact spares_pure _
  · refine spares_bind (spares_decide _ _ rfl) ?_
    intro granted
    exact spares_ite hrest fun _ => spares_throw id

theorem guarded_setGroupStatus (token id : String) (status : Status) :
    Guarded tokens token .access (setGroupStatus tokens token id status) := by
  refine ⟨_, rfl, fun claims => Spares.prompt (spares_bind (spares_store _) ?_)⟩
  rintro (_ | group)
  · exact spares_throw fun h => h
  · refine spares_bind (spares_mayChange _ _ _ _) ?_
    intro allowed
    refine spares_ite (spares_ite ?_ fun _ => spares_throw fun h => h) fun _ =>
      spares_throw fun h => h
    refine spares_bind (spares_store _) fun group => ?_
    exact spares_bind (spares_step _) fun _ => spares_pure _

theorem guarded_setClientStatus (token id : String) (status : Status) :
    Guarded tokens token .access (setClientStatus tokens token id status) := by
  refine ⟨_, rfl, fun claims => Spares.prompt (spares_bind (spares_store _) ?_)⟩
  rintro (_ | client)
  · exact spares_throw fun h => h
  · refine spares_bind (spares_mayChange _ _ _ _) ?_
    intro allowed
    refine spares_ite (spares_ite ?_ fun _ => spares_throw fun h => h) fun _ =>
      spares_throw fun h => h
    refine spares_bind (spares_store _) fun client => ?_
    refine spares_ite ?_ fun hremark => ?_
    · exact spares_bind (spares_step _) fun _ => spares_pure _
    · exact spares_bind (spares_tryCache _ _ _) fun _ =>
        spares_bind (spares_tryCache _ _ _) fun _ => hremark

/-- **Behind the token.**  Every operation with a token but `refresh` reads the claims of an access
token and is prompt from there on. -/
theorem guarded_serve {op : Operation} {token : String} (htoken : op.token? = some token)
    (hkind : op.tokenKind = .access) : Guarded tokens token .access (serve tokens op) := by
  cases op with
  | issue | canAccessByKey | canAccessById | identifyThing => cases htoken
  | refresh => cases hkind
  | identify => cases htoken; exact guarded_identify _
  | authorize => cases htoken; exact guarded_authorize _ _ _ _
  | addPolicy => cases htoken; exact guarded_addPolicy _ _
  | updatePolicy => cases htoken; exact guarded_updatePolicy _ _
  | deletePolicy => cases htoken; exact guarded_deletePolicy _ _
  | listPolicies => cases htoken; exact guarded_listPolicies _ _
  | createGroup => cases htoken; exact guarded_createGroup _ _
  | registerClient => cases htoken; exact guarded_registerClient _ _
  | listGroups => cases htoken; exact guarded_listGroups _ _
  | listMemberships => cases htoken; exact guarded_listMemberships _ _ _
  | enableGroup | disableGroup => cases htoken; exact guarded_setGroupStatus _ _ _
  | enableClient | disableClient => cases htoken; exact guarded_setClientStatus _ _ _

/-- A new pair of tokens touches nothing, and the issuer alone refuses it. -/
theorem tells_issue (tokens : TokenIssuer) (request : IssueRequest) (refreshed : Bool) :
    (issue tokens request refreshed).run.Tells (fun _ => True) ServiceCall.touched fun es _ =>
      es = [] := by
  refine ⟨trivial, fun nanos => ?_⟩
  show Program.Tells _ _ (ExceptT.run (ofExcept .ofToken
    (tokens.issue (Timestamp.ofNanos nanos).seconds request) >>= _)) _
  cases tokens.issue (Timestamp.ofNanos nanos).seconds request with
  | error e => rfl
  | ok pair => exact ⟨trivial, fun _ => rfl⟩

end Engine

end Gatehouse
