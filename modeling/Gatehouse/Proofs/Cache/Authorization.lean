import Gatehouse.Proofs.Cache.Coherence
import Gatehouse.Proofs.Decision

/-!
# Gatehouse.Proofs.Cache.Authorization — the policy cache decides nothing

A policy cache that knows of a grant answers in place of a decision.  In a coherent world what it
knows is a policy that the store holds, and a policy on the object is the first ground of every
decision.  So after every history an action is authorized exactly if the decision on the store
grants it.

The converse is not claimed of the cache: that it does not know of a grant, or knows of a policy
without the action, decides nothing, and the engine goes on to ask the store then.  Three facts are
put together.

* `run_authorize` computes the answer of an operation that has passed its checks: the cache if it
  knows of a grant, and otherwise the decision, on the tables that are stored at that moment.
* `Coherent.evaluate_of_recalled` is the step that uses coherence: what is recalled is stored, and
  what is stored under the key grants whatever it has as an action.
* `authorize_iff_evaluate` says so of every history, by the invariant of
  `Gatehouse.Proofs.Cache.Coherence`.

The decision is the one of `Gatehouse.Decision`, run over the relations of the store
(`Store.facts`), so that nothing of the engine stands on the right-hand side.
-/

namespace Gatehouse

open Gatehouse.Time

namespace Store

/-- What a store knows about relations. -/
def facts (s : Store) : Decision.Facts where
  policy := s.policies.lookup
  policiesOf := s.policiesOf
  clientOwner id := (s.clients.lookup id).map (·.owner)
  groupOwner id := (s.groups.lookup id).map (·.owner)

/-- The decision on what a store holds. -/
def evaluate (s : Store) (entityType : EntityType) (subject object action : String) :
    Except DecisionError Bool :=
  s.facts.evaluate entityType subject object action

theorem facts_of_sameTables {s t : Store} (h : s.SameTables t) : t.facts = s.facts := by
  unfold facts policiesOf
  rw [h.1, h.2.1, h.2.2]

end Store

namespace World

variable {w : World} {tokens : TokenIssuer}

/-! ## The steps of an authorization -/

/-- A question of a decision is answered from the tables, and only the count of reads changes. -/
theorem run_relation (h : w.Sound) (c : RelationCall) :
    ((Engine.relation c).run World.answer w).1 = w.store.facts.answer c ∧
      ((Engine.relation c).run World.answer w).2 = { w with store := w.store.countRead } := by
  cases c with
  | policy key =>
      show (w.answerStore (.policy key)).1.mapError _ = _ ∧ (w.answerStore (.policy key)).2 = _
      rw [answerStore_eq h]
      exact ⟨rfl, rfl⟩
  | policiesOf subject =>
      show (w.answerStore (.policiesOf subject)).1.mapError _ = _ ∧
        (w.answerStore (.policiesOf subject)).2 = _
      rw [answerStore_eq h]
      exact ⟨rfl, rfl⟩
  | clientOwner id =>
      show ((w.answerStore (.client id)).1.map _).mapError _ = _ ∧
        (w.answerStore (.client id)).2 = _
      rw [answerStore_eq h]
      exact ⟨rfl, rfl⟩
  | groupOwner id =>
      show ((w.answerStore (.group id)).1.map _).mapError _ = _ ∧ (w.answerStore (.group id)).2 = _
      rw [answerStore_eq h]
      exact ⟨rfl, rfl⟩

/-- The engine decides on what the store holds, and leaves it as it is. -/
theorem exists_run_decide (h : w.Sound) (entityType : EntityType)
    (subject object action : String) :
    ∃ w', w.run (Engine.decide entityType subject object action) =
        ((w.store.evaluate entityType subject object action).mapError .ofDecision, w') ∧
      w'.Sound ∧ w.store.SameTables w'.store := by
  -- questions only count reads, so all of them are answered from the tables of the first moment
  let Inv (w' : World) : Prop := w'.Sound ∧ w.store.SameTables w'.store
  have hrelation : ∀ c w', Inv w' →
      ((Engine.relation c).run World.answer w').1 = w.store.facts.answer c ∧
        Inv ((Engine.relation c).run World.answer w').2 := by
    rintro c w' ⟨hsound, hsame⟩
    obtain ⟨hvalue, hafter⟩ := run_relation hsound c
    rw [hvalue, hafter, Store.facts_of_sameTables hsame]
    exact ⟨rfl, ⟨hsound.faults, hsound.store.countRead⟩, hsame⟩
  obtain ⟨hvalue, hinv⟩ := Program.run_interpret hrelation
    (Decision.evaluate entityType subject object action).run ⟨h, rfl, rfl, rfl⟩
  refine ⟨_, (Program.run_bind (I := service) World.answer _ _ w).trans ?_, hinv⟩
  rw [hvalue]
  rfl

/-- What is recalled of a policy is asked for the action; the look-up leaves the store alone. -/
theorem run_cachedAllows (h : w.Sound) (key : PolicyKey) (action : String) :
    ∃ w', w.run (Engine.cachedAllows key action) =
        (.ok ((w.caches.policies.peek w.clock key).any (·.hasAction action)), w') ∧
      w'.store = w.store := by
  obtain ⟨w', hrun, -, hstore⟩ := exists_run_cache h (c := .policy key) (TtlMap.get_fst _ _ _)
  refine ⟨_, (run_bind_of_ok hrun).trans rfl, ?_⟩
  exact hstore

theorem run_caller {token : String} {claims : Claims}
    (hparse : tokens.parse (Timestamp.ofNanos w.clock).seconds token = .ok claims)
    (hkind : claims.kind = .access) : w.run (Engine.caller tokens token) = (.ok claims, w) :=
  run_claims_of_ok hparse hkind

variable {token entityType object action : String} {claims : Claims} {kind : EntityType}

/-- The answer to a request that passes the checks of its form. -/
theorem run_authorize (h : w.Sound)
    (hparse : tokens.parse (Timestamp.ofNanos w.clock).seconds token = .ok claims)
    (haccess : claims.kind = .access) (hkind : EntityType.ofName? entityType = some kind)
    (hobject : object ≠ "") (haction : kind.isAction action = true) :
    (w.run (Engine.authorize tokens token entityType object action)).1 =
      if (w.caches.policies.peek w.clock ⟨claims.subject, object⟩).any (·.hasAction action) then
        .ok ()
      else match w.store.evaluate kind claims.subject object action with
        | .ok true => .ok ()
        | .ok false => .error .authorization
        | .error e => .error (.ofDecision e) := by
  obtain ⟨w', hrun, hstore⟩ := run_cachedAllows h ⟨claims.subject, object⟩ action
  refine (congrArg Prod.fst (run_bind_of_ok (run_caller hparse haccess))).trans ?_
  rw [hkind]
  show (w.run (if object = "" then _ else if (!kind.isAction action) = true then _ else
    Engine.cachedAllows ⟨claims.subject, object⟩ action >>= _)).1 = _
  rw [if_neg hobject, haction, if_neg (by decide), run_bind_of_ok hrun]
  cases (w.caches.policies.peek w.clock ⟨claims.subject, object⟩).any (·.hasAction action) with
  | true => rfl
  | false =>
      -- the look-up has left the store as it was, so the decision is on what is stored now
      show (w'.run (Engine.decide kind claims.subject object action >>= _)).1 = _
      obtain ⟨w'', hdecide, -⟩ :=
        exists_run_decide (h.of_run hrun) kind claims.subject object action
      rw [run_bind_eq, hdecide, hstore]
      rcases w.store.evaluate kind claims.subject object action with e | _ | _
      · rfl
      · rfl
      · rfl

/-- What the caches recall of a policy is a ground of the decision. -/
theorem Coherent.evaluate_of_recalled (h : w.Coherent) (haction : kind.isAction action = true)
    {subject : String}
    (hhit : (w.caches.policies.peek w.clock ⟨subject, object⟩).any (·.hasAction action) = true) :
    w.store.evaluate kind subject object action = .ok true := by
  obtain ⟨p, hp, hgrants⟩ := Option.any_eq_true _ _ |>.1 hhit
  have hconfirmed : w.store.Confirms (.policy ⟨subject, object⟩ p) :=
    h.confirms _ (Caches.holds_of_recalls w.clock hp)
  refine Decision.Facts.evaluate_of_grants haction ?_
  show (w.store.policies.lookup ⟨subject, object⟩).any (·.hasAction action) = true
  rw [show w.store.policies.lookup ⟨subject, object⟩ = some p from hconfirmed]
  exact hgrants

/-- In a coherent world the answer is the decision, whether or not a cache gave it. -/
theorem Coherent.run_authorize (h : w.Coherent)
    (hparse : tokens.parse (Timestamp.ofNanos w.clock).seconds token = .ok claims)
    (haccess : claims.kind = .access) (hkind : EntityType.ofName? entityType = some kind)
    (hobject : object ≠ "") (haction : kind.isAction action = true) {b : Bool}
    (hdecision : w.store.evaluate kind claims.subject object action = .ok b) :
    (w.run (Engine.authorize tokens token entityType object action)).1 =
      if b then .ok () else .error .authorization := by
  rw [World.run_authorize h.toSound hparse haccess hkind hobject haction]
  by_cases hhit :
      (w.caches.policies.peek w.clock ⟨claims.subject, object⟩).any (·.hasAction action) = true
  · -- a cache that knows of a grant agrees with the decision
    have htrue := h.evaluate_of_recalled haction hhit
    obtain rfl : b = true := Except.ok.inj (hdecision.symm.trans htrue)
    rw [if_pos hhit, if_pos rfl]
  · rw [if_neg hhit, hdecision]
    cases b with
    | true => rfl
    | false => rfl

/-- **The policy cache decides nothing.**  After every history, a request that passes the checks of
its token and of its form is authorized exactly if the decision on what the store holds now grants
the action, and refused for want of rights exactly if the decision denies it.  There always is a
decision. -/
theorem authorize_iff_evaluate (tokens : TokenIssuer) {w₀ : World} (hopened : w₀.Opened)
    (visits : List Visit) (wait : Nat) {token entityType object action : String}
    {claims : Claims} {kind : EntityType} :
    let w := (w₀.after tokens visits).elapse wait
    tokens.parse (Timestamp.ofNanos w.clock).seconds token = .ok claims →
    claims.kind = .access →
    EntityType.ofName? entityType = some kind →
    object ≠ "" →
    kind.isAction action = true →
    let answer := (w.run (Engine.authorize tokens token entityType object action)).1
    let decision := w.store.evaluate kind claims.subject object action
    (answer = .ok () ↔ decision = .ok true) ∧
      (answer = .error .authorization ↔ decision = .ok false) ∧ ∃ b, decision = .ok b := by
  intro w hparse haccess hkind hobject haction answer decision
  have hcoherent : w.Coherent := (hopened.coherent.after tokens visits).elapse wait
  obtain ⟨b, hb⟩ : ∃ b, decision = .ok b := Decision.Facts.exists_evaluate haction
  have hanswer : answer = if b then .ok () else .error .authorization :=
    hcoherent.run_authorize hparse haccess hkind hobject haction hb
  rw [hanswer, hb]
  cases b with
  | true => simp
  | false => simp

/-- A right that was granted, used and withdrawn while the cache remembered it. -/
def withdrawnGrant : List Visit :=
  [⟨0, .addPolicy "owner" ⟨"", "reader", "meter", ["m_read"], ⟨0, 0⟩, ⟨0, 0⟩, ""⟩⟩,
   ⟨5, .authorize "reader" "client" "meter" "m_read"⟩,
   ⟨5, .deletePolicy "owner" ⟨"reader", "meter"⟩⟩]

/-- A right that was withdrawn is refused, although the cache was asked for it and would have had it
for the rest of a minute: the withdrawal has cleared it. -/
theorem authorize_withdrawn :
    let w := ((empty 60000000000 0).after .named withdrawnGrant).elapse 5
    (empty 60000000000 0).Opened ∧
      w.store.evaluate .client "reader" "meter" "m_read" = .ok false ∧
      (w.run (Engine.authorize .named "reader" "client" "meter" "m_read")).1 =
        .error .authorization := by
  intro w
  have hopened : (empty 60000000000 0).Opened := opened_empty _ _
  have hdenied : w.store.evaluate .client "reader" "meter" "m_read" = .ok false := by
    decide +kernel
  obtain ⟨-, hrefused, -⟩ := @authorize_iff_evaluate .named _ hopened withdrawnGrant 5 "reader"
    "client" "meter" "m_read" ⟨"reader", .user, "", .access, 0, 0⟩ .client rfl rfl rfl (by decide)
    (by decide)
  exact ⟨hopened, hdenied, hrefused.2 hdenied⟩

end World

end Gatehouse
