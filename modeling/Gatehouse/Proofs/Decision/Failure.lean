import Gatehouse.Proofs.Decision.Grounds
import Gatehouse.Service.Engine

/-!
# Gatehouse.Proofs.Decision.Failure — a failure is never a decision

A reader of relations may fail at any question.  A computation is *fragile* if an error that it is
told ends it at once with that error (`Fragile`).  Every part of a decision is fragile, so a
decision goes with a reader that fails as far as with one that does not, and no further: up to the
question that fails the two are asked the same, and then there is nothing but the error.

* `Fragile.interrupted` : a fragile computation, and a reader that fails at one question.
* `failure_is_no_decision` : what this comes to for decisions.
* `Engine.run_decide_eq` : a decision of the engine is one on its store, question by question.

The statement is about a reader that fails once, at a question that is counted from the beginning,
because a decision that is compared with itself needs a run without failures to compare with.  That
no decision is made over a reader that fails oftener, or for other reasons, follows from fragility
alone (`Fragile.ended`).

What is ruled out is a decision that takes an error for an answer: that a policy which could not be
read is not there, or that the owner who could not be asked for is another one.
-/

namespace Gatehouse

namespace Decision

/-! ## Fragile computations -/

/-- Whether every error that a computation is told ends it at once, and is what it ends in. -/
def Fragile {α : Type} : Program relations (Except DecisionError α) → Prop
  | .done _ => True
  | .ask _ next => (∀ e, next (.error e) = .done (.error e)) ∧ ∀ v, Fragile (next (.ok v))

variable {α β : Type} {x : Reading α} {f : α → Reading β}

/-- What asks nothing is told no error. -/
theorem fragile_pure (a : α) : Fragile (pure a : Reading α).run := trivial

theorem fragile_throw (e : DecisionError) : Fragile (throw e : Reading α).run := trivial

theorem fragile_ask (c : RelationCall) : Fragile (ask c).run := ⟨fun _ => rfl, fun _ => trivial⟩

/-- A computation is fragile if its parts are.  An error that ends the first part is passed on, and
the second part is not begun. -/
theorem fragile_bind (hx : Fragile x.run) (hf : ∀ a, Fragile (f a).run) :
    Fragile (x >>= f).run := by
  have hbind : ∀ p : Program relations (Except DecisionError α), Fragile p →
      Fragile (p.bind (ExceptT.bindCont f)) := by
    intro p hp
    induction p with
    | done r =>
        cases r with
        | error e => trivial
        | ok a => exact hf a
    | ask c next ih =>
        refine ⟨fun e => ?_, fun v => ih _ (hp.2 v)⟩
        show (next (.error e)).bind (ExceptT.bindCont f) = .done (.error e)
        rw [hp.1 e]
        rfl
  exact hbind x.run hx

/-! ## The parts of a decision -/

theorem fragile_holds (subject object action : String) :
    Fragile (holds subject object action).run := by
  refine fragile_bind (fragile_ask _) ?_
  rintro (_ | p)
  · exact fragile_pure _
  · exact fragile_pure _

/-- The search through the policies of a subject ends at the first question that fails, even if a
connection would have been found after it. -/
theorem fragile_anyConnected (object : String) (policies : List Policy) :
    Fragile (anyConnected object policies).run := by
  induction policies with
  | nil => exact fragile_pure _
  | cons p rest ih =>
      refine fragile_bind (fragile_ask _) ?_
      rintro (_ | q)
      · exact ih
      · exact fragile_pure _

theorem fragile_sharesGroup (subject object action : String) :
    Fragile (sharesGroup subject object action).run := by
  refine fragile_bind (fragile_ask _) ?_
  intro policies
  exact fragile_anyConnected object _

theorem fragile_owned (c : RelationCall) (owns : c.Value → Bool) :
    Fragile (do return owns (← ask c) : Reading Bool).run := by
  refine fragile_bind (fragile_ask c) ?_
  intro owner
  exact fragile_pure _

/-- A choice on a part ends the questions if the part is so. -/
theorem fragile_or {x y : Reading Bool} (hx : Fragile x.run) (hy : Fragile y.run) :
    Fragile (do if ← x then return true else y : Reading Bool).run := by
  refine fragile_bind hx ?_
  rintro (_ | _)
  · exact hy
  · exact fragile_pure _

/-- **Every decision is fragile.** -/
theorem fragile_evaluate (kind : EntityType) (subject object action : String) :
    Fragile (evaluate kind subject object action).run := by
  unfold evaluate
  split
  · cases kind with
    | client =>
        refine fragile_or (fragile_holds _ _ _) (fragile_or (fragile_holds _ _ _) ?_)
        exact fragile_or (fragile_sharesGroup _ _ _) (fragile_owned (.clientOwner object) _)
    | group => exact fragile_or (fragile_holds _ _ _) (fragile_owned (.groupOwner object) _)
  · exact fragile_throw _

/-! ## Readers that fail -/

variable {σ : Type}

/-- A reader that never fails. -/
def sure (read : (c : relations.Call) → σ → RelationCall.Value c × σ) (c : relations.Call) (s : σ) :
    relations.Reply c × σ :=
  (.ok (read c s).1, (read c s).2)

/-- A reader that counts its questions, from 0, and fails at the `n`-th. -/
def failingAt (n : Nat) (e : DecisionError)
    (read : (c : relations.Call) → σ → RelationCall.Value c × σ) (c : relations.Call)
    (s : σ × Nat) : relations.Reply c × (σ × Nat) :=
  (if s.2 = n then .error e else .ok (read c s.1).1, (read c s.1).2, s.2 + 1)

variable (read : (c : relations.Call) → σ → RelationCall.Value c × σ)

theorem failingAt_self (n : Nat) (e : DecisionError) (c : relations.Call) (s : σ) :
    failingAt n e read c (s, n) = (.error e, (read c s).2, n + 1) :=
  Prod.ext (if_pos rfl) rfl

theorem failingAt_of_ne {n i : Nat} (hne : i ≠ n) (e : DecisionError) (c : relations.Call) (s : σ) :
    failingAt n e read c (s, i) = (.ok (read c s).1, (read c s).2, i + 1) :=
  Prod.ext (if_neg hne) rfl

variable {p : Program relations (Except DecisionError α)}

/-- **An interruption.**  A fragile computation that has `k` questions left before one fails puts
these and that one and ends in the error, if it comes so far.  If it does not, nothing is different
for it.

The induction is on the computation, with the number of questions left and the count so far for
every one of its continuations; the sum of the two is the question that fails and stays the same. -/
theorem Fragile.interrupted (hp : Fragile p) (e : DecisionError) (k i : Nat) (s : σ) :
    (k < (p.asked (sure read) s).length →
      (p.run (failingAt (i + k) e read) (s, i)).1 = .error e ∧
        p.asked (failingAt (i + k) e read) (s, i) = (p.asked (sure read) s).take (k + 1)) ∧
    ((p.asked (sure read) s).length ≤ k →
      (p.run (failingAt (i + k) e read) (s, i)).1 = (p.run (sure read) s).1 ∧
        p.asked (failingAt (i + k) e read) (s, i) = p.asked (sure read) s) := by
  induction p generalizing k i s with
  | done r => exact ⟨fun h => absurd h (Nat.not_lt_zero _), fun _ => ⟨rfl, rfl⟩⟩
  | ask c next ih =>
      rw [Program.asked_ask, Program.asked_ask, Program.run_ask, Program.run_ask]
      cases k with
      -- the question that fails is the next one, and the program ends with its error
      | zero =>
          refine ⟨fun _ => ?_, fun h => absurd h (Nat.not_succ_le_zero _)⟩
          rw [Nat.add_zero, failingAt_self, hp.1 e]
          exact ⟨rfl, rfl⟩
      -- this question is answered, and the failure lies one question less ahead
      | succ k =>
          rw [failingAt_of_ne read (show i ≠ i + (k + 1) by omega),
            show i + (k + 1) = (i + 1) + k by omega]
          obtain ⟨hfails, hends⟩ := ih (.ok (read c s).1) (hp.2 _) k (i + 1) (read c s).2
          refine ⟨fun h => ?_, fun h => ?_⟩
          · obtain ⟨hrun, hasked⟩ := hfails (Nat.lt_of_succ_lt_succ h)
            exact ⟨hrun, congrArg (c :: ·) hasked⟩
          · obtain ⟨hrun, hasked⟩ := hends (Nat.le_of_succ_le_succ h)
            exact ⟨hrun, congrArg (c :: ·) hasked⟩

/-- An error that a fragile computation is told is what it ends in. -/
theorem Fragile.ended (hp : Fragile p) {reader : (c : relations.Call) → σ → relations.Reply c × σ}
    {s : σ} {c : relations.Call} {e : DecisionError}
    (htold : ⟨c, .error e⟩ ∈ p.transcript reader s) : (p.run reader s).1 = .error e := by
  induction p generalizing s with
  | done r => exact absurd htold List.not_mem_nil
  | ask d next ih =>
      show ((next (reader d s).1).run reader (reader d s).2).1 = .error e
      rcases List.mem_cons.1 htold with hhere | hlater
      · obtain ⟨rfl, hreply⟩ := Sigma.mk.inj hhere
        rw [← eq_of_heq hreply, hp.1 e]
        rfl
      · cases hreply : (reader d s).1 with
        | error e' =>
            rw [hreply, hp.1 e'] at hlater
            exact absurd hlater List.not_mem_nil
        | ok v =>
            rw [hreply] at hlater
            exact ih _ (hp.2 v) hlater

/-- Outside the vocabulary of the entity type there are no questions. -/
theorem evaluate_of_not_mem {kind : EntityType} {subject object action : String}
    (h : action ∉ kind.actions) :
    (evaluate kind subject object action).run = .done (.error (.invalidAction kind action)) := by
  have haction : kind.isAction action = false := by simpa [EntityType.isAction] using h
  unfold evaluate
  rw [haction]
  rfl

end Decision

/-! ## The reader of the engine -/

namespace Engine

variable {σ : Type} (answer : (c : ServiceCall) → σ → c.Reply × σ)

/-- How the engine reads relations, whatever surrounds it. -/
def reader (c : relations.Call) (s : σ) : relations.Reply c × σ :=
  Program.run (I := service) answer (relation c) s

/-- A decision of the engine is one over its reader. -/
theorem run_decide_eq (kind : EntityType) (subject object action : String) (s : σ) :
    (Program.run (I := service) answer (decide kind subject object action).run s).1 =
      (Decision.outcome (reader answer) s kind subject object action).mapError .ofDecision := by
  refine (congrArg Prod.fst (Program.run_bind (I := service) answer _ _ s)).trans ?_
  have hrun := Program.run_interpret_eq (J := service) relation answer
    (Decision.evaluate kind subject object action).run s
  exact congrArg (fun ended => Except.mapError ApiError.ofDecision ended.1) hrun

/-- A question of a decision is one request to the store, and fails with it. -/
theorem relation_fails (c : relations.Call) : ∃ request : StoreCall, ∀ s : σ,
    Program.asked (I := service) answer (relation c) s = [.store request] ∧
    ∀ e : StorageError, (answer (.store request) s).1 = Except.error e →
      (reader answer c s).1 = .error (.storage e.message) := by
  cases c with
  | policy key =>
      refine ⟨.policy key, fun s => ⟨rfl, fun e he => ?_⟩⟩
      exact congrArg (Except.mapError fun e : StorageError => DecisionError.storage e.message) he
  | policiesOf subject =>
      refine ⟨.policiesOf subject, fun s => ⟨rfl, fun e he => ?_⟩⟩
      exact congrArg (Except.mapError fun e : StorageError => DecisionError.storage e.message) he
  | clientOwner id =>
      refine ⟨.client id, fun s => ⟨rfl, fun e he => ?_⟩⟩
      exact congrArg (fun reply : Except StorageError (Option Client) =>
        (reply.map fun c => c.map (·.owner)).mapError fun e => DecisionError.storage e.message) he
  | groupOwner id =>
      refine ⟨.group id, fun s => ⟨rfl, fun e he => ?_⟩⟩
      exact congrArg (fun reply : Except StorageError (Option Group) =>
        (reply.map fun g => g.map (·.owner)).mapError fun e => DecisionError.storage e.message) he

end Engine

namespace Decision

/-! ## Decisions and failures -/

/-- **A failure is never a decision.**  For every reader, every state of it and every query, take
the questions of a run in which nothing fails.  If the reader fails at the `n`-th of them, counted
from 0, the decision ends in this very error, and the questions up to that one were put and no more.
If there is no `n`-th question, nothing is different.  Whatever reader it is and however often it
fails, an action is allowed or not allowed only if every question was answered, and none is put
about an action that the entity type does not have.

The reader of the engine is one of these: a question is one request to the store, whose failure is
its failure. -/
theorem failure_is_no_decision {σ : Type} (kind : EntityType) (subject object action : String) :
    let query := (evaluate kind subject object action).run
    (∀ (read : (c : relations.Call) → σ → RelationCall.Value c × σ) (s : σ) (e : DecisionError)
        (n : Nat),
      let asked := query.asked (sure read) s
      (n < asked.length →
        outcome (failingAt n e read) (s, 0) kind subject object action = .error e ∧
          query.asked (failingAt n e read) (s, 0) = asked.take (n + 1)) ∧
      (asked.length ≤ n →
        outcome (failingAt n e read) (s, 0) kind subject object action =
            outcome (sure read) s kind subject object action ∧
          query.asked (failingAt n e read) (s, 0) = asked)) ∧
    (∀ (reader : (c : relations.Call) → σ → relations.Reply c × σ) (s : σ),
      (∀ allowed, outcome reader s kind subject object action = .ok allowed →
        ∀ told ∈ query.transcript reader s, ∃ v, told.2 = .ok v) ∧
      (action ∉ kind.actions → query.asked reader s = [] ∧
        outcome reader s kind subject object action = .error (.invalidAction kind action))) ∧
    ∀ (answer : (c : ServiceCall) → σ → c.Reply × σ) (s : σ),
      (Program.run (I := service) answer (Engine.decide kind subject object action).run s).1 =
          (outcome (Engine.reader answer) s kind subject object action).mapError .ofDecision ∧
      ∀ c : relations.Call, ∃ request : StoreCall, ∀ s : σ,
        Program.asked (I := service) answer (Engine.relation c) s = [.store request] ∧
        ∀ e : StorageError, (answer (.store request) s).1 = Except.error e →
          (Engine.reader answer c s).1 = .error (.storage e.message) := by
  intro query
  have hfragile : Fragile query := fragile_evaluate kind subject object action
  refine ⟨fun read s e n => ?_, fun reader s => ⟨?_, ?_⟩, fun answer s => ⟨?_, ?_⟩⟩
  · have hinterrupted := hfragile.interrupted read e n 0 s
    rw [Nat.zero_add] at hinterrupted
    exact hinterrupted
  -- an error among what was told would be the outcome, and the outcome is a decision
  · rintro allowed hallowed ⟨c, e | v⟩ htold
    · have hended := hfragile.ended htold
      rw [show (query.run reader s).1 = .ok allowed from hallowed] at hended
      cases hended
    · exact ⟨v, rfl⟩
  · intro haction
    have hdone : query = .done (.error (.invalidAction kind action)) := evaluate_of_not_mem haction
    constructor
    · rw [hdone]
      rfl
    · unfold outcome
      rw [evaluate_of_not_mem haction]
      rfl
  · exact Engine.run_decide_eq answer kind subject object action s
  · exact Engine.relation_fails answer

/-- A reader over a list of policies, without owners. -/
def listed (policies : List Policy) : (c : relations.Call) → Unit → RelationCall.Value c × Unit
  | .policy key, s => (policies.find? fun p => p.key = key, s)
  | .policiesOf subject, s => (policies.filter fun p => p.subject = subject, s)
  | .clientOwner _, s => (none, s)
  | .groupOwner _, s => (none, s)

/-- The pump is in the last of the three groups that ann may read; a failure at the second of them
is not passed over. -/
theorem failure_is_no_decision_secondGroup :
    let policy (subject object : String) : Policy :=
      ⟨"ann", subject, object, ["m_read"], ⟨0, 0⟩, ⟨0, 0⟩, "ann"⟩
    let read := listed [policy "ann" "hall", policy "ann" "roof", policy "ann" "attic",
      policy "pump" "attic"]
    let query := (evaluate .client "ann" "pump" "m_read").run
    query.asked (sure read) () =
        [.policy ⟨"ann", "pump"⟩, .policy ⟨"ann", everyClient⟩, .policiesOf "ann",
          .policy ⟨"pump", "hall"⟩, .policy ⟨"pump", "roof"⟩, .policy ⟨"pump", "attic"⟩] ∧
      outcome (sure read) () .client "ann" "pump" "m_read" = .ok true ∧
      outcome (failingAt 4 (.storage "down") read) ((), 0) .client "ann" "pump" "m_read" =
        .error (.storage "down") ∧
      outcome (failingAt 6 (.storage "down") read) ((), 0) .client "ann" "pump" "m_read" =
        .ok true := by
  intro policy read query
  have hasked : query.asked (sure read) () =
      [.policy ⟨"ann", "pump"⟩, .policy ⟨"ann", everyClient⟩, .policiesOf "ann",
        .policy ⟨"pump", "hall"⟩, .policy ⟨"pump", "roof"⟩, .policy ⟨"pump", "attic"⟩] := by
    rfl
  have hallowed : outcome (sure read) () .client "ann" "pump" "m_read" = .ok true := by rfl
  have hfailing := (failure_is_no_decision .client "ann" "pump" "m_read").1 read ()
    (.storage "down")
  refine ⟨hasked, hallowed, ((hfailing 4).1 ?_).1, (((hfailing 6).2 ?_).1).trans hallowed⟩
  · show 4 < (query.asked (sure read) ()).length
    rw [hasked]
    decide
  · show (query.asked (sure read) ()).length ≤ 6
    rw [hasked]
    decide

end Decision

end Gatehouse
