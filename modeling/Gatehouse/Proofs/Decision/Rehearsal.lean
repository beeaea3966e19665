import Gatehouse.Decision.Rehearsal
import Gatehouse.Proofs.Decision
import Gatehouse.Proofs.Decision.Failure

/-!
# Gatehouse.Proofs.Decision.Rehearsal — decisions over lists

A rehearsal answers a decision from lists and counts its questions.  The rest of the theory speaks
of readers in general, so this module says which reader the lists are: one that never fails, or one
that fails at the `n`-th question and there alone.

Two runs are compared, that of the rehearsal, whose state holds the questions so far, and that of
the reader, which keeps at most a count.  They agree answer by answer because no answer depends on
the questions before it, except that one of them fails; that is all there is in `run_of_never` and
`run_of_fails`, one induction on the program each.  Everything else follows from what holds of every
decision: it is fragile, so a failure ends it on the spot.

* `evaluate_course` : the decision of the facts in the lists, and the questions put for it; or the
  failure, and the questions up to it.
-/

namespace Gatehouse.RehearsalRelations

open Decision

/-! ## The lists as facts and as a reader -/

/-- The facts that the lists hold.  Of several policies with one key the first counts. -/
def facts (r : RehearsalRelations) : Facts where
  policy key := r.policies.find? fun p => p.key = key
  policiesOf subject := r.policies.filter fun p => p.subject = subject
  clientOwner id := r.clientOwners.lookup id
  groupOwner id := r.groupOwners.lookup id

/-- The lists as a reader without a state. -/
def read (r : RehearsalRelations) (c : relations.Call) (s : Unit) : RelationCall.Value c × Unit :=
  (r.find c, s)

/-- The lists as they are rehearsed, with the questions so far for a state. -/
def rehearsed (c : relations.Call) (r : RehearsalRelations) :
    relations.Reply c × RehearsalRelations :=
  answer c r

/-- What is said of a question that was planned to fail. -/
def failure (n : Nat) : DecisionError := .storage s!"call {n} failed"

/-- The rehearsal after some more questions. -/
def after (r : RehearsalRelations) (asked : List RelationCall) : RehearsalRelations :=
  { r with calls := asked.reverse ++ r.calls }

theorem after_cons (r : RehearsalRelations) (c : RelationCall) (asked : List RelationCall) :
    r.after (c :: asked) = ({ r with calls := c :: r.calls } : RehearsalRelations).after asked := by
  unfold after
  rw [List.reverse_cons, List.append_assoc]
  rfl

/-- The facts in the lists answer what the lists are searched for. -/
theorem answer_facts (r : RehearsalRelations) (c : relations.Call) :
    r.facts.answer c = .ok (r.find c) := by
  cases c with
  | policy | policiesOf | clientOwner | groupOwner => rfl

theorem rehearsed_of_never {r : RehearsalRelations} (hnever : r.failAt = none)
    (c : relations.Call) :
    rehearsed c r = ((sure r.read c ()).1, { r with calls := c :: r.calls }) := by
  unfold rehearsed answer
  rw [hnever]
  rfl

theorem rehearsed_of_fails {r : RehearsalRelations} {n : Nat} (hfails : r.failAt = some n)
    (c : relations.Call) : rehearsed c r =
      ((failingAt n (failure n) r.read c ((), r.calls.length)).1,
        { r with calls := c :: r.calls }) := by
  unfold rehearsed answer
  rw [hfails]
  by_cases hhere : r.calls.length = n
  · rw [hhere, failingAt_self]
    exact congrArg (·, _) (if_pos rfl)
  · rw [failingAt_of_ne _ hhere]
    exact congrArg (·, _) (if_neg fun h => hhere (Option.some.inj h).symm)

/-! ## Runs -/

variable {α : Type} {r : RehearsalRelations} (p : Program relations (Except DecisionError α))

/-- A computation over the lists ends in its value on the facts. -/
theorem run_facts : (p.run (sure r.read) ()).1 = p.eval r.facts.answer := by
  induction p with
  | done a => rfl
  | ask c next ih =>
      show ((next (.ok (r.find c))).run (sure r.read) ()).1 = (next (r.facts.answer c)).eval _
      rw [answer_facts]
      exact ih _

/-- **Nothing fails.**  The questions are those of a reader that never fails, and they are added to
what was asked before. -/
theorem run_of_never (hnever : r.failAt = none) : p.run rehearsed r =
    ((p.run (sure r.read) ()).1, r.after (p.asked (sure r.read) ())) := by
  induction p generalizing r with
  | done a => rfl
  | ask c next ih =>
      have hnext := ih (sure r.read c ()).1 (r := { r with calls := c :: r.calls }) hnever
      rw [Program.run_ask, rehearsed_of_never hnever]
      exact hnext.trans (congrArg (Prod.mk _) (after_cons r c _).symm)

/-- **One question fails.**  How many questions came before is the length of what was asked before,
so the count of the reader begins there. -/
theorem run_of_fails {n : Nat} (hfails : r.failAt = some n) : p.run rehearsed r =
    ((p.run (failingAt n (failure n) r.read) ((), r.calls.length)).1,
      r.after (p.asked (failingAt n (failure n) r.read) ((), r.calls.length))) := by
  induction p generalizing r with
  | done a => rfl
  | ask c next ih =>
      have hnext := ih (failingAt n (failure n) r.read c ((), r.calls.length)).1
        (r := { r with calls := c :: r.calls }) hfails
      rw [Program.run_ask, rehearsed_of_fails hfails]
      exact hnext.trans (congrArg (Prod.mk _) (after_cons r c _).symm)

/-! ## Decisions -/

/-- **A decision over lists.**  Take a rehearsal that has not been asked anything, and the questions
that are put when none of them fails.  If none is planned to fail, or only one that does not come
up, the decision is that of the facts in the lists, after these questions.  If the `n`-th of them is
planned to fail, counted from 0, its failure is what there is instead of a decision, and no question
was put after it. -/
theorem evaluate_course (r : RehearsalRelations) (hfresh : r.calls = []) (kind : EntityType)
    (subject object action : String) :
    let asked := (Decision.evaluate kind subject object action).run.asked (sure r.read) ()
    ((∀ n, r.failAt = some n → asked.length ≤ n) →
      r.evaluate kind subject object action =
        (r.facts.evaluate kind subject object action, asked)) ∧
    ∀ n, r.failAt = some n → n < asked.length →
      r.evaluate kind subject object action = (.error (failure n), asked.take (n + 1)) := by
  intro asked
  have hevaluate : r.evaluate kind subject object action =
      (((Decision.evaluate kind subject object action).run.run rehearsed r).1,
        ((Decision.evaluate kind subject object action).run.run rehearsed r).2.calls.reverse) := rfl
  have hquestions : ∀ asked, (r.after asked).calls.reverse = asked := by
    intro asked
    rw [after, hfresh, List.append_nil, List.reverse_reverse]
  cases hplan : r.failAt with
  | none =>
      refine ⟨fun _ => ?_, nofun⟩
      rw [hevaluate, run_of_never _ hplan]
      exact Prod.ext (run_facts _) (hquestions _)
  | some n =>
      -- nothing was asked before, so the question that fails is counted from 0
      rw [hevaluate, run_of_fails _ hplan, hfresh]
      have hinterrupted :=
        (fragile_evaluate kind subject object action).interrupted r.read (failure n) n 0 ()
      rw [Nat.zero_add] at hinterrupted
      refine ⟨fun hbeyond => ?_, ?_⟩
      · obtain ⟨hvalue, hasked⟩ := hinterrupted.2 (hbeyond n rfl)
        exact Prod.ext (hvalue.trans (run_facts _)) ((hquestions _).trans hasked)
      · rintro _ ⟨⟩ hreached
        obtain ⟨hvalue, hasked⟩ := hinterrupted.1 hreached
        exact Prod.ext hvalue ((hquestions _).trans hasked)

/-- The owner of a client is asked for last; without that answer there is no decision. -/
example :
    let r : RehearsalRelations := ⟨[], [("pump", "ann")], [], some 3, []⟩
    r.evaluate .client "ann" "pump" "m_read" = (.error (failure 3),
      [.policy ⟨"ann", "pump"⟩, .policy ⟨"ann", everyClient⟩, .policiesOf "ann",
        .clientOwner "pump"]) := by rfl

end Gatehouse.RehearsalRelations
