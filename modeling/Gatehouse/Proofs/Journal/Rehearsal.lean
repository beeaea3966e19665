import Gatehouse.Journal.Rehearsal
import Gatehouse.Proofs.Journal.Upkeep

/-!
# Gatehouse.Proofs.Journal.Rehearsal — the rehearsal is a course

The background work of a publisher takes its passes in parts, which anything may come between.  If
nothing does, a pass is `Outbox.drain` (`Works.pass`).

`Outbox.replay` runs the work against a log in virtual time, and is one of the courses that it may
take (`replay_course`): time passes until the ticker is due, a pass follows, and when the time is up
shutdown is asked for and heard.

So the rehearsal is no second program beside the work.  It makes the choices that a course leaves
open, who moves next and how long it takes, and whatever is said of all courses holds of it: that no
record is lost on the way, and that the work stops only after a last pass.

The rehearsal keeps a log that knows the time, and a course keeps a log that remembers what it has
appended.  The two are compared by forgetting the one and by agreeing on the other: `forget` drops
the past, which no answer depends on, and `Idle` has the clock of the log and that of the course
show the same time.
-/

namespace Gatehouse

open Program

namespace Journal

variable {σ : Type} {L : EventLog σ} {c : PublisherConfig}

/-! ## Work that nothing comes between -/

/-- Whether the work leads from one stage and outbox to others. -/
inductive Works (L : EventLog σ) (c : PublisherConfig) :
    Stage → Outbox σ → Stage → Outbox σ → Prop
  | refl (s : Stage) (o : Outbox σ) : Works L c s o s o
  | step {s s' : Stage} {o o' : Outbox σ} :
    Works L c (s.step L c o).1 (s.step L c o).2 s' o' → Works L c s o s' o'

namespace Works

theorem trans {s s' s'' : Stage} {o o' o'' : Outbox σ} (h : Works L c s o s' o')
    (h' : Works L c s' o' s'' o'') : Works L c s o s'' o'' := by
  induction h with
  | refl => exact h'
  | step _ ih => exact .step (ih h')

/-- The work goes through a part of a pass. -/
theorem part (last : Bool) (rest : Program journal Part) (o : Outbox σ) :
    Works L c (.passing last rest) o (.passing last (.done (o.run L rest).1)) (o.run L rest).2 := by
  induction rest generalizing o with
  | done part => exact .refl _ _
  | ask call next ih => exact .step (ih _ _)

end Works

/-! ## A pass by itself -/

theorem run_asking {α : Type} {call : JournalCall} {reply : call.Reply} {o o' : Outbox σ}
    (h : o.answer L call = (reply, o')) (next : call.Reply → Program journal α) :
    o.run L (.ask call next) = o'.run L (next reply) :=
  congrArg (fun x : call.Reply × Outbox σ => x.2.run L (next x.1)) h

/-- What follows a program and leaves the outbox alone may be left out. -/
theorem state_run_bind {α β : Type} {p : Program journal α} {f : α → Program journal β}
    (h : ∀ a o, (Outbox.run L (f a) o).2 = o) (o : Outbox σ) :
    (o.run L (p.bind f)).2 = (o.run L p).2 := by
  have hrun : o.run L (p.bind f) = (o.run L p).2.run L (f (o.run L p).1) :=
    run_bind (I := journal) (Outbox.answer L) p f o
  rw [hrun, h]

/-- Delivery takes a record out of the queue unless the queue is empty or the log rejects it. -/
theorem run_deliver (log : σ) (r : Record) (rest : List Record) :
    Outbox.run L (deliver c) ⟨log, r :: rest⟩ =
      match L.append c.stream r c.maxLen log with
      | (.ok (), log') => (true, ⟨log', rest⟩)
      | (.error _, log') => (false, ⟨log', r :: rest⟩) := by
  rcases happend : L.append c.stream r c.maxLen log with ⟨reply, log'⟩
  have hanswer : Outbox.answer L (.append c.stream r c.maxLen) ⟨log, rest⟩ =
      (reply, ⟨log', rest⟩) := by
    simp only [Outbox.answer, happend]
    rfl
  have hrun : Outbox.run L (deliver c) ⟨log, r :: rest⟩ =
      Outbox.run L (settle r reply) ⟨log', rest⟩ := run_asking hanswer (settle r)
  rw [hrun]
  cases reply <;> rfl

/-- The rounds of a pass are deliveries. -/
theorem drainFrom_succ (fuel drained : Nat) :
    drainFrom c (fuel + 1) drained = (deliver c).bind fun more =>
      if more then drainFrom c fuel (drained + 1) else .done drained := by
  refine congrArg (Program.ask _) (funext fun taken => ?_)
  cases taken with
  | none => rfl
  | some r =>
      refine congrArg (Program.ask _) (funext fun reply => ?_)
      cases reply <;> rfl

/-- A record that is delivered leaves the queue. -/
theorem length_of_delivered {o o' : Outbox σ} (h : o.run L (deliver c) = (true, o')) :
    o'.pending.length + 1 = o.pending.length := by
  obtain ⟨log, pending⟩ := o
  cases pending with
  | nil => cases h
  | cons r rest =>
      rw [run_deliver] at h
      split at h <;> cases h
      rfl

/-- The end of a pass leaves everything as it is. -/
theorem run_endPass (drained : Nat) (o : Outbox σ) : o.run L (endPass drained) = (.ended, o) := by
  unfold endPass
  split <;> rfl

/-- A round of a pass delivers a record and says whether there is to be another one. -/
theorem run_continuePass {more : Bool} {o o' : Outbox σ} (h : o.run L (deliver c) = (more, o'))
    (drained : Nat) : o.run L (continuePass c drained) =
      (if more then .onward (drained + 1) else .ended, o') := by
  refine (run_bind (Outbox.answer L) (deliver c) _ o).trans ?_
  rw [show Program.run (Outbox.answer L) (deliver c) o = (more, o') from h]
  cases more with
  | true => rfl
  | false => exact run_endPass drained o'

/-- The loop delivers a record and goes on if it could. -/
theorem run_drainFrom_succ {more : Bool} {o o' : Outbox σ} (h : o.run L (deliver c) = (more, o'))
    (fuel drained : Nat) : o.run L (drainFrom c (fuel + 1) drained) =
      if more then o'.run L (drainFrom c fuel (drained + 1)) else (drained, o') := by
  rw [drainFrom_succ]
  refine (run_bind (Outbox.answer L) (deliver c) _ o).trans ?_
  rw [show Program.run (Outbox.answer L) (deliver c) o = (more, o') from h]
  cases more <;> rfl

namespace Works

/-- The work goes through what is left of a pass, if the fuel lasts for the queue. -/
theorem drainFrom (last : Bool) (fuel drained : Nat) (o : Outbox σ) (h : o.pending.length ≤ fuel) :
    Works L c (.passing last (.done (.onward drained))) o
      (.passing last (.done .ended)) (o.run L (Journal.drainFrom c fuel drained)).2 := by
  induction fuel generalizing drained o with
  | zero =>
      obtain ⟨log, pending⟩ := o
      obtain rfl := List.eq_nil_of_length_eq_zero (Nat.le_zero.1 h)
      refine .step ((part last (continuePass c drained) ⟨log, []⟩).trans ?_)
      have hempty : Outbox.run L (deliver c) ⟨log, []⟩ = (false, ⟨log, []⟩) := rfl
      rw [run_continuePass hempty]
      exact .refl _ _
  | succ fuel ih =>
      rcases hdeliver : o.run L (deliver c) with ⟨more, o'⟩
      refine .step ((part last (continuePass c drained) o).trans ?_)
      rw [run_continuePass hdeliver, run_drainFrom_succ hdeliver]
      cases more with
      | false => exact .refl _ _
      | true =>
          have hlength := length_of_delivered hdeliver
          exact ih (drained + 1) o' (by omega)

/-- **A pass by itself** is `Outbox.drain`. -/
theorem pass (last : Bool) (o : Outbox σ) :
    Works L c (.passing last (beginPass c)) o (.passing last (.done .ended)) (o.drain L c).2 := by
  refine (part last (beginPass c) o).trans ?_
  rcases hprobe : L.probe c.probeTimeout o.log with ⟨reply, log⟩
  have hanswer : o.answer L (.probe c.probeTimeout) = (reply, ⟨log, o.pending⟩) := by
    simp only [Outbox.answer, hprobe]
    rfl
  have hbegin : o.run L (beginPass c) = _ := run_asking hanswer _
  have hdrain : o.drain L c = _ := run_asking hanswer _
  rw [hbegin, hdrain]
  cases reply with
  | error e => exact .refl _ _
  | ok =>
      show Works L c _ _ _
        (Outbox.run L ((Journal.drainFrom c o.pending.length 0).bind _) ⟨log, o.pending⟩).2
      rw [state_run_bind]
      · exact drainFrom last _ 0 ⟨log, o.pending⟩ le_rfl
      · -- the count of the records is a remark
        intro drained o
        show (Program.run _ (ite _ _ _) _).2 = _
        split <;> rfl

end Works

/-! ## Courses -/

namespace Attended

/-- Whether some course leads from one moment to another. -/
def Reaches (L : EventLog σ) (c : PublisherConfig) (p q : Attended σ) : Prop :=
  ∃ course, p.play L c course = q

variable {p q r : Attended σ}

theorem Reaches.trans (h : Reaches L c p q) (h' : Reaches L c q r) : Reaches L c p r := by
  obtain ⟨before, rfl⟩ := h
  obtain ⟨after, rfl⟩ := h'
  exact ⟨before ++ after, play_append L c before after p⟩

theorem Reaches.beat (b : Beat σ) : Reaches L c p (p.beat L c b) := ⟨[b], rfl⟩

/-- What the work does by itself is one of the courses. -/
theorem reaches_of_works {s s' : Stage} {o o' : Outbox (σ × List Record)}
    (h : Works L.remembering c s o s' o') (hs : p.upkeep.stage = s) (ho : p.pool.state = o) :
    Reaches L c p { p with
      upkeep := ⟨s', p.upkeep.due⟩
      pool := { p.pool with state := o' } } := by
  induction h generalizing p with
  | refl =>
      subst hs ho
      exact ⟨[], rfl⟩
  | step _ ih =>
      subst hs ho
      exact (Reaches.beat .work).trans (ih rfl rfl)

/-- A pass that nothing comes between. -/
theorem reaches_pass {last : Bool} (h : p.upkeep.stage = .passing last (beginPass c)) :
    Reaches L c p { p with
      upkeep := ⟨.passing last (.done .ended), p.upkeep.due⟩
      pool := { p.pool with state := (p.pool.state.drain L.remembering c).2 } } :=
  reaches_of_works (Works.pass last p.pool.state) h rfl

end Attended

/-- An outbox over a log whose past is forgotten. -/
def forget (o : Outbox (σ × List Record)) : Outbox σ := ⟨o.log.1, o.pending⟩

/-- No answer depends on what has been appended. -/
theorem answer_forget (call : JournalCall) (o : Outbox (σ × List Record)) :
    (forget o).answer L call =
      ((o.answer L.remembering call).1, forget (o.answer L.remembering call).2) := by
  cases call with
  | probe | push | note => rfl
  | pop =>
      obtain ⟨log, pending⟩ := o
      cases pending <;> rfl
  | append stream r maxLen =>
      rcases happend : L.append stream r maxLen o.log.1 with ⟨_ | _, log⟩ <;>
        simp only [forget, Outbox.answer, EventLog.remembering, happend]

/-- Nor does a whole pass. -/
theorem drain_forget (o : Outbox (σ × List Record)) :
    forget (o.drain L.remembering c).2 = ((forget o).drain L c).2 := by
  have hrun := run_map (fun call o => answer_forget (L := L) call o)
    (drain c o.pending.length) o
  exact (congrArg Prod.snd hrun).symm

end Journal

/-! ## The clock -/

namespace RehearsalLog

theorem clock_settle (log : RehearsalLog) : log.settle.clock = log.clock := by
  unfold settle
  split
  · split <;> rfl
  · rfl

/-- A log that waits shows a later time. -/
theorem clock_wait (log : RehearsalLog) (duration : Nat) :
    (log.wait duration).clock = log.clock + duration :=
  clock_settle _

theorem clock_probe (timeout : Nat) (log : RehearsalLog) :
    log.clock ≤ (log.probe timeout).2.clock := by
  have hwaited : ∀ duration, log.clock ≤
      ({ log with pings := log.pings + 1 }.wait duration).clock := by
    intro duration
    rw [clock_wait]
    exact Nat.le_add_right _ _
  unfold probe ping
  split
  · exact hwaited log.pingDelay
  · exact hwaited timeout

theorem clock_append (stream : String) (r : Record) (maxLen : Nat) (log : RehearsalLog) :
    (log.append stream r maxLen).2.clock = log.clock := by
  unfold append
  dsimp only
  split <;> rfl

end RehearsalLog

namespace Outbox

theorem clock_answer (call : JournalCall) (o : Outbox RehearsalLog) :
    o.log.clock ≤ (o.answer RehearsalLog.eventLog call).2.log.clock := by
  cases call with
  | push | note => exact Nat.le_refl _
  | pop =>
      obtain ⟨log, pending⟩ := o
      cases pending <;> exact Nat.le_refl _
  | probe timeout => exact RehearsalLog.clock_probe timeout o.log
  | append stream r maxLen => exact (RehearsalLog.clock_append stream r maxLen o.log).ge

/-- No step of a publisher turns the clock back. -/
theorem clock_run {α : Type} (p : Program journal α) (o : Outbox RehearsalLog) :
    o.log.clock ≤ (o.run RehearsalLog.eventLog p).2.log.clock := by
  induction p generalizing o with
  | done a => exact Nat.le_refl _
  | ask call next ih => exact (clock_answer call o).trans (ih _ _)

end Outbox

namespace Journal

/-! ## The rehearsal -/

open RehearsalLog (eventLog)

/-- The work waits over an outbox for its ticker, which is due at a time; the clock of the log is
right, and no call is in progress. -/
structure Idle (due : Nat) (o : Outbox RehearsalLog) (p : Attended RehearsalLog) : Prop where
  atRest : p.pool.AtRest
  upkeep : p.upkeep = ⟨.waiting, due⟩
  now : p.now = o.log.clock
  outbox : forget p.pool.state = o

/-- The work has stopped over an outbox, and no call is in progress. -/
structure Ended (o : Outbox RehearsalLog) (p : Attended RehearsalLog) : Prop where
  atRest : p.pool.AtRest
  stopped : p.upkeep.stage = .stopped
  outbox : forget p.pool.state = o

namespace Idle

variable {due : Nat} {o : Outbox RehearsalLog} {p : Attended RehearsalLog}

/-- Time passes while the work waits. -/
theorem wait (duration : Nat) (h : Idle due o p) :
    ∃ q, p.Reaches eventLog c q ∧ Idle due (o.wait duration) q := by
  refine ⟨_, (Attended.Reaches.beat (.elapse duration)).trans
    (.beat (.other (.pass (o.log.wait duration)))), h.atRest, h.upkeep, ?_, ?_⟩
  · exact (congrArg (· + duration) h.now).trans (RehearsalLog.clock_wait _ _).symm
  · rw [← h.outbox]
    rfl

/-- A tick that is due, and its pass. -/
theorem tick (hdue : due ≤ o.log.clock) (h : Idle due o p) :
    ∃ q, p.Reaches eventLog c q ∧ Idle (due + c.drainInterval) (o.pass c) q := by
  obtain ⟨pool, upkeep, now, asked⟩ := p
  obtain ⟨hrest, rfl, rfl, hout⟩ := h
  have hawake : (Attended.beat eventLog c ⟨pool, ⟨.waiting, due⟩, o.log.clock, asked⟩
      (.wake .tick)).upkeep = ⟨.passing false (beginPass c), due + c.drainInterval⟩ := if_pos hdue
  have hpass := (Attended.Reaches.beat (.wake .tick)).trans
    (Attended.reaches_pass (L := eventLog) (congrArg Upkeep.stage hawake))
  have hclock : o.log.clock ≤ (o.pass c).log.clock := Outbox.clock_run _ o
  refine ⟨_, (hpass.trans (.beat .work)).trans
    (.beat (.elapse ((o.pass c).log.clock - o.log.clock))), hrest, ?_, ?_, ?_⟩
  · exact congrArg (Upkeep.mk .waiting) (congrArg Upkeep.due hawake)
  · exact Nat.add_sub_of_le hclock
  · exact (drain_forget pool.state).trans (congrArg (Outbox.pass c) hout)

/-- Shutdown, and the last pass. -/
theorem shutdown (h : Idle due o p) :
    ∃ q, p.Reaches eventLog c q ∧ Ended (o.pass c) q := by
  obtain ⟨pool, upkeep, now, asked⟩ := p
  obtain ⟨hrest, rfl, rfl, hout⟩ := h
  have hheard := (Attended.Reaches.beat (L := eventLog) (c := c)
    (p := ⟨pool, ⟨.waiting, due⟩, o.log.clock, asked⟩) .ask).trans (.beat (.wake .shutdown))
  have hpass := hheard.trans (Attended.reaches_pass rfl)
  refine ⟨_, ((hpass.trans (.beat .work)).trans (.beat .work)).trans (.beat .work), hrest, rfl, ?_⟩
  exact (drain_forget pool.state).trans (congrArg (Outbox.pass c) hout)

/-- The passes of the rehearsal. -/
theorem replayFrom (deadline fuel : Nat) (h : Idle due o p) :
    ∃ q, p.Reaches eventLog c q ∧ Ended (o.replayFrom c deadline fuel due) q := by
  induction fuel generalizing due o p with
  | zero => exact h.shutdown
  | succ fuel ih =>
      unfold Outbox.replayFrom
      dsimp only
      split
      · obtain ⟨q, hq, hidle⟩ := h.wait (c := c) (deadline - o.log.clock)
        obtain ⟨r, hr, hended⟩ := hidle.shutdown (c := c)
        exact ⟨r, hq.trans hr, hended⟩
      · obtain ⟨q, hq, hidle⟩ := h.wait (c := c) (due - o.log.clock)
        have hdue : due ≤ (o.wait (due - o.log.clock)).log.clock := by
          show due ≤ (o.log.wait (due - o.log.clock)).clock
          rw [RehearsalLog.clock_wait]
          omega
        obtain ⟨q', hq', hidle'⟩ := hidle.tick hdue (c := c)
        obtain ⟨r, hr, hended⟩ := ih hidle'
        exact ⟨r, (hq.trans hq').trans hr, hended⟩

end Idle

/-- **The rehearsal is a course** of a publisher whose background work begins over its queue and its
log, and at whose end this work has stopped. -/
theorem replay_course (c : PublisherConfig) (hinterval : c.drainInterval ≠ 0) (duration : Nat)
    (returnsAt : Option Nat) (o : Outbox RehearsalLog) :
    ∃ course, Ended (o.replay c duration returnsAt)
      ((Attended.opening c o.log o.pending o.log.clock).play eventLog c course) := by
  let log := { o.log with returnsAt := returnsAt.map (o.log.clock + ·) }.settle
  have hclock : log.clock = o.log.clock := RehearsalLog.clock_settle _
  have hidle : Idle o.log.clock { o with log }
      ((Attended.opening c o.log o.pending o.log.clock).beat eventLog c (.other (.pass log))) := by
    refine ⟨rfl, ?_, hclock.symm, rfl⟩
    exact congrArg (Upkeep.mk · o.log.clock) (if_neg hinterval)
  obtain ⟨q, hq, hended⟩ := hidle.replayFrom (c := c) (o.log.clock + duration) (duration + 1)
  obtain ⟨course, hcourse⟩ := (Attended.Reaches.beat _).trans hq
  -- the outage may end when the work has stopped
  let back (log : RehearsalLog) : RehearsalLog :=
    log.returnsAt.elim log fun time => log.wait (time - log.clock)
  refine ⟨course ++ [.other (.pass (back q.pool.state.log.1))], ?_⟩
  rw [Attended.play_append, hcourse]
  refine ⟨hended.atRest, hended.stopped, ?_⟩
  have houtbox := congrArg (fun o : Outbox RehearsalLog => { o with log := back o.log })
    hended.outbox
  refine houtbox.trans ?_
  unfold Outbox.replay
  dsimp only
  split
  · next htime => exact congrArg (Outbox.mk · _) (congrArg (Option.elim · _ _) htime)
  · next hnever => exact congrArg (Outbox.mk · _) (congrArg (Option.elim · _ _) hnever)

end Journal

end Gatehouse
