import Gatehouse.Proofs.Journal.Upkeep

/-!
# Gatehouse.Proofs.Journal.Shutdown — what shutdown leaves behind

The background work stops only after a last pass over the queue, and that pass begins at the moment
at which the work hears of shutdown.

* `Attended.closed_cases` : whoever finds the work in its last pass or behind it finds the moment at
  which that pass began.
* `Closing` : how far the last pass has come over a queue, with the number of steps that remain at
  most.  While the log is there and nobody else is at work, every step lowers that number
  (`Closing.step`), and nothing but the work changes it.
* `shutdown_delivers` : both together with the conservation of records.

The first two answer different questions.  That the last pass is never left out holds of every
course, whatever the log does and whoever else is at work; it is found by looking back from the end
to the signal after which there was no other stage to be in.  That the pass comes to its end needs a
log that answers and nobody who puts records into the queue meanwhile; it is found by looking
forward, with a number that goes down.

Nothing is said about how long a step takes.  The bound is on the steps of the work and not on all
that happens: between any two of them time may pass and signals may be heard, as often as they like.

What is delivered follows from the balance of records alone.  Once the work has stopped, no call is
in progress and the queue is empty, there is one place left in which a record can be.
-/

namespace Gatehouse

open Program

variable {σ : Type}

/-- The log is there: in the states `Up` it answers every probe in time and accepts every append to
the stream of a publisher, and it stays in such states. -/
structure EventLog.Answers (L : EventLog σ) (c : PublisherConfig) (Up : σ → Prop) : Prop where
  probe : ∀ log, Up log → ∃ log', L.probe c.probeTimeout log = (.ok (), log') ∧ Up log'
  append : ∀ log r, Up log → ∃ log', L.append c.stream r c.maxLen log = (.ok (), log') ∧ Up log'

theorem EventLog.Answers.remembering {L : EventLog σ} {c : PublisherConfig} {Up : σ → Prop}
    (h : L.Answers c Up) : L.remembering.Answers c fun log => Up log.1 where
  probe log hup := by
    obtain ⟨inner, hprobe, hinner⟩ := h.probe log.1 hup
    refine ⟨(inner, log.2), ?_, hinner⟩
    simp only [EventLog.remembering, hprobe]
  append log r hup := by
    obtain ⟨inner, happend, hinner⟩ := h.append log.1 r hup
    refine ⟨(inner, r :: log.2), ?_, hinner⟩
    simp only [EventLog.remembering, happend]

/-- While it is switched on and does not reject appends, a log in memory is there. -/
theorem MemoryLog.answers (c : PublisherConfig) :
    MemoryLog.eventLog.Answers c fun log => log.available = true ∧ log.failing = false where
  probe log hup := by
    have hping : log.ping = .ok () := if_pos hup.1
    exact ⟨log, congrArg (·, log) hping, hup⟩
  append log r hup := by
    have hping : log.ping = .ok () := if_pos hup.1
    have happend : log.append c.stream r c.maxLen = .ok { log with
        streams := log.streams.insert c.stream
          (MemoryLog.trim c.maxLen (log.records c.stream ++ [r])) } := by
      unfold MemoryLog.append
      rw [hping, hup.2]
      rfl
    generalize log.streams.insert _ _ = streams at happend
    refine ⟨{ log with streams }, ?_, hup⟩
    simp only [MemoryLog.eventLog, happend]

namespace Journal

variable {L : EventLog σ} {c : PublisherConfig} {Up : σ → Prop}

/-! ## The last pass is never left out -/

/-- Whether the work is in its last pass or behind it. -/
def Stage.Closed : Stage → Prop
  | .passing true _ | .leaving _ | .stopped => True
  | .passing false _ | .waiting | .failed => False

theorem Stage.closed_of_step {s : Stage} {o : Outbox σ} (h : (s.step L c o).1.Closed) :
    s.Closed := by
  cases s with
  | waiting | stopped | failed => exact h
  | leaving => trivial
  | passing last rest =>
      cases last with
      | true => trivial
      | false =>
          -- a pass that is not the last one ends in waiting
          rcases rest with (_ | _) | _
          · exact h
          · exact h
          · exact h

namespace Attended

variable {p : Attended σ}

/-- The last pass begins: shutdown was asked for, and the work hears of it. -/
def Closes (L : EventLog σ) (c : PublisherConfig) (p : Attended σ) : Prop :=
  p.asked ∧ (p.beat L c (.wake .shutdown)).upkeep.stage = .passing true (beginPass c)

/-- A beat does not lead into the last pass but for the signal of shutdown. -/
theorem closed_beat (b : Beat σ) (h : (p.beat L c b).upkeep.stage.Closed) :
    p.upkeep.stage.Closed ∨ (b = .wake .shutdown ∧ p.Closes L c) := by
  obtain ⟨pool, ⟨stage, due⟩, now, asked⟩ := p
  cases b with
  | other | elapse | ask => exact Or.inl h
  | work => exact Or.inl (Stage.closed_of_step (L := L.remembering) (o := pool.state) h)
  | wake signal =>
      cases stage with
      | passing | leaving | stopped | failed => exact Or.inl h
      | waiting =>
          cases signal with
          | tick =>
              simp only [beat, Upkeep.wake] at h
              split at h <;> cases h
          | shutdown =>
              cases asked with
              | false => cases h
              | true => exact Or.inr ⟨rfl, rfl, rfl⟩

/-- **The last pass is never left out.** -/
theorem closed_cases (course : List (Beat σ)) (h : (p.play L c course).upkeep.stage.Closed) :
    p.upkeep.stage.Closed ∨
      ∃ before after, course = before ++ .wake .shutdown :: after ∧
        (p.play L c before).Closes L c := by
  induction course generalizing p with
  | nil => exact Or.inl h
  | cons b course ih =>
      rcases ih h with hnow | ⟨before, after, hcourse, hcloses⟩
      · rcases closed_beat b hnow with hbefore | ⟨rfl, hcloses⟩
        · exact Or.inl hbefore
        · exact Or.inr ⟨[], course, rfl, hcloses⟩
      · refine Or.inr ⟨b :: before, after, ?_, hcloses⟩
        rw [hcourse, List.cons_append]

/-- The work does not begin with its last pass. -/
theorem not_closed_opening (log : σ) (queue : List Record) (now : Nat) :
    ¬ (opening c log queue now).upkeep.stage.Closed := by
  show ¬ (Upkeep.start c now).stage.Closed
  unfold Upkeep.start
  split
  · exact id
  · exact id

end Attended

/-! ## The last pass comes to its end -/

/-- Where the last pass stands over a queue, and how many steps remain at most until the work has
stopped.  A record takes three: it is taken out, it is appended, and the pass goes on. -/
inductive Closing (c : PublisherConfig) : Stage → List Record → Nat → Prop
  | probing (queue) (next : Except EventError Unit → Program journal Part) :
    next (.ok ()) = .done (.onward 0) →
    Closing c (.passing true (.ask (.probe c.probeTimeout) next)) queue (3 * queue.length + 7)
  | between (queue drained) :
    Closing c (.passing true (.done (.onward drained))) queue (3 * queue.length + 6)
  | taking (queue drained) :
    Closing c (.passing true (continuePass c drained)) queue (3 * queue.length + 5)
  | appending (queue r drained) (next : Except EventError Unit → Program journal Part) :
    next (.ok ()) = .done (.onward drained) →
    Closing c (.passing true (.ask (.append c.stream r c.maxLen) next)) queue
      (3 * queue.length + 7)
  | counting (e) (next : Unit → Program journal Part) : next () = .done .ended →
    Closing c (.passing true (.ask (.note e) next)) [] 4
  | ended : Closing c (.passing true (.done .ended)) [] 3
  | leaving (e) (next : Unit → Program journal Unit) : next () = .done () →
    Closing c (.leaving (.ask (.note e) next)) [] 2
  | left : Closing c (.leaving (.done ())) [] 1
  | stopped : Closing c .stopped [] 0

theorem Closing.begun (queue : List Record) :
    Closing c (.passing true (beginPass c)) queue (3 * queue.length + 7) :=
  .probing queue _ rfl

theorem Closing.queue_empty {queue : List Record} {n : Nat} (h : Closing c .stopped queue n) :
    queue = [] := by
  cases h
  rfl

theorem Closing.eq_stopped {s : Stage} {queue : List Record} (h : Closing c s queue 0) :
    s = .stopped := by
  cases h
  rfl

/-- **A step of the last pass.** While the log is there, every step leaves less to do.  Each stage
of the pass is a case, and the number in its rule is one more than that of the stage which follows;
a record that is taken out of the queue pays for the three steps that it costs. -/
theorem Closing.step (hL : L.Answers c Up) {s : Stage} {o : Outbox σ} {n : Nat} (hup : Up o.log)
    (h : Closing c s o.pending n) :
    Up (s.step L c o).2.log ∧
      ∃ m ≤ n - 1, Closing c (s.step L c o).1 (s.step L c o).2.pending m := by
  obtain ⟨log, pending⟩ := o
  cases h with
  | probing _ next hnext =>
      obtain ⟨after, hprobe, hafter⟩ := hL.probe log hup
      simp only [Stage.step, Outbox.answer, hprobe, hnext]
      exact ⟨hafter, _, Nat.le_refl _, .between pending 0⟩
  | between _ drained => exact ⟨hup, _, Nat.le_refl _, .taking pending drained⟩
  | taking _ drained =>
      cases pending with
      | cons r rest => exact ⟨hup, _, Nat.le_refl _, .appending rest r (drained + 1) _ rfl⟩
      | nil =>
          have hend : (Stage.passing true (continuePass c drained)).step L c ⟨log, []⟩ =
              (.passing true (endPass drained), ⟨log, []⟩) := rfl
          -- the remark about how many records were sent is only made if there were any
          rw [hend]
          refine ⟨hup, ?_⟩
          unfold endPass
          split
          · exact ⟨4, Nat.le_refl _, .counting _ _ rfl⟩
          · exact ⟨3, Nat.le_succ _, .ended⟩
  | appending _ r drained next hnext =>
      obtain ⟨after, happend, hafter⟩ := hL.append log r hup
      simp only [Stage.step, Outbox.answer, happend, hnext]
      exact ⟨hafter, _, Nat.le_refl _, .between pending drained⟩
  | counting e next hnext =>
      simp only [Stage.step, Outbox.answer, hnext]
      exact ⟨hup, 3, Nat.le_refl _, .ended⟩
  | ended => exact ⟨hup, 2, Nat.le_refl _, .leaving _ _ rfl⟩
  | leaving e next hnext =>
      simp only [Stage.step, Outbox.answer, hnext]
      exact ⟨hup, 1, Nat.le_refl _, .left⟩
  | left => exact ⟨hup, 0, Nat.le_refl _, .stopped⟩
  | stopped => exact ⟨hup, 0, Nat.le_refl _, .stopped⟩

namespace Beat

/-- Whether a beat is a step of the background work. -/
def isWork : Beat σ → Bool
  | .work => true
  | _ => false

/-- Nobody else begins to publish or to drain, and the log stays there. -/
def Quiet (Up : σ → Prop) : Beat σ → Prop
  | .other (.start _) => False
  | .other (.pass log) => Up log
  | .other (.move _) | .elapse _ | .ask | .wake _ | .work => True

end Beat

namespace Attended

variable {p : Attended σ}

/-- No call is in progress and the log is there, and so it stays in what follows. -/
def Undisturbed (L : EventLog σ) (c : PublisherConfig) (p : Attended σ) (after : List (Beat σ)) :
    Prop :=
  p.pool.AtRest ∧ ∃ Up : σ → Prop, L.Answers c Up ∧ Up p.pool.state.log.1 ∧
    ∀ b ∈ after, b.Quiet Up

/-- The last pass is under way, with at most so many steps to come, while the log is there and no
call is in progress. -/
structure Ending (c : PublisherConfig) (Up : σ → Prop) (p : Attended σ) (n : Nat) : Prop where
  atRest : p.pool.AtRest
  up : Up p.pool.state.log.1
  closing : Closing c p.upkeep.stage p.pool.state.pending n

theorem Ending.begun (hrest : p.pool.AtRest) (hup : Up p.pool.state.log.1)
    (hstage : p.upkeep.stage = .passing true (beginPass c)) :
    p.Ending c Up (3 * p.pool.state.pending.length + 7) := by
  refine ⟨hrest, hup, ?_⟩
  rw [hstage]
  exact Closing.begun _

/-- Once the last pass is under way, the work listens to no signal. -/
theorem Ending.wake {n : Nat} (signal : Signal) (h : p.Ending c Up n) :
    (p.beat L c (.wake signal)).Ending c Up n := by
  refine ⟨h.atRest, h.up, ?_⟩
  have hclosing := h.closing
  obtain ⟨pool, ⟨stage, due⟩, now, asked⟩ := p
  cases stage with
  | waiting => cases hclosing
  | passing | leaving | stopped | failed => exact hclosing

/-- **A beat of the last pass.** The work brings it nearer to its end, and nothing else that may
happen meanwhile changes it. -/
theorem Ending.beat (hL : L.Answers c Up) {n : Nat} (b : Beat σ) (hb : b.Quiet Up)
    (h : p.Ending c Up n) :
    ∃ m ≤ n - [b].countP Beat.isWork, (p.beat L c b).Ending c Up m := by
  cases b with
  | elapse | ask => exact ⟨n, Nat.le_refl n, h.atRest, h.up, h.closing⟩
  | wake signal => exact ⟨n, Nat.le_refl n, h.wake signal⟩
  | work =>
      obtain ⟨hup, m, hm, hclosing⟩ := h.closing.step hL.remembering h.up
      exact ⟨m, hm, h.atRest, hup, hclosing⟩
  | other t =>
      cases t with
      | start q => exact hb.elim
      | pass log => exact ⟨n, Nat.le_refl n, h.atRest, hb, h.closing⟩
      | move i =>
          have hsame : (publisher L c).turn p.pool (.move i) = p.pool := by
            show (publisher L c).move i p.pool = p.pool
            unfold System.move
            -- nobody is in progress, so there is no flight that could move
            rw [show p.pool.flights = [] from h.atRest, List.drop_nil]
          refine ⟨n, Nat.le_refl n, ?_⟩
          show Ending c Up { p with pool := (publisher L c).turn p.pool (.move i) } n
          rw [hsame]
          exact h

/-- **The end of the last pass.**  Every step of the work lowers the number of those that remain,
and nothing else that may happen in a quiet course raises it. -/
theorem Ending.play (hL : L.Answers c Up) {n : Nat} (course : List (Beat σ))
    (hcourse : ∀ b ∈ course, b.Quiet Up) (h : p.Ending c Up n) :
    ∃ m ≤ n - course.countP Beat.isWork, (p.play L c course).Ending c Up m := by
  induction course generalizing p n with
  | nil => exact ⟨n, Nat.le_refl n, h⟩
  | cons b course ih =>
      rw [List.forall_mem_cons] at hcourse
      obtain ⟨m, hm, hnext⟩ := h.beat hL b hcourse.1
      obtain ⟨k, hk, hlast⟩ := ih hcourse.2 hnext
      have hcount : (b :: course).countP Beat.isWork =
          [b].countP Beat.isWork + course.countP Beat.isWork := by
        rw [← List.countP_append, List.singleton_append]
      exact ⟨k, by omega, hlast⟩

end Attended

/-! ## Delivery -/

/-- **What shutdown leaves behind.** A publisher is used in any way whatsoever, beginning with any
queue, while its background work goes on.

* At every moment, each record that waited in the beginning or went past its encoding is appended,
  in the queue or in one hand, as often as it was there.
* Once the work has stopped and no call is in progress, each record that waited in the beginning or
  whose publishing was answered without an error is appended or in the queue, whatever became of
  the last pass.
* The work only stops after a last pass, which begins when it hears of shutdown.
* If the log is there from then on and nobody else is or comes to work, then the work does stop,
  after at most three steps for each record in the queue and seven more.  The queue is empty then,
  and exactly those records are appended. -/
theorem shutdown_delivers (L : EventLog σ) (c : PublisherConfig) (log : σ) (queue : List Record)
    (now : Nat) (course : List (Beat σ)) :
    let start := Attended.opening c log queue now
    let p := start.play L c course
    ↑queue + encoded p.pool =
        appended p.pool + waiting p.pool + held p.pool + ↑p.upkeep.stage.hand.toList ∧
      (p.upkeep.stage = .stopped → p.pool.AtRest →
        ↑queue + confirmed p.pool = appended p.pool + waiting p.pool) ∧
      (p.upkeep.stage = .stopped → ∃ before after, course = before ++ .wake .shutdown :: after ∧
        (start.play L c before).Closes L c) ∧
      ∀ before after, course = before ++ .wake .shutdown :: after →
        (start.play L c before).Closes L c → (start.play L c before).Undisturbed L c after →
        (3 * (start.play L c before).pool.state.pending.length + 7 ≤ after.countP Beat.isWork →
          p.upkeep.stage = .stopped) ∧
        (p.upkeep.stage = .stopped →
          waiting p.pool = 0 ∧ appended p.pool = ↑queue + confirmed p.pool) := by
  intro start p
  have hconfirmed : p.upkeep.stage = .stopped → p.pool.AtRest →
      ↑queue + confirmed p.pool = appended p.pool + waiting p.pool := by
    intro hstopped hrest
    refine Attended.confirmed_play log queue now course hrest ?_
    show p.upkeep.stage.hand = none
    rw [hstopped]
    rfl
  refine ⟨Attended.balance_play log queue now course, hconfirmed, ?_, ?_⟩
  · intro hstopped
    have hclosed : p.upkeep.stage.Closed := by
      rw [hstopped]
      trivial
    rcases Attended.closed_cases course hclosed with hstart | hsplit
    · exact absurd hstart (Attended.not_closed_opening log queue now)
    · exact hsplit
  · intro before after hcourse hcloses hundisturbed
    obtain ⟨hrest, Up, hL, hup, hquiet⟩ := hundisturbed
    -- being told of shutdown touches neither the calls nor the log
    have hbegun : ((start.play L c before).beat L c (.wake .shutdown)).Ending c Up _ :=
      Attended.Ending.begun hrest hup hcloses.2
    obtain ⟨m, hm, hending⟩ := hbegun.play hL after hquiet
    rw [← Attended.play_cons, ← Attended.play_append, ← hcourse] at hending
    constructor
    · intro hsteps
      -- as many steps were taken as remained at most
      obtain rfl : m = 0 := Nat.le_zero.1 (hm.trans (Nat.sub_eq_zero_of_le hsteps).le)
      exact hending.closing.eq_stopped
    · intro hstopped
      have hempty : waiting p.pool = 0 := by
        have hclosing := hending.closing
        rw [hstopped] at hclosing
        unfold waiting
        rw [hclosing.queue_empty]
        rfl
      refine ⟨hempty, ?_⟩
      rw [hconfirmed hstopped hending.atRest, hempty, add_zero]

/-- A publisher that works its queue off every two milliseconds. -/
def brisk : PublisherConfig := { drainInterval := 2 }

/-- The record that a brisk publisher is given. -/
def numbered : Record := Table.insert ∅ "n" "1"

/-- A brisk publisher over a log that is away, with one record that waits for it. -/
def stranded : Attended MemoryLog := .opening brisk ⟨∅, false, false⟩ [∅] 0

/-- A pass without the log, a record that is published meanwhile, and, after the drain interval, a
pass whose first append is rejected; then the log is there again, and shutdown is asked for. -/
def outage : List (Beat MemoryLog) :=
  [.wake .tick, .work, .work, .other (.start (.publish (.ok numbered))), .other (.move 0),
    .other (.move 0), .other (.move 0), .other (.move 0), .other (.pass ⟨∅, true, true⟩),
    .elapse 2, .wake .tick, .work, .work, .work, .work, .work, .work, .work,
    .other (.pass .empty), .ask]

/-- A pass finds no log, a record is published meanwhile, and the first append of the next pass is
rejected.  When the log is back and shutdown has been heard, thirteen steps are enough: both records
are appended. -/
theorem shutdown_delivers_after_outage :
    let p := stranded.play MemoryLog.eventLog brisk
      (outage ++ .wake .shutdown :: List.replicate 13 .work)
    p.upkeep.stage = .stopped ∧ waiting p.pool = 0 ∧ appended p.pool = ↑[∅, numbered] := by
  intro p
  have hlast := (shutdown_delivers MemoryLog.eventLog brisk ⟨∅, false, false⟩ [∅] 0
    (outage ++ .wake .shutdown :: List.replicate 13 .work)).2.2.2
  have hcloses : (stranded.play MemoryLog.eventLog brisk outage).Closes MemoryLog.eventLog brisk :=
    ⟨rfl, rfl⟩
  have hundisturbed : (stranded.play MemoryLog.eventLog brisk outage).Undisturbed
      MemoryLog.eventLog brisk (List.replicate 13 .work) := by
    refine ⟨rfl, _, MemoryLog.answers brisk, ⟨rfl, rfl⟩, ?_⟩
    intro b hb
    obtain rfl := List.eq_of_mem_replicate hb
    trivial
  obtain ⟨hstops, hdelivers⟩ := hlast outage _ rfl hcloses hundisturbed
  have hstopped := hstops (by decide)
  have happended : appended p.pool = ↑[(∅ : Record)] + confirmed p.pool := (hdelivers hstopped).2
  have hconfirmed : confirmed p.pool = ↑[numbered] := rfl
  rw [hconfirmed, Multiset.coe_add] at happended
  exact ⟨hstopped, (hdelivers hstopped).1, happended⟩

end Journal

end Gatehouse
