import Gatehouse.Proofs.Journal.Rehearsal

/-!
# Gatehouse.Proofs.Journal.Drain — one pass over the queue

A pass offers the waiting records to the log, newest first.  A log *accepts* a list of records if it
appends them one after the other (`EventLog.Accepts`), and a pass *stops* at a list if the log
refuses the first record of it or there is none (`EventLog.Stops`).  These two say what a pass does
that nothing comes between.

* `drainFrom_of_accepts` : the loop, by induction on the records that the log accepts.
* `drain_exact` : what a pass appends, what it returns and what it leaves in the queue.

What a pass appends is read off its questions (`appends`) and not off the log.  A log may be
anything that answers, and nothing says that what it was given could be found in it again.

Since a log is any function of its own state, how many records it accepts cannot be computed from
the outside.  The theorem says that there is such a number, and that with any number for which the
log does so the pass is determined; so whoever knows the log may choose the number and has the
result.
-/

namespace Gatehouse

open Program

variable {σ : Type}

/-! ## Records that are offered to a log -/

namespace EventLog

/-- Whether a log appends records to the stream of a publisher, one after the other.  The log may
change with each of them, also with one that it appends. -/
inductive Accepts (L : EventLog σ) (c : PublisherConfig) : σ → List Record → σ → Prop where
  | none (log : σ) : Accepts L c log [] log
  | next {log log' log'' : σ} {r : Record} {rs : List Record}
    (happend : L.append c.stream r c.maxLen log = (.ok (), log'))
    (hrest : Accepts L c log' rs log'') : Accepts L c log (r :: rs) log''

/-- Whether a pass stops where records are left: the log refuses the first of them, or there is
none. -/
inductive Stops (L : EventLog σ) (c : PublisherConfig) : σ → List Record → σ → Prop where
  | empty (log : σ) : Stops L c log [] log
  | refused {log log' : σ} {r : Record} {rs : List Record} {e : EventError}
    (happend : L.append c.stream r c.maxLen log = (.error e, log')) : Stops L c log (r :: rs) log'

variable {L : EventLog σ} {c : PublisherConfig}

/-- Of all records that are offered a log accepts some, and a pass stops at the rest. -/
theorem exists_accepts (L : EventLog σ) (c : PublisherConfig) (log : σ) (rs : List Record) :
    ∃ accepted left log' log'', rs = accepted ++ left ∧ L.Accepts c log accepted log' ∧
      L.Stops c log' left log'' := by
  induction rs generalizing log with
  | nil => exact ⟨[], [], log, log, rfl, .none log, .empty log⟩
  | cons r rs ih =>
      rcases happend : L.append c.stream r c.maxLen log with ⟨e | _, log'⟩
      · exact ⟨[], r :: rs, log, log', rfl, .none log, .refused happend⟩
      · obtain ⟨accepted, left, _, _, rfl, haccepts, hstops⟩ := ih log'
        exact ⟨r :: accepted, left, _, _, rfl, .next happend haccepts, hstops⟩

end EventLog

namespace Journal

variable {L : EventLog σ} {c : PublisherConfig} {α β : Type}

/-! ## What a program appends -/

/-- An append that was carried out: the stream, the record, and the length to which the stream was
trimmed. -/
def appended? : (call : JournalCall) × call.Reply → Option (String × Record × Nat)
  | ⟨.append stream r maxLen, .ok _⟩ => some (stream, r, maxLen)
  | _ => none

/-- The appends of a run that were carried out, in their order. -/
def appends (L : EventLog σ) (p : Program journal α) (o : Outbox σ) :
    List (String × Record × Nat) :=
  List.filterMap appended? (p.transcript (Outbox.answer L) o)

/-- The appends of a program come before those of what follows it. -/
theorem appends_bind (p : Program journal α) (f : α → Program journal β) (o : Outbox σ) :
    appends L (p.bind f) o = appends L p o ++ appends L (f (o.run L p).1) (o.run L p).2 :=
  (congrArg (List.filterMap appended?)
    (transcript_bind (I := journal) (Outbox.answer L) p f o)).trans List.filterMap_append

/-- What one question appends comes before what follows its answer. -/
theorem appends_asking {call : JournalCall} {reply : call.Reply} {o o' : Outbox σ}
    (h : o.answer L call = (reply, o')) (next : call.Reply → Program journal α) :
    appends L (.ask call next) o =
      (appended? ⟨call, reply⟩).toList ++ appends L (next reply) o' := by
  have hnext : appends L (.ask call next) o = List.filterMap appended?
      (⟨call, reply⟩ :: transcript (I := journal) (Outbox.answer L) (next reply) o') :=
    congrArg (fun x : call.Reply × Outbox σ => List.filterMap appended?
      (⟨call, x.1⟩ :: transcript (I := journal) (Outbox.answer L) (next x.1) x.2)) h
  refine hnext.trans (List.filterMap_cons.trans ?_)
  cases appended? ⟨call, reply⟩ <;> rfl

/-- Delivery appends the newest record if the log takes it, and nothing otherwise. -/
theorem appends_deliver (log : σ) (r : Record) (rest : List Record) :
    appends L (deliver c) ⟨log, r :: rest⟩ =
      match L.append c.stream r c.maxLen log with
      | (.ok (), _) => [(c.stream, r, c.maxLen)]
      | (.error _, _) => [] := by
  rcases happend : L.append c.stream r c.maxLen log with ⟨reply, log'⟩
  have hanswer : Outbox.answer L (.append c.stream r c.maxLen) ⟨log, rest⟩ =
      (reply, ⟨log', rest⟩) := by
    simp only [Outbox.answer, happend]
    rfl
  have happends : appends L (deliver c) ⟨log, r :: rest⟩ = _ := appends_asking hanswer (settle r)
  rw [happends]
  cases reply <;> rfl

/-! ## The loop -/

theorem appends_drainFrom_succ {more : Bool} {o o' : Outbox σ}
    (h : o.run L (deliver c) = (more, o')) (fuel drained : Nat) :
    appends L (drainFrom c (fuel + 1) drained) o = appends L (deliver c) o ++
      if more then appends L (drainFrom c fuel (drained + 1)) o' else [] := by
  rw [drainFrom_succ]
  refine (appends_bind (deliver c) _ o).trans (congrArg (_ ++ ·) ?_)
  rw [h]
  cases more <;> rfl

/-- Where nothing is left or the log refuses the next record, the loop ends. -/
theorem drainFrom_of_stops {log log' : σ} {left : List Record} (h : L.Stops c log left log')
    {fuel : Nat} (hfuel : left.length ≤ fuel) (drained : Nat) :
    Outbox.run L (drainFrom c fuel drained) ⟨log, left⟩ = (drained, ⟨log', left⟩) ∧
      appends L (drainFrom c fuel drained) ⟨log, left⟩ = [] := by
  cases h with
  | empty => cases fuel <;> exact ⟨rfl, rfl⟩
  | @refused _ r rest e happend =>
      obtain ⟨fuel, rfl⟩ := Nat.exists_eq_add_one.2 (Nat.zero_lt_of_lt hfuel)
      have hdeliver := run_deliver (L := L) (c := c) log r rest
      have hnothing := appends_deliver (L := L) (c := c) log r rest
      rw [happend] at hdeliver hnothing
      rw [run_drainFrom_succ hdeliver, appends_drainFrom_succ hdeliver, hnothing]
      exact ⟨rfl, rfl⟩

/-- The loop appends what the log accepts, and stops at the rest. -/
theorem drainFrom_of_accepts {log log' log'' : σ} {accepted left : List Record}
    (haccepts : L.Accepts c log accepted log') (hstops : L.Stops c log' left log'') {fuel : Nat}
    (hfuel : (accepted ++ left).length ≤ fuel) (drained : Nat) :
    Outbox.run L (drainFrom c fuel drained) ⟨log, accepted ++ left⟩ =
        (drained + accepted.length, ⟨log'', left⟩) ∧
      appends L (drainFrom c fuel drained) ⟨log, accepted ++ left⟩ =
        accepted.map (c.stream, ·, c.maxLen) := by
  induction haccepts generalizing fuel drained with
  | none log => exact drainFrom_of_stops hstops hfuel drained
  | @next log _ _ r rest happend _ ih =>
      obtain ⟨fuel, rfl⟩ := Nat.exists_eq_add_one.2 (Nat.zero_lt_of_lt hfuel)
      have hdeliver := run_deliver (L := L) (c := c) log r (rest ++ left)
      have hone := appends_deliver (L := L) (c := c) log r (rest ++ left)
      rw [happend] at hdeliver hone
      obtain ⟨hrun, happends⟩ := ih hstops (Nat.le_of_succ_le_succ hfuel) (drained + 1)
      refine ⟨?_, ?_⟩
      · refine (run_drainFrom_succ hdeliver _ drained).trans (hrun.trans ?_)
        rw [List.length_cons, Nat.add_assoc, Nat.add_comm 1]
      · refine (appends_drainFrom_succ hdeliver _ drained).trans ?_
        rw [hone]
        exact congrArg (_ ++ ·) happends

/-! ## A pass -/

/-- A pass that finds no log does nothing. -/
theorem drain_of_error {log log' : σ} {e : EventError}
    (hprobe : L.probe c.probeTimeout log = (.error e, log')) (pending : List Record) (fuel : Nat) :
    Outbox.run L (drain c fuel) ⟨log, pending⟩ = (0, ⟨log', pending⟩) ∧
      appends L (drain c fuel) ⟨log, pending⟩ = [] := by
  have hanswer : Outbox.answer L (.probe c.probeTimeout) ⟨log, pending⟩ =
      (.error e, ⟨log', pending⟩) := by
    simp only [Outbox.answer, hprobe]
  exact ⟨run_asking hanswer _, appends_asking hanswer _⟩

/-- The remark about a pass neither appends a record nor touches the queue. -/
theorem drain_of_ok {log log' : σ} (hprobe : L.probe c.probeTimeout log = (.ok (), log'))
    (pending : List Record) (fuel : Nat) :
    Outbox.run L (drain c fuel) ⟨log, pending⟩ =
        Outbox.run L (drainFrom c fuel 0) ⟨log', pending⟩ ∧
      appends L (drain c fuel) ⟨log, pending⟩ =
        appends L (drainFrom c fuel 0) ⟨log', pending⟩ := by
  have hanswer : Outbox.answer L (.probe c.probeTimeout) ⟨log, pending⟩ =
      (.ok (), ⟨log', pending⟩) := by
    simp only [Outbox.answer, hprobe]
  -- what is noted in the end changes neither the log nor the queue
  let remark (drained : Nat) : Program journal Nat := do
    if 0 < drained then
      note .info "replayed buffered events" [("drained", .number drained)]
    return drained
  have hremark : ∀ drained o, Outbox.run L (remark drained) o = (drained, o) ∧
      appends L (remark drained) o = [] := by
    intro drained o
    dsimp only [remark]
    split <;> exact ⟨rfl, rfl⟩
  have hrun : Outbox.run L (drain c fuel) ⟨log, pending⟩ =
      Outbox.run L ((drainFrom c fuel 0).bind remark) ⟨log', pending⟩ := run_asking hanswer _
  have happends : appends L (drain c fuel) ⟨log, pending⟩ =
      appends L ((drainFrom c fuel 0).bind remark) ⟨log', pending⟩ := appends_asking hanswer _
  refine ⟨?_, ?_⟩
  · refine hrun.trans ((run_bind (I := journal) (Outbox.answer L) _ remark _).trans ?_)
    exact (hremark _ _).1
  · refine happends.trans ((appends_bind _ remark _).trans ?_)
    rw [(hremark _ _).2, List.append_nil]

/-- **A pass by itself is exact.**  Records wait in a queue, oldest first here.  If the probe is
answered by an error, the one of a time limit among them, the pass appends nothing, returns zero and
leaves the queue as it was.  Otherwise there is a number `k` such that the log accepts the `k`
newest records, newest first, and then refuses the next one or has been offered all of them; and
with any such number the pass appends just these records in that order, all of them to the
configured stream, returns `k`, and leaves the others in the queue in the order in which they
were. -/
theorem drain_exact (L : EventLog σ) (c : PublisherConfig) (log : σ) (records : List Record)
    {fuel : Nat} (h : records.length ≤ fuel) :
    let o : Outbox σ := ⟨log, records.reverse⟩
    (∀ e log', L.probe c.probeTimeout log = (.error e, log') →
      o.run L (drain c fuel) = (0, ⟨log', records.reverse⟩) ∧ appends L (drain c fuel) o = []) ∧
    ∀ log', L.probe c.probeTimeout log = (.ok (), log') →
      let newest k := (records.drop (records.length - k)).reverse
      let others k := (records.take (records.length - k)).reverse
      (∃ k ≤ records.length, ∃ log₁ log₂,
        L.Accepts c log' (newest k) log₁ ∧ L.Stops c log₁ (others k) log₂) ∧
      ∀ k ≤ records.length, ∀ log₁ log₂,
        L.Accepts c log' (newest k) log₁ → L.Stops c log₁ (others k) log₂ →
          o.run L (drain c fuel) = (k, ⟨log₂, others k⟩) ∧
          appends L (drain c fuel) o = (newest k).map (c.stream, ·, c.maxLen) := by
  refine ⟨fun e log' hprobe => drain_of_error hprobe _ fuel, fun log' hprobe => ⟨?_, ?_⟩⟩
  -- some records are accepted and the pass stops at the others, so how many they are is the number
  · obtain ⟨accepted, left, log₁, log₂, hrecords, haccepts, hstops⟩ :=
      L.exists_accepts c log' records.reverse
    obtain rfl := List.reverse_eq_iff.1 hrecords
    refine ⟨accepted.length, by simp, log₁, log₂, ?_, ?_⟩ <;> simpa
  · intro k hk log₁ log₂ haccepts hstops
    -- the queue is newest first, so the newest records are its beginning
    have hqueue : records.reverse = (records.drop (records.length - k)).reverse ++
        (records.take (records.length - k)).reverse := by
      rw [← List.reverse_append, List.take_append_drop]
    have hfuel : ((records.drop (records.length - k)).reverse ++
        (records.take (records.length - k)).reverse).length ≤ fuel := by
      rw [← hqueue, List.length_reverse]
      exact h
    obtain ⟨hrun, happends⟩ := drain_of_ok hprobe records.reverse fuel
    obtain ⟨hloop, hloops⟩ := drainFrom_of_accepts haccepts hstops hfuel 0
    rw [← hqueue] at hloop hloops
    refine ⟨hrun.trans (hloop.trans ?_), happends.trans hloops⟩
    rw [List.length_reverse, List.length_drop, Nat.zero_add, Nat.sub_sub_self hk]

/-- A record that is told from others by a number. -/
def serial (n : String) : Record := Table.insert ∅ "n" n

/-- A log with two appends left. -/
def scant : RehearsalLog := { RehearsalLog.empty with budget := some 2 }

/-- A log that answers a probe a millisecond too late. -/
def sluggish : RehearsalLog := { RehearsalLog.empty with pingDelay := 101 }

/-- Three records over a log that has room for two of them: the two newest are appended, newest
first, and the oldest stays.  Over a log that answers a moment too late the pass does nothing. -/
theorem drain_exact_of_three :
    let queue := [serial "3", serial "2", serial "1"]
    (Outbox.run RehearsalLog.eventLog (drain {} 3) ⟨sluggish, queue⟩).1 = 0 ∧
    (Outbox.run RehearsalLog.eventLog (drain {} 3) ⟨sluggish, queue⟩).2.pending = queue ∧
    (Outbox.run RehearsalLog.eventLog (drain {} 3) ⟨scant, queue⟩).1 = 2 ∧
    (Outbox.run RehearsalLog.eventLog (drain {} 3) ⟨scant, queue⟩).2.pending = [serial "1"] ∧
    appends RehearsalLog.eventLog (drain {} 3) ⟨scant, queue⟩ =
      [("corral.auth", serial "3", 1000000), ("corral.auth", serial "2", 1000000)] := by
  intro queue
  have hexact := fun log => drain_exact RehearsalLog.eventLog {} log
    [serial "1", serial "2", serial "3"] (Nat.le_refl 3)
  obtain ⟨hlate, -⟩ := (hexact sluggish).1 .probeTimedOut _ rfl
  obtain ⟨hrun, happends⟩ := ((hexact scant).2 _ rfl).2 2 (by decide) _ _
    (.next rfl (.next rfl (.none _))) (.refused rfl)
  refine ⟨congrArg Prod.fst hlate, congrArg (·.2.pending) hlate, congrArg Prod.fst hrun,
    congrArg (·.2.pending) hrun, happends⟩

end Journal

end Gatehouse
