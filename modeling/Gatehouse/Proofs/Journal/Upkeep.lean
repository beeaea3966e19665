import Gatehouse.Journal.Upkeep
import Gatehouse.Proofs.Journal.Conservation

/-!
# Gatehouse.Proofs.Journal.Upkeep — conservation with background work

A publisher is in use: calls to it publish and drain, the log comes and goes, time passes, and the
background work goes on beside all of it.  A course is a list of what happens, one `Beat` after the
other, and every interleaving is one.

* `Attended.conserved_play` : at every moment of every course, each record is appended, in the queue
  or in one hand.  The background work is one more flight in the pool of calls, and it is as careful
  as they are.
* `Attended.balance_play` says it in numbers, and `Attended.confirmed_play` for the moments at which
  no call is in progress: the records that were published are then those whose calls were answered
  so.

The work is not a call.  It goes on from one pass to the next without an answer, waits for signals
in between and may be stopped, so it cannot stand in the pool itself.  But at every stage what is
left of the part it is at is a program over the same queue and log (`Stage.rest`), and a pool to
which this program is added as one more flight is a pool like any other (`joined`).  So the
invariant of the pool need not be proved again; it remains to be shown that the work may take up its
next part, which it does with empty hands (`conserved_swap`).

The records that waited when the work began were published at some time before.  They are counted as
if they had been published by calls to this publisher that are over.
-/

namespace Gatehouse

open Program

namespace Journal

variable {σ : Type}

/-! ## A publisher in use -/

/-- The calls to a publisher, its background work, the time, and whether shutdown was asked for. -/
structure Attended (σ : Type) where
  pool : Pool journal Errand.Answer (Outbox (σ × List Record))
  upkeep : Upkeep
  now : Nat
  asked : Bool

/-- What can happen next: a turn of the calls or of the log, the passing of time, the request for
shutdown, a signal to the background work, or its next step. -/
inductive Beat (σ : Type) where
  | other (t : Turn Errand σ)
  | elapse (duration : Nat)
  | ask
  | wake (s : Signal)
  | work

namespace Attended

/-- A publisher whose background work begins over a queue. -/
def opening (c : PublisherConfig) (log : σ) (queue : List Record) (now : Nat) : Attended σ :=
  ⟨.opening ⟨(log, []), queue⟩, .start c now, now, false⟩

/-- A publisher after a beat. -/
def beat (L : EventLog σ) (c : PublisherConfig) (p : Attended σ) : Beat σ → Attended σ
  | .other t => { p with pool := (publisher L c).turn p.pool t }
  | .elapse duration => { p with now := p.now + duration }
  | .ask => { p with asked := true }
  | .wake s => { p with upkeep := p.upkeep.wake c p.now p.asked s }
  | .work =>
    let (upkeep, state) := p.upkeep.step L.remembering c p.pool.state
    { p with upkeep, pool := { p.pool with state } }

/-- A publisher after a course of beats. -/
def play (L : EventLog σ) (c : PublisherConfig) (course : List (Beat σ)) (p : Attended σ) :
    Attended σ :=
  course.foldl (beat L c) p

variable (L : EventLog σ) (c : PublisherConfig)

@[simp] theorem play_nil (p : Attended σ) : p.play L c [] = p := rfl

@[simp] theorem play_cons (b : Beat σ) (course : List (Beat σ)) (p : Attended σ) :
    p.play L c (b :: course) = (p.beat L c b).play L c course := rfl

theorem play_append (before after : List (Beat σ)) (p : Attended σ) :
    p.play L c (before ++ after) = (p.play L c before).play L c after := by
  unfold play
  rw [List.foldl_append]

end Attended

/-! ## The background work as a flight -/

namespace Stage

/-- What is left of the part that the work is at. -/
def rest : Stage → Program journal Nat
  | .passing _ rest => rest.bind fun _ => .done 0
  | .leaving rest => rest.bind fun _ => .done 0
  | .waiting | .stopped | .failed => .done 0

/-- The record that the work holds. -/
def hand (s : Stage) : Option Record := inHand s.rest

/-- The work among the calls to the publisher. -/
def flight (s : Stage) : Flight journal Errand.Answer := ⟨.drain 0, s.rest⟩

end Stage

theorem inHand_deliver (c : PublisherConfig) : inHand (deliver c) = none := rfl

/-- Delivery is careful: the record is in hand between the queue and the log. -/
theorem careful_deliver (c : PublisherConfig) : Careful (deliver c) := by
  intro taken
  rcases taken with _ | r
  · exact ⟨rfl, trivial⟩
  · refine ⟨rfl, ?_⟩
    intro reply
    rcases reply with e | _
    · exact ⟨rfl, fun _ => ⟨rfl, fun _ => ⟨rfl, trivial⟩⟩⟩
    · exact ⟨rfl, trivial⟩

/-- The beginning of a pass holds nothing. -/
theorem careful_beginPass (c : PublisherConfig) : Careful (beginPass c) := by
  intro reply
  rcases reply with e | _
  · exact ⟨rfl, trivial⟩
  · exact ⟨rfl, trivial⟩

/-- The end of a pass holds nothing. -/
theorem careful_endPass (drained : Nat) :
    inHand (endPass drained) = none ∧ Careful (endPass drained) := by
  unfold endPass
  split
  · exact ⟨rfl, fun _ => ⟨rfl, trivial⟩⟩
  · exact ⟨rfl, trivial⟩

/-- A round of a pass begins and ends with empty hands. -/
theorem careful_continuePass (c : PublisherConfig) (drained : Nat) :
    inHand (continuePass c drained) = none ∧ Careful (continuePass c drained) := by
  have hempty : ∀ more : Bool,
      inHand (if more then .done (.onward (drained + 1)) else endPass drained) = none := by
    intro more
    cases more with
    | true => rfl
    | false => exact (careful_endPass drained).1
  refine ⟨(inHand_bind hempty).trans (inHand_deliver c), ?_⟩
  refine careful_bind (careful_deliver c) hempty fun more => ?_
  cases more with
  | true => trivial
  | false => exact (careful_endPass drained).2

/-! ## Conservation -/

namespace Attended

variable {L : EventLog σ} {c : PublisherConfig} {p : Attended σ}

/-- The calls and the background work in one pool, as if the records that waited in the beginning
had been published before. -/
def joined (queue : List Record) (s : Stage)
    (p : Pool journal Errand.Answer (Outbox (σ × List Record))) :
    Pool journal Errand.Answer (Outbox (σ × List Record)) :=
  ⟨p.state, s.flight :: p.flights, p.begun ++ queue.map fun r => .publish (.ok r), p.results⟩

/-- What was published is what waited in the beginning and what was published since. -/
theorem encoded_joined (queue : List Record) (s : Stage)
    (p : Pool journal Errand.Answer (Outbox (σ × List Record))) :
    encoded (joined queue s p) = ↑queue + encoded p := by
  have hqueue : (queue.map fun r => Errand.publish (.ok r)).filterMap Errand.record? = queue := by
    rw [List.filterMap_map]
    exact List.filterMap_some
  unfold encoded joined
  rw [List.filterMap_append, hqueue, ← Multiset.coe_add, add_comm]

/-- The hand of the work is counted with those of the calls. -/
theorem accounted_joined (queue : List Record) (s : Stage)
    (p : Pool journal Errand.Answer (Outbox (σ × List Record))) :
    accounted (joined queue s p) = accounted p + ↑s.hand.toList := by
  obtain ⟨state, flights, begun, results⟩ := p
  have hsplit := accounted_split state [] flights s.flight
    (begun ++ queue.map fun r => .publish (.ok r)) results
  rw [accounted_eq state flights begun results, add_right_comm, stock_none_add]
  exact hsplit

/-- A flight whose hands are empty may give way to another one. -/
theorem conserved_swap {s : Outbox (σ × List Record)} {fs : List (Flight journal Errand.Answer)}
    {f g : Flight journal Errand.Answer} {qs : List Errand} {rs : List (Sigma Errand.Answer)}
    (h : Conserved ⟨s, f :: fs, qs, rs⟩) (hf : inHand f.rest = none) (hg : inHand g.rest = none)
    (hcareful : Careful g.rest) (hends : g.request.EndsAsEncoded g.rest) :
    Conserved ⟨s, g :: fs, qs, rs⟩ := by
  refine ⟨?_, h.answered, ?_⟩
  · obtain ⟨-, hothers⟩ := List.forall_mem_cons.1 h.underway
    exact List.forall_mem_cons.2 ⟨⟨hcareful, hends⟩, hothers⟩
  · have hbalance := h.balance
    have hbefore := accounted_split s [] fs f qs rs
    have hafter := accounted_split s [] fs g qs rs
    rw [hf] at hbefore
    rw [hg] at hafter
    exact hbalance.trans (hbefore.trans hafter.symm)

theorem conserved_stage {queue : List Record} {s s' : Stage}
    {p : Pool journal Errand.Answer (Outbox (σ × List Record))}
    (h : Conserved (joined queue s p)) (hbefore : s.hand = none) (hafter : s'.hand = none)
    (hcareful : Careful s'.rest) : Conserved (joined queue s' p) :=
  conserved_swap h hbefore hafter hcareful trivial

theorem conserved_pass {queue : List Record} {s : Stage} {rest : Program journal Part}
    {p : Pool journal Errand.Answer (Outbox (σ × List Record))} (last : Bool)
    (h : Conserved (joined queue s p)) (hbefore : s.hand = none) (hempty : inHand rest = none)
    (hcareful : Careful rest) : Conserved (joined queue (.passing last rest) p) := by
  have hnothing : ∀ _ : Part, inHand (Program.done 0 : Program journal Nat) = none := fun _ => rfl
  refine conserved_stage h hbefore ((inHand_bind hnothing).trans hempty) ?_
  exact careful_bind hcareful hnothing fun _ => trivial

theorem conserved_turn {queue : List Record} {s : Stage} (t : Turn Errand σ)
    {p : Pool journal Errand.Answer (Outbox (σ × List Record))}
    (h : Conserved (joined queue s p)) :
    Conserved (joined queue s ((publisher L c).turn p t)) := by
  refine (publisher L c).play_keeps (P := fun p => Conserved (joined queue s p)) ?_ ?_ ?_ ?_ [t] h
  · intro state flights begun results q h
    exact conserved_start c q h
  · intro state earlier later begun results q a h
    exact conserved_finish (l := s.flight :: earlier) h
  · intro state earlier later begun results q call next h
    exact conserved_ask (l := s.flight :: earlier) L h
  · intro log state flights begun results h
    exact ⟨h.underway, h.answered, h.balance⟩

/-- A step of the work is a step of its flight, and where a part ends the next one begins. -/
theorem conserved_step {queue : List Record} (s : Stage)
    {p : Pool journal Errand.Answer (Outbox (σ × List Record))}
    (h : Conserved (joined queue s p)) :
    Conserved (joined queue (s.step L.remembering c p.state).1
      { p with state := (s.step L.remembering c p.state).2 }) := by
  cases s with
  | waiting | stopped | failed => exact h
  | passing last rest =>
      cases rest with
      | ask call next => exact conserved_ask (l := []) L h
      | done part =>
          cases part with
          | onward drained =>
              obtain ⟨hempty, hcareful⟩ := careful_continuePass c drained
              exact conserved_pass last h rfl hempty hcareful
          -- the pass is over: the last one is followed by the leave, and any other by waiting
          | ended =>
              cases last with
              | false => exact conserved_stage h rfl rfl trivial
              | true => exact conserved_stage h rfl rfl fun _ => ⟨rfl, trivial⟩
  | leaving rest =>
      cases rest with
      | ask call next => exact conserved_ask (l := []) L h
      | done => exact conserved_stage h rfl rfl trivial

/-- A signal has the work take up another part while its hands are empty. -/
theorem conserved_wake {queue : List Record} {now : Nat} {asked : Bool} (signal : Signal)
    {u : Upkeep} {p : Pool journal Errand.Answer (Outbox (σ × List Record))}
    (h : Conserved (joined queue u.stage p)) :
    Conserved (joined queue (u.wake c now asked signal).stage p) := by
  obtain ⟨stage, due⟩ := u
  cases stage with
  | passing | leaving | stopped | failed => exact h
  | waiting =>
      have hbegin : ∀ last, Conserved (joined queue (.passing last (beginPass c)) p) := fun last =>
        conserved_pass last h rfl rfl (careful_beginPass c)
      cases signal with
      | tick =>
          by_cases hdue : due ≤ now
          · simpa [Upkeep.wake, hdue] using hbegin false
          · simpa [Upkeep.wake, hdue] using h
      | shutdown =>
          cases asked with
          | true => exact hbegin true
          | false => exact h

/-- Every beat keeps the balance: those of the calls and of the log are turns of the pool, those of
the work move its own flight, and time moves nothing. -/
theorem conserved_beat {queue : List Record} (b : Beat σ)
    (h : Conserved (joined queue p.upkeep.stage p.pool)) :
    Conserved (joined queue (p.beat L c b).upkeep.stage (p.beat L c b).pool) := by
  cases b with
  | other t => exact conserved_turn t h
  | elapse | ask => exact h
  | wake signal => exact conserved_wake signal h
  | work => exact conserved_step p.upkeep.stage h

theorem conserved_opening (log : σ) (queue : List Record) (now : Nat) :
    Conserved (joined queue (Upkeep.start c now).stage (opening c log queue now).pool) := by
  have hrest : (Upkeep.start c now).stage.rest = .done 0 := by
    unfold Upkeep.start
    split <;> rfl
  have hwhole := encoded_joined queue (Upkeep.start c now).stage (opening c log queue now).pool
  refine ⟨?_, ?_, ?_⟩
  · intro f hf
    obtain rfl := List.mem_singleton.1 hf
    refine ⟨?_, trivial⟩
    show Careful (Upkeep.start c now).stage.rest
    rw [hrest]
    trivial
  · intro r hr
    cases hr
  · rw [hwhole, accounted_joined, Stage.hand, hrest]
    simp [encoded, accounted, appended, waiting, held, opening, Pool.opening, inHand]

/-- **Conservation with background work.**  After every course the pool with the work in it is
balanced. -/
theorem conserved_play (log : σ) (queue : List Record) (now : Nat) (course : List (Beat σ)) :
    let p := (opening c log queue now).play L c course
    Conserved (joined queue p.upkeep.stage p.pool) := by
  have hfrom : ∀ p : Attended σ, Conserved (joined queue p.upkeep.stage p.pool) →
      Conserved (joined queue (p.play L c course).upkeep.stage (p.play L c course).pool) := by
    induction course with
    | nil => exact fun _ h => h
    | cons b course ih => exact fun p h => ih _ (conserved_beat b h)
  exact hfrom _ (conserved_opening log queue now)

/-- At every moment each record that waited in the beginning or was published since is appended,
waits, or is in the hand of a call or of the work. -/
theorem balance_play (log : σ) (queue : List Record) (now : Nat) (course : List (Beat σ)) :
    let p := (opening c log queue now).play L c course
    ↑queue + encoded p.pool =
      appended p.pool + waiting p.pool + held p.pool + ↑p.upkeep.stage.hand.toList := by
  intro p
  have hbalance := (conserved_play (L := L) (c := c) log queue now course).balance
  rw [encoded_joined, accounted_joined] at hbalance
  exact hbalance

/-! ## Once no call is in progress -/

theorem tallied_beat (b : Beat σ) (h : p.pool.Tallied) : (p.beat L c b).pool.Tallied := by
  cases b with
  | other t => exact (publisher L c).tallied_play [t] h
  | elapse | ask | wake | work => exact h

/-- Every call so far is in progress or answered. -/
theorem tallied_play (course : List (Beat σ)) (h : p.pool.Tallied) :
    (p.play L c course).pool.Tallied := by
  induction course generalizing p with
  | nil => exact h
  | cons b course ih => exact ih (tallied_beat b h)

end Attended

/-- The record that a call has published, going by its answer. -/
def Errand.confirmed? : Sigma Errand.Answer → Option Record
  | ⟨.publish (.ok r), answer⟩ =>
    match (answer : Except EventError Unit) with
    | .ok () => some r
    | .error _ => none
  | _ => none

/-- The records whose publishing was answered without an error. -/
def confirmed (p : Pool journal Errand.Answer (Outbox (σ × List Record))) : Multiset Record :=
  ↑(p.results.filterMap Errand.confirmed?)

theorem confirmed?_eq {r : Sigma Errand.Answer} (h : r.1.EndsAsEncoded (.done r.2)) :
    Errand.confirmed? r = r.1.record? := by
  rcases r with ⟨(e | r) | most, answer⟩
  · rfl
  · obtain rfl : answer = .ok () := h
    rfl
  · rfl

/-- Once no call is in progress, whatever went past its encoding has been answered. -/
theorem encoded_eq_confirmed {p : Pool journal Errand.Answer (Outbox (σ × List Record))}
    (hrest : p.AtRest) (htallied : p.Tallied)
    (hanswered : ∀ r ∈ p.results, r.1.EndsAsEncoded (.done r.2)) : encoded p = confirmed p := by
  unfold Pool.Tallied at htallied
  rw [show p.flights = [] from hrest, List.map_nil, List.nil_append] at htallied
  have hbegun : encoded p = ↑((p.results.map (·.1)).filterMap Errand.record?) :=
    Multiset.coe_eq_coe.mpr (htallied.filterMap Errand.record?)
  rw [hbegun, List.filterMap_map, confirmed]
  refine congrArg _ (List.filterMap_congr ?_)
  intro r hr
  exact (confirmed?_eq (hanswered r hr)).symm

/-- Whenever no call is in progress and the background work holds no record, each of the records
that waited in the beginning or were published since is appended once or waits once. -/
theorem Attended.confirmed_play {L : EventLog σ} {c : PublisherConfig} (log : σ)
    (queue : List Record) (now : Nat) (course : List (Beat σ)) :
    let p := (opening c log queue now).play L c course
    p.pool.AtRest → p.upkeep.stage.hand = none →
      ↑queue + confirmed p.pool = appended p.pool + waiting p.pool := by
  intro p hrest hhand
  have hanswered := (conserved_play (L := L) (c := c) log queue now course).answered
  have htallied : p.pool.Tallied := tallied_play course (List.Perm.refl [])
  have hheld : held p.pool = 0 := by
    unfold held
    rw [hrest]
    rfl
  have hbalance : ↑queue + encoded p.pool =
      appended p.pool + waiting p.pool + held p.pool + ↑p.upkeep.stage.hand.toList :=
    balance_play log queue now course
  rw [hhand, hheld, add_zero] at hbalance
  rw [← encoded_eq_confirmed hrest htallied hanswered, hbalance]
  exact add_zero _

end Journal

end Gatehouse
