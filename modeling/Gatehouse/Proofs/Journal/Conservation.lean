import Mathlib.Algebra.Order.Group.Multiset
import Gatehouse.Journal.Memory
import Gatehouse.Proofs.Interleaving
import Gatehouse.Proofs.Program

/-!
# Gatehouse.Proofs.Journal.Conservation — no record is lost and none is doubled

Any number of calls publish records and drain the queue at the same time, over one queue and one
event log.  Between any two steps of a call all others may move and the log may come or go.  A
record that has been encoded is in exactly one of three places: among the records that were
appended, in the queue, or in the hand of one call.

`inHand` reads the record that a call holds off what is left of its program: the record that the
call would put into the queue if the log were away from now on.  `Careful` says how one step may
change it, and a careful step moves records between the three places without making or losing one
(`stock_answer`).

The hand is what makes the invariant hold at every moment and not only in between.  A pass takes a
record out of the queue before it offers it to the log, so for the time of one append the record is
in neither place; if only the queue and the log were counted, a schedule that stops there would have
lost it.  No field of the model holds it, but the program does: what is left of a call says what the
call would do next, and one of the things that it would do is to put this record back.

Equal records may be published more than once, so the places are counted as multisets.  The log is
asked for nothing but its answer: an append that is answered without an error counts as done, and
what the log does with the record afterwards, trimming included, is its own affair.

* `records_conserved` : what holds of every schedule, and what is left of it once no call is in
  progress.
-/

namespace Gatehouse

open Program

namespace Journal

variable {α β : Type}

/-! ## The record in hand -/

/-- The record that the rest of a call holds. -/
def inHand : Program journal α → Option Record
  | .done _ => none
  | .ask (.append _ r _) _ => some r
  | .ask (.push r) _ => some r
  | .ask .pop _ => none
  -- a remark stands between a failure and the queue, so the record is found behind it
  | .ask (.note _) next => inHand (next ())
  -- before the answer to a probe the call must be able to keep what it holds
  | .ask (.probe _) next => inHand (next (.error .probeTimedOut))

/-- How the answer to a step may change the record in hand: it goes away with a successful append
and into the queue, it comes out of the queue, and it stays otherwise. -/
def Passes : (c : JournalCall) → c.Reply → Option Record → Option Record → Prop
  | .probe _, _, before, after => after = before
  | .append _ _ _, .ok _, _, after => after = none
  | .append _ _ _, .error _, before, after => after = before
  | .push _, _, _, after => after = none
  | .pop, taken, _, after => after = taken
  | .note _, _, before, after => after = before

/-- Whatever its steps are answered, a call only lets go of a record by an append that succeeds or
into the queue. -/
def Careful : Program journal α → Prop
  | .done _ => True
  | .ask c next =>
    ∀ reply, Passes c reply (inHand (.ask c next)) (inHand (next reply)) ∧ Careful (next reply)

/-- What follows a call does not change what it holds, as long as it begins with empty hands. -/
theorem inHand_bind {p : Program journal α} {f : α → Program journal β}
    (hf : ∀ a, inHand (f a) = none) : inHand (p.bind f) = inHand p := by
  induction p with
  | done a => exact hf a
  | ask c next ih =>
      cases c with
      | append | push | pop => rfl
      | note e => exact ih ()
      | probe t => exact ih (.error .probeTimedOut)

/-- Careful parts make a careful whole, if the second begins with empty hands; what was in hand in
the first is then what is in hand of the whole. -/
theorem careful_bind {p : Program journal α} {f : α → Program journal β} (hp : Careful p)
    (hempty : ∀ a, inHand (f a) = none) (hf : ∀ a, Careful (f a)) : Careful (p.bind f) := by
  induction p with
  | done a => exact hf a
  | ask c next ih =>
      intro reply
      obtain ⟨hpass, hrest⟩ := hp reply
      refine ⟨?_, ih reply hrest⟩
      have hnow : inHand ((Program.ask c next).bind f) = inHand (.ask c next) := inHand_bind hempty
      have hthen : inHand ((next reply).bind f) = inHand (next reply) := inHand_bind hempty
      rw [ask_bind] at hnow
      rw [hnow, hthen]
      exact hpass

theorem careful_keep (reason : String) (e : EventError) (r : Record) :
    Careful (keep reason e r) :=
  fun _ => ⟨rfl, fun _ => ⟨rfl, trivial⟩⟩

/-- To publish is careful.  The record is in hand from the beginning, and leaves it by an append or
into the queue. -/
theorem careful_publish (c : PublisherConfig) (r : Record) : Careful (publish c r) := by
  intro reply
  rcases reply with e | _
  · exact ⟨rfl, careful_keep _ e r⟩
  · refine ⟨rfl, ?_⟩
    intro reply
    rcases reply with e | _
    · exact ⟨rfl, careful_keep _ e r⟩
    · exact ⟨rfl, trivial⟩

theorem inHand_drainFrom (c : PublisherConfig) (fuel drained : Nat) :
    inHand (drainFrom c fuel drained) = none := by
  cases fuel <;> rfl

/-- The rounds of a pass are careful.  Between two of them nothing is in hand. -/
theorem careful_drainFrom (c : PublisherConfig) (fuel drained : Nat) :
    Careful (drainFrom c fuel drained) := by
  induction fuel generalizing drained with
  | zero => trivial
  | succ fuel ih =>
      intro taken
      rcases taken with _ | r
      · exact ⟨rfl, trivial⟩
      · refine ⟨rfl, ?_⟩
        intro reply
        rcases reply with e | _
        · exact ⟨rfl, fun _ => ⟨rfl, fun _ => ⟨rfl, trivial⟩⟩⟩
        · exact ⟨inHand_drainFrom c fuel (drained + 1), ih (drained + 1)⟩

/-- A pass is careful, and so is the remark after it, which holds nothing. -/
theorem careful_drain (c : PublisherConfig) (fuel : Nat) : Careful (drain c fuel) := by
  intro reply
  rcases reply with _ | _
  · exact ⟨rfl, trivial⟩
  · show inHand ((drainFrom c fuel 0).bind _) = none ∧ Careful ((drainFrom c fuel 0).bind _)
    constructor
    · rw [inHand_bind]
      · exact inHand_drainFrom c fuel 0
      · intro drained
        show inHand (ite _ _ _) = none
        split <;> rfl
    · apply careful_bind (careful_drainFrom c fuel 0)
      · intro drained
        show inHand (ite _ _ _) = none
        split <;> rfl
      · intro drained
        show Careful (ite _ _ _)
        split
        · exact fun _ => ⟨rfl, trivial⟩
        · trivial

/-! ## Calls side by side -/

/-- One call to a publisher.  A pass over the queue has a bound on the records it takes; a pass
without one takes, within any finite schedule, the steps of a pass whose bound is large enough. -/
inductive Errand where
  | publish (encoding : Except EventError Record)
  | drain (most : Nat)

namespace Errand

/-- What a call is answered with. -/
def Answer : Errand → Type
  | publish _ => Except EventError Unit
  | drain _ => Nat

/-- The program of a call. -/
def program (c : PublisherConfig) : (e : Errand) → Program journal e.Answer
  | .publish encoding => publishEncoded c encoding
  | .drain most => Journal.drain c most

/-- The record with which a call goes past its encoding. -/
def record? : Errand → Option Record
  | .publish (.ok r) => some r
  | _ => none

/-- What is left of a call that publishes can only end as its encoding did, and nothing is left to
ask once the encoding has failed. -/
def EndsAsEncoded : (e : Errand) → Program journal e.Answer → Prop
  | .publish (.ok _), p => p.Returns (· = .ok ())
  | .publish (.error e), p => p = .done (.error e)
  | .drain _, _ => True

end Errand

end Journal

/-- An event log that also remembers which records it has appended, newest first.  An append that
fails is not remembered. -/
def EventLog.remembering {σ : Type} (L : EventLog σ) : EventLog (σ × List Record) where
  probe timeout log :=
    let (reply, inner) := L.probe timeout log.1
    (reply, inner, log.2)
  append stream r maxLen log :=
    match L.append stream r maxLen log.1 with
    | (.ok (), inner) => (.ok (), inner, r :: log.2)
    | (.error e, inner) => (.error e, inner, log.2)

namespace Journal

variable {σ : Type}

/-- All calls to the clones of one publisher, over one queue and one log.  From outside the log may
turn into any other at any time. -/
def publisher (L : EventLog σ) (c : PublisherConfig) :
    System journal Errand.Answer (Outbox (σ × List Record)) σ where
  serve := Errand.program c
  answer := Outbox.answer L.remembering
  outside log o := { o with log := (log, o.log.2) }

/-- A publisher with an empty queue before its first call. -/
def unused (log : σ) : Pool journal Errand.Answer (Outbox (σ × List Record)) :=
  .opening ⟨(log, []), []⟩

/-! ## The three places of a record -/

section Places

variable (p : Pool journal Errand.Answer (Outbox (σ × List Record)))

/-- The records of the calls that went past their encoding. -/
def encoded : Multiset Record := ↑(p.begun.filterMap Errand.record?)

/-- The records that were appended. -/
def appended : Multiset Record := ↑p.state.log.2

/-- The records in the queue. -/
def waiting : Multiset Record := ↑p.state.pending

/-- The records in the hands of the calls in progress, at most one for each. -/
def held : Multiset Record := ↑(p.flights.filterMap fun f => inHand f.rest)

end Places

/-- The records that are appended, in the queue or in one hand. -/
def stock (o : Outbox (σ × List Record)) (hand : Option Record) : Multiset Record :=
  ↑o.log.2 + ↑o.pending + ↑hand.toList

theorem stock_none_add (o : Outbox (σ × List Record)) (hand : Option Record) :
    stock o none + ↑hand.toList = stock o hand := by
  simp only [stock, Option.toList, Multiset.coe_nil, add_zero]

theorem coe_cons_eq_add (r : Record) (rs : List Record) :
    (↑(r :: rs) : Multiset Record) = ↑rs + ↑[r] := by
  rw [← Multiset.cons_coe, Multiset.coe_singleton, add_comm, Multiset.singleton_add]

/-- A careful step moves records and neither makes nor loses one. -/
theorem stock_answer (L : EventLog σ) (c : JournalCall) (next : c.Reply → Program journal α)
    (o : Outbox (σ × List Record)) {after : Option Record}
    (h : Passes c (Outbox.answer L.remembering c o).1 (inHand (.ask c next)) after) :
    stock (Outbox.answer L.remembering c o).2 after = stock o (inHand (.ask c next)) := by
  obtain ⟨⟨log, past⟩, pending⟩ := o
  cases c with
  | probe timeout =>
      obtain rfl : after = _ := h
      rfl
  | note e =>
      obtain rfl : after = _ := h
      rfl
  | push r =>
      -- from the hand into the queue
      obtain rfl : after = none := h
      show (↑past + ↑(r :: pending) + 0 : Multiset Record) = ↑past + ↑pending + ↑[r]
      rw [coe_cons_eq_add, add_zero, add_assoc]
  | pop =>
      obtain rfl : after = _ := h
      cases pending with
      | nil => rfl
      | cons r rest =>
          -- from the queue into the hand
          show (↑past + ↑rest + ↑[r] : Multiset Record) = ↑past + ↑(r :: rest) + 0
          rw [coe_cons_eq_add r rest, add_zero, add_assoc]
  | append stream r maxLen =>
      simp only [stock, Outbox.answer, EventLog.remembering] at h ⊢
      rcases hL : L.append stream r maxLen log with ⟨_ | _, inner⟩
      · rw [hL] at h
        obtain rfl : after = some r := h
        rfl
      · -- from the hand into the log
        rw [hL] at h
        obtain rfl : after = none := h
        show (↑(r :: past) + ↑pending + 0 : Multiset Record) = ↑past + ↑pending + ↑[r]
        rw [coe_cons_eq_add, add_zero, add_right_comm]

/-! ## The invariant -/

/-- All records in the three places. -/
def accounted (p : Pool journal Errand.Answer (Outbox (σ × List Record))) : Multiset Record :=
  appended p + waiting p + held p

/-- The records of a pool, counted with one flight set apart. -/
theorem accounted_split (s : Outbox (σ × List Record)) (l r : List (Flight journal Errand.Answer))
    (f : Flight journal Errand.Answer) (qs : List Errand) (rs : List (Sigma Errand.Answer)) :
    accounted ⟨s, l ++ f :: r, qs, rs⟩ =
      stock s (inHand f.rest) + ↑((l ++ r).filterMap fun f => inHand f.rest) := by
  have hheld : held ⟨s, l ++ f :: r, qs, rs⟩ =
      ↑(inHand f.rest).toList + ↑((l ++ r).filterMap fun f => inHand f.rest) := by
    simp only [held, List.filterMap_append, List.filterMap_cons]
    cases inHand f.rest with
    | none => exact (zero_add _).symm
    | some x =>
        rw [Multiset.coe_eq_coe.mpr List.perm_middle, coe_cons_eq_add, add_comm]
        rfl
  rw [accounted, hheld, ← add_assoc]
  rfl

/-- The records of a pool whose hands are empty but for the flights of a list. -/
theorem accounted_eq (s : Outbox (σ × List Record)) (fs : List (Flight journal Errand.Answer))
    (qs : List Errand) (rs : List (Sigma Errand.Answer)) :
    accounted ⟨s, fs, qs, rs⟩ = stock s none + ↑(fs.filterMap fun f => inHand f.rest) := by
  simp only [accounted, appended, waiting, held, stock, Option.toList, Multiset.coe_nil, add_zero]

/-- What holds at every moment of every schedule. -/
structure Conserved (p : Pool journal Errand.Answer (Outbox (σ × List Record))) : Prop where
  underway : ∀ f ∈ p.flights, Careful f.rest ∧ f.request.EndsAsEncoded f.rest
  answered : ∀ r ∈ p.results, r.1.EndsAsEncoded (.done r.2)
  balance : encoded p = accounted p

theorem careful_program (c : PublisherConfig) (e : Errand) : Careful (e.program c) := by
  cases e with
  | drain most => exact careful_drain c most
  | publish encoding =>
      cases encoding with
      | error e => trivial
      | ok r => exact careful_bind (careful_publish c r) (fun _ => rfl) (fun _ => trivial)

/-- A call begins with the record it has encoded in its hand. -/
theorem inHand_program (c : PublisherConfig) (e : Errand) : inHand (e.program c) = e.record? := by
  rcases e with (_ | _) | _ <;> rfl

theorem endsAsEncoded_program (c : PublisherConfig) (e : Errand) :
    e.EndsAsEncoded (e.program c) := by
  cases e with
  | drain most => trivial
  | publish encoding =>
      cases encoding with
      | error e => rfl
      | ok r => exact returns_bind (returns_any _) (fun _ _ => rfl)

/-- Whatever a step is answered, a call still ends as its encoding did. -/
theorem endsAsEncoded_next {e : Errand} {call : JournalCall}
    {next : call.Reply → Program journal e.Answer} (h : e.EndsAsEncoded (.ask call next))
    (reply : call.Reply) : e.EndsAsEncoded (next reply) := by
  cases e with
  | drain most => trivial
  | publish encoding =>
      cases encoding with
      | error e =>
          unfold Errand.EndsAsEncoded at h
          cases h
      | ok r => exact h reply

/-- A call that arrives brings its record with it. -/
theorem conserved_start {s : Outbox (σ × List Record)} {fs : List (Flight journal Errand.Answer)}
    {qs : List Errand} {rs : List (Sigma Errand.Answer)} (c : PublisherConfig) (q : Errand)
    (h : Conserved ⟨s, fs, qs, rs⟩) :
    Conserved ⟨s, fs ++ [⟨q, q.program c⟩], q :: qs, rs⟩ := by
  refine ⟨?_, h.answered, ?_⟩
  · rw [List.forall_mem_append, List.forall_mem_singleton]
    exact ⟨h.underway, careful_program c q, endsAsEncoded_program c q⟩
  · have hbal := h.balance
    rw [accounted_eq] at hbal
    rw [accounted_split, List.append_nil, inHand_program]
    have hencoded : encoded ⟨s, fs ++ [⟨q, q.program c⟩], q :: qs, rs⟩ =
        encoded ⟨s, fs, qs, rs⟩ + ↑q.record?.toList := by
      unfold encoded
      cases hq : q.record? with
      | none => rw [List.filterMap_cons_none hq]; exact (add_zero _).symm
      | some x => rw [List.filterMap_cons_some hq, coe_cons_eq_add]; rfl
    rw [hencoded, hbal, ← stock_none_add s q.record?, add_right_comm]

/-- A call that is done holds nothing, so nothing is lost when it goes. -/
theorem conserved_finish {s : Outbox (σ × List Record)} {l r : List (Flight journal Errand.Answer)}
    {qs : List Errand} {rs : List (Sigma Errand.Answer)} {q : Errand} {a : q.Answer}
    (h : Conserved ⟨s, l ++ ⟨q, .done a⟩ :: r, qs, rs⟩) :
    Conserved ⟨s, l ++ r, qs, ⟨q, a⟩ :: rs⟩ := by
  have hends := (h.underway ⟨q, .done a⟩ mem_apart).2
  refine ⟨?_, ?_, ?_⟩
  · exact forall_mem_remove h.underway
  · exact List.forall_mem_cons.mpr ⟨hends, h.answered⟩
  · have hbal := h.balance
    rw [accounted_split] at hbal
    rw [accounted_eq]
    exact hbal

/-- A step of one call moves its record and touches no other hand. -/
theorem conserved_ask {s : Outbox (σ × List Record)} {l r : List (Flight journal Errand.Answer)}
    {qs : List Errand} {rs : List (Sigma Errand.Answer)} (L : EventLog σ) {q : Errand}
    {call : JournalCall} {next : call.Reply → Program journal q.Answer}
    (h : Conserved ⟨s, l ++ ⟨q, .ask call next⟩ :: r, qs, rs⟩) :
    Conserved ⟨(Outbox.answer L.remembering call s).2,
      l ++ ⟨q, next (Outbox.answer L.remembering call s).1⟩ :: r, qs, rs⟩ := by
  obtain ⟨hcareful, hends⟩ := h.underway ⟨q, .ask call next⟩ mem_apart
  obtain ⟨hpass, hnext⟩ := hcareful (Outbox.answer L.remembering call s).1
  refine ⟨?_, h.answered, ?_⟩
  · exact forall_mem_replace h.underway ⟨hnext, endsAsEncoded_next hends _⟩
  · have hbal := h.balance
    rw [accounted_split] at hbal ⊢
    rw [stock_answer L call next s hpass]
    exact hbal

/-- The invariant holds after every schedule. -/
theorem conserved_play (L : EventLog σ) (c : PublisherConfig) (log : σ)
    (schedule : List (Turn Errand σ)) :
    Conserved ((publisher L c).play schedule (unused log)) := by
  have hopening : Conserved (unused log) := by
    refine ⟨?_, ?_, rfl⟩
    · intro f hf
      cases hf
    · intro r hr
      cases hr
  apply (publisher L c).play_keeps _ _ _ _ schedule hopening
  · intro s fs qs rs q h
    exact conserved_start c q h
  · intro s l r qs rs q a h
    exact conserved_finish h
  · intro s l r qs rs q call next h
    exact conserved_ask L h
  · intro log s fs qs rs h
    exact ⟨h.underway, h.answered, h.balance⟩

/-- **Conservation.** At every moment of every schedule of publishing and draining calls, whatever
the log answers: the records that went past their encoding are those that were appended, those in
the queue and those in the hands of calls in progress, each as often as it was encoded.  Once no
call is in progress, nothing is in a hand.  A call that publishes ends in an error only if its
encoding did, and its steps then change neither the queue nor the log. -/
theorem records_conserved (L : EventLog σ) (c : PublisherConfig) (log : σ)
    (schedule : List (Turn Errand σ)) :
    let p := (publisher L c).play schedule (unused log)
    encoded p = appended p + waiting p + held p ∧
      (p.AtRest → encoded p = appended p + waiting p) ∧
      (∀ encoding (a : Except EventError Unit), ⟨.publish encoding, a⟩ ∈ p.results →
        ∀ e, a = .error e ↔ encoding = .error e) ∧
      ∀ i f e, p.flights[i]? = some f → f.request = .publish (.error e) →
        ((publisher L c).move i p).state = p.state := by
  intro p
  have hp : Conserved p := conserved_play L c log schedule
  refine ⟨hp.balance, ?_, ?_, ?_⟩
  -- at rest nobody holds a record in its hands
  · intro hrest
    have hbal := hp.balance
    have hheld : held p = 0 := by
      unfold held
      rw [hrest]
      rfl
    rw [accounted, hheld, add_zero] at hbal
    exact hbal
  · intro encoding a hmem e
    have hends := hp.answered _ hmem
    cases encoding with
    | ok r =>
        obtain rfl : a = .ok () := hends
        simp
    | error e' =>
        have ha : Program.done a = Program.done (.error e') := hends
        cases ha
        simp
  -- a record that could not be encoded has been answered before anything is done with it
  · intro i f e hi hreq
    apply (publisher L c).state_move_of_done
    intro g hg
    obtain rfl : f = g := Option.some.inj (hi.symm.trans hg)
    obtain ⟨request, rest⟩ := f
    obtain rfl : request = .publish (.error e) := hreq
    exact ⟨.error e, (hp.underway _ (List.mem_of_getElem? hi)).2⟩

end Journal

end Gatehouse
