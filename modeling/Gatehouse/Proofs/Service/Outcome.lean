import Gatehouse.Proofs.Service.Listing

/-!
# Gatehouse.Proofs.Service.Outcome — what a procedure ends in, and where

`World.Ends w x Q` says that `x`, run in `w`, ends in a value and in a world that satisfy `Q`.  Here
is one rule for each kind of step that the engine takes in a world in which nothing fails.  A rule
turns a statement on a step and on what follows into one on what follows, in the world that the step
leaves: reads leave the world with another count (`World.reread`), a policy that is cached is there
to expire later (`World.remember`).

The rules are applied from the front of a procedure to its end, so a proof has the shape of the
procedure that it is about.  Steps that are refused end it, and the promise is settled there; where
a procedure goes on, one rule has used up one step.

Traces say what an operation does whoever answers; these rules say what it ends in over one given
store.  That is what is needed where the answer depends on what is stored: whether a caller may
update a policy, what a listing contains, and which of several errors comes first.
-/

namespace Gatehouse

open Gatehouse.Time

namespace World

variable {w w' : World} {α β : Type} {x : Procedure α} {f : α → Procedure β}
  {Q : Except ApiError α → World → Prop} {R : Except ApiError β → World → Prop}

/-- Whether what a procedure ends in, run in a world, is as promised. -/
def Ends (w : World) (x : Procedure α) (Q : Except ApiError α → World → Prop) : Prop :=
  Q (w.run x).1 (w.run x).2

/-! ## Sequences -/

theorem ends_pure {a : α} (h : Q (.ok a) w) : w.Ends (pure a) Q := h

theorem ends_throw {e : ApiError} (h : Q (.error e) w) : w.Ends (throw e) Q := h

/-- A weaker promise is kept as well. -/
theorem ends_mono {Q' : Except ApiError α → World → Prop} (hx : w.Ends x Q)
    (h : ∀ r w', Q r w' → Q' r w') : w.Ends x Q' :=
  h _ _ hx

/-- The first part ends as promised, and what follows takes that for granted. -/
theorem ends_bind (hx : w.Ends x Q) (herror : ∀ e w', Q (.error e) w' → R (.error e) w')
    (hf : ∀ a w', Q (.ok a) w' → w'.Ends (f a) R) : w.Ends (x >>= f) R := by
  show R (w.run (x >>= f)).1 (w.run (x >>= f)).2
  rcases hrun : w.run x with ⟨e | a, w'⟩
  · rw [run_bind_of_error hrun]
    refine herror e w' ?_
    have hQ : Q (w.run x).1 (w.run x).2 := hx
    rwa [hrun] at hQ
  · rw [run_bind_of_ok hrun]
    refine hf a w' ?_
    have hQ : Q (w.run x).1 (w.run x).2 := hx
    rwa [hrun] at hQ

theorem ends_bind_of_ok {a : α} (hx : w.run x = (.ok a, w')) (hf : w'.Ends (f a) R) :
    w.Ends (x >>= f) R := by
  show R (w.run (x >>= f)).1 (w.run (x >>= f)).2
  rw [run_bind_of_ok hx]
  exact hf

/-- Where only the answer of a step is known, what follows has to do in every world. -/
theorem ends_bind_of_answer {a : α} (hx : w.Ends x fun r _ => r = .ok a)
    (hf : ∀ w' : World, w'.Ends (f a) R) : w.Ends (x >>= f) R := by
  refine ends_bind hx (fun e w' he => nomatch he) fun b w' hb => ?_
  cases hb
  exact hf w'

/-- Nothing is promised of an error by a promise for answers. -/
theorem refused {P : α → World → Prop} (e : ApiError) (w' : World) :
    ∀ a, (.error e : Except ApiError α) = .ok a → P a w' :=
  fun _ he => nomatch he

/-- A refusal is the end; otherwise the procedure goes on. -/
theorem ends_refuse {c : Prop} [Decidable c] {e : ApiError} {f : Unit → Procedure β}
    (hrefused : c → R (.error e) w) (hpassed : ¬c → w.Ends (f ()) R) :
    w.Ends (if c then throw e >>= f else f ()) R := by
  split
  · next hc => exact hrefused hc
  · next hc => exact hpassed hc

/-- Who is no admin has to be allowed by what is asked next; whoever is not, is refused. -/
theorem ends_gate {admin : Bool} {P : World → Prop} (allowed : Prop) {x : Procedure α}
    {f : α → Bool} {e : ApiError} {rest : Unit → Procedure β} (hadmin : admin = true → allowed)
    (hw : P w)
    (hx : admin = false → ∃ a w', w.run x = (.ok a, w') ∧ P w' ∧ (f a = true ↔ allowed))
    (hpassed : ∀ w', P w' → allowed → w'.Ends (rest ()) R)
    (hrefused : ∀ w', P w' → ¬allowed → R (.error e) w') :
    w.Ends (if (!admin) = true then do
        let a ← x
        if (!f a) = true then throw e >>= rest else rest ()
      else rest ()) R := by
  cases admin with
  | true => exact hpassed w hw (hadmin rfl)
  | false =>
      obtain ⟨a, w', hrun, hw', hallowed⟩ := hx rfl
      refine ends_bind_of_ok hrun (ends_refuse (fun hno => ?_) fun hyes => ?_)
      · refine hrefused w' hw' (mt hallowed.2 ?_)
        simpa using hno
      · refine hpassed w' hw' (hallowed.1 ?_)
        simpa using hyes

/-! ## Steps -/

/-- The time is that of the world. -/
theorem ends_now_bind {f : Timestamp → Procedure β} (hf : w.Ends (f (.ofNanos w.clock)) R) :
    w.Ends (Procedure.now >>= f) R :=
  ends_bind_of_ok run_now hf

theorem ends_note_bind {e : TraceEntry} {f : Unit → Procedure β} (hf : (w.remark e).Ends (f ()) R) :
    w.Ends (Procedure.note e >>= f) R :=
  hf

/-- A caller who is read is admitted, and no trace of it is left. -/
theorem ends_caller (tokens : TokenIssuer) (token : String) :
    w.Ends (Engine.caller tokens token) fun r w' =>
      ∀ claims, r = .ok claims → w.Admits tokens token claims ∧ w' = w := by
  refine ends_now_bind ?_
  cases hparse : tokens.parse (Timestamp.ofNanos w.clock).seconds token with
  | error e => exact ends_note_bind nofun
  | ok c =>
      by_cases hkind : c.kind = .access
      · show w.Ends (if c.kind = .access then pure c else _) _
        rw [if_pos hkind]
        rintro claims ⟨⟩
        exact ⟨⟨hparse, hkind⟩, rfl⟩
      · show w.Ends (if c.kind = .access then pure c else _) _
        rw [if_neg hkind]
        exact ends_note_bind nofun

/-- Whoever is not admitted gets no further. -/
theorem ends_caller_bind {tokens : TokenIssuer} {token : String} {f : Claims → Procedure β}
    (hrefused : ∀ e w', R (.error e) w')
    (hf : ∀ claims, w.Admits tokens token claims → w.Ends (f claims) R) :
    w.Ends (Engine.caller tokens token >>= f) R := by
  refine ends_bind (ends_caller tokens token) (fun e w' _ => hrefused e w') ?_
  intro claims w' hclaims
  obtain ⟨hadmits, rfl⟩ := hclaims claims rfl
  exact hf claims hadmits

/-- The world with another count of the reads of its store. -/
def reread (w : World) (n : Nat) : World := { w with store := { w.store with reads := n } }

theorem Sound.reread (h : w.Sound) (n : Nat) : (w.reread n).Sound :=
  ⟨h.faults, h.store.policy_key, h.store.client_id, h.store.secret_unique⟩

/-- A read is answered from the tables and counted. -/
theorem run_read (h : w.Reliable) {c : StoreCall} (hread : c.isRead = true) {a : c.Value}
    (ha : (w.store.answer (.ofNanos w.clock) c).1 = .ok a) :
    w.run (Procedure.store c) = (.ok a, w.reread (w.store.reads + 1)) := by
  show ((w.answerStore c).1.mapError ApiError.ofStorage, (w.answerStore c).2) = _
  rw [answerStore_of_reliable h, ha, Store.answer_read _ _ _ hread]
  rfl

/-- A read, and what follows its answer in a world that has counted it. -/
theorem ends_read_bind (h : w.Reliable) {c : StoreCall} {f : c.Value → Procedure β}
    (hread : c.isRead = true) {a : c.Value}
    (ha : (w.store.answer (.ofNanos w.clock) c).1 = .ok a)
    (hf : (w.reread (w.store.reads + 1)).Ends (f a) R) : w.Ends (Procedure.store c >>= f) R :=
  ends_bind_of_ok (run_read h hread ha) hf

/-- A write that the store carries out. -/
theorem ends_write_bind (h : w.Sound) {c : StoreCall} {f : c.Value → Procedure β} {a : c.Value}
    {s : Store} (ha : w.store.answer (.ofNanos w.clock) c = (.ok a, s))
    (hf : World.Sound { w with store := s } → World.Ends { w with store := s } (f a) R) :
    w.Ends (Procedure.store c >>= f) R := by
  have hrun : w.run (Procedure.store c) = (.ok a, { w with store := s }) := by
    rw [run_store h, ha]
    rfl
  exact ends_bind_of_ok hrun (hf (h.of_run hrun))

/-- The world when a policy was remembered. -/
def remember (w : World) (p : Policy) : World :=
  { w with caches := { w.caches with policies := w.caches.policies.insert w.clock p.key p } }

/-- A policy that was remembered expires when its time has passed. -/
theorem lookup_remember (w : World) (p : Policy) :
    (w.remember p).caches.policies.entries.lookup p.key =
      some ⟨p, w.clock + w.caches.policies.ttl⟩ := by
  show (w.caches.policies.entries.insert p.key _).lookup p.key = _
  rw [Table.lookup_insert, if_pos rfl]

/-- To cache a policy is to remember it. -/
theorem run_cachePolicy (h : w.Sound) (p : Policy) :
    w.run (Engine.cachePolicy p) = (.ok (), w.remember p) := by
  have hput : w.run (Procedure.cache (.putPolicy p)) = (.ok (.ok ()), w.remember p) := by
    show (Except.ok (w.answerCache (.putPolicy p)).1, (w.answerCache (.putPolicy p)).2) = _
    rw [answerCache_eq h]
    rfl
  exact run_bind_of_ok hput

end World

end Gatehouse
