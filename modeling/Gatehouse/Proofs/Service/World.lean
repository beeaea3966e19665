import Gatehouse.Proofs.Program
import Gatehouse.Proofs.Store.Sound
import Gatehouse.Service.World

/-!
# Gatehouse.Proofs.Service.World — steps and runs in memory

A world is *sound* if no step is planned to fail and its store is sound.  `World.answer_cases` says
once what a step of the service does to a sound world: a step to the store changes the store alone,
a step to the caches changes the caches alone, and no other step changes either.  No step moves the
clock.

`World.run_bind_of_ok` and `World.run_bind_of_error` run the parts of a procedure one after the
other.

Invariants on stores and caches are proved through `answer_cases`: it leaves one case for each of
the three kinds of steps, so such a proof says what a call to the store keeps and what a call to the
caches keeps, and the other steps need one line.  Where steps may fail, less can be said;
`store_of_answer` is what is left of it, and it is enough for what every call to a store keeps.
-/

namespace Gatehouse

open Gatehouse.Time

/-- Whether a step goes neither to the store nor to the caches. -/
def ServiceCall.Aside : ServiceCall → Prop
  | .store _ | .cache _ => False
  | _ => True

namespace World

/-! ## Sound worlds -/

/-- No step is planned to fail, and the store is one that calls can reach. -/
structure Sound (w : World) : Prop where
  faults : w.faults = []
  store : w.store.Sound

variable {w : World}

/-- A call to the store is answered by the store and changes nothing else. -/
theorem answerStore_eq (h : w.Sound) (c : StoreCall) :
    w.answerStore c = ((w.store.answer (.ofNanos w.clock) c).1,
      { w with store := (w.store.answer (.ofNanos w.clock) c).2 }) := by
  unfold answerStore
  rw [h.faults, if_neg]
  · simp

/-- A call to the caches is answered by the caches and changes nothing else. -/
theorem answerCache_eq (h : w.Sound) (c : CacheCall) :
    w.answerCache c = (.ok (w.caches.answer w.clock c).1,
      { w with caches := (w.caches.answer w.clock c).2 }) := by
  unfold answerCache
  rw [h.faults, if_neg]
  · simp

/-- **The steps.**  Whatever holds of a call to the store, of a call to the caches, and of all steps
that leave both as they are, holds of every step. -/
theorem answer_cases (h : w.Sound) {P : (c : ServiceCall) → c.Reply → World → Prop}
    (store : ∀ c, P (.store c) (w.store.answer (.ofNanos w.clock) c).1
      { w with store := (w.store.answer (.ofNanos w.clock) c).2 })
    (cache : ∀ c, P (.cache c) (.ok (w.caches.answer w.clock c).1)
      { w with caches := (w.caches.answer w.clock c).2 })
    (aside : ∀ c reply w', c.Aside → w'.store = w.store → w'.caches = w.caches →
      w'.faults = w.faults → w'.clock = w.clock → P c reply w')
    (c : ServiceCall) : P c (w.answer c).1 (w.answer c).2 := by
  cases c with
  | store c =>
      show P (.store c) (w.answerStore c).1 (w.answerStore c).2
      rw [answerStore_eq h]
      exact store c
  | cache c =>
      show P (.cache c) (w.answerCache c).1 (w.answerCache c).2
      rw [answerCache_eq h]
      exact cache c
  | journal c =>
      show P (.journal c) (w.answerJournal c).1 (w.answerJournal c).2
      cases c with
      | note | probe | append | push | pop => exact aside _ _ _ trivial rfl rfl rfl rfl
  | clock | freshId | note | countLookup | countCall | countRequest | countOutcome | counts =>
      exact aside _ _ _ trivial rfl rfl rfl rfl

/-- A step leaves a sound world sound. -/
theorem Sound.answer (h : w.Sound) (c : ServiceCall) : (w.answer c).2.Sound := by
  refine answer_cases h (P := fun _ _ w' => w'.Sound) ?_ ?_ ?_ c
  · intro c
    exact ⟨h.faults, h.store.answer _ c⟩
  · intro c
    exact ⟨h.faults, h.store⟩
  · intro c reply w' _ hstore _ hfaults _
    exact ⟨hfaults.trans h.faults, hstore ▸ h.store⟩

/-- So does a run. -/
theorem Sound.run {α : Type} (h : w.Sound) (p : Program service α) :
    (p.run World.answer w).2.Sound := by
  induction p generalizing w with
  | done a => exact h
  | ask c next ih => exact ih _ (h.answer c)

theorem Sound.of_run {α : Type} {x : Procedure α} {r : Except ApiError α} {w' : World}
    (h : w.Sound) (hrun : w.run x = (r, w')) : w'.Sound := by
  have hsound : (w.run x).2.Sound := h.run x.run
  rw [hrun] at hsound
  exact hsound

/-! ## The store behind a run -/

/-- Whether a step is planned to fail or not, the store is as before or has answered a call. -/
theorem store_of_answer (w : World) (c : ServiceCall) : (w.answer c).2.store = w.store ∨
    ∃ now c', (w.answer c).2.store = (w.store.answer now c').2 := by
  cases c with
  | store c =>
      show (w.answerStore c).2.store = _ ∨ ∃ now c', (w.answerStore c).2.store = _
      unfold answerStore
      split
      · exact Or.inl rfl
      · exact Or.inr ⟨_, _, rfl⟩
  | cache c =>
      show (w.answerCache c).2.store = _ ∨ ∃ now c', (w.answerCache c).2.store = _
      unfold answerCache
      split
      · exact Or.inl rfl
      · exact Or.inl rfl
  | journal c => cases c <;> exact Or.inl rfl
  | clock | freshId | note | countLookup | countCall | countRequest | countOutcome | counts =>
      exact Or.inl rfl

/-- What every call to a store does to it, a run does. -/
theorem run_store_of_answer {R : Store → Store → Prop} (refl : ∀ s, R s s)
    (trans : ∀ s t u, R s t → R t u → R s u) (answer : ∀ s now c, R s (s.answer now c).2)
    {α : Type} (w : World) (p : Program service α) : R w.store (p.run World.answer w).2.store := by
  induction p generalizing w with
  | done a => exact refl _
  | ask c next ih =>
      refine trans _ _ _ ?_ (ih _ _)
      rcases w.store_of_answer c with hsame | ⟨now, c', hanswer⟩
      · rw [hsame]
        exact refl _
      · rw [hanswer]
        exact answer _ now c'

/-! ## Procedures -/

theorem run_now : w.run Procedure.now = (.ok (.ofNanos w.clock), w) := rfl

/-- A call to the store, run in a world. -/
theorem run_store (h : w.Sound) (c : StoreCall) :
    w.run (Procedure.store c) =
      ((w.store.answer (.ofNanos w.clock) c).1.mapError ApiError.ofStorage,
      { w with store := (w.store.answer (.ofNanos w.clock) c).2 }) := by
  show ((w.answerStore c).1.mapError ApiError.ofStorage, (w.answerStore c).2) = _
  rw [answerStore_eq h]

/-- What the store answered to a call that succeeded. -/
theorem answer_of_run_store (h : w.Sound) {c : StoreCall} {a : c.Value} {w' : World}
    (hrun : w.run (Procedure.store c) = (.ok a, w')) :
    w.store.answer (.ofNanos w.clock) c = (.ok a, w'.store) := by
  rw [run_store h] at hrun
  rcases hanswer : w.store.answer (.ofNanos w.clock) c with ⟨e | a', s⟩
  · rw [hanswer] at hrun
    cases hrun
  · rw [hanswer] at hrun
    cases hrun
    rfl

/-- A call that reads is answered from the tables and leaves them as they are. -/
theorem of_run_read (h : w.Sound) {c : StoreCall} (hread : c.isRead = true) {a : c.Value}
    {w' : World} (hrun : w.run (Procedure.store c) = (.ok a, w')) :
    (w.store.answer (.ofNanos w.clock) c).1 = .ok a ∧ w'.store = w.store.countRead := by
  have hanswer := answer_of_run_store h hrun
  refine ⟨congrArg Prod.fst hanswer, ?_⟩
  rw [← Store.answer_read (.ofNanos w.clock) c w.store hread, hanswer]

/-- A call that reads, run in a world. -/
theorem exists_run_read (h : w.Sound) {c : StoreCall} (hread : c.isRead = true) {a : c.Value}
    (ha : (w.store.answer (.ofNanos w.clock) c).1 = .ok a) :
    ∃ w', w.run (Procedure.store c) = (.ok a, w') ∧ w'.Sound ∧ w.store.SameTables w'.store := by
  have hrun := run_store h c
  rw [ha, Store.answer_read _ _ _ hread] at hrun
  exact ⟨_, hrun, h.of_run hrun, rfl, rfl, rfl⟩

/-- A call to the caches, run in a world. -/
theorem exists_run_cache (h : w.Sound) {c : CacheCall} {a : c.Value}
    (ha : (w.caches.answer w.clock c).1 = a) :
    ∃ w', w.run (Procedure.cache c) = (.ok (.ok a), w') ∧ w'.Sound ∧ w'.store = w.store := by
  have hrun : w.run (Procedure.cache c) = (.ok (.ok (w.caches.answer w.clock c).1),
      { w with caches := (w.caches.answer w.clock c).2 }) := by
    show (Except.ok (w.answerCache c).1, (w.answerCache c).2) = _
    rw [answerCache_eq h]
  rw [ha] at hrun
  exact ⟨_, hrun, h.of_run hrun, rfl⟩

variable {α β : Type} {x : Procedure α} {f : α → Procedure β} {w' : World}

/-- A procedure is run, and what follows it in the world that it leaves; an error is the end. -/
theorem run_bind_eq : w.run (x >>= f) =
    (match (w.run x).1 with
      | .ok a => (w.run x).2.run (f a)
      | .error e => (.error e, (w.run x).2)) := by
  refine (Program.run_bind (I := service) World.answer x.run (ExceptT.bindCont f) w).trans ?_
  show Program.run World.answer (ExceptT.bindCont f (w.run x).1) (w.run x).2 = _
  cases (w.run x).1 with
  | ok a => rfl
  | error e => rfl

theorem run_bind_of_ok {a : α} (h : w.run x = (.ok a, w')) : w.run (x >>= f) = w'.run (f a) := by
  rw [run_bind_eq, h]

theorem run_bind_of_error {e : ApiError} (h : w.run x = (.error e, w')) :
    w.run (x >>= f) = (.error e, w') := by
  rw [run_bind_eq, h]

end World

end Gatehouse
