import Gatehouse.Proofs.Cache.Engine
import Gatehouse.Proofs.Service.History

/-!
# Gatehouse.Proofs.Cache.Coherence — what the caches hold is so

A world is *coherent* if the store confirms whatever the caches hold, live or not.  Time and every
operation that runs alone keep a world coherent, so it is coherent after every history.

That entries which have expired are included makes the invariant independent of the clock: time may
pass without anything to prove, and an entry that would come to life again, which none does, would
be confirmed as well.  In the middle of an operation a world need not be coherent, for the store
changes a step before the caches.  What bounds that while are the two duties of
`Gatehouse.Proofs.Cache.Discipline`, and that every operation keeps them is proved in
`Gatehouse.Proofs.Cache.Engine`; here they are put together, and the induction is over histories.

Operations that overlap are another matter: see `Gatehouse.Proofs.Cache.Concurrency`.
-/

namespace Gatehouse

namespace World

/-- A sound world whose store confirms what its caches hold. -/
structure Coherent (w : World) : Prop extends w.Sound where
  confirms : ∀ m, w.caches.Holds m → w.store.Confirms m

variable {w : World}

theorem Opened.coherent (h : w.Opened) : w.Coherent := by
  refine ⟨h.sound, ?_⟩
  intro m hheld
  obtain ⟨a, b, c, hcaches⟩ := h.caches
  rw [hcaches] at hheld
  exact absurd hheld (Caches.not_holds_empty a b c m)

theorem Coherent.elapse (h : w.Coherent) (nanos : Nat) : (w.elapse nanos).Coherent :=
  ⟨h.toSound.elapse nanos, h.confirms⟩

/-- A procedure that keeps both duties keeps a world coherent. -/
theorem Coherent.run {α : Type} {x : Procedure α} (h : w.Coherent) (hsettles : x.Settles ∅)
    (htimely : x.Timely) : (w.run x).2.Coherent := by
  refine ⟨h.toSound.run x.run, ?_⟩
  -- nothing is owed at the start, since everything that is held is confirmed
  refine Program.held_of_settles h.toSound hsettles (htimely w h.toSound) ?_
  intro m hheld
  exact Or.inl (h.confirms m hheld)

/-- **A history leaves the caches coherent.** -/
theorem Coherent.after (h : w.Coherent) (tokens : TokenIssuer) (visits : List Visit) :
    (w.after tokens visits).Coherent := by
  induction visits generalizing w with
  | nil => exact h
  | cons v rest ih =>
      apply ih
      exact (h.elapse v.wait).run (Engine.settles_serve tokens v.op)
        (Engine.timely_serve tokens v.op)

end World

end Gatehouse
