import Gatehouse.Proofs.Cache.Engine
import Gatehouse.Proofs.Interleaving
import Gatehouse.Proofs.Service.History

/-!
# Gatehouse.Proofs.Cache.Concurrency — operations side by side

Any number of operations run at the same time over one store and the caches before it.  Every
operation clears what it withdraws, but one that puts an entry does so a step after it wrote or read
the store.  If another operation withdraws the entry in between and has cleared it before it is put,
the entry stays behind, and nobody is left to clear it.

An entry is *borne out* if the store has confirmed it at some moment since when it was held.  While
it is held from such a moment on, it is confirmed or some operation in progress is bound to clear it
(`Backed`), so when all operations have ended it is confirmed.  Hence the entries that are live when
all operations have ended are confirmed exactly if they are borne out (`live_confirmed_iff`), and an
entry that was put too late is not (`late_grant_stays`).

The course of events is a schedule: at each turn an operation starts, an operation in progress takes
its next step, or time passes, in any order.  Whatever is claimed is claimed of every schedule, and
by an invariant of single turns.  `Disciplined` is the part of it that holds always, and `Backed`
the part that holds from a moment on at which an entry was confirmed.

What fails side by side is only the second duty.  An operation still clears what it withdraws,
whoever else is at work, for that duty does not mention the store; but that the store confirms what
is put is known of the moment of its last look at the store, and not of the moment of the put.  So
the condition of the theorem cannot be dropped, and it is the only thing that is missing from the
coherence of histories.
-/

namespace Gatehouse

/-- What an operation ends in. -/
abbrev Operation.Outcome (op : Operation) : Type := Except ApiError op.Answer

/-- The engine over a world in memory, with time that passes from outside. -/
def engine (tokens : TokenIssuer) :
    System service Operation.Outcome World Nat where
  serve op := (Engine.serve tokens op).run
  answer := World.answer
  outside nanos w := w.elapse nanos

namespace Engine

/-- Operations in progress over a world. -/
abbrev Bustle := Pool service Operation.Outcome World

variable (tokens : TokenIssuer)

/-! ## Operations in progress -/

/-- Every operation in progress clears what it withdraws from now on. -/
structure Disciplined (p : Bustle) : Prop where
  sound : p.state.Sound
  settles : ∀ f ∈ p.flights, f.rest.Settles ∅

/-- Starting, ending and a step keep to the duty, and time has no part in it. -/
theorem disciplined_play (schedule : List (Turn Operation Nat)) {p : Bustle} (h : Disciplined p) :
    Disciplined ((engine tokens).play schedule p) := by
  refine (engine tokens).play_keeps (P := Disciplined) ?_ ?_ ?_ ?_ schedule h
  · rintro s fs qs rs q ⟨hsound, hsettles⟩
    refine ⟨hsound, ?_⟩
    intro f hf
    rcases List.mem_append.1 hf with hf | hf
    · exact hsettles f hf
    · obtain rfl := List.mem_singleton.1 hf
      exact settles_serve tokens q
  · rintro s earlier later qs rs q a ⟨hsound, hsettles⟩
    exact ⟨hsound, forall_mem_remove hsettles⟩
  · rintro s earlier later qs rs q c next ⟨hsound, hsettles⟩
    refine ⟨hsound.answer c, forall_mem_replace hsettles ?_⟩
    have hmoved : (Program.ask c next).Settles ∅ :=
      hsettles ⟨q, .ask c next⟩ mem_apart
    exact Program.settles_mono (Set.empty_subset _) (hmoved _)
  · rintro nanos s fs qs rs ⟨hsound, hsettles⟩
    exact ⟨hsound.elapse nanos, hsettles⟩

/-! ## Entries that are held -/

/-- An entry is confirmed, or an operation in progress is bound to clear it. -/
def Backed (m : Memo) (p : Bustle) : Prop :=
  p.state.store.Confirms m ∨ ∃ f ∈ p.flights, ∃ owed, f.rest.Settles owed ∧ m ∈ owed

section Steps

variable {m : Memo} {s : World} {earlier later : List (Flight service Operation.Outcome)}
  {qs : List Operation} {rs : List (Sigma Operation.Outcome)} {q : Operation}

/-- An operation that has ended is bound to nothing. -/
theorem backed_finish {a : q.Outcome}
    (h : Backed m ⟨s, earlier ++ ⟨q, .done a⟩ :: later, qs, rs⟩) :
    Backed m ⟨s, earlier ++ later, qs, ⟨q, a⟩ :: rs⟩ := by
  rcases h with hconfirmed | ⟨f, hf, owed, hsettles, howed⟩
  · exact Or.inl hconfirmed
  · rcases eq_or_mem_remove hf with rfl | hf
    · obtain rfl : owed = ∅ := hsettles
      exact False.elim howed
    · exact Or.inr ⟨f, hf, owed, hsettles, howed⟩

/-- A step that withdraws an entry binds its operation, and one that clears it ends its being
held. -/
theorem backed_ask {c : ServiceCall} {next : c.Reply → Program service q.Outcome}
    (hsound : s.Sound) (hsettles : Program.Settles (.ask c next) ∅)
    (h : Backed m ⟨s, earlier ++ ⟨q, .ask c next⟩ :: later, qs, rs⟩)
    (hheld : (s.answer c).2.caches.Holds m) :
    Backed m ⟨(s.answer c).2, earlier ++ ⟨q, next (s.answer c).1⟩ :: later, qs, rs⟩ := by
  -- what the operation owes before the step, it owes after it, or the store still confirms it
  have hmoved : ∀ owed, Program.Settles (.ask c next) owed → s.store.Confirms m ∨ m ∈ owed →
      Backed m ⟨(s.answer c).2, earlier ++ ⟨q, next (s.answer c).1⟩ :: later, qs, rs⟩ := by
    intro owed howed hcase
    rcases World.confirmed_or_owed hsound hcase hheld with hconfirmed | hbound
    · exact Or.inl hconfirmed
    · exact Or.inr ⟨_, mem_apart, _, howed _, hbound⟩
  rcases h with hconfirmed | ⟨f, hf, owed, hbound, howed⟩
  · exact hmoved ∅ hsettles (Or.inl hconfirmed)
  · rcases eq_or_mem_remove hf with rfl | hf
    · exact hmoved owed hbound (Or.inr howed)
    · exact Or.inr ⟨f, mem_of_mem_remove hf, owed, hbound, howed⟩

end Steps

/-- **One turn.**  An entry that is backed and still held after a turn is backed after it. -/
theorem backed_turn {m : Memo} {p : Bustle} (h : Disciplined p) (hbacked : Backed m p)
    (t : Turn Operation Nat) (hheld : ((engine tokens).turn p t).state.caches.Holds m) :
    Backed m ((engine tokens).turn p t) := by
  obtain ⟨s, fs, qs, rs⟩ := p
  cases t with
  | start q =>
      -- a new operation is one more that may be bound
      rcases hbacked with hconfirmed | ⟨f, hf, hbound⟩
      · exact Or.inl hconfirmed
      · exact Or.inr ⟨f, List.mem_append_left _ hf, hbound⟩
  | pass nanos => exact hbacked
  | move i =>
      replace hheld : ((engine tokens).move i ⟨s, fs, qs, rs⟩).state.caches.Holds m := hheld
      show Backed m ((engine tokens).move i ⟨s, fs, qs, rs⟩)
      rcases (engine tokens).move_cases i ⟨s, fs, qs, rs⟩ with
        hmove | ⟨earlier, q, a, later, hfs, hmove⟩ | ⟨earlier, q, c, next, later, hfs, hmove⟩
      · rw [hmove]
        exact hbacked
      · obtain rfl : fs = earlier ++ ⟨q, .done a⟩ :: later := hfs
        rw [hmove]
        exact backed_finish hbacked
      · obtain rfl : fs = earlier ++ ⟨q, .ask c next⟩ :: later := hfs
        rw [hmove] at hheld ⊢
        refine backed_ask h.sound ?_ hbacked hheld
        exact h.settles ⟨q, .ask c next⟩ mem_apart

/-- An entry is held before and after every turn of a schedule. -/
def HeldThroughout (m : Memo) : List (Turn Operation Nat) → Bustle → Prop
  | [], p => p.state.caches.Holds m
  | t :: ts, p => p.state.caches.Holds m ∧ HeldThroughout m ts ((engine tokens).turn p t)

theorem holds_of_heldThroughout {m : Memo} {schedule : List (Turn Operation Nat)} {p : Bustle}
    (h : HeldThroughout tokens m schedule p) : p.state.caches.Holds m := by
  cases schedule with
  | nil => exact h
  | cons t ts => exact h.1

theorem backed_play {m : Memo} {schedule : List (Turn Operation Nat)} {p : Bustle}
    (h : Disciplined p) (hheld : HeldThroughout tokens m schedule p) (hbacked : Backed m p) :
    Backed m ((engine tokens).play schedule p) := by
  induction schedule generalizing p with
  | nil => exact hbacked
  | cons t ts ih =>
      rw [System.play_cons]
      refine ih (disciplined_play tokens [t] h) hheld.2 ?_
      exact backed_turn tokens h hbacked t (holds_of_heldThroughout tokens hheld.2)

/-! ## Entries that are borne out -/

/-- At some moment of a schedule the store confirmed an entry, and the entry has been held ever
since. -/
def BorneOut (m : Memo) (schedule : List (Turn Operation Nat)) (p : Bustle) : Prop :=
  ∃ before since, schedule = before ++ since ∧
    ((engine tokens).play before p).state.store.Confirms m ∧
    HeldThroughout tokens m since ((engine tokens).play before p)

/-- When all operations have ended, what is live is confirmed exactly if it is borne out.  In one
direction the moment is the last one; in the other the entry has been backed since the moment, and
there is nobody left to be bound. -/
theorem live_confirmed_iff {w : World} (hopened : w.Opened) {schedule : List (Turn Operation Nat)}
    (hrest : ((engine tokens).play schedule (.opening w)).AtRest) {m : Memo}
    (hlive : ((engine tokens).play schedule (.opening w)).state.caches.Recalls
      ((engine tokens).play schedule (.opening w)).state.clock m) :
    ((engine tokens).play schedule (.opening w)).state.store.Confirms m ↔
      BorneOut tokens m schedule (.opening w) := by
  constructor
  · intro hconfirmed
    refine ⟨schedule, [], (List.append_nil _).symm, hconfirmed, ?_⟩
    exact Caches.holds_of_recalls _ hlive
  · rintro ⟨before, since, rfl, hconfirmed, hheld⟩
    rw [System.play_append] at hrest ⊢
    have hopening : Disciplined (.opening w) := ⟨hopened.sound, fun f hf => nomatch hf⟩
    have hbacked := backed_play tokens (disciplined_play tokens before hopening) hheld
      (Or.inl hconfirmed)
    -- nobody is left who could be bound to clear the entry
    rcases hbacked with hconfirmed' | ⟨f, hf, -⟩
    · exact hconfirmed'
    · rw [show (_ : Bustle).flights = [] from hrest] at hf
      cases hf

/-- **Coherence side by side.**  When all operations have ended, the store confirms every entry that
is live exactly if every one of them is borne out. -/
theorem coherent_iff_borneOut {w : World} (hopened : w.Opened)
    {schedule : List (Turn Operation Nat)}
    (hrest : ((engine tokens).play schedule (.opening w)).AtRest) :
    let p := (engine tokens).play schedule (.opening w)
    (∀ m, p.state.caches.Recalls p.state.clock m → p.state.store.Confirms m) ↔
      ∀ m, p.state.caches.Recalls p.state.clock m → BorneOut tokens m schedule (.opening w) := by
  intro p
  constructor
  · intro hcoherent m hlive
    exact (live_confirmed_iff tokens hopened hrest hlive).1 (hcoherent m hlive)
  · intro hborne m hlive
    exact (live_confirmed_iff tokens hopened hrest hlive).2 (hborne m hlive)

/-! ## A grant that is remembered too late -/

/-- The right of a user to read a client. -/
def lateGrant : Policy := ⟨"owner", "reader", "meter", ["m_read"], ⟨0, 0⟩, ⟨0, 0⟩, "owner"⟩

/-- The grant is added to the store, then withdrawn by an operation that runs to its end, and only
then remembered. -/
def lateSchedule : List (Turn Operation Nat) :=
  [.start (.addPolicy "owner" lateGrant), .move 0, .move 0, .move 0,
   .start (.deletePolicy "owner" lateGrant.key),
   .move 1, .move 1, .move 1, .move 1, .move 1, .move 1,
   .move 0, .move 0, .move 0]

/-- **A grant that was withdrawn goes on to be served.**  Nobody is at work, the store does not hold
the policy, and the decision on the store denies the action; but the cache has the policy live and
the action is authorized. -/
theorem late_grant_stays :
    let p := (engine .named).play lateSchedule (.opening (.empty 60000000000 0))
    p.AtRest ∧
      p.state.caches.Recalls p.state.clock (.policy lateGrant.key lateGrant) ∧
      p.state.store.policies.lookup lateGrant.key = none ∧
      (p.state.run (Engine.authorize .named "reader" "client" "meter" "m_read")).1 = .ok () := by
  refine ⟨rfl, ?_, ?_, ?_⟩
  · decide +kernel
  · decide +kernel
  · decide +kernel

/-- Such a grant is live without being borne out. -/
theorem late_grant_not_borneOut :
    let p := (engine .named).play lateSchedule (.opening (.empty 60000000000 0))
    (World.empty 60000000000 0).Opened ∧ p.AtRest ∧
      ¬ ∀ m, p.state.caches.Recalls p.state.clock m →
        BorneOut .named m lateSchedule (.opening (.empty 60000000000 0)) := by
  intro p
  have hopened : (World.empty 60000000000 0).Opened := World.opened_empty _ _
  have hrest : p.AtRest := rfl
  refine ⟨hopened, hrest, ?_⟩
  intro hborne
  have hconfirmed : p.state.store.policies.lookup lateGrant.key = some lateGrant :=
    (coherent_iff_borneOut .named hopened hrest).2 hborne (.policy lateGrant.key lateGrant)
      (by decide +kernel)
  have hgone : p.state.store.policies.lookup lateGrant.key = none := by decide +kernel
  cases hgone.symm.trans hconfirmed

end Engine

end Gatehouse
