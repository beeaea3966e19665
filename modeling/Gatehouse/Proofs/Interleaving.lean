import Gatehouse.Program

/-!
# Gatehouse.Proofs.Interleaving — many programs against one state

Requests are answered side by side.  Each request in progress is a `Flight`: the request and what is
left of its program.  A `Pool` is a shared state with the flights over it.  A schedule is a list of
`Turn`s: a request arrives, one of the flights takes its next step, or something happens to the
state from outside.  Since a question of a program is one atomic step, the schedules are exactly the
interleavings of the questions of the programs.

* `System.move_cases` says once what the step of a flight can do.
* `System.play_keeps` is the induction over a schedule: what every kind of turn keeps, every
  schedule keeps.

A schedule says which flight moves by its position among those in progress, and a position that
nobody has is a turn in which nothing happens.  So every list of turns is a schedule, and theorems
about all schedules need no hypothesis that one makes sense.

The results are kept beside the flights, newest first.  Without them a request that was answered
would leave no trace in the pool, and it could not be said that what was answered agrees with what
was done (`Pool.Tallied`).
-/

namespace Gatehouse

/-! ## Pools and schedules -/

/-- A request in progress and what is left of its program. -/
structure Flight (I : Interface) {Q : Type} (A : Q → Type) where
  request : Q
  rest : Program I (A request)

/-- A shared state, the flights over it, the requests so far and the results so far, each newest
first. -/
structure Pool (I : Interface) {Q : Type} (A : Q → Type) (σ : Type) where
  state : σ
  flights : List (Flight I A)
  begun : List Q
  results : List (Sigma A)

/-- One turn of a schedule: a request arrives, the flight at a position takes its next step, or an
event from outside takes place. -/
inductive Turn (Q E : Type) where
  | start (request : Q)
  | move (i : Nat)
  | pass (event : E)

/-- The programs that answer requests, the answers to their questions, and what events from outside
do to the state. -/
structure System (I : Interface) {Q : Type} (A : Q → Type) (σ E : Type) where
  serve : (q : Q) → Program I (A q)
  answer : (c : I.Call) → σ → I.Reply c × σ
  outside : E → σ → σ

/-- Whether no request is in progress. -/
def Pool.AtRest {I : Interface} {Q : Type} {A : Q → Type} {σ : Type} (p : Pool I A σ) : Prop :=
  p.flights = []

/-- The pool over a state in which nothing has begun. -/
def Pool.opening {I : Interface} {Q : Type} {A : Q → Type} {σ : Type} (s : σ) : Pool I A σ :=
  ⟨s, [], [], []⟩

/-- Whether every request so far is in progress or answered, as often as it arrived.  Requests are
counted and not named, since the same one may arrive many times. -/
def Pool.Tallied {I : Interface} {Q : Type} {A : Q → Type} {σ : Type} (p : Pool I A σ) : Prop :=
  p.begun.Perm (p.flights.map (·.request) ++ p.results.map (·.1))

/-! ## Setting one flight apart -/

section Apart

variable {α : Type} {P : α → Prop} {earlier later : List α} {a b : α}

theorem mem_apart : a ∈ earlier ++ a :: later := List.mem_append_right _ List.mem_cons_self

/-- What holds of all members of a list holds of all but one. -/
theorem forall_mem_remove (h : ∀ x ∈ earlier ++ a :: later, P x) :
    ∀ x ∈ earlier ++ later, P x := by
  rw [List.forall_mem_append, List.forall_mem_cons] at h
  rw [List.forall_mem_append]
  exact ⟨h.1, h.2.2⟩

/-- What holds of all members of a list holds of all once one of them has been replaced, if it holds
of the new one. -/
theorem forall_mem_replace (h : ∀ x ∈ earlier ++ a :: later, P x) (hb : P b) :
    ∀ x ∈ earlier ++ b :: later, P x := by
  rw [List.forall_mem_append, List.forall_mem_cons] at h ⊢
  exact ⟨h.1, hb, h.2.2⟩

theorem eq_or_mem_remove (h : b ∈ earlier ++ a :: later) : b = a ∨ b ∈ earlier ++ later := by
  rw [List.mem_append, List.mem_cons] at h
  rw [List.mem_append]
  rcases h with h | h | h
  · exact Or.inr (Or.inl h)
  · exact Or.inl h
  · exact Or.inr (Or.inr h)

theorem mem_of_mem_remove (h : b ∈ earlier ++ later) : b ∈ earlier ++ a :: later := by
  rw [List.mem_append] at h
  rw [List.mem_append, List.mem_cons]
  exact h.imp_right Or.inr

end Apart

namespace System

variable {I : Interface} {Q : Type} {A : Q → Type} {σ E : Type} (S : System I A σ E)

/-- The flight at a position takes its next step, which is its end if it is done. -/
def move (i : Nat) (p : Pool I A σ) : Pool I A σ :=
  match p.flights.drop i with
  | [] => p
  | ⟨q, .done a⟩ :: later =>
    { p with flights := p.flights.take i ++ later, results := ⟨q, a⟩ :: p.results }
  | ⟨q, .ask c next⟩ :: later =>
    { p with
      state := (S.answer c p.state).2
      flights := p.flights.take i ++ ⟨q, next (S.answer c p.state).1⟩ :: later }

/-- One turn of a schedule. -/
def turn (p : Pool I A σ) : Turn Q E → Pool I A σ
  | .start q => { p with flights := p.flights ++ [⟨q, S.serve q⟩], begun := q :: p.begun }
  | .move i => S.move i p
  | .pass e => { p with state := S.outside e p.state }

/-- The pool after a schedule. -/
def play (schedule : List (Turn Q E)) (p : Pool I A σ) : Pool I A σ := schedule.foldl S.turn p

@[simp] theorem play_nil (p : Pool I A σ) : S.play [] p = p := rfl

@[simp] theorem play_cons (t : Turn Q E) (ts : List (Turn Q E)) (p : Pool I A σ) :
    S.play (t :: ts) p = S.play ts (S.turn p t) := rfl

theorem play_append (ts us : List (Turn Q E)) (p : Pool I A σ) :
    S.play (ts ++ us) p = S.play us (S.play ts p) := by
  unfold play
  rw [List.foldl_append]

/-! ## What a turn can do -/

/-- **The step of a flight.** It does nothing, it is the end of a flight that is done, or it is one
question of a flight that is not, answered from the shared state. -/
theorem move_cases (i : Nat) (p : Pool I A σ) :
    S.move i p = p ∨
    (∃ earlier q a later, p.flights = earlier ++ ⟨q, .done a⟩ :: later ∧
      S.move i p =
        { p with flights := earlier ++ later, results := ⟨q, a⟩ :: p.results }) ∨
    (∃ earlier q c next later, p.flights = earlier ++ ⟨q, .ask c next⟩ :: later ∧
      S.move i p =
        { p with
          state := (S.answer c p.state).2
          flights := earlier ++ ⟨q, next (S.answer c p.state).1⟩ :: later }) := by
  have hsplit : p.flights = p.flights.take i ++ p.flights.drop i :=
    (List.take_append_drop i p.flights).symm
  unfold move
  split
  · next => exact Or.inl rfl
  · next q a later h =>
    rw [h] at hsplit
    exact Or.inr (Or.inl ⟨_, q, a, later, hsplit, rfl⟩)
  · next q c next later h =>
    rw [h] at hsplit
    exact Or.inr (Or.inr ⟨_, q, c, next, later, hsplit, rfl⟩)

/-- The end of a flight leaves the shared state as it is. -/
theorem state_move_of_done {i : Nat} {p : Pool I A σ}
    (h : ∀ f, p.flights[i]? = some f → ∃ a, f.rest = .done a) : (S.move i p).state = p.state := by
  unfold move
  split
  · rfl
  · rfl
  · next q c next later hdrop =>
    have hi : p.flights[i]? = some ⟨q, .ask c next⟩ := by
      have hhead := congrArg (·[0]?) hdrop
      simpa [List.getElem?_drop] using hhead
    obtain ⟨a, ha⟩ := h _ hi
    cases ha

/-- **Induction over a schedule.** A property of pools that survives an arrival, the end of a
flight, one question of a flight and an event from outside holds after every schedule. -/
theorem play_keeps {P : Pool I A σ → Prop}
    (start : ∀ s fs qs rs q, P ⟨s, fs, qs, rs⟩ → P ⟨s, fs ++ [⟨q, S.serve q⟩], q :: qs, rs⟩)
    (finish : ∀ s earlier later qs rs q a, P ⟨s, earlier ++ ⟨q, .done a⟩ :: later, qs, rs⟩ →
      P ⟨s, earlier ++ later, qs, ⟨q, a⟩ :: rs⟩)
    (ask : ∀ s earlier later qs rs q c next,
      P ⟨s, earlier ++ ⟨q, .ask c next⟩ :: later, qs, rs⟩ →
      P ⟨(S.answer c s).2, earlier ++ ⟨q, next (S.answer c s).1⟩ :: later, qs, rs⟩)
    (outside : ∀ e s fs qs rs, P ⟨s, fs, qs, rs⟩ → P ⟨S.outside e s, fs, qs, rs⟩)
    (schedule : List (Turn Q E)) {p : Pool I A σ} (hp : P p) : P (S.play schedule p) := by
  induction schedule generalizing p with
  | nil => exact hp
  | cons t ts ih =>
    rw [play_cons]
    -- the first turn is all that is left to look at; by `move_cases` the step of a flight is one of
    -- three
    apply ih
    obtain ⟨s, fs, qs, rs⟩ := p
    cases t with
    | start q => exact start s fs qs rs q hp
    | pass e => exact outside e s fs qs rs hp
    | move i =>
      show P (S.move i ⟨s, fs, qs, rs⟩)
      rcases S.move_cases i ⟨s, fs, qs, rs⟩ with h | ⟨l, q, a, r, hf, h⟩ | ⟨l, q, c, next, r, hf, h⟩
      · rw [h]; exact hp
      · rw [h]
        obtain rfl : fs = l ++ ⟨q, .done a⟩ :: r := hf
        exact finish s l r qs rs q a hp
      · rw [h]
        obtain rfl : fs = l ++ ⟨q, .ask c next⟩ :: r := hf
        exact ask s l r qs rs q c next hp

/-! ## Who was answered -/

/-- No request is lost and none is answered twice, whatever the programs ask. -/
theorem tallied_play (schedule : List (Turn Q E)) {p : Pool I A σ} (h : p.Tallied) :
    (S.play schedule p).Tallied := by
  refine S.play_keeps ?_ ?_ ?_ ?_ schedule h
  · intro s fs qs rs q h
    unfold Pool.Tallied at h ⊢
    rw [List.map_append, List.append_assoc]
    exact (h.cons q).trans List.perm_middle.symm
  · intro s earlier later qs rs q a h
    unfold Pool.Tallied at h ⊢
    rw [List.map_append, List.map_cons] at h
    rw [List.map_append, List.map_cons]
    refine h.trans ?_
    rw [List.append_assoc, List.append_assoc]
    refine List.Perm.append_left _ ?_
    exact List.perm_middle.symm
  · intro s earlier later qs rs q c next h
    unfold Pool.Tallied at h ⊢
    rw [List.map_append, List.map_cons] at h ⊢
    exact h
  · intro e s fs qs rs h
    exact h

end System

end Gatehouse
