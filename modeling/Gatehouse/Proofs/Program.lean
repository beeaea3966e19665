import Gatehouse.Program

/-!
# Gatehouse.Proofs.Program — what holds of a program whatever it is answered

`Asks P p` says that `p` puts no question outside `P`, and `Returns P p` that it ends in no value
outside `P`, whoever answers; `ReturnsIf A P p` says the latter of answers within `A`.  `eval`
answers every question by a fact, the same one each time.  `run_map` compares runs over two kinds of
states, and `transcript` lists what is asked in a run and what is replied.

Steps can be noted as they are taken.  `Tells` says what is noted of a program and what it ends in,
whoever answers, and `run_tells` carries that over to a run.  All of these follow the sequencing of
programs.

The properties are those of the program and not of a run, which is what makes them cheap to prove:
each is defined by recursion on the program, a procedure is put together from smaller ones by
sequencing, and there is one lemma on sequencing for each property.  What they say of a run comes
last and only once, as an induction on the program with any state and any way of answering.

Most of the theory uses them in this order.  What an operation may do is said of its program; what a
world or a database does with one question is said of that question; and a lemma of this module puts
the two together.
-/

namespace Gatehouse.Program

variable {I J : Interface} {α β σ ε : Type}

/-! ## Questions and values -/

/-- Every question that a program may put satisfies `P`. -/
def Asks (P : I.Call → Prop) : Program I α → Prop
  | .done _ => True
  | .ask c next => P c ∧ ∀ reply, (next reply).Asks P

/-- Every value that a program may end in satisfies `P`. -/
def Returns (P : α → Prop) : Program I α → Prop
  | .done a => P a
  | .ask _ next => ∀ reply, (next reply).Returns P

/-- What two programs ask one after the other is what each of them asks. -/
theorem asks_bind {P : I.Call → Prop} {p : Program I α} {f : α → Program I β} (hp : p.Asks P)
    (hf : ∀ a, (f a).Asks P) : (p.bind f).Asks P := by
  induction p with
  | done a => exact hf a
  | ask c next ih => exact ⟨hp.1, fun reply => ih reply (hp.2 reply)⟩

/-- An interpretation asks what the interpretations of the questions ask. -/
theorem asks_interpret {P : J.Call → Prop} {answer : (c : I.Call) → Program J (I.Reply c)}
    (h : ∀ c, (answer c).Asks P) (p : Program I α) : (p.interpret answer).Asks P := by
  induction p with
  | done a => trivial
  | ask c next ih => exact asks_bind (h c) ih

/-- The value of the first program is all that the second one knows of it. -/
theorem returns_bind {P : α → Prop} {R : β → Prop} {p : Program I α} {f : α → Program I β}
    (hp : p.Returns P) (hf : ∀ a, P a → (f a).Returns R) : (p.bind f).Returns R := by
  induction p with
  | done a => exact hf a hp
  | ask c next ih => exact fun reply => ih reply (hp reply)

/-- Every value that a program may end in satisfies `P`, as long as every answer satisfies `A`. -/
def ReturnsIf (A : (c : I.Call) → I.Reply c → Prop) (P : α → Prop) : Program I α → Prop
  | .done a => P a
  | .ask c next => ∀ reply, A c reply → (next reply).ReturnsIf A P

/-- So it is under assumptions on the answers. -/
theorem returnsIf_bind {A : (c : I.Call) → I.Reply c → Prop} {P : α → Prop} {R : β → Prop}
    {p : Program I α} {f : α → Program I β} (hp : p.ReturnsIf A P)
    (hf : ∀ a, P a → (f a).ReturnsIf A R) : (p.bind f).ReturnsIf A R := by
  induction p with
  | done a => exact hf a hp
  | ask c next ih => exact fun reply hreply => ih reply (hp reply hreply)

/-- What holds of all values needs no assumption. -/
theorem returnsIf_of_forall {A : (c : I.Call) → I.Reply c → Prop} {P : α → Prop} (h : ∀ a, P a)
    (p : Program I α) : p.ReturnsIf A P := by
  induction p with
  | done a => exact h a
  | ask c next ih => exact fun reply _ => ih reply

/-- Whoever answers as assumed gets a value as promised. -/
theorem run_returnsIf {A : (c : I.Call) → I.Reply c → Prop} {P : α → Prop}
    {answer : (c : I.Call) → σ → I.Reply c × σ} (h : ∀ c s, A c (answer c s).1)
    {p : Program I α} (hp : p.ReturnsIf A P) (s : σ) : P (p.run answer s).1 := by
  induction p generalizing s with
  | done a => exact hp
  | ask c next ih => exact ih _ (hp _ (h c s)) _

/-- What is assumed of the answers holds of a program whose questions are interpreted so. -/
theorem returns_interpret {A : (c : J.Call) → J.Reply c → Prop} {P : α → Prop}
    {answer : (c : J.Call) → Program I (J.Reply c)} (h : ∀ c, (answer c).Returns (A c))
    {p : Program J α} (hp : p.ReturnsIf A P) : (p.interpret answer).Returns P := by
  induction p with
  | done a => exact hp
  | ask c next ih => exact returns_bind (h c) fun reply hreply => ih reply (hp reply hreply)

theorem returns_any (p : Program I α) : p.Returns fun _ => True := by
  induction p with
  | done a => trivial
  | ask c next ih => exact ih

/-! ## Facts -/

/-- The value of a program whose questions are answered by facts. -/
def eval (facts : (c : I.Call) → I.Reply c) : Program I α → α
  | .done a => a
  | .ask c next => (next (facts c)).eval facts

/-- The facts are the same for both parts of a program. -/
theorem eval_bind (facts : (c : I.Call) → I.Reply c) (p : Program I α) (f : α → Program I β) :
    (p.bind f).eval facts = (f (p.eval facts)).eval facts := by
  induction p with
  | done a => rfl
  | ask c next ih => exact ih (facts c)

/-- A program that is interpreted ends in its value on the facts, if the interpretation of every
question gives the fact and keeps an invariant under which it does. -/
theorem run_interpret {facts : (c : I.Call) → I.Reply c} {f : (c : I.Call) → Program J (I.Reply c)}
    {answer : (c : J.Call) → σ → J.Reply c × σ} {Inv : σ → Prop}
    (h : ∀ c s, Inv s → ((f c).run answer s).1 = facts c ∧ Inv ((f c).run answer s).2)
    (p : Program I α) {s : σ} (hs : Inv s) :
    ((p.interpret f).run answer s).1 = p.eval facts ∧ Inv ((p.interpret f).run answer s).2 := by
  induction p generalizing s with
  | done a => exact ⟨rfl, hs⟩
  | ask c next ih =>
      obtain ⟨hvalue, hinv⟩ := h c s hs
      have hrun : ((ask c next).interpret f).run answer s =
          ((next (facts c)).interpret f).run answer ((f c).run answer s).2 := by
        rw [← hvalue]
        exact run_bind answer (f c) (fun r => (next r).interpret f) s
      rw [hrun]
      exact ih _ hinv

/-! ## States behind states -/

/-- If every answer is the same on what `f` makes of a state, then so is every run. -/
theorem run_map {τ : Type} {answer : (c : I.Call) → σ → I.Reply c × σ}
    {answer' : (c : I.Call) → τ → I.Reply c × τ} {f : σ → τ}
    (h : ∀ c s, answer' c (f s) = ((answer c s).1, f (answer c s).2)) (p : Program I α) (s : σ) :
    p.run answer' (f s) = ((p.run answer s).1, f (p.run answer s).2) := by
  induction p generalizing s with
  | done a => rfl
  | ask c next ih =>
      rw [run_ask, h]
      exact ih _ _

/-! ## Transcripts -/

/-- The questions of a run with their replies, in the order in which they are put. -/
def transcript (answer : (c : I.Call) → σ → I.Reply c × σ) :
    Program I α → σ → List ((c : I.Call) × I.Reply c)
  | .done _, _ => []
  | .ask c next, s =>
    ⟨c, (answer c s).1⟩ :: (next (answer c s).1).transcript answer (answer c s).2

/-- The questions of a run, in the order in which they are put. -/
def asked (answer : (c : I.Call) → σ → I.Reply c × σ) (p : Program I α) (s : σ) : List I.Call :=
  (p.transcript answer s).map Sigma.fst

@[simp] theorem asked_ask (answer : (c : I.Call) → σ → I.Reply c × σ) (c : I.Call)
    (next : I.Reply c → Program I α) (s : σ) :
    (ask c next).asked answer s = c :: (next (answer c s).1).asked answer (answer c s).2 := rfl

theorem transcript_bind (answer : (c : I.Call) → σ → I.Reply c × σ) (p : Program I α)
    (f : α → Program I β) (s : σ) : (p.bind f).transcript answer s =
      p.transcript answer s ++ (f (p.run answer s).1).transcript answer (p.run answer s).2 := by
  induction p generalizing s with
  | done a => rfl
  | ask c next ih => exact congrArg (_ :: ·) (ih _ _)

/-- A program that is interpreted runs as if every question were answered by a run of its own. -/
theorem run_interpret_eq (f : (c : I.Call) → Program J (I.Reply c))
    (answer : (c : J.Call) → σ → J.Reply c × σ) (p : Program I α) (s : σ) :
    (p.interpret f).run answer s = p.run (fun c s => (f c).run answer s) s := by
  induction p generalizing s with
  | done a => rfl
  | ask c next ih =>
      refine (run_bind answer (f c) (fun r => (next r).interpret f) s).trans ?_
      exact ih _ _

/-! ## Notes -/

section Notes

variable {P : I.Call → Prop} {note : (c : I.Call) → I.Reply c → List ε}

/-- Whatever a program is answered, it puts no question outside `P`, and what is noted of its steps
satisfies `Q` together with the value that it ends in. -/
def Tells (P : I.Call → Prop) (note : (c : I.Call) → I.Reply c → List ε) :
    Program I α → (List ε → α → Prop) → Prop
  | .done a, Q => Q [] a
  | .ask c next, Q =>
    P c ∧ ∀ reply, (next reply).Tells P note fun es a => Q (note c reply ++ es) a

theorem tells_mono {p : Program I α} {Q R : List ε → α → Prop} (hp : p.Tells P note Q)
    (h : ∀ es a, Q es a → R es a) : p.Tells P note R := by
  induction p generalizing Q R with
  | done a => exact h [] a hp
  | ask c next ih => exact ⟨hp.1, fun reply => ih reply (hp.2 reply) fun es a => h _ a⟩

theorem tells_bind {p : Program I α} {f : α → Program I β} {Q : List ε → α → Prop}
    {R : List ε → β → Prop} (hp : p.Tells P note Q)
    (hf : ∀ es a, Q es a → (f a).Tells P note fun es' b => R (es ++ es') b) :
    (p.bind f).Tells P note R := by
  induction p generalizing Q R with
  | done a => exact hf [] a hp
  | ask c next ih =>
      refine ⟨hp.1, fun reply => ih reply (hp.2 reply) ?_⟩
      intro es a hes
      have hnext := hf (note c reply ++ es) a hes
      simp only [List.append_assoc] at hnext
      exact hnext

/-- What every interpretation of a question tells, a whole program that is interpreted tells, if it
is told of nothing and of what is told one after the other. -/
theorem tells_interpret {Q : List ε → Prop} (hnil : Q [])
    (happend : ∀ es es', Q es → Q es' → Q (es ++ es'))
    {answer : (c : J.Call) → Program I (J.Reply c)}
    (h : ∀ c, (answer c).Tells P note fun es _ => Q es) (p : Program J α) :
    (p.interpret answer).Tells P note fun es _ => Q es := by
  induction p with
  | done a => exact hnil
  | ask c next ih =>
      refine tells_bind (h c) ?_
      intro es reply hes
      exact tells_mono (ih reply) fun es' _ hes' => happend es es' hes hes'

theorem asks_of_tells {p : Program I α} {Q : List ε → α → Prop} (hp : p.Tells P note Q) :
    p.Asks P := by
  induction p generalizing Q with
  | done a => trivial
  | ask c next ih => exact ⟨hp.1, fun reply => ih reply (hp.2 reply)⟩

/-- Whatever the notes, a program tells what it returns. -/
theorem tells_of_returns {R : α → Prop} {p : Program I α} {Q : List ε → α → Prop}
    (hp : p.Returns R) (h : ∀ es a, R a → Q es a) : p.Tells (fun _ => True) note Q := by
  induction p generalizing Q with
  | done a => exact h [] a hp
  | ask c next ih => exact ⟨trivial, fun reply => ih reply (hp reply) fun es => h _⟩

/-- **A run.**  What a program tells holds of its run, and whatever each step does to the state that
fits the notes of it, the run does. -/
theorem run_tells {answer : (c : I.Call) → σ → I.Reply c × σ} {R : σ → List ε → σ → Prop}
    (rest : ∀ s, R s [] s)
    (step : ∀ c s es t, P c → R (answer c s).2 es t → R s (note c (answer c s).1 ++ es) t)
    {p : Program I α} {Q : List ε → α → Prop} (hp : p.Tells P note Q) (s : σ) :
    ∃ es, Q es (p.run answer s).1 ∧ R s es (p.run answer s).2 := by
  induction p generalizing Q s with
  | done a => exact ⟨[], hp, rest s⟩
  | ask c next ih =>
      obtain ⟨es, hes, hrun⟩ := ih _ (hp.2 (answer c s).1) (answer c s).2
      exact ⟨_, hes, step c s es _ hp.1 hrun⟩

end Notes

end Gatehouse.Program
