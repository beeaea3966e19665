/-!
# Gatehouse.Program — computations that ask questions of their surroundings

Every operation of the service is a *program*: a tree that either is done or asks one question and
goes on with the answer.  Which questions exist, and what an answer to each looks like, is an
`Interface`.  A program does not know who answers: a store in memory, a store that fails on demand,
a database driven by statements, or a scheduler that interleaves the questions of several programs.

* `Program.run` answers every question from a state and threads the state through.
* `Program.interpret` answers every question by a program over another interface.
* `run_bind` and `interpret_bind` say that both follow the sequencing of programs.

Every question is one atomic step: between two questions of a program anything else may happen.

That programs are data, and not functions on states, is what the theory rests on.  A program can be
run where questions fail, stopped half way, or taken in turns with others, and in each case it is
the same program.  What is proved of it by induction on the tree, what it asks, in which order, and
what it may end in, holds for all who answer; what depends on the answers is proved of `run` with
one of them.

Sequencing satisfies the laws of a monad (`LawfulMonad`), so programs are written with `do`, and
with `ExceptT` over them where they may end in an error.
-/

namespace Gatehouse

/-! ## Interfaces and programs -/

/-- The questions a program may ask, each with the type of its answer. -/
structure Interface where
  Call : Type
  Reply : Call → Type

/-- A computation that is done or asks one question and continues with its answer. -/
inductive Program (I : Interface) (α : Type) where
  | done (value : α)
  | ask (call : I.Call) (next : I.Reply call → Program I α)

namespace Program

variable {I J : Interface} {α β γ σ : Type}

/-- Runs the second program on the value of the first. -/
def bind : Program I α → (α → Program I β) → Program I β
  | .done a, f => f a
  | .ask c next, f => .ask c fun r => (next r).bind f

instance : Monad (Program I) where
  pure := .done
  bind := bind

/-- The program that asks `c` and answers with what it is told. -/
def query (c : I.Call) : Program I (I.Reply c) := .ask c .done

@[simp] theorem pure_eq_done (a : α) : (pure a : Program I α) = .done a := rfl

@[simp] theorem bind_eq (p : Program I α) (f : α → Program I β) : p >>= f = p.bind f := rfl

@[simp] theorem done_bind (a : α) (f : α → Program I β) : (done a).bind f = f a := rfl

@[simp] theorem ask_bind (c : I.Call) (next : I.Reply c → Program I α) (f : α → Program I β) :
    (ask c next).bind f = .ask c fun r => (next r).bind f := rfl

@[simp] theorem bind_done (p : Program I α) : p.bind .done = p := by
  induction p with
  | done a => rfl
  | ask c next ih => simp [bind, ih]

theorem bind_assoc (p : Program I α) (f : α → Program I β) (g : β → Program I γ) :
    (p.bind f).bind g = p.bind fun a => (f a).bind g := by
  induction p with
  | done a => rfl
  | ask c next ih => simp [bind, ih]

instance : LawfulMonad (Program I) :=
  LawfulMonad.mk' _ (fun p => bind_done p) (fun _ _ => rfl) (fun p f g => bind_assoc p f g)

/-! ## Answering questions -/

/-- Answers every question from a state, in the order in which the questions come. -/
def run (answer : (c : I.Call) → σ → I.Reply c × σ) : Program I α → σ → α × σ
  | .done a, s => (a, s)
  | .ask c next, s => (next (answer c s).1).run answer (answer c s).2

/-- Answers every question by a program over another interface. -/
def interpret (answer : (c : I.Call) → Program J (I.Reply c)) : Program I α → Program J α
  | .done a => .done a
  | .ask c next => (answer c).bind fun r => (next r).interpret answer

variable (answer : (c : I.Call) → σ → I.Reply c × σ)

@[simp] theorem run_done (a : α) (s : σ) : (done a : Program I α).run answer s = (a, s) := rfl

@[simp] theorem run_ask (c : I.Call) (next : I.Reply c → Program I α) (s : σ) :
    (ask c next).run answer s = (next (answer c s).1).run answer (answer c s).2 := rfl

@[simp] theorem run_query (c : I.Call) (s : σ) : (query c).run answer s = answer c s := rfl

/-- A sequence runs its first part and then, from the state it leaves, its second. -/
@[simp] theorem run_bind (p : Program I α) (f : α → Program I β) (s : σ) :
    (p.bind f).run answer s = (f (p.run answer s).1).run answer (p.run answer s).2 := by
  induction p generalizing s with
  | done a => rfl
  | ask c next ih => simp [bind, ih]

@[simp] theorem interpret_done (f : (c : I.Call) → Program J (I.Reply c)) (a : α) :
    (done a : Program I α).interpret f = .done a := rfl

theorem interpret_bind (f : (c : I.Call) → Program J (I.Reply c)) (p : Program I α)
    (g : α → Program I β) :
    (p.bind g).interpret f = (p.interpret f).bind fun a => (g a).interpret f := by
  induction p with
  | done a => rfl
  | ask c next ih => simp [bind, interpret, ih, bind_assoc]

end Program

end Gatehouse
