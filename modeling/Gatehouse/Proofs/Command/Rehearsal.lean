import Gatehouse.Command.Rehearsal
import Gatehouse.Proofs.Program

/-!
# Gatehouse.Proofs.Command.Rehearsal — command lines over a host in memory

The theory of the service is about procedures in a `World`.  What a user starts is a command line,
which reads settings, chooses a backend, sends remarks through a filter and prints.  This module
says how much of that is the service: over a host in memory, a procedure of a command does to the
host what it does to the world, and the remarks that it would have left in the world are written
instead, those that pass the filter and in their order (`written_procedure`).

The proof compares two runs of one program answer by answer.  Remarks are the only steps on which
they differ, and no answer of a world depends on its remarks, so the host can be told from the world
at every moment (`seen`).

* `run_course` : what becomes of any command line.  One that cannot be read, or whose settings
  cannot be loaded, leaves no trace; all others do what their command says.
* `written_issueToken` : a command that issues tokens prints the pair that the service answers with,
  or ends in its error and prints nothing.
* `run_issueToken` : the same of a whole command line.
-/

namespace Gatehouse.RehearsalHost

open Run

/-! ## Runs of commands -/

/-- Answers every step of a program from a host. -/
def perform {α : Type} (p : Program host α) (h : RehearsalHost) : α × RehearsalHost :=
  p.run RehearsalHost.answer h

section Written

variable {format : LogFormat} {filter : Filter} {α β : Type} {x : Run α} {f : α → Run β}
  {h h' : RehearsalHost}

/-- What goes well is followed by the rest of a command. -/
theorem perform_bind_ok {a : α} (hx : perform x.run h = (.ok a, h')) :
    perform (x >>= f).run h = perform (f a).run h' := by
  refine (Program.run_bind (I := host) answer x.run (ExceptT.bindCont f) h).trans ?_
  show perform (ExceptT.bindCont f (perform x.run h).1) (perform x.run h).2 = _
  rw [hx]
  rfl

/-- What fails ends a command. -/
theorem perform_bind_error {e : RunError} (hx : perform x.run h = (.error e, h')) :
    perform (x >>= f).run h = (.error e, h') := by
  refine (Program.run_bind (I := host) answer x.run (ExceptT.bindCont f) h).trans ?_
  show perform (ExceptT.bindCont f (perform x.run h).1) (perform x.run h).2 = _
  rw [hx]
  rfl

/-- What a command comes to, its remarks written through a filter. -/
def written (format : LogFormat) (filter : Filter) (x : Run α) (h : RehearsalHost) :
    Except RunError α × RehearsalHost :=
  perform (x.run.interpret (writing format filter)) h

/-- The parts of a command are written one after the other. -/
theorem written_bind (h : RehearsalHost) : written format filter (x >>= f) h =
    perform (ExceptT.mk (x.run.interpret (writing format filter)) >>= fun a =>
      ExceptT.mk ((f a).run.interpret (writing format filter)) : Run β).run h := by
  refine congrArg (perform · h) ((Program.interpret_bind _ x.run (ExceptT.bindCont f)).trans ?_)
  refine congrArg (Program.bind _) (funext fun outcome => ?_)
  cases outcome with
  | ok a => rfl
  | error e => rfl

theorem written_bind_ok {a : α} (hx : written format filter x h = (.ok a, h')) :
    written format filter (x >>= f) h = written format filter (f a) h' :=
  (written_bind h).trans (perform_bind_ok hx)

theorem written_bind_error {e : RunError} (hx : written format filter x h = (.error e, h')) :
    written format filter (x >>= f) h = (.error e, h') :=
  (written_bind h).trans (perform_bind_error hx)

/-- A step is taken as the filter has it. -/
theorem written_step (c : HostCall) (h : RehearsalHost) : written format filter (step c) h =
    (.ok (perform (writing format filter c) h).1, (perform (writing format filter c) h).2) :=
  Program.run_bind (I := host) RehearsalHost.answer (writing format filter c)
    (fun reply => .done (.ok reply : Except RunError _)) h

end Written

/-! ## The service -/

section Service

variable {format : LogFormat} {filter : Filter} {h : RehearsalHost}

/-- The host once the service has left a world behind that had no remarks before: these have been
written, and the remarks of its own world are what they were. -/
def seen (format : LogFormat) (filter : Filter) (h : RehearsalHost) (w : World) : RehearsalHost :=
  { h with
    world := { w with trace := h.world.trace }
    remarks := (w.trace.filter filter.admits).map (format, ·) ++ h.remarks }

/-- The world of a host before the service has said anything. -/
def silent (h : RehearsalHost) : World := { h.world with trace := [] }

/-- A remark is written if it passes the filter. -/
theorem perform_note (w : World) (e : TraceEntry) :
    perform (writing format filter (.service (.note e))) (seen format filter h w) =
      ((), seen format filter h (w.remark e)) := by
  by_cases hadmits : filter.admits e = true
  · have hwriting : writing format filter (.service (.note e)) =
        Program.query (I := host) (.remark format e) := if_pos hadmits
    refine (congrArg (perform · _) hwriting).trans (congrArg (Prod.mk ()) ?_)
    unfold seen World.remark
    rw [List.filter_cons_of_pos hadmits]
    rfl
  · have hwriting : writing format filter (.service (.note e)) = .done () := if_neg hadmits
    refine (congrArg (perform · _) hwriting).trans (congrArg (Prod.mk ()) ?_)
    unfold seen World.remark
    rw [List.filter_cons_of_neg hadmits]

theorem written_note (w : World) (level : Level) (message : String)
    (fields : List (String × FieldValue)) :
    written format filter (note level message fields) (seen format filter h w) =
      (.ok (), seen format filter h (w.remark (.remark level Run.target message fields))) := by
  refine (written_step _ _).trans ?_
  exact congrArg (fun ended => (Except.ok ended.1, ended.2)) (perform_note w _)

/-- Every step of the service is answered as the world answers it. -/
theorem perform_service (c : ServiceCall) (w : World) :
    perform (writing format filter (.service c)) (seen format filter h w) =
      ((w.answer c).1, seen format filter h (w.answer c).2) := by
  cases c with
  | store c =>
      show (((seen format filter h w).world.answerStore c).1,
        { seen format filter h w with
          world := ((seen format filter h w).world.answerStore c).2 }) =
        ((w.answerStore c).1, seen format filter h (w.answerStore c).2)
      unfold World.answerStore
      -- a call is planned to fail in both worlds or in neither
      by_cases hfault : w.faults.contains c.name = true
      · rw [if_pos hfault, if_pos (show (seen format filter h w).world.faults.contains _ = true
          from hfault)]
      · rw [if_neg hfault, if_neg (show ¬(seen format filter h w).world.faults.contains _ = true
          from hfault)]
        rfl
  | cache c =>
      show (((seen format filter h w).world.answerCache c).1,
        { seen format filter h w with
          world := ((seen format filter h w).world.answerCache c).2 }) =
        ((w.answerCache c).1, seen format filter h (w.answerCache c).2)
      unfold World.answerCache
      by_cases hfault : w.faults.contains c.name = true
      · rw [if_pos hfault, if_pos (show (seen format filter h w).world.faults.contains _ = true
          from hfault)]
      · rw [if_neg hfault, if_neg (show ¬(seen format filter h w).world.faults.contains _ = true
          from hfault)]
        rfl
  | journal c =>
      cases c with
      | note e => exact perform_note w e
      | probe | append | push | pop => rfl
  | note e => exact perform_note w e
  | clock | freshId | countLookup | countCall | countRequest | countOutcome | counts => rfl

/-- **The service of a command.**  A procedure over the backend in memory ends as in the world of
the host, and leaves the host as it is seen from the world that it leaves there. -/
theorem written_procedure {α : Type} (p : Procedure α) (w : World) :
    written format filter (procedure .memory p) (seen format filter h w) =
      ((w.run p).1.mapError .api, seen format filter h (w.run p).2) := by
  have hrun : perform ((p.run.interpret (Run.answer .memory)).interpret (writing format filter))
      (seen format filter h w) = ((w.run p).1, seen format filter h (w.run p).2) := by
    refine (Program.run_interpret_eq _ _ _ _).trans ((Program.run_interpret_eq _ _ _ _).trans ?_)
    exact Program.run_map perform_service p.run w
  have hinterpret := Program.interpret_bind (writing format filter)
    (p.run.interpret (Run.answer .memory)) fun outcome => .done (outcome.mapError RunError.api)
  have hbind := Program.run_bind (I := host) RehearsalHost.answer
    ((p.run.interpret (Run.answer .memory)).interpret (writing format filter))
    (fun outcome => .done (outcome.mapError RunError.api)) (seen format filter h w)
  refine (congrArg (perform · _) hinterpret).trans (hbind.trans ?_)
  exact congrArg (fun ended => (Except.mapError RunError.api ended.1, ended.2)) hrun

/-! ## Issuing tokens -/

theorem written_connectBackend {c : Config} (hmemory : c.database.backend = .memory)
    (h : RehearsalHost) : written format filter (connectBackend c) h = (.ok (), h) := by
  unfold connectBackend
  rw [hmemory]
  rfl

/-- The world after the remark that records are waiting, if there are any. -/
def reported (w : World) : World :=
  let waiting := w.outbox.pending.length
  if 0 < waiting then
    w.remark (.remark .warn Run.target "token issued but its event could not be recorded"
      [("pending", .number waiting)])
  else w

/-- **Issuing tokens.**  The service is asked for a pair of tokens.  The error that it ends in is
the error of the command, and nothing is printed; the pair that it answers with is printed, even if
there are records that wait to be published, and these are remarked on. -/
theorem written_issueToken {c : Config} (hmemory : c.database.backend = .memory)
    (request : IssueRequest) (h : RehearsalHost) :
    let ended := h.silent.run (compose c.token.toIssuer c.events (.issue request))
    (∀ e, ended.1 = .error e → written format filter (issueToken c request) h =
      (.error (.api e), seen format filter h ended.2)) ∧
    ∀ pair : TokenPair, ended.1 = .ok pair → written format filter (issueToken c request) h =
      (.ok (), { seen format filter h (reported ended.2) with
        printed := pair.toJson.renderPretty :: h.printed }) := by
  intro ended
  have hprocedure : written format filter (procedure c.database.backend
      (compose c.token.toIssuer c.events (.issue request))) h =
        (ended.1.mapError .api, seen format filter h ended.2) := by
    rw [hmemory]
    exact written_procedure _ h.silent
  constructor
  · intro e he
    rw [he] at hprocedure
    exact (written_bind_ok (written_connectBackend hmemory h)).trans
      (written_bind_error hprocedure)
  · intro pair hpair
    rw [hpair] at hprocedure
    refine (written_bind_ok (written_connectBackend hmemory h)).trans
      ((written_bind_ok hprocedure).trans ?_)
    -- what could not be delivered is counted for the remark at the end
    have hpending : written format filter (step .pending) (seen format filter h ended.2) =
      (.ok ended.2.outbox.pending.length, seen format filter h ended.2) := rfl
    refine (written_bind_ok hpending).trans ?_
    unfold reported
    dsimp only
    split
    · exact (written_bind_ok (written_note _ _ _ _)).trans rfl
    · rfl

end Service

/-! ## Command lines -/

/-- The source of the settings that a command line names, as the host has it. -/
def sourceOf (h : RehearsalHost) : Option String → ConfigSource
  | none => .none
  | some path => match h.files path with
    | .ok contents => .text contents
    | .error reason => .unreadable path reason

/-- A file is read, and nothing changes. -/
theorem perform_source (h : RehearsalHost) (path : Option String) :
    perform (ExceptT.lift (source path) : Run ConfigSource).run h =
      (.ok (h.sourceOf path), h) := by
  cases path with
  | none => rfl
  | some path =>
      have hread : perform (source (some path)) h = (h.sourceOf (some path), h) := by
        have hasked : perform (source (some path)) h = perform (match h.files path with
          | .ok contents => .done (ConfigSource.text contents)
          | .error reason => .done (ConfigSource.unreadable path reason)) h := rfl
        rw [hasked, sourceOf]
        cases h.files path with
        | ok contents => rfl
        | error reason => rfl
      refine (Program.run_bind (I := host) answer (source (some path))
        (fun s => .done (.ok s : Except RunError _)) h).trans ?_
      exact congrArg (fun ended => (Except.ok ended.1, ended.2)) hread

/-- **Command lines.**  A command line that cannot be read ends in what is wrong with it, and one
whose settings cannot be loaded in what is wrong with them; the host is as it was then.  Any other
does what its command says, with the settings of the file that it names, and its remarks are written
in the format and through the filter of these. -/
theorem run_course (args : List String) (env : Environment) (h : RehearsalHost) :
    (∀ e, Invocation.ofArguments args = .error e → h.run args env = (.error (.usage e), h)) ∧
    ∀ invocation, Invocation.ofArguments args = .ok invocation →
      (∀ e, Config.load (h.sourceOf invocation.config) env = .error e →
        h.run args env = (.error (.config e), h)) ∧
      ∀ c, Config.load (h.sourceOf invocation.config) env = .ok c →
        h.run args env =
          written c.log.format (Run.filter c env) (command c invocation.command) h := by
  have harguments : ∀ outcome, Invocation.ofArguments args = outcome →
      perform (ExceptT.mk (return (Invocation.ofArguments args).mapError .usage) :
        Run Invocation).run h = (outcome.mapError .usage, h) := by
    rintro _ rfl
    rfl
  have hload : ∀ source outcome, Config.load source env = outcome →
      perform (load source env).run h = (outcome.mapError .config, h) := by
    rintro source _ rfl
    rfl
  refine ⟨fun e he => perform_bind_error (harguments _ he), fun invocation hinvocation => ?_⟩
  refine ⟨fun e he => ?_, fun c hc => ?_⟩
  · refine (perform_bind_ok (harguments _ hinvocation)).trans ?_
    refine (perform_bind_ok (perform_source h invocation.config)).trans ?_
    exact perform_bind_error (hload _ _ he)
  · refine (perform_bind_ok (harguments _ hinvocation)).trans ?_
    refine (perform_bind_ok (perform_source h invocation.config)).trans ?_
    exact perform_bind_ok (hload _ _ hc)

/-- **A command line that issues tokens** prints the pair that the service answers with, where its
settings keep everything in memory. -/
theorem run_issueToken {args : List String} {env : Environment} {h : RehearsalHost}
    {invocation : Invocation} (hinvocation : Invocation.ofArguments args = .ok invocation)
    {c : Config} (hload : Config.load (h.sourceOf invocation.config) env = .ok c)
    (hmemory : c.database.backend = .memory) {subject : String} {role : Role}
    (hcommand : invocation.command = some (.issueToken subject role)) {pair : TokenPair}
    (hissued :
      (h.silent.run (compose c.token.toIssuer c.events (.issue { subject, role }))).1 = .ok pair) :
    (h.run args env).1 = .ok () ∧
      (h.run args env).2.printed = pair.toJson.renderPretty :: h.printed := by
  rw [((run_course args env h).2 invocation hinvocation).2 c hload, hcommand]
  have hwritten : written c.log.format (Run.filter c env) (issueToken c { subject, role }) h = _ :=
    (written_issueToken hmemory { subject, role } h).2 pair hissued
  exact ⟨congrArg Prod.fst hwritten, congrArg (fun ended => ended.2.printed) hwritten⟩

end Gatehouse.RehearsalHost
