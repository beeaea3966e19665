import Gatehouse.Command.Run
import Gatehouse.Service.World
import Gatehouse.Sql.Rehearsal

/-!
# Gatehouse.Command.Rehearsal — a host held in memory

A `RehearsalHost` answers every step of a command from values: its files, a world for the service,
a database that only answers, and what was printed and remarked so far.  Nobody listens on it.

A command is a program over its host, so it can be run on any host that answers its steps.  This one
is a function of values, which makes a whole command line a function of its arguments, its
environment and what the host held before: `RehearsalHost.run`.  What it comes to is the subject of
`Gatehouse.Proofs.Command.Rehearsal`, where the service on this host is compared with the service in
a `World`.
-/

namespace Gatehouse

/-- A host in memory.  There is a database only under `url`, and it refuses connections if it has a
reason to; texts that were printed and remarks that were written are newest first. -/
structure RehearsalHost where
  files : String → Except String String
  world : World
  url : Option String
  refusal : Option Sql.DatabaseError
  database : Sql.Script
  printed : List String
  remarks : List (LogFormat × TraceEntry)

namespace RehearsalHost

/-- The answer to an attempt to connect.  Any other url than that of the database is one at which
nobody answers. -/
def connect (h : RehearsalHost) (url : String) : Except Sql.ConnectError Unit :=
  if h.url = some url then
    match h.refusal with
    | some e => .error (.refused e)
    | none => .ok ()
  else .error (.unreachable "Connection refused (os error 111)")

/-- The answer to a step of a command. -/
def answer : (c : HostCall) → RehearsalHost → c.Reply × RehearsalHost
  | .readFile path, h => (h.files path, h)
  | .service c, h =>
    let (reply, world) := h.world.answer c
    (reply, { h with world })
  | .connect url _, h => (h.connect url, h)
  | .database c, h =>
    let (reply, database) := Sql.Script.answer c h.database
    (reply, { h with database })
  | .pending, h => ((h.world.outbox.pending.length : Nat), h)
  | .print s, h => ((), { h with printed := s :: h.printed })
  | .remark format e, h => ((), { h with remarks := (format, e) :: h.remarks })
  | .listen _, h => (.error "Address already in use (os error 98)", h)

/-- Runs the program with a command line and an environment. -/
def run (args : List String) (env : Environment) (h : RehearsalHost) :
    Except RunError Unit × RehearsalHost :=
  Program.run RehearsalHost.answer (Run.commandLine args env).run h

end RehearsalHost

end Gatehouse
