import Gatehouse.Command.Run
import Gatehouse.Config.Setting
import Gatehouse.Service.World
import Gatehouse.Text.Utf8
import Gatehouse.Trace.Document
import Std.Time.DateTime.Timestamp

/-!
# Gatehouse.Main — the program on a machine

Everything that touches the machine stands here: files, the environment, the clock, random names,
and the two streams.  What is done with them is `Run.commandLine`.

This machine has no database and no listener; a command that needs one is told so.

The service itself runs in a `World`, as it does where it is reasoned about; what the machine adds
is the time, which is put into the world before each step, and a number from which the world draws
names.  So the program that is started is the one that the theorems are about, and only this module
is not covered by them: that the clock tells the time, that numbers are random, and that what is
printed appears.
-/

namespace Gatehouse.Machine

open Gatehouse.Text Gatehouse.Time

/-- The nanoseconds since 1970. -/
def clock : IO Nat := do
  let t ← Std.Time.Timestamp.now
  return t.toNanosecondsSinceUnixEpoch.val.toNat

/-- A random number of 128 bits. -/
def randomNumber : IO Nat := do
  let bytes ← IO.getRandomBytes 16
  return bytes.toList.foldl (fun n b => n * 256 + b.toNat) 0

/-- The words of the operating system for a failure. -/
def failureText : IO.Error → String
  | .noFileOrDirectory _ _ _ => "No such file or directory (os error 2)"
  | .permissionDenied _ _ _ => "Permission denied (os error 13)"
  | .inappropriateType _ _ _ => "Is a directory (os error 21)"
  | e => toString e

/-- The contents of a file, or why they cannot be read. -/
def readText (path : String) : IO (Except String String) := do
  match ← (IO.FS.readBinFile path).toBaseIO with
  | .error e => return .error (failureText e)
  | .ok bytes =>
    match Utf8.decode? bytes.toList with
    | some s => return .ok s
    | none => return .error "stream did not contain valid UTF-8"

/-- The variables of the environment that the program asks for. -/
def environment : IO Environment := do
  let names := "RUST_LOG" :: Setting.all.map Setting.envName
  let values ← names.mapM fun name => return (name, ← IO.getEnv name)
  return fun name => (values.lookup name).join

/-- Writes a remark. -/
def remark (format : LogFormat) (e : TraceEntry) : IO Unit := do
  let now := Timestamp.ofNanos (← clock)
  match format with
  | .json => IO.println (e.toJson now).render
  | .pretty => IO.println s!"  {now.render} {e.level.name} {e.target} {e.fieldsToJson.render}"

/-- Answers a step of a command. -/
def answer : (c : HostCall) → World → IO (c.Reply × World)
  | .readFile path, w => return (← readText path, w)
  | .service c, w => return World.answer c { w with clock := ← clock }
  | .connect _ _, w =>
    let reply : Except Sql.ConnectError Unit := .error (.unreachable "no database is reachable")
    return (reply, w)
  | .database (.execute _ _), w =>
    let reply : Except Sql.DatabaseError Sql.Outcome := .error ⟨"08003", "not connected"⟩
    return (reply, w)
  | .database (.note e), w => return World.answer (.note e) w
  | .pending, w => return ((w.outbox.pending.length : Nat), w)
  | .print s, w => do
    IO.println s
    return ((), w)
  | .remark format e, w => do
    remark format e
    return ((), w)
  | .listen _, w =>
    let reply : Except String Unit := .error "Operation not supported (os error 95)"
    return (reply, w)

/-- Answers every step of a program. -/
def perform {α : Type} : Program host α → World → IO α
  | .done a, _ => return a
  | .ask c next, w => do
    let (reply, w) ← answer c w
    perform (next reply) w

/-- Ends with the code of an outcome, and says what went wrong. -/
def finish : Except RunError Unit → IO UInt32
  | .ok () => return 0
  | .error (.usage e) => do
    if e.exitCode = 0 then IO.println e.message else IO.eprintln e.message
    return e.exitCode.toUInt32
  | .error e => do
    IO.eprintln s!"Error: {e.message}"
    return e.exitCode.toUInt32

/-- Does what a command line says. -/
def run (args : List String) : IO UInt32 := do
  let env ← environment
  let w := World.empty 0 (← clock)
  finish (← perform (Run.commandLine args env).run { w with ids := ← randomNumber })

end Gatehouse.Machine

/-- The program. -/
def main (args : List String) : IO UInt32 := Gatehouse.Machine.run args
