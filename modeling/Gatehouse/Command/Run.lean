import Gatehouse.Command.Arguments
import Gatehouse.Config.Load
import Gatehouse.Http.Address
import Gatehouse.Service.Layer
import Gatehouse.Sql.Connect
import Gatehouse.Sql.Log
import Gatehouse.Sql.Store
import Gatehouse.Token.Document
import Gatehouse.Trace.Filter

/-!
# Gatehouse.Command.Run — doing what a command line says

A command is a program over its host: the surroundings of the service, a database to connect to, a
place to print, and a listener.  Where the configuration keeps the store and the event log in a
database, the calls to them become statements, and all other steps of the service stay with the
host.

Issuing tokens succeeds even if its event is only kept for later; that is remarked on, for nothing
will publish it any more.

The whole of a command is composed before anything is answered.  `answer` turns the steps of the
service into steps of the host, `procedure` does so for a whole procedure, and `writing` puts the
filter of remarks between a command and its host.  The three are maps from steps to programs, so
that a command is interpreted and not changed: whatever is proved of a procedure holds of it here as
well.

* `migrate`, `issueToken` and `serve` are the commands, and `command` chooses among them.
* `commandLine` is the program: it reads its arguments, loads the configuration, and follows.

Remarks are filtered only once the configuration is known, since the configuration names the filter.
Nothing is remarked on before.
-/

namespace Gatehouse

open Gatehouse.Http

/-! ## The host -/

/-- One step of a command. -/
inductive HostCall where
  | readFile (path : String)
  | service (c : ServiceCall)
  | connect (url : String) (maxConnections : Nat)
  | database (c : Sql.DatabaseCall)
  | pending
  | print (s : String)
  | remark (format : LogFormat) (e : TraceEntry)
  | listen (a : Address)
deriving DecidableEq

/-- What each step is answered with: a file with its contents or with the reason why it cannot be
read, and `pending` with the number of records that wait to be published. -/
def HostCall.Reply : HostCall → Type
  | readFile _ => Except String String
  | service c => c.Reply
  | connect _ _ => Except Sql.ConnectError Unit
  | database c => c.Reply
  | pending => Nat
  | print _ => Unit
  | remark _ _ => Unit
  | listen _ => Except String Unit

/-- The interface between a command and its host. -/
def host : Interface := ⟨HostCall, HostCall.Reply⟩

/-- Why the program failed. -/
inductive RunError where
  | usage (e : UsageError)
  | config (e : ConfigError)
  | api (e : ApiError)
  | storage (e : StorageError)
  | query (e : Sql.QueryError)
  | address (text : String)
  | listener (text : String)
deriving DecidableEq, Repr

namespace RunError

/-- The text of an error. -/
def message : RunError → String
  | usage e => e.message
  | config e => e.message
  | api e => e.message
  | storage e => e.message
  | query e => e.message
  | address text => s!"invalid socket address: {text}"
  | listener text => text

/-- The code with which the program ends. -/
def exitCode : RunError → Nat
  | usage e => e.exitCode
  | _ => 1

end RunError

/-- A command, which may fail. -/
abbrev Run (α : Type) := ExceptT RunError (Program host) α

namespace Run

/-- The target of the remarks of commands. -/
def target : String := "corral_server"

/-- One step. -/
def step (c : HostCall) : Run c.Reply := ExceptT.lift (Program.query (I := host) c)

/-- A remark. -/
def note (level : Level) (message : String) (fields : List (String × FieldValue)) : Run Unit :=
  step (.service (.note (.remark level target message fields)))

/-- The answer to a step of a query; what it remarks goes where all remarks go. -/
def answerDatabase : (c : Sql.DatabaseCall) → Program host c.Reply
  | .execute s params => Program.query (I := host) (.database (.execute s params))
  | .note e => Program.query (I := host) (.service (.note e))

/-- The outcome of a program over a database. -/
def querying {α : Type} (p : Program Sql.database α) : Program host α := p.interpret answerDatabase

/-- The answer to a step of the service.  Only the store and the event log have a place in a
database; caches, clock and counters are of the process in both cases. -/
def answer (backend : Backend) (c : ServiceCall) : Program host c.Reply :=
  match backend, c with
  | .memory, c => Program.query (I := host) (.service c)
  | .postgres, .store c => querying (Sql.answerStore c)
  | .postgres, .journal (.probe _) => querying Sql.Log.probe
  | .postgres, .journal (.append stream r maxLen) => querying (Sql.Log.append stream r maxLen)
  | .postgres, c => Program.query (I := host) (.service c)

/-- The outcome of a procedure of the service. -/
def procedure {α : Type} (backend : Backend) (p : Procedure α) : Run α :=
  ExceptT.mk do
    let outcome ← p.run.interpret (answer backend)
    return outcome.mapError .api

/-- Connects to a database, unless it can be told that this fails: a url that cannot be read is
found without a connection. -/
def connectTo (url : String) (maxConnections : Nat) :
    Program host (Except Sql.ConnectError Unit) :=
  match Sql.checkConnection url maxConnections with
  | .ok () => Program.query (I := host) (.connect url maxConnections)
  | .error e => return .error e

/-- Connects to the database of a configuration. -/
def connect (c : Config) : Run Unit :=
  ExceptT.mk do
    let outcome ← connectTo c.database.url c.database.maxConnections
    return outcome.mapError fun e => .storage (.internal e.message)

/-- Connects to the database of a configuration, if it needs one. -/
def connectBackend (c : Config) : Run Unit :=
  match c.database.backend with
  | .memory => return ()
  | .postgres => connect c

/-- Executes statements one after another, up to the first that fails. -/
def migrateTables (statements : List Sql.Statement) : Run Unit :=
  ExceptT.mk do
    let outcome ← querying (Sql.Layout.migrate statements).run
    return outcome.mapError .query

/-! ## Commands -/

/-- Creates the tables that do not exist yet. -/
def migrate (c : Config) : Run Unit := do
  note .info "running database migrations" []
  connect c
  migrateTables Sql.Layout.storeTables
  migrateTables Sql.Layout.eventTables
  note .info "migrations completed successfully" []

/-- Issues a pair of tokens and prints it. -/
def issueToken (c : Config) (request : IssueRequest) : Run Unit := do
  connectBackend c
  let pair : TokenPair ←
    procedure c.database.backend (compose c.token.toIssuer c.events (.issue request))
  -- the pair is printed in any case: it is good, whether its record is published or not
  let waiting : Nat ← step .pending
  if 0 < waiting then
    note .warn "token issued but its event could not be recorded" [("pending", .number waiting)]
  let _ ← step (.print pair.toJson.renderPretty)

/-- Serves until the listener ends. -/
def serve (c : Config) : Run Unit := do
  connectBackend c
  note .info "starting corral server"
    [("http_addr", .text c.http.address), ("backend", .text c.database.backend.title)]
  match Address.read? c.http.address with
  | none => throw (.address c.http.address)
  | some address =>
    let reply : Except String Unit ← step (.listen address)
    match reply with
    | .ok () => note .info "server shut down gracefully" []
    | .error text => throw (.listener text)

/-- Does what a command line says. -/
def command (c : Config) : Option Command → Run Unit
  | some .migrate => migrate c
  | some (.issueToken subject role) => issueToken c { subject, role }
  | some .serve | none => serve c

/-! ## The program -/

/-- The filter of remarks: that of the environment, or of the configuration where the environment
has none that can be read. -/
def filter (c : Config) (env : Environment) : Filter :=
  ((env "RUST_LOG").bind Filter.read?).getD (.readAny c.log.level)

/-- Writes the remarks that pass a filter and drops the others; all other steps stay as they are. -/
def writing (format : LogFormat) (f : Filter) : (c : HostCall) → Program host c.Reply
  | .service (.note e) | .service (.journal (.note e)) =>
    if f.admits e then Program.query (I := host) (.remark format e) else return ()
  | c => Program.query (I := host) c

/-- The source of the settings that a command line names. -/
def source : Option String → Program host ConfigSource
  | none => return .none
  | some path => do
    let reply : Except String String ← Program.query (I := host) (.readFile path)
    match reply with
    | .ok contents => return .text contents
    | .error reason => return .unreadable path reason

/-- The configuration of a source and an environment. -/
def load (source : ConfigSource) (env : Environment) : Run Config :=
  ExceptT.mk (return (Config.load source env).mapError .config)

/-- Does what a command line says, in an environment. -/
def commandLine (args : List String) (env : Environment) : Run Unit := do
  let invocation ← ExceptT.mk (return (Invocation.ofArguments args).mapError .usage)
  let c ← load (← ExceptT.lift (source invocation.config)) env
  ExceptT.mk ((command c invocation.command).run.interpret (writing c.log.format (filter c env)))

end Run

end Gatehouse
