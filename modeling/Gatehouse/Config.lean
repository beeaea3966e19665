import Gatehouse.Cache
import Gatehouse.Journal
import Gatehouse.Token.Signed

/-!
# Gatehouse.Config — how the service is set up

A `Config` has a value for everything that can be set, and its defaults are all acceptable but for
the secret, which has none.  `Config.validate` names the first thing that keeps a configuration from
being used.

Times to live are seconds; the times of the publisher are milliseconds.

The settings are grouped by subject, one structure for each, as they are grouped into the tables of
a settings file.  What a structure holds is what the part of the service needs that is set up from
it: `CacheConfig.caches` are the caches, and the settings of tokens and of events are the signer and
the publisher themselves.

Where a configuration comes from is not said here.  `Gatehouse.Config.Setting` lists what can be
set, and `Gatehouse.Config.Load` puts a configuration together from defaults, a file and the
environment, and validates it.
-/

namespace Gatehouse

/-! ## Settings by subject -/

/-- Where the service listens. -/
structure HttpConfig where
  host : String := "0.0.0.0"
  port : Nat := 8189
deriving DecidableEq, Repr

/-- The address to listen at. -/
def HttpConfig.address (c : HttpConfig) : String := s!"{c.host}:{c.port}"

/-- Where the store and the event log are kept. -/
inductive Backend where
  | memory
  | postgres
deriving DecidableEq, Repr

namespace Backend

/-- The written name of a backend. -/
def name : Backend → String
  | memory => "memory"
  | postgres => "postgres"

/-- The backend of a written name. -/
def ofName? (s : String) : Option Backend :=
  if s = "memory" then some memory else if s = "postgres" then some postgres else none

/-- The name of a backend in remarks. -/
def title : Backend → String
  | memory => "Memory"
  | postgres => "Postgres"

end Backend

/-- Which database the service works on. -/
structure DatabaseConfig where
  backend : Backend := .memory
  url : String := "postgresql://localhost:5432/corral"
  maxConnections : Nat := 10
deriving DecidableEq, Repr

/-- How long answers are remembered. -/
structure CacheConfig where
  policyTtl : Nat := 300
  keyTtl : Nat := 300
  connectivityTtl : Nat := 300
deriving DecidableEq, Repr

/-- Empty caches that remember answers for as long as they should. -/
def CacheConfig.caches (c : CacheConfig) : Caches :=
  .empty (c.policyTtl * 1000000000) (c.keyTtl * 1000000000) (c.connectivityTtl * 1000000000)

/-- How remarks are written. -/
inductive LogFormat where
  | json
  | pretty
deriving DecidableEq, Repr

namespace LogFormat

/-- The written name of a format. -/
def name : LogFormat → String
  | json => "json"
  | pretty => "pretty"

/-- The format of a written name. -/
def ofName? (s : String) : Option LogFormat :=
  if s = "json" then some json else if s = "pretty" then some pretty else none

/-- The name of a format as it is shown. -/
def title : LogFormat → String
  | json => "Json"
  | pretty => "Pretty"

end LogFormat

/-- How remarks are written, and which. -/
structure LogConfig where
  format : LogFormat := .json
  level : String := "info"
deriving DecidableEq, Repr

/-- The whole configuration. -/
structure Config where
  http : HttpConfig := {}
  database : DatabaseConfig := {}
  token : TokenSigner := ⟨"", "corral.auth", 3600, 86400⟩
  cache : CacheConfig := {}
  events : PublisherConfig := {}
  log : LogConfig := {}
deriving DecidableEq, Repr

/-! ## What can be wrong -/

/-- What keeps a configuration from being used. -/
inductive Violation where
  | port
  | secret
  | accessTtl
  | refreshTtl
  | connections
  | intervals
deriving DecidableEq, Repr

/-- The text of a violation. -/
def Violation.message : Violation → String
  | port => "http.port must be non-zero"
  | secret => "token.secret must be set"
  | accessTtl => "token.access_ttl_secs must be non-zero"
  | refreshTtl => "token.refresh_ttl_secs must exceed token.access_ttl_secs"
  | connections => "database.max_connections must be non-zero"
  | intervals => "events.probe_timeout_ms and events.drain_interval_ms must be non-zero"

/-- Why there is no configuration. -/
inductive ConfigError where
  | readFile (path reason : String)
  | parseToml (reason : String)
  | validation (v : Violation)
deriving DecidableEq, Repr

/-- The text of a configuration error. -/
def ConfigError.message : ConfigError → String
  | readFile path reason => s!"failed to read config file '{path}': {reason}"
  | parseToml reason => s!"failed to parse TOML config: {reason}"
  | validation v => s!"config validation failed: {v.message}"

/-- The first thing that keeps a configuration from being used.  There are bounds from below only: a
time to live may be as long as a number of its type can say. -/
def Config.validate (c : Config) : Except Violation Unit := do
  if c.http.port = 0 then throw .port
  if c.token.secret = "" then throw .secret
  if c.token.accessTtl = 0 then throw .accessTtl
  if c.token.refreshTtl ≤ c.token.accessTtl then throw .refreshTtl
  if c.database.maxConnections = 0 then throw .connections
  if c.events.probeTimeout = 0 ∨ c.events.drainInterval = 0 then throw .intervals

end Gatehouse
