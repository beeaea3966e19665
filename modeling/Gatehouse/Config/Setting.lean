import Gatehouse.Config
import Gatehouse.Toml.Document

/-!
# Gatehouse.Config.Setting — what can be set, and where

Every `Setting` has a place in a settings file, a variable of the environment that overrides it, and
a kind, which says what its values are and how they are read from both.  `Config.get` and
`Config.put` are the value of a setting in a configuration.

There are eighteen settings and four kinds of values, and what is done with one setting is done with
all of them: reading it from a file, reading it from the environment, and writing it into a
configuration.  So the settings are a type, and `Setting.kind`, `Setting.place` and
`Setting.envName` are tables over it; each reader is written once and takes the setting as an
argument.  A setting that is added gets a line in each table, and no reader changes.

`get_put` and `get_put_of_ne` are the laws of a record with these fields, which is all that is used
of `Config.get` and `Config.put` later.
-/

namespace Gatehouse

/-! ## Kinds -/

/-- What the values of a setting are; numbers are below a bound. -/
inductive Kind where
  | text
  | natural (bound : Nat)
  | backend
  | format
deriving DecidableEq, Repr

namespace Kind

/-- The values of a kind. -/
abbrev Value : Kind → Type
  | text => String
  | natural _ => Nat
  | backend => Backend
  | format => LogFormat

/-- The value of a kind that a variable of the environment spells out. -/
def ofText? : (k : Kind) → String → Option k.Value
  | text, s => some s
  | natural bound, s => Text.unsigned? bound s.toList
  | backend, s => Backend.ofName? s
  | format, s => LogFormat.ofName? s

/-- The name that a value of a settings file chooses: a text, or a table with one entry, under that
name, that holds nothing.  The second is how a choice is spelled that could carry values with it,
and these carry none. -/
def chosenName? : Toml.Value → Option String
  | .text s => some s
  | .table _ [(name, .table _ [])] => some name
  | .table _ [(name, .array [])] => some name
  | _ => none

/-- The value of a kind that a value of a settings file is. -/
def ofToml? : (k : Kind) → Toml.Value → Option k.Value
  | text, .text s => some s
  | text, _ => none
  | natural bound, .integer n => if 0 ≤ n ∧ n < bound then some n.toNat else none
  | natural _, _ => none
  | backend, v => (chosenName? v).bind Backend.ofName?
  | format, v => (chosenName? v).bind LogFormat.ofName?

end Kind

/-! ## Settings -/

/-- What can be set. -/
inductive Setting where
  | httpHost
  | httpPort
  | databaseBackend
  | databaseUrl
  | databaseMaxConnections
  | tokenSecret
  | tokenIssuer
  | tokenAccessTtl
  | tokenRefreshTtl
  | cachePolicyTtl
  | cacheKeyTtl
  | cacheConnectivityTtl
  | eventsStream
  | eventsMaxLen
  | eventsProbeTimeout
  | eventsDrainInterval
  | logFormat
  | logLevel
deriving DecidableEq, Repr

/-- The place of a setting in a settings file: its table, its key, and its position among the
settings of that table. -/
structure Setting.Place where
  table : String
  key : String
  index : Nat
deriving DecidableEq, Repr

namespace Setting

/-- All settings. -/
def all : List Setting :=
  [httpHost, httpPort, databaseBackend, databaseUrl, databaseMaxConnections, tokenSecret,
   tokenIssuer, tokenAccessTtl, tokenRefreshTtl, cachePolicyTtl, cacheKeyTtl, cacheConnectivityTtl,
   eventsStream, eventsMaxLen, eventsProbeTimeout, eventsDrainInterval, logFormat, logLevel]

/-- The kind of a setting. -/
def kind : Setting → Kind
  | httpHost | databaseUrl | tokenSecret | tokenIssuer | eventsStream | logLevel => .text
  | httpPort => .natural (Word.bound 16)
  | databaseMaxConnections => .natural (Word.bound 32)
  | tokenAccessTtl | tokenRefreshTtl | cachePolicyTtl | cacheKeyTtl | cacheConnectivityTtl
  | eventsMaxLen | eventsProbeTimeout | eventsDrainInterval => .natural (Word.bound 64)
  | databaseBackend => .backend
  | logFormat => .format

/-- The place of a setting in a settings file. -/
def place : Setting → Place
  | httpHost => ⟨"http", "host", 0⟩
  | httpPort => ⟨"http", "port", 1⟩
  | databaseBackend => ⟨"database", "backend", 0⟩
  | databaseUrl => ⟨"database", "url", 1⟩
  | databaseMaxConnections => ⟨"database", "max_connections", 2⟩
  | tokenSecret => ⟨"token", "secret", 0⟩
  | tokenIssuer => ⟨"token", "issuer", 1⟩
  | tokenAccessTtl => ⟨"token", "access_ttl_secs", 2⟩
  | tokenRefreshTtl => ⟨"token", "refresh_ttl_secs", 3⟩
  | cachePolicyTtl => ⟨"cache", "policy_ttl_secs", 0⟩
  | cacheKeyTtl => ⟨"cache", "key_ttl_secs", 1⟩
  | cacheConnectivityTtl => ⟨"cache", "connectivity_ttl_secs", 2⟩
  | eventsStream => ⟨"events", "stream", 0⟩
  | eventsMaxLen => ⟨"events", "max_len", 1⟩
  | eventsProbeTimeout => ⟨"events", "probe_timeout_ms", 2⟩
  | eventsDrainInterval => ⟨"events", "drain_interval_ms", 3⟩
  | logFormat => ⟨"log", "format", 0⟩
  | logLevel => ⟨"log", "level", 1⟩

/-- The variable of the environment that overrides a setting. -/
def envName : Setting → String
  | httpHost => "CORRAL_HTTP_HOST"
  | httpPort => "CORRAL_HTTP_PORT"
  | databaseBackend => "CORRAL_DATABASE_BACKEND"
  | databaseUrl => "CORRAL_DATABASE_URL"
  | databaseMaxConnections => "CORRAL_DATABASE_MAX_CONNECTIONS"
  | tokenSecret => "CORRAL_TOKEN_SECRET"
  | tokenIssuer => "CORRAL_TOKEN_ISSUER"
  | tokenAccessTtl => "CORRAL_TOKEN_ACCESS_TTL_SECS"
  | tokenRefreshTtl => "CORRAL_TOKEN_REFRESH_TTL_SECS"
  | cachePolicyTtl => "CORRAL_CACHE_POLICY_TTL_SECS"
  | cacheKeyTtl => "CORRAL_CACHE_KEY_TTL_SECS"
  | cacheConnectivityTtl => "CORRAL_CACHE_CONNECTIVITY_TTL_SECS"
  | eventsStream => "CORRAL_EVENTS_STREAM"
  | eventsMaxLen => "CORRAL_EVENTS_MAX_LEN"
  | eventsProbeTimeout => "CORRAL_EVENTS_PROBE_TIMEOUT_MS"
  | eventsDrainInterval => "CORRAL_EVENTS_DRAIN_INTERVAL_MS"
  | logFormat => "CORRAL_LOG_FORMAT"
  | logLevel => "CORRAL_LOG_LEVEL"

end Setting

/-! ## The value of a setting -/

namespace Config

/-- The value of a setting. -/
def get (c : Config) : (s : Setting) → s.kind.Value
  | .httpHost => c.http.host
  | .httpPort => c.http.port
  | .databaseBackend => c.database.backend
  | .databaseUrl => c.database.url
  | .databaseMaxConnections => c.database.maxConnections
  | .tokenSecret => c.token.secret
  | .tokenIssuer => c.token.issuer
  | .tokenAccessTtl => c.token.accessTtl
  | .tokenRefreshTtl => c.token.refreshTtl
  | .cachePolicyTtl => c.cache.policyTtl
  | .cacheKeyTtl => c.cache.keyTtl
  | .cacheConnectivityTtl => c.cache.connectivityTtl
  | .eventsStream => c.events.stream
  | .eventsMaxLen => c.events.maxLen
  | .eventsProbeTimeout => c.events.probeTimeout
  | .eventsDrainInterval => c.events.drainInterval
  | .logFormat => c.log.format
  | .logLevel => c.log.level

/-- The configuration with another value of a setting. -/
def put (c : Config) : (s : Setting) → s.kind.Value → Config
  | .httpHost, v => { c with http.host := v }
  | .httpPort, v => { c with http.port := v }
  | .databaseBackend, v => { c with database.backend := v }
  | .databaseUrl, v => { c with database.url := v }
  | .databaseMaxConnections, v => { c with database.maxConnections := v }
  | .tokenSecret, v => { c with token.secret := v }
  | .tokenIssuer, v => { c with token.issuer := v }
  | .tokenAccessTtl, v => { c with token.accessTtl := v }
  | .tokenRefreshTtl, v => { c with token.refreshTtl := v }
  | .cachePolicyTtl, v => { c with cache.policyTtl := v }
  | .cacheKeyTtl, v => { c with cache.keyTtl := v }
  | .cacheConnectivityTtl, v => { c with cache.connectivityTtl := v }
  | .eventsStream, v => { c with events.stream := v }
  | .eventsMaxLen, v => { c with events.maxLen := v }
  | .eventsProbeTimeout, v => { c with events.probeTimeout := v }
  | .eventsDrainInterval, v => { c with events.drainInterval := v }
  | .logFormat, v => { c with log.format := v }
  | .logLevel, v => { c with log.level := v }

@[simp] theorem get_put (c : Config) (s : Setting) (v : s.kind.Value) : (c.put s v).get s = v := by
  cases s <;> rfl

theorem get_put_of_ne (c : Config) {s t : Setting} (v : s.kind.Value) (h : t ≠ s) :
    (c.put s v).get t = c.get t := by
  cases s <;> cases t <;> try rfl
  all_goals exact absurd rfl h

end Config

end Gatehouse
