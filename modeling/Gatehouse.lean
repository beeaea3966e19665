import Gatehouse.Cache
import Gatehouse.Command
import Gatehouse.Command.Arguments
import Gatehouse.Command.Rehearsal
import Gatehouse.Command.Run
import Gatehouse.Config
import Gatehouse.Config.Load
import Gatehouse.Config.Setting
import Gatehouse.Crypto.Sha256
import Gatehouse.Decision
import Gatehouse.Decision.Rehearsal
import Gatehouse.Entity
import Gatehouse.Entity.Document
import Gatehouse.Error
import Gatehouse.Hierarchy
import Gatehouse.Http.Address
import Gatehouse.Http.Bearer
import Gatehouse.Http.Body
import Gatehouse.Http.MediaType
import Gatehouse.Http.Message
import Gatehouse.Http.Percent
import Gatehouse.Http.Query
import Gatehouse.Http.Route
import Gatehouse.Http.Server
import Gatehouse.Journal
import Gatehouse.Journal.Document
import Gatehouse.Journal.Memory
import Gatehouse.Journal.Rehearsal
import Gatehouse.Journal.Upkeep
import Gatehouse.Json.Reader
import Gatehouse.Json.Schema
import Gatehouse.Json.Shape
import Gatehouse.Json.Token
import Gatehouse.Json.Value
import Gatehouse.Main
import Gatehouse.Metrics
import Gatehouse.Policy
import Gatehouse.Policy.Document
import Gatehouse.Program
import Gatehouse.Proofs.Cache.Authorization
import Gatehouse.Proofs.Cache.Coherence
import Gatehouse.Proofs.Cache.Concurrency
import Gatehouse.Proofs.Cache.Connectivity
import Gatehouse.Proofs.Cache.Crash
import Gatehouse.Proofs.Cache.Discipline
import Gatehouse.Proofs.Cache.Engine
import Gatehouse.Proofs.Cache.Expiry
import Gatehouse.Proofs.Cache.Memo
import Gatehouse.Proofs.Cache.Recall
import Gatehouse.Proofs.Cache.Retention
import Gatehouse.Proofs.Command.Rehearsal
import Gatehouse.Proofs.Config.Layering
import Gatehouse.Proofs.Config.Setting
import Gatehouse.Proofs.Decision
import Gatehouse.Proofs.Decision.Failure
import Gatehouse.Proofs.Decision.Grounds
import Gatehouse.Proofs.Decision.Rehearsal
import Gatehouse.Proofs.Entity
import Gatehouse.Proofs.Hierarchy
import Gatehouse.Proofs.Hierarchy.Ancestors
import Gatehouse.Proofs.Hierarchy.Descendants
import Gatehouse.Proofs.Hierarchy.Lineage
import Gatehouse.Proofs.Hierarchy.Loading
import Gatehouse.Proofs.Http.Admission
import Gatehouse.Proofs.Interleaving
import Gatehouse.Proofs.Journal.Conservation
import Gatehouse.Proofs.Journal.Document
import Gatehouse.Proofs.Journal.Drain
import Gatehouse.Proofs.Journal.Ledger
import Gatehouse.Proofs.Journal.Rehearsal
import Gatehouse.Proofs.Journal.Shutdown
import Gatehouse.Proofs.Journal.Upkeep
import Gatehouse.Proofs.Json.Datum
import Gatehouse.Proofs.Json.Document
import Gatehouse.Proofs.Json.Lexer
import Gatehouse.Proofs.Json.Reader
import Gatehouse.Proofs.Json.Record
import Gatehouse.Proofs.Json.Schema
import Gatehouse.Proofs.Policy
import Gatehouse.Proofs.Program
import Gatehouse.Proofs.Service.Browsing
import Gatehouse.Proofs.Service.Compose
import Gatehouse.Proofs.Service.Creation
import Gatehouse.Proofs.Service.Deed
import Gatehouse.Proofs.Service.Effect
import Gatehouse.Proofs.Service.Engine
import Gatehouse.Proofs.Service.Failure
import Gatehouse.Proofs.Service.Gate
import Gatehouse.Proofs.Service.History
import Gatehouse.Proofs.Service.Layer
import Gatehouse.Proofs.Service.Listing
import Gatehouse.Proofs.Service.Outcome
import Gatehouse.Proofs.Service.Ownership
import Gatehouse.Proofs.Service.Prompt
import Gatehouse.Proofs.Service.Provenance
import Gatehouse.Proofs.Service.Rank
import Gatehouse.Proofs.Service.Renewal
import Gatehouse.Proofs.Service.Replay
import Gatehouse.Proofs.Service.Site
import Gatehouse.Proofs.Service.Status
import Gatehouse.Proofs.Service.Update
import Gatehouse.Proofs.Service.World
import Gatehouse.Proofs.Store.Forest
import Gatehouse.Proofs.Store.Grants
import Gatehouse.Proofs.Store.Paging
import Gatehouse.Proofs.Store.Sound
import Gatehouse.Proofs.Store.WellFormed
import Gatehouse.Proofs.Store.Writes
import Gatehouse.Proofs.Text.Base64Url
import Gatehouse.Proofs.Text.Digits
import Gatehouse.Proofs.Text.Utf8
import Gatehouse.Proofs.Time.Date
import Gatehouse.Proofs.Time.Timestamp
import Gatehouse.Proofs.Token.Audience
import Gatehouse.Proofs.Token.Genuine
import Gatehouse.Proofs.Token.Key
import Gatehouse.Proofs.Token.Nesting
import Gatehouse.Proofs.Token.RoundTrip
import Gatehouse.Service.Call
import Gatehouse.Service.Engine
import Gatehouse.Service.Event
import Gatehouse.Service.Layer
import Gatehouse.Service.Operation
import Gatehouse.Service.World
import Gatehouse.Sql.Connect
import Gatehouse.Sql.Database
import Gatehouse.Sql.Layout
import Gatehouse.Sql.Log
import Gatehouse.Sql.Rehearsal
import Gatehouse.Sql.Statement
import Gatehouse.Sql.Store
import Gatehouse.Store
import Gatehouse.Store.Memory
import Gatehouse.Table
import Gatehouse.Text.Base64Url
import Gatehouse.Text.Blank
import Gatehouse.Text.Decimal
import Gatehouse.Text.Digits
import Gatehouse.Text.Split
import Gatehouse.Text.Utf8
import Gatehouse.Time.Date
import Gatehouse.Time.Timestamp
import Gatehouse.Token
import Gatehouse.Token.Document
import Gatehouse.Token.Signed
import Gatehouse.Toml.Document
import Gatehouse.Toml.Scalar
import Gatehouse.Toml.Token
import Gatehouse.Toml.Value
import Gatehouse.Trace
import Gatehouse.Trace.Document
import Gatehouse.Trace.Filter
import Gatehouse.Vocabulary
import Gatehouse.Word
import Gatehouse.Proofs.Sql.Grammar
import Gatehouse.Proofs.Sql.Plan
import Gatehouse.Proofs.Sql.Contents
import Gatehouse.Proofs.Sql.Shape
import Gatehouse.Proofs.Sql.Fidelity
import Gatehouse.Proofs.Sql.Trimming
