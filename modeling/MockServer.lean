import MockServer.Activate
import MockServer.Api.App
import MockServer.Api.Cors
import MockServer.Api.Error
import MockServer.Api.Forward
import MockServer.Api.Manage
import MockServer.Api.Message
import MockServer.Api.RequestId
import MockServer.Api.Route
import MockServer.Api.Status
import MockServer.Cache.Basic
import MockServer.Cache.Key
import MockServer.Cache.Stats
import MockServer.Cli.Arguments
import MockServer.Cli.Outcome
import MockServer.Config.Basic
import MockServer.Config.Check
import MockServer.Config.Environment
import MockServer.Config.Fault
import MockServer.Config.Load
import MockServer.Decimal.Binary64
import MockServer.Decimal.Numeral
import MockServer.Decimal.Shortest
import MockServer.Dict
import MockServer.Digest.Sha256
import MockServer.Document.Basic
import MockServer.Document.Scalar
import MockServer.Duration
import MockServer.Entity.Feature
import MockServer.Entity.LoadTest
import MockServer.Entity.Mock
import MockServer.ErrorBody
import MockServer.Files
import MockServer.Fingerprint
import MockServer.Fixture.Basic
import MockServer.Fixture.File
import MockServer.Fixture.Seed
import MockServer.Glob
import MockServer.Header.Field
import MockServer.Header.Sanitize
import MockServer.Http.Client
import MockServer.Http.Method
import MockServer.Http.Request
import MockServer.Http.World
import MockServer.Json.Basic
import MockServer.Json.Build
import MockServer.Json.Parser
import MockServer.Json.Path
import MockServer.Json.Printer
import MockServer.Json.Token
import MockServer.Log.Filter
import MockServer.Log.Level
import MockServer.Main
import MockServer.Metrics
import MockServer.Proofs.Activate.Board
import MockServer.Proofs.Cache.Basic
import MockServer.Proofs.Cache.Key
import MockServer.Proofs.Cache.Range
import MockServer.Proofs.Decimal.Exact
import MockServer.Proofs.Decimal.Layout
import MockServer.Proofs.Decimal.Numeral
import MockServer.Proofs.Decimal.Rounding
import MockServer.Proofs.Decimal.Shortest
import MockServer.Proofs.Dict
import MockServer.Proofs.Entity.Mock
import MockServer.Proofs.Fingerprint
import MockServer.Proofs.Fingerprint.Canonical
import MockServer.Proofs.Fingerprint.Integer
import MockServer.Proofs.Glob
import MockServer.Proofs.Json.Place
import MockServer.Proofs.Json.Readable
import MockServer.Proofs.Json.Reading
import MockServer.Proofs.Json.Same
import MockServer.Proofs.Json.Shuffle
import MockServer.Proofs.Json.Text
import MockServer.Proofs.Resolve.Basic
import MockServer.Proofs.Resolve.Declared
import MockServer.Proofs.Run.Account
import MockServer.Proofs.Run.Comparison
import MockServer.Proofs.Run.Condition
import MockServer.Proofs.Run.Grouping
import MockServer.Proofs.Run.Retry
import MockServer.Proofs.Sequence
import MockServer.Proofs.Service.Keys
import MockServer.Proofs.Service.Run
import MockServer.Proofs.Service.Transparency
import MockServer.Proofs.Store.Alike
import MockServer.Proofs.Store.Consistent
import MockServer.Proofs.Store.Run
import MockServer.Proofs.Store.Slot
import MockServer.Proofs.Text.Blank
import MockServer.Proofs.Text.Case
import MockServer.Proofs.Text.Split
import MockServer.Proofs.Text.Utf8
import MockServer.Proofs.Url.Form
import MockServer.Proofs.Url.Lookup
import MockServer.Resolve.Basic
import MockServer.Resolve.Error
import MockServer.Resolve.Request
import MockServer.Resolve.Select
import MockServer.Run.Account
import MockServer.Run.Condition
import MockServer.Run.Curl
import MockServer.Run.Execute
import MockServer.Run.Extract
import MockServer.Run.Pass
import MockServer.Run.Pool
import MockServer.Run.Result
import MockServer.Run.Script
import MockServer.Run.Template
import MockServer.Service.Basic
import MockServer.Start
import MockServer.Store.Basic
import MockServer.Store.Error
import MockServer.Supply
import MockServer.Text.Base64
import MockServer.Text.Blank
import MockServer.Text.Case
import MockServer.Text.Hex
import MockServer.Text.Quoted
import MockServer.Text.Split
import MockServer.Text.UpperTable
import MockServer.Text.Utf8
import MockServer.Timestamp
import MockServer.Url.Basic
import MockServer.Url.Domain
import MockServer.Url.Form
import MockServer.Url.Host
import MockServer.Url.Lookup
import MockServer.Url.Percent
import MockServer.Uuid
import MockServer.Yaml.Cursor
import MockServer.Yaml.Node
import MockServer.Yaml.Printer
import MockServer.Yaml.Scalar
import MockServer.Yaml.Tag
import MockServer.Yaml.Token
import MockServer.Proofs.Header.Field
import MockServer.Proofs.Header.Sanitize
import MockServer.Proofs.Api.RequestId
import MockServer.Proofs.Uuid
import MockServer.Proofs.Api.Headers
import MockServer.Proofs.Run.Isolation
import MockServer.Proofs.Run.Workers
import MockServer.Proofs.Run.Curl
import MockServer.Proofs.Run.Template
import MockServer.Proofs.Run.Command
import MockServer.Proofs.Json.Pretty
import MockServer.Proofs.Document.Record
import MockServer.Proofs.Run.Result
import MockServer.Proofs.Activate.Interleaving
import MockServer.Proofs.Url.Percent
import MockServer.Proofs.Api.Forward
import MockServer.Proofs.Fixture.Entry
import MockServer.Proofs.Fixture.Sound
import MockServer.Proofs.Fixture.Seed
import MockServer.Proofs.Url.NormalForm
import MockServer.Proofs.Header.Control
import MockServer.Proofs.Run.Trace
import MockServer.Proofs.Cache.History
import MockServer.Proofs.Resolve.Ending
import MockServer.Proofs.Metrics
import MockServer.Proofs.Resolve.Counters
import MockServer.Proofs.Run.Filling
import MockServer.Proofs.Json.Address
import MockServer.Proofs.Run.Extract
import MockServer.Proofs.Run.Legible
import MockServer.Proofs.Run.Plain
import MockServer.Proofs.Run.Render
import MockServer.Proofs.Run.Mention
import MockServer.Proofs.Http.Request
import MockServer.Proofs.Run.Precedence
import MockServer.Proofs.Duration
import MockServer.Proofs.Config.Written
import MockServer.Proofs.Entity.LoadTest
import MockServer.Proofs.Run.Loss
