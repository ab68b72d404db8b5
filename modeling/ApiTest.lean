import ApiTest.Transition.Run
import ApiTest.Paging.Cursor
import ApiTest.Paging.Offset
import ApiTest.Tally.Groups
import ApiTest.Relational.Table
import ApiTest.Text.GoString
import ApiTest.Net.Escape
import ApiTest.Net.ServeMux
import ApiTest.Endpoints.Registry
import ApiTest.Endpoints.Labelling
import ApiTest.Audit.Event
import ApiTest.Audit.Memory
import ApiTest.Audit.Async
import ApiTest.Audit.AsyncRuns
import ApiTest.Audit.Postgres
import ApiTest.Middleware.Audit
import ApiTest.Middleware.AuditRow
import ApiTest.Portal.Stream
import ApiTest.Portal.StreamTick
import ApiTest.Portal.StreamFailure
import ApiTest.Portal.StreamRun
import ApiTest.Portal.StreamDelivery
import ApiTest.Portal.QueryFilter
import ApiTest.Portal.Export
import ApiTest.Portal.ExportRuns
import ApiTest.Portal.Aggregations
import ApiTest.Portal.AggregationTotals
import ApiTest.Middleware.Recorders
import ApiTest.Endpoints.Streaming
import ApiTest.Middleware.Flushing
import ApiTest.Net.Precedence
import ApiTest.Text.Strings
import ApiTest.Endpoints.Document
import ApiTest.Portal.Routes
import ApiTest.Server.Mux
import ApiTest.Server.Reachable
import ApiTest.Auth.Identity
import ApiTest.Inbound.Chain
import ApiTest.Inbound.FailClosed
import ApiTest.Middleware.Identity
import ApiTest.Auth.Validate
import ApiTest.Portal.Session
import ApiTest.Portal.Access
import ApiTest.Ledger.Expiring
import ApiTest.Portal.BrowserLogin
import ApiTest.Auth.KeyCache
import ApiTest.Multimap.Basic
import ApiTest.Net.URL
import ApiTest.Net.Query
import ApiTest.Net.Redirect
import ApiTest.Text.Utf8
import ApiTest.Portal.ReturnPath
import ApiTest.Portal.DatabaseURL
import ApiTest.Audit.Redaction
import ApiTest.Configuration.Load
import ApiTest.Configuration.Redaction
import ApiTest.Endpoints.Reflect
import ApiTest.Portal.Dispatch
import ApiTest.Portal.TryIt
import ApiTest.Portal.Replay
import ApiTest.Portal.ReplayRuns
import ApiTest.Portal.ReplayGuard
import ApiTest.Portal.ReplayRebuild
import ApiTest.Net.Segments
import ApiTest.Server.BuildRegistry
import ApiTest.Portal.TryItRoute
import ApiTest.Audit.Select
import ApiTest.Audit.SelectText
import ApiTest.Audit.Stored
import ApiTest.Text.Decimal
import ApiTest.Text.Placeholders
import ApiTest.Paging.Follow
import ApiTest.Endpoints.Pagination
import ApiTest.Endpoints.PaginationWalk
import ApiTest.Portal.AuditEvents
import ApiTest.Portal.ExportQuiet
import ApiTest.Middleware.Captured
import ApiTest.Server.Drain
import ApiTest.Dictionary.Basic
import ApiTest.Json.Schema
import ApiTest.Oapi.GoType
import ApiTest.Endpoints.Operations
import ApiTest.Oapi.Build
import ApiTest.Oapi.BuildExact
import ApiTest.Oapi.Encode
import ApiTest.Oapi.Described
import ApiTest.Capped.Buffer
import ApiTest.Net.Body
import ApiTest.Middleware.RequestCapture
import ApiTest.Portal.ResponseCap
import ApiTest.Portal.Timeseries
import ApiTest.Sorting.Slice
import ApiTest.Portal.Breakdown
import ApiTest.Sorting.Rank
import ApiTest.Configuration.Credentials
import ApiTest.Portal.Percentile
import ApiTest.Portal.NonceWindow
import ApiTest.Json.Grammar
import ApiTest.Text.Hex
import ApiTest.Endpoints.BigBody
import ApiTest.Endpoints.Sized
import ApiTest.Endpoints.ShouldRedact
import ApiTest.Apikeys.Store
import ApiTest.Relational.Unique
import ApiTest.Apikeys.Runs
import ApiTest.Apikeys.Answers
import ApiTest.Apikeys.Lifecycle
import ApiTest.Apikeys.Pool
import ApiTest.Net.Mapped
import ApiTest.Portal.Dispatched
import ApiTest.Server.Accounting
import ApiTest.Portal.Authorization
import ApiTest.Server.Shutdown
import ApiTest.Server.KeyAdmin
