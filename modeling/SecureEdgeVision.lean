import SecureEdgeVision.Aggregator.Api
import SecureEdgeVision.Aggregator.BodyReading
import SecureEdgeVision.Aggregator.ClosedLoop
import SecureEdgeVision.Aggregator.Decoding
import SecureEdgeVision.Aggregator.DigitLimit
import SecureEdgeVision.Aggregator.Linearization
import SecureEdgeVision.Aggregator.Liveness
import SecureEdgeVision.Aggregator.Malformed
import SecureEdgeVision.Aggregator.Noninterference
import SecureEdgeVision.Aggregator.QueryLimit
import SecureEdgeVision.Aggregator.Request
import SecureEdgeVision.Aggregator.Responses
import SecureEdgeVision.Aggregator.Routes
import SecureEdgeVision.Aggregator.Settlement
import SecureEdgeVision.Aggregator.Startup
import SecureEdgeVision.Aggregator.Storage
import SecureEdgeVision.Aggregator.Wire
import SecureEdgeVision.Binary64.Monotone
import SecureEdgeVision.Binary64.Rounding
import SecureEdgeVision.Canonical
import SecureEdgeVision.Config.Overrides
import SecureEdgeVision.Config.Settings
import SecureEdgeVision.Contracts.Acceptance
import SecureEdgeVision.Contracts.Document
import SecureEdgeVision.Contracts.Envelope
import SecureEdgeVision.Contracts.Grammar
import SecureEdgeVision.Contracts.Instant
import SecureEdgeVision.Contracts.ReadBack
import SecureEdgeVision.Contracts.Validate
import SecureEdgeVision.Contracts.Wire
import SecureEdgeVision.Crypto
import SecureEdgeVision.Expiry.Table
import SecureEdgeVision.Ingestion.Accounting
import SecureEdgeVision.Ingestion.Agreement
import SecureEdgeVision.Ingestion.Concurrent
import SecureEdgeVision.Ingestion.Delivery
import SecureEdgeVision.Ingestion.Ingest
import SecureEdgeVision.Ingestion.Restarts
import SecureEdgeVision.Ingestion.Steps
import SecureEdgeVision.Json.Depth
import SecureEdgeVision.Json.Elements
import SecureEdgeVision.Json.Fields
import SecureEdgeVision.Json.Hooks
import SecureEdgeVision.Json.Number
import SecureEdgeVision.Json.Plain
import SecureEdgeVision.Json.Record
import SecureEdgeVision.Json.RoundTrip
import SecureEdgeVision.Json.Scan
import SecureEdgeVision.Json.Value
import SecureEdgeVision.Keys.AllOrNothing
import SecureEdgeVision.Keys.Arguments
import SecureEdgeVision.Keys.Generation
import SecureEdgeVision.Monitoring.Concurrent
import SecureEdgeVision.Monitoring.Convergence
import SecureEdgeVision.Monitoring.Heartbeat
import SecureEdgeVision.Monitoring.Queries
import SecureEdgeVision.Monitoring.Recent
import SecureEdgeVision.Monitoring.Register
import SecureEdgeVision.Monitoring.TextOrder
import SecureEdgeVision.Persistence.Adoption
import SecureEdgeVision.Persistence.AlteredChecks
import SecureEdgeVision.Persistence.Codec
import SecureEdgeVision.Persistence.Columns
import SecureEdgeVision.Persistence.KeyText
import SecureEdgeVision.Persistence.Records
import SecureEdgeVision.Persistence.RegistryUnion
import SecureEdgeVision.Persistence.Schema
import SecureEdgeVision.Persistence.Seeding
import SecureEdgeVision.Persistence.SqlRows
import SecureEdgeVision.Persistence.StoredSchema
import SecureEdgeVision.Persistence.TimestampText
import SecureEdgeVision.Python.Base64
import SecureEdgeVision.Python.Calendar
import SecureEdgeVision.Python.Case
import SecureEdgeVision.Python.Decimal
import SecureEdgeVision.Python.Dict
import SecureEdgeVision.Python.IsoFormat
import SecureEdgeVision.Python.IsoMicroseconds
import SecureEdgeVision.Python.Nested
import SecureEdgeVision.Python.Raise
import SecureEdgeVision.Python.Text
import SecureEdgeVision.Runs.Boxes
import SecureEdgeVision.Runs.Custody
import SecureEdgeVision.Runs.Files
import SecureEdgeVision.Runs.Greedy
import SecureEdgeVision.Runs.LastWrite
import SecureEdgeVision.Runs.Order
import SecureEdgeVision.Runs.Serial
import SecureEdgeVision.Runs.Traced
import SecureEdgeVision.Runs.Transaction
import SecureEdgeVision.Security.Interleaving
import SecureEdgeVision.Security.Isolation
import SecureEdgeVision.Security.LockOrder
import SecureEdgeVision.Security.Occupancy
import SecureEdgeVision.Security.Policy
import SecureEdgeVision.Security.Reference
import SecureEdgeVision.Security.Steps
import SecureEdgeVision.Sql.Check
import SecureEdgeVision.Sql.Lexer
import SecureEdgeVision.Sql.Readings
import SecureEdgeVision.Sql.Shape
import SecureEdgeVision.Store.AppendOnly
import SecureEdgeVision.Store.Operations
import SecureEdgeVision.Store.Readable
import SecureEdgeVision.Store.Sessions
import SecureEdgeVision.Store.Transactions
import SecureEdgeVision.Transport
import SecureEdgeVision.Transport.Client
import SecureEdgeVision.Vision.Conversion
import SecureEdgeVision.Vision.Exactness
import SecureEdgeVision.Worker.Cadence
import SecureEdgeVision.Worker.Captures
import SecureEdgeVision.Worker.Deliveries
import SecureEdgeVision.Worker.Emission
import SecureEdgeVision.Worker.ExactTimes
import SecureEdgeVision.Worker.FrameSource
import SecureEdgeVision.Worker.Identity
import SecureEdgeVision.Worker.Lifecycle
import SecureEdgeVision.Worker.OnTime
import SecureEdgeVision.Worker.Pipeline
import SecureEdgeVision.Worker.Run
import SecureEdgeVision.Worker.RunSteps
import SecureEdgeVision.Worker.Runner
import SecureEdgeVision.Worker.Sampling
