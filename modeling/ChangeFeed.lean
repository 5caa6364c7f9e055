import ChangeFeed.Allocation.Claims
import ChangeFeed.Allocation.Record
import ChangeFeed.Allocation.Update
import ChangeFeed.Breakdown
import ChangeFeed.Change
import ChangeFeed.Checkpoint.Backing
import ChangeFeed.Checkpoint.Store
import ChangeFeed.Checkpoint.Watermark
import ChangeFeed.Console.Arguments
import ChangeFeed.Console.Filter
import ChangeFeed.Console.Pattern
import ChangeFeed.Console.Program
import ChangeFeed.Consul.Contest
import ChangeFeed.Consul.Demands
import ChangeFeed.Consul.Service
import ChangeFeed.Consul.Tenure
import ChangeFeed.Consul.Watch
import ChangeFeed.Decimal.Binary64
import ChangeFeed.Decimal.Digits
import ChangeFeed.Duration
import ChangeFeed.Engine.Acts
import ChangeFeed.Engine.Leading
import ChangeFeed.Engine.Log
import ChangeFeed.Engine.Outlet
import ChangeFeed.Engine.Publishing
import ChangeFeed.Engine.Session
import ChangeFeed.Engine.Tasks
import ChangeFeed.Engine.Watching
import ChangeFeed.Engine.World
import ChangeFeed.Error
import ChangeFeed.Http.Exchange
import ChangeFeed.Http.Status
import ChangeFeed.Json.Fault
import ChangeFeed.Json.Printer
import ChangeFeed.Json.Reader
import ChangeFeed.Json.Selective
import ChangeFeed.Json.Typed
import ChangeFeed.Json.Value
import ChangeFeed.Lock.Office
import ChangeFeed.Lock.Table
import ChangeFeed.Main
import ChangeFeed.Metrics.Registry
import ChangeFeed.Net.Address
import ChangeFeed.Net.Host
import ChangeFeed.Net.Name
import ChangeFeed.Net.Percent
import ChangeFeed.Net.Plain
import ChangeFeed.Net.Plain.Compatibility
import ChangeFeed.Net.Plain.Forms
import ChangeFeed.Net.Plain.Ideographs
import ChangeFeed.Net.Plain.Letters
import ChangeFeed.Net.Plain.Supplement
import ChangeFeed.Net.Plain.Symbols
import ChangeFeed.Net.Punycode
import ChangeFeed.Net.Url
import ChangeFeed.Orchestrator.Queries
import ChangeFeed.Proofs.Allocation.Claims
import ChangeFeed.Proofs.Allocation.Splits
import ChangeFeed.Proofs.Allocation.Times
import ChangeFeed.Proofs.Checkpoint.Codec
import ChangeFeed.Proofs.Checkpoint.Histories
import ChangeFeed.Proofs.Checkpoint.Numerals
import ChangeFeed.Proofs.Console.Breakdowns
import ChangeFeed.Proofs.Consul.Acquisitions
import ChangeFeed.Proofs.Consul.Answers
import ChangeFeed.Proofs.Consul.Courses
import ChangeFeed.Proofs.Consul.Lifecycles
import ChangeFeed.Proofs.Consul.Renewals
import ChangeFeed.Proofs.Consul.Sequels
import ChangeFeed.Proofs.Consul.Watches
import ChangeFeed.Proofs.Decimal.Digits
import ChangeFeed.Proofs.Engine.ActMoves
import ChangeFeed.Proofs.Engine.Attempts
import ChangeFeed.Proofs.Engine.Backoffs
import ChangeFeed.Proofs.Engine.Checkpoints
import ChangeFeed.Proofs.Engine.Claims
import ChangeFeed.Proofs.Engine.Clock
import ChangeFeed.Proofs.Engine.Coverage
import ChangeFeed.Proofs.Engine.Discipline
import ChangeFeed.Proofs.Engine.Dispatch
import ChangeFeed.Proofs.Engine.EventTimes
import ChangeFeed.Proofs.Engine.Events
import ChangeFeed.Proofs.Engine.Floors
import ChangeFeed.Proofs.Engine.Graces
import ChangeFeed.Proofs.Engine.Halts
import ChangeFeed.Proofs.Engine.Holders
import ChangeFeed.Proofs.Engine.Leases
import ChangeFeed.Proofs.Engine.ManagerMoves
import ChangeFeed.Proofs.Engine.Occurrences
import ChangeFeed.Proofs.Engine.Outlets
import ChangeFeed.Proofs.Engine.Pauses
import ChangeFeed.Proofs.Engine.PublicationMoves
import ChangeFeed.Proofs.Engine.ReadFailures
import ChangeFeed.Proofs.Engine.Readings
import ChangeFeed.Proofs.Engine.Repeats
import ChangeFeed.Proofs.Engine.ReportStreams
import ChangeFeed.Proofs.Engine.Resignations
import ChangeFeed.Proofs.Engine.Restores
import ChangeFeed.Proofs.Engine.Revocations
import ChangeFeed.Proofs.Engine.Rounds
import ChangeFeed.Proofs.Engine.Schedules
import ChangeFeed.Proofs.Engine.Tenures
import ChangeFeed.Proofs.Engine.TimeCheckpoints
import ChangeFeed.Proofs.Engine.Values
import ChangeFeed.Proofs.Engine.Views
import ChangeFeed.Proofs.Engine.WatcherMoves
import ChangeFeed.Proofs.Engine.Work
import ChangeFeed.Proofs.Engine.Writes
import ChangeFeed.Proofs.Json.Characters
import ChangeFeed.Proofs.Json.Continuations
import ChangeFeed.Proofs.Json.Joins
import ChangeFeed.Proofs.Json.Numbers
import ChangeFeed.Proofs.Json.Records
import ChangeFeed.Proofs.Lock.Clients
import ChangeFeed.Proofs.Lock.Ledger
import ChangeFeed.Proofs.Lock.Sessions
import ChangeFeed.Proofs.Lock.Wakeups
import ChangeFeed.Proofs.Metrics.Values
import ChangeFeed.Proofs.Net.Endings
import ChangeFeed.Proofs.Net.Literals
import ChangeFeed.Proofs.Net.Paths
import ChangeFeed.Proofs.Net.Percents
import ChangeFeed.Proofs.Orchestrator.Lookups
import ChangeFeed.Proofs.Settings.Guesses
import ChangeFeed.Proofs.Settings.Places
import ChangeFeed.Proofs.Settings.Records
import ChangeFeed.Proofs.Settings.Texts
import ChangeFeed.Proofs.Sink.Batches
import ChangeFeed.Proofs.Sink.Bodies
import ChangeFeed.Proofs.Sink.Buffers
import ChangeFeed.Proofs.Sink.Calls
import ChangeFeed.Proofs.Sink.Deliveries
import ChangeFeed.Proofs.Sink.Depots
import ChangeFeed.Proofs.Sink.Devices
import ChangeFeed.Proofs.Sink.Flights
import ChangeFeed.Proofs.Sink.Identities
import ChangeFeed.Proofs.Sink.Lines
import ChangeFeed.Proofs.Sink.Overtakings
import ChangeFeed.Proofs.Sink.Parcels
import ChangeFeed.Proofs.Sink.Queues
import ChangeFeed.Proofs.Sink.Stops
import ChangeFeed.Proofs.Sink.Timings
import ChangeFeed.Proofs.Watch.Snapshots
import ChangeFeed.Resource
import ChangeFeed.Role
import ChangeFeed.Settings.All
import ChangeFeed.Settings.Check
import ChangeFeed.Settings.Coordination
import ChangeFeed.Settings.Fault
import ChangeFeed.Settings.Form
import ChangeFeed.Settings.Monitoring
import ChangeFeed.Settings.Node
import ChangeFeed.Settings.Orchestrator
import ChangeFeed.Settings.Output
import ChangeFeed.Settings.Sources
import ChangeFeed.Settings.Watching
import ChangeFeed.Simulation.Locks
import ChangeFeed.Simulation.Schedule
import ChangeFeed.Sink.Batched
import ChangeFeed.Sink.Buffer
import ChangeFeed.Sink.Build
import ChangeFeed.Sink.Direct
import ChangeFeed.Sink.LineWriter
import ChangeFeed.Sink.Lines
import ChangeFeed.Sink.Message
import ChangeFeed.Sink.Queue
import ChangeFeed.Sink.Sqs
import ChangeFeed.Sink.Web
import ChangeFeed.Text.Alphanumeric
import ChangeFeed.Text.Blank
import ChangeFeed.Text.Bytes
import ChangeFeed.Text.Cased
import ChangeFeed.Text.Combining
import ChangeFeed.Text.Composed
import ChangeFeed.Text.Cut
import ChangeFeed.Text.Direction
import ChangeFeed.Text.Extending
import ChangeFeed.Text.Hex
import ChangeFeed.Text.Invisible
import ChangeFeed.Text.Joining
import ChangeFeed.Text.Letters
import ChangeFeed.Text.Lower
import ChangeFeed.Text.Marks
import ChangeFeed.Text.Quoted
import ChangeFeed.Text.Ranges
import ChangeFeed.Text.Replaced
import ChangeFeed.Toml.Item
import ChangeFeed.Toml.Marked
import ChangeFeed.Toml.Moment
import ChangeFeed.Toml.Reader
import ChangeFeed.Watch.Progress
import ChangeFeed.Watch.Reports
