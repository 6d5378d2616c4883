import ServiceCatalog.App.Controller
import ServiceCatalog.App.Running
import ServiceCatalog.App.Setup
import ServiceCatalog.App.Tasks
import ServiceCatalog.App.Topic
import ServiceCatalog.App.World
import ServiceCatalog.Cache
import ServiceCatalog.CommandLine.Arguments
import ServiceCatalog.CommandLine.LogFilter
import ServiceCatalog.CommandLine.Payload
import ServiceCatalog.CommandLine.Reach
import ServiceCatalog.CommandLine.Run
import ServiceCatalog.Decode.Error
import ServiceCatalog.Decode.Record
import ServiceCatalog.Decode.Scalar
import ServiceCatalog.Files.Contents
import ServiceCatalog.Files.Path
import ServiceCatalog.Files.Tree
import ServiceCatalog.Ini.Reader
import ServiceCatalog.Json.Outline
import ServiceCatalog.Json.Printer
import ServiceCatalog.Json.Reader
import ServiceCatalog.Json.Value
import ServiceCatalog.Json5.Reader
import ServiceCatalog.Machines.Lifecycle
import ServiceCatalog.Machines.Publication
import ServiceCatalog.Main
import ServiceCatalog.Number.Binary64
import ServiceCatalog.Number.Numeral
import ServiceCatalog.Proofs.App.Admission
import ServiceCatalog.Proofs.App.Agreement
import ServiceCatalog.Proofs.App.Consumers
import ServiceCatalog.Proofs.App.Drain
import ServiceCatalog.Proofs.App.Independence
import ServiceCatalog.Proofs.App.Mirror
import ServiceCatalog.Proofs.App.Parallel
import ServiceCatalog.Proofs.App.Queues
import ServiceCatalog.Proofs.App.Refusals
import ServiceCatalog.Proofs.App.Requests
import ServiceCatalog.Proofs.App.Serving
import ServiceCatalog.Proofs.App.Sight
import ServiceCatalog.Proofs.App.Sink
import ServiceCatalog.Proofs.App.Site
import ServiceCatalog.Proofs.App.Slots
import ServiceCatalog.Proofs.App.Spawned
import ServiceCatalog.Proofs.App.Timestamps
import ServiceCatalog.Proofs.App.Topics
import ServiceCatalog.Proofs.App.World
import ServiceCatalog.Proofs.Cache
import ServiceCatalog.Proofs.Cache.Expiry
import ServiceCatalog.Proofs.CommandLine.Processes
import ServiceCatalog.Proofs.Decode.Ensures
import ServiceCatalog.Proofs.Decode.Order
import ServiceCatalog.Proofs.Decode.Reads
import ServiceCatalog.Proofs.Except
import ServiceCatalog.Proofs.Files.Change
import ServiceCatalog.Proofs.Files.Contents
import ServiceCatalog.Proofs.Files.Growth
import ServiceCatalog.Proofs.Files.Path
import ServiceCatalog.Proofs.Files.Tree
import ServiceCatalog.Proofs.Json.Lexeme
import ServiceCatalog.Proofs.Json.Outline
import ServiceCatalog.Proofs.Json.RoundTrip
import ServiceCatalog.Proofs.Machines.Deletion
import ServiceCatalog.Proofs.Machines.Editorial
import ServiceCatalog.Proofs.Machines.Lifecycle
import ServiceCatalog.Proofs.Machines.Publication
import ServiceCatalog.Proofs.Machines.Refusals
import ServiceCatalog.Proofs.Machines.Releases
import ServiceCatalog.Proofs.Number.Numeral
import ServiceCatalog.Proofs.Service.Fits
import ServiceCatalog.Proofs.Service.RoundTrip
import ServiceCatalog.Proofs.Service.Rules
import ServiceCatalog.Proofs.Settings.Guesses
import ServiceCatalog.Proofs.Settings.Limits
import ServiceCatalog.Proofs.Settings.Named
import ServiceCatalog.Proofs.Settings.Places
import ServiceCatalog.Proofs.Settings.RoundTrip
import ServiceCatalog.Proofs.Settings.Sources
import ServiceCatalog.Proofs.Settings.Texts
import ServiceCatalog.Proofs.Store.Chronology
import ServiceCatalog.Proofs.Store.Delivery
import ServiceCatalog.Proofs.Store.Directory
import ServiceCatalog.Proofs.Store.Feed
import ServiceCatalog.Proofs.Store.Fold
import ServiceCatalog.Proofs.Store.Frame
import ServiceCatalog.Proofs.Store.Matching
import ServiceCatalog.Proofs.Store.Protection
import ServiceCatalog.Proofs.Store.Rereading
import ServiceCatalog.Proofs.Store.RoundTrip
import ServiceCatalog.Proofs.Store.Separation
import ServiceCatalog.Proofs.Store.Session
import ServiceCatalog.Proofs.Store.Shelf
import ServiceCatalog.Proofs.Store.Slot
import ServiceCatalog.Proofs.Store.View
import ServiceCatalog.Proofs.Text.Utf8
import ServiceCatalog.Proofs.Time.Calendar
import ServiceCatalog.Proofs.Time.Order
import ServiceCatalog.Proofs.Time.RoundTrip
import ServiceCatalog.Proofs.Toml.Line
import ServiceCatalog.Proofs.Toml.Tables
import ServiceCatalog.Proofs.Toml.Text
import ServiceCatalog.Proofs.Watch.ItemLog
import ServiceCatalog.Proofs.Watch.Pipeline
import ServiceCatalog.Proofs.Watch.Replay
import ServiceCatalog.Proofs.Watch.WorkItem
import ServiceCatalog.Proofs.Workflow.Commits
import ServiceCatalog.Proofs.Workflow.Consistency
import ServiceCatalog.Proofs.Workflow.Continuation
import ServiceCatalog.Proofs.Workflow.History
import ServiceCatalog.Proofs.Workflow.Race
import ServiceCatalog.Proofs.Workflow.Storage
import ServiceCatalog.Proofs.Workflow.Table
import ServiceCatalog.Ron.Reader
import ServiceCatalog.Service.Data
import ServiceCatalog.Service.Record
import ServiceCatalog.Service.Rules
import ServiceCatalog.Settings.Basic
import ServiceCatalog.Settings.EnvFile
import ServiceCatalog.Settings.Environment
import ServiceCatalog.Settings.Json
import ServiceCatalog.Settings.Layer
import ServiceCatalog.Settings.Load
import ServiceCatalog.Settings.Printer
import ServiceCatalog.Settings.Reader
import ServiceCatalog.Settings.Value
import ServiceCatalog.Store.Backend
import ServiceCatalog.Store.Directory
import ServiceCatalog.Store.Fault
import ServiceCatalog.Store.Feed
import ServiceCatalog.Store.Memory
import ServiceCatalog.Store.Record
import ServiceCatalog.Store.Shelf
import ServiceCatalog.Text.Alphanumeric
import ServiceCatalog.Text.Blank
import ServiceCatalog.Text.Pattern
import ServiceCatalog.Text.Quoted
import ServiceCatalog.Text.Ranges
import ServiceCatalog.Text.Utf8
import ServiceCatalog.Text.Visible
import ServiceCatalog.Time.Date
import ServiceCatalog.Time.Instant
import ServiceCatalog.Time.Printer
import ServiceCatalog.Time.Reader
import ServiceCatalog.Toml.Printer
import ServiceCatalog.Toml.Reader
import ServiceCatalog.Toml.Scalar
import ServiceCatalog.Toml.Text
import ServiceCatalog.Toml.Tree
import ServiceCatalog.Watch.ItemLog
import ServiceCatalog.Watch.Pipeline
import ServiceCatalog.Watch.Watcher
import ServiceCatalog.Watch.WorkItem
import ServiceCatalog.Workflow.Error
import ServiceCatalog.Workflow.Item
import ServiceCatalog.Workflow.Machine
import ServiceCatalog.Workflow.Table
import ServiceCatalog.Yaml.Cursor
import ServiceCatalog.Yaml.Node
import ServiceCatalog.Yaml.Reader
import ServiceCatalog.Yaml.Scalar
import ServiceCatalog.Yaml.Tag
import ServiceCatalog.Yaml.Token
