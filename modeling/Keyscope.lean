import Keyscope.Main
import Keyscope.Report.Console
import Keyscope.Settings.Lookup
import Keyscope.Settings.Save
import Keyscope.Proofs.Text.Order
import Keyscope.Proofs.Text.Pieces
import Keyscope.Proofs.Text.Codec
import Keyscope.Proofs.Text.Upper
import Keyscope.Proofs.Outcome
import Keyscope.Proofs.Classes
import Keyscope.Proofs.Path
import Keyscope.Proofs.Disk
import Keyscope.Proofs.Session
import Keyscope.Proofs.Value.Parts
import Keyscope.Proofs.Preview
import Keyscope.Proofs.Preview.Delivery
import Keyscope.Proofs.Preview.Legible
import Keyscope.Proofs.Keyspace.Sweep
import Keyscope.Proofs.Keyspace.Arrivals
import Keyscope.Proofs.Keyspace.Replies
import Keyscope.Proofs.Keyspace.Metadata
import Keyscope.Proofs.Keyspace.Buckets
import Keyscope.Proofs.Keyspace.Findings
import Keyscope.Proofs.Keyspace.Payload
import Keyscope.Proofs.Keyspace.Snapshot
import Keyscope.Proofs.Keyspace.Batching
import Keyscope.Proofs.Keyspace.Isolation
import Keyscope.Proofs.Keyspace.Database
import Keyscope.Proofs.Keyspace.Names
import Keyscope.Proofs.Keyspace.Aligned
import Keyscope.Proofs.Keyspace.Requests
import Keyscope.Proofs.Keyspace.Schedule
import Keyscope.Proofs.Keyspace.Stages
import Keyscope.Proofs.Keyspace.Gather
import Keyscope.Proofs.Service
import Keyscope.Proofs.Telemetry.Groups
import Keyscope.Proofs.Telemetry
import Keyscope.Proofs.Json.Reader
import Keyscope.Proofs.Telemetry.Dump
import Keyscope.Proofs.Dialogue
import Keyscope.Proofs.Connections
import Keyscope.Proofs.Calls
import Keyscope.Proofs.Selection
import Keyscope.Proofs.Value.Shown
import Keyscope.Proofs.Target
import Keyscope.Proofs.Value.Same
import Keyscope.Proofs.Yaml.Writer
import Keyscope.Proofs.Yaml.Document
import Keyscope.Proofs.Value.Spelled
import Keyscope.Proofs.Choice
import Keyscope.Proofs.Settings.Load
import Keyscope.Proofs.Settings.Faults
import Keyscope.Proofs.Settings.Sections
import Keyscope.Proofs.Settings.Overlay
import Keyscope.Proofs.Settings.Layers
import Keyscope.Proofs.Settings.Settled
import Keyscope.Proofs.Settings.Saved
import Keyscope.Proofs.Keyspace.Flag
import Keyscope.Proofs.Number.Nearest
import Keyscope.Proofs.Number.Numeral
import Keyscope.Proofs.Number.Line
import Keyscope.Proofs.Settings.Usable
import Keyscope.Proofs.Settings.Variables
import Keyscope.Proofs.Settings.Standalone
import Keyscope.Proofs.Value.Told
import Keyscope.Proofs.Keyspace.Lost
import Keyscope.Proofs.Escapes
import Keyscope.Proofs.Crew
import Keyscope.Proofs.Probing
import Keyscope.Proofs.Keyspace.Caps
import Keyscope.Proofs.Keyspace.Again
import Keyscope.Proofs.Number.Decimal
import Keyscope.Proofs.Preview.Budget
import Keyscope.Proofs.Number.Whole
import Keyscope.Proofs.Keyspace.Lifetimes
import Keyscope.Proofs.Number.Canonical
import Keyscope.Proofs.Number.Shortest
import Keyscope.Proofs.Json.Writer
import Keyscope.Proofs.Keyspace.Sizes
import Keyscope.Proofs.Telemetry.Rows
import Keyscope.Proofs.Command.Runs
import Keyscope.Proofs.Command.Warning
import Keyscope.Proofs.Command.Documents
import Keyscope.Proofs.Number.Literal
import Keyscope.Proofs.Number.Written
import Keyscope.Proofs.Json.Quoted
import Keyscope.Proofs.Json.Scalar
import Keyscope.Proofs.Json.Written
import Keyscope.Proofs.Text.Characters
import Keyscope.Proofs.Json.Paired
import Keyscope.Proofs.Telemetry.Written
import Keyscope.Proofs.Command.Strict
import Keyscope.Proofs.Text.Replaced
import Keyscope.Proofs.Settings.Listed
import Keyscope.Proofs.Release
