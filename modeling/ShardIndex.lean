import ShardIndex.Bootstrap.Crew
import ShardIndex.Bootstrap.Strategy
import ShardIndex.Bootstrap.World
import ShardIndex.Command
import ShardIndex.Command.Help
import ShardIndex.Command.Ingest
import ShardIndex.Command.Line
import ShardIndex.Command.Problem
import ShardIndex.Command.Program
import ShardIndex.Command.Reach
import ShardIndex.Command.Report
import ShardIndex.Command.Run
import ShardIndex.Config
import ShardIndex.Config.Document
import ShardIndex.Config.Environment
import ShardIndex.Config.Location
import ShardIndex.Config.Template
import ShardIndex.Disk
import ShardIndex.Disk.Locator
import ShardIndex.Disk.Opening
import ShardIndex.Disk.Stored
import ShardIndex.Failure
import ShardIndex.Identity.Counter
import ShardIndex.Identity.Keyed
import ShardIndex.Identity.Resolver
import ShardIndex.Index.Durable
import ShardIndex.Index.Interface
import ShardIndex.Index.Monitored
import ShardIndex.Index.Sealed
import ShardIndex.Index.Troubled
import ShardIndex.Index.Volatile
import ShardIndex.Key
import ShardIndex.Lifecycle
import ShardIndex.Main
import ShardIndex.Path
import ShardIndex.Proofs.Account
import ShardIndex.Proofs.Alike
import ShardIndex.Proofs.Allotment
import ShardIndex.Proofs.Assignment
import ShardIndex.Proofs.AtRest
import ShardIndex.Proofs.Atomic
import ShardIndex.Proofs.Buckets
import ShardIndex.Proofs.Callers
import ShardIndex.Proofs.Calls
import ShardIndex.Proofs.Conservation
import ShardIndex.Proofs.Contents
import ShardIndex.Proofs.Counting
import ShardIndex.Proofs.Coverage
import ShardIndex.Proofs.Crew
import ShardIndex.Proofs.Delivery
import ShardIndex.Proofs.Durability
import ShardIndex.Proofs.EitherStore
import ShardIndex.Proofs.Feed
import ShardIndex.Proofs.History
import ShardIndex.Proofs.Hours
import ShardIndex.Proofs.Interchange
import ShardIndex.Proofs.Isolation
import ShardIndex.Proofs.Journal
import ShardIndex.Proofs.Landing
import ShardIndex.Proofs.Lawful
import ShardIndex.Proofs.Leftovers
import ShardIndex.Proofs.Loading
import ShardIndex.Proofs.Newcomers
import ShardIndex.Proofs.Numbering
import ShardIndex.Proofs.Opened
import ShardIndex.Proofs.Opening
import ShardIndex.Proofs.Paging
import ShardIndex.Proofs.Permanence
import ShardIndex.Proofs.Place
import ShardIndex.Proofs.Provenance
import ShardIndex.Proofs.Quiet
import ShardIndex.Proofs.Reading
import ShardIndex.Proofs.Rebuilding
import ShardIndex.Proofs.Refresh
import ShardIndex.Proofs.Registration
import ShardIndex.Proofs.Rerun
import ShardIndex.Proofs.Retention
import ShardIndex.Proofs.Rows
import ShardIndex.Proofs.Scan
import ShardIndex.Proofs.Separation
import ShardIndex.Proofs.Sequence
import ShardIndex.Proofs.Single
import ShardIndex.Proofs.Targets
import ShardIndex.Proofs.Updates
import ShardIndex.Proofs.Views
import ShardIndex.Proofs.Visibility
import ShardIndex.Record
import ShardIndex.Record.Json
import ShardIndex.Schema.Id
import ShardIndex.Schema.Registry
import ShardIndex.Snapshot
import ShardIndex.Source.Interrupted
import ShardIndex.Source.Log
import ShardIndex.Source.Paged
import ShardIndex.Source.Stream
import ShardIndex.Table
import ShardIndex.Text.Blank
import ShardIndex.Text.Hex
import ShardIndex.Text.Hidden
import ShardIndex.Text.Json
import ShardIndex.Text.Json.Reader
import ShardIndex.Text.Numeral
import ShardIndex.Text.Pieces
import ShardIndex.Text.Quoted
import ShardIndex.Text.Toml
import ShardIndex.Text.Toml.Reader
import ShardIndex.Time
import ShardIndex.Word
import ShardIndex.Workbench
