import StoreGateway.Catalog.Column
import StoreGateway.Catalog.ColumnCache
import StoreGateway.Catalog.Table
import StoreGateway.Command.Arguments
import StoreGateway.Command.Records
import StoreGateway.Command.Reply
import StoreGateway.Command.Tool
import StoreGateway.CommandLine.FileTree
import StoreGateway.CommandLine.Run
import StoreGateway.CommandLine.Usage
import StoreGateway.Digest.Scheduler
import StoreGateway.Error
import StoreGateway.Fields
import StoreGateway.Fields.Order
import StoreGateway.Gateway.Basic
import StoreGateway.Gateway.Request
import StoreGateway.Gateway.Session
import StoreGateway.Gateway.Timeline
import StoreGateway.Json.Basic
import StoreGateway.Json.Document
import StoreGateway.Json.Printer
import StoreGateway.Json.Record
import StoreGateway.Json.Token
import StoreGateway.Main
import StoreGateway.Number.Binary64
import StoreGateway.Number.Scaled
import StoreGateway.Number.Shortest
import StoreGateway.Number.Spelling
import StoreGateway.Proofs.Aggregation
import StoreGateway.Proofs.Argv
import StoreGateway.Proofs.BatchMoves
import StoreGateway.Proofs.BatchProgress
import StoreGateway.Proofs.Batches
import StoreGateway.Proofs.BoundedNumerals
import StoreGateway.Proofs.CacheCounters
import StoreGateway.Proofs.CacheHistory
import StoreGateway.Proofs.CacheMoves
import StoreGateway.Proofs.CallAccounts
import StoreGateway.Proofs.Calls
import StoreGateway.Proofs.CommandGates
import StoreGateway.Proofs.Deadlines
import StoreGateway.Proofs.Display
import StoreGateway.Proofs.DocumentText
import StoreGateway.Proofs.Effects
import StoreGateway.Proofs.Encoding
import StoreGateway.Proofs.Engaged
import StoreGateway.Proofs.EnvironmentSettings
import StoreGateway.Proofs.FragmentReading
import StoreGateway.Proofs.Fragments
import StoreGateway.Proofs.IngestCommand
import StoreGateway.Proofs.LabelShares
import StoreGateway.Proofs.Launching
import StoreGateway.Proofs.ListedAttributes
import StoreGateway.Proofs.LongestNumbers
import StoreGateway.Proofs.Marks
import StoreGateway.Proofs.NearestDecimals
import StoreGateway.Proofs.NearestDoubles
import StoreGateway.Proofs.Numbering
import StoreGateway.Proofs.Numerals
import StoreGateway.Proofs.OutputLimit
import StoreGateway.Proofs.Pieces
import StoreGateway.Proofs.ReadValues
import StoreGateway.Proofs.RecordStream
import StoreGateway.Proofs.Rounding
import StoreGateway.Proofs.RowWise
import StoreGateway.Proofs.Runs
import StoreGateway.Proofs.SampleFields
import StoreGateway.Proofs.ScaledNumbers
import StoreGateway.Proofs.ScannedNumbers
import StoreGateway.Proofs.SchedulerMoves
import StoreGateway.Proofs.ShortestReads
import StoreGateway.Proofs.SilentFilters
import StoreGateway.Proofs.SingleFlight
import StoreGateway.Proofs.SpecEdits
import StoreGateway.Proofs.SpecReading
import StoreGateway.Proofs.Spellings
import StoreGateway.Proofs.Steps
import StoreGateway.Proofs.Stranded
import StoreGateway.Proofs.TablesApart
import StoreGateway.Proofs.TextScans
import StoreGateway.Proofs.TimeBounds
import StoreGateway.Proofs.TimeBuckets
import StoreGateway.Proofs.TimelineRuns
import StoreGateway.Proofs.TokenText
import StoreGateway.Proofs.ToolCalls
import StoreGateway.Proofs.Trimming
import StoreGateway.Proofs.UnmarkedRuns
import StoreGateway.Proofs.ViewArguments
import StoreGateway.Proofs.Waiters
import StoreGateway.Proofs.Windows
import StoreGateway.Proofs.WordReading
import StoreGateway.Proofs.Writes
import StoreGateway.Proofs.WrittenIntegers
import StoreGateway.Proofs.WrittenRows
import StoreGateway.Query.Fragment
import StoreGateway.Query.Invocation
import StoreGateway.Query.Lenient
import StoreGateway.Query.Output
import StoreGateway.Query.Row
import StoreGateway.Query.Scanning
import StoreGateway.Query.Spec
import StoreGateway.Settings.Config
import StoreGateway.Settings.Fault
import StoreGateway.Settings.Telemetry
import StoreGateway.Text.Blank
import StoreGateway.Text.Hidden
import StoreGateway.Text.Inspect
import StoreGateway.Text.Numeral
import StoreGateway.Text.Scan
import StoreGateway.Text.Split
import StoreGateway.Ticket
