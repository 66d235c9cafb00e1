import HeapSentry.Activity
import HeapSentry.ByteCount
import HeapSentry.Command.Arithmetic
import HeapSentry.Command.Escape
import HeapSentry.Command.Pattern
import HeapSentry.Command.Placeholder
import HeapSentry.Command.PrintFormat
import HeapSentry.Command.Reader
import HeapSentry.Command.Regex
import HeapSentry.Command.Run
import HeapSentry.Command.Script
import HeapSentry.Command.Shell
import HeapSentry.Command.Status
import HeapSentry.Command.Tool
import HeapSentry.Command.Tool.Basic
import HeapSentry.Command.Tool.Edit
import HeapSentry.Command.Tool.Evaluate
import HeapSentry.Command.Tool.Files
import HeapSentry.Command.Tool.Search
import HeapSentry.Command.Tool.Test
import HeapSentry.Command.Tool.Text
import HeapSentry.CommandLine.Arguments
import HeapSentry.CommandLine.Invocation
import HeapSentry.CommandLine.Program
import HeapSentry.Decimal.Dyadic
import HeapSentry.Decimal.Fixed
import HeapSentry.Decimal.Nearest
import HeapSentry.Decimal.Shortest
import HeapSentry.Digest.Sha256
import HeapSentry.Heap.Builder
import HeapSentry.Heap.Document
import HeapSentry.Heap.DocumentFormat
import HeapSentry.Heap.Graph
import HeapSentry.Heap.Object
import HeapSentry.Json.Decode
import HeapSentry.Json.Magnitude
import HeapSentry.Json.Printer
import HeapSentry.Json.Quoted
import HeapSentry.Json.Reading
import HeapSentry.Json.Value
import HeapSentry.Leak.Candidate
import HeapSentry.Leak.Classification
import HeapSentry.Leak.Family
import HeapSentry.Leak.Findings
import HeapSentry.Leak.Matcher
import HeapSentry.Leak.Queue
import HeapSentry.Leak.Search
import HeapSentry.Leak.Trace
import HeapSentry.LogFormat
import HeapSentry.Machine
import HeapSentry.Main
import HeapSentry.Pressure.DumpCommand
import HeapSentry.Pressure.Probe
import HeapSentry.Pressure.Reading
import HeapSentry.Pressure.Session
import HeapSentry.Pressure.Snapshot
import HeapSentry.Pressure.Streak
import HeapSentry.Pressure.Tracker
import HeapSentry.Pressure.TriggerLoop
import HeapSentry.ProcessStatus
import HeapSentry.Proofs.Leak.Chains
import HeapSentry.Proofs.Leak.Ending
import HeapSentry.Proofs.Leak.Following
import HeapSentry.Proofs.Leak.Grouping
import HeapSentry.Proofs.Leak.Members
import HeapSentry.Proofs.Leak.Outcome
import HeapSentry.Proofs.Leak.Serving
import HeapSentry.Proofs.Leak.Settling
import HeapSentry.Proofs.Leak.Shortest
import HeapSentry.Proofs.Leak.Start
import HeapSentry.Proofs.Leak.Traversal
import HeapSentry.Proofs.Leak.Verdicts
import HeapSentry.Proofs.Leak.Way
import HeapSentry.Proofs.Results
import HeapSentry.Report.Analysis
import HeapSentry.Report.Assembly
import HeapSentry.Report.Basic
import HeapSentry.Report.Format
import HeapSentry.Settings.Basic
import HeapSentry.Settings.Reader
import HeapSentry.Storage.DumpStore
import HeapSentry.Storage.FileTree
import HeapSentry.Storage.Ledger
import HeapSentry.Storage.LedgerFile
import HeapSentry.Storage.Path
import HeapSentry.Storage.Uploads
import HeapSentry.Supervisor.Analysis
import HeapSentry.Supervisor.Basic
import HeapSentry.Supervisor.Calls
import HeapSentry.Supervisor.Request
import HeapSentry.Supervisor.World
import HeapSentry.Text.Debug
import HeapSentry.Text.Hex
import HeapSentry.Text.Unprintable
import HeapSentry.Toml.Quoted
import HeapSentry.Toml.Reader
import HeapSentry.Toml.Scalar
import HeapSentry.Toml.Tree
import HeapSentry.Toml.Value
import HeapSentry.Proofs.Leak.Accounting
import HeapSentry.Proofs.Pressure.Calls
import HeapSentry.Proofs.Pressure.Dumping
import HeapSentry.Proofs.Pressure.Stopping
import HeapSentry.Proofs.Leak.Flagging
import HeapSentry.Proofs.Leak.Admitting
import HeapSentry.Proofs.Leak.Classifying
import HeapSentry.Proofs.Leak.Course
import HeapSentry.Proofs.Leak.Independence
import HeapSentry.Proofs.Pressure.Pausing
import HeapSentry.Proofs.Heap.Building
import HeapSentry.Proofs.Leak.Naming
import HeapSentry.Proofs.Heap.Renaming
import HeapSentry.Proofs.Leak.RenamedSearch
import HeapSentry.Proofs.Leak.RenamedSurvey
import HeapSentry.Proofs.Supervisor.Rules
import HeapSentry.Proofs.Supervisor.Footprints
import HeapSentry.Proofs.Supervisor.Duties
import HeapSentry.Proofs.Supervisor.Stocks
import HeapSentry.Proofs.Supervisor.Stages
import HeapSentry.Proofs.Supervisor.Handling
import HeapSentry.Proofs.Supervisor.Lifetimes
import HeapSentry.Proofs.Supervisor.Budget
import HeapSentry.Proofs.Supervisor.Custody
import HeapSentry.Proofs.Storage.Trees
import HeapSentry.Proofs.Storage.Sites
import HeapSentry.Proofs.Storage.Scanning
import HeapSentry.Proofs.Storage.Pairs
import HeapSentry.Proofs.Storage.Leftovers
import HeapSentry.Proofs.Supervisor.Custodians
import HeapSentry.Proofs.Supervisor.Surroundings
import HeapSentry.Proofs.Supervisor.Standings
import HeapSentry.Proofs.Supervisor.Accounts
import HeapSentry.Proofs.Supervisor.Startup
import HeapSentry.Proofs.Supervisor.Safekeeping
import HeapSentry.Proofs.Supervisor.Overtaking
import HeapSentry.Proofs.Supervisor.CrashSafety
import HeapSentry.Proofs.Leak.Outlines
import HeapSentry.Proofs.Pressure.Debouncing
import HeapSentry.Proofs.Json.Numerals
import HeapSentry.Proofs.Json.Printing
import HeapSentry.Proofs.Json.Decoding
import HeapSentry.Proofs.Report.RoundTrip
import HeapSentry.Proofs.Storage.Entries
import HeapSentry.Proofs.Storage.LedgerText
import HeapSentry.Proofs.Storage.Keeping
import HeapSentry.Proofs.Storage.Acknowledging
import HeapSentry.Proofs.Pressure.Windows
import HeapSentry.Proofs.Storage.Clearing
import HeapSentry.Proofs.Pressure.Rows
import HeapSentry.Proofs.Pressure.Forcing
import HeapSentry.Proofs.Heap.Superclasses
import HeapSentry.Proofs.Leak.Families
import HeapSentry.Proofs.Supervisor.Stranding
import HeapSentry.Proofs.Leak.Demands
import HeapSentry.Proofs.Leak.Nameless
import HeapSentry.Proofs.Storage.Listings
import HeapSentry.Proofs.Storage.Departing
import HeapSentry.Proofs.Storage.Tidying
import HeapSentry.Proofs.Storage.Mishaps
import HeapSentry.Proofs.Supervisor.Runs
import HeapSentry.Proofs.Supervisor.Settlement
import HeapSentry.Proofs.Command.Filling
import HeapSentry.Proofs.Heap.Inventory
import HeapSentry.Proofs.Heap.RoundTrip
import HeapSentry.Proofs.Heap.Allocating
import HeapSentry.Proofs.Heap.Loading
import HeapSentry.Proofs.Leak.Rounds
