import TaskTable.Catalog
import TaskTable.Check.Handlers
import TaskTable.Check.Issue
import TaskTable.Check.Report
import TaskTable.Check.Structure
import TaskTable.CommandLine.Arguments
import TaskTable.CommandLine.Run
import TaskTable.CommandLine.Usage
import TaskTable.Digest.Sha256
import TaskTable.Files
import TaskTable.Grammar.Line
import TaskTable.Grammar.Reader
import TaskTable.Grammar.Rule
import TaskTable.Grammar.Script
import TaskTable.Grammar.Token
import TaskTable.Handler
import TaskTable.Ini
import TaskTable.Json.Basic
import TaskTable.Json.Decode
import TaskTable.Json.Draft
import TaskTable.Json.Text
import TaskTable.Json5
import TaskTable.Main
import TaskTable.Migration
import TaskTable.Number.Binary64
import TaskTable.Number.Digits
import TaskTable.Number.Hexadecimal
import TaskTable.Number.Power
import TaskTable.Number.Scaled
import TaskTable.Proofs.Check.Clean
import TaskTable.Proofs.Check.Kinds
import TaskTable.Proofs.Check.MissingBlocks
import TaskTable.Proofs.Check.PathSearch
import TaskTable.Proofs.Check.Paths
import TaskTable.Proofs.Grammar.Blame
import TaskTable.Proofs.Grammar.Entries
import TaskTable.Proofs.Grammar.Names
import TaskTable.Proofs.Grammar.Quotes
import TaskTable.Proofs.Grammar.ReadBack
import TaskTable.Proofs.Grammar.Reading
import TaskTable.Proofs.Grammar.Runs
import TaskTable.Proofs.Grammar.Spelling
import TaskTable.Proofs.Grammar.TableLine
import TaskTable.Proofs.Grammar.VerifyScript
import TaskTable.Proofs.Json.Decode
import TaskTable.Proofs.Json.ReadBack
import TaskTable.Proofs.Migration
import TaskTable.Proofs.Migration.HookNames
import TaskTable.Proofs.Migration.Hooks
import TaskTable.Proofs.Migration.Requests
import TaskTable.Proofs.Migration.Restart
import TaskTable.Proofs.Number.Digits
import TaskTable.Proofs.Recording.Common
import TaskTable.Proofs.Recording.Derived
import TaskTable.Proofs.Recording.Diff
import TaskTable.Proofs.Recording.Multiline
import TaskTable.Proofs.Recording.Scripts
import TaskTable.Proofs.Recording.Transcript
import TaskTable.Proofs.Script.Entries
import TaskTable.Proofs.Session.Bounds
import TaskTable.Proofs.Session.Calls
import TaskTable.Proofs.Session.Change
import TaskTable.Proofs.Session.Course
import TaskTable.Proofs.Session.Deeds
import TaskTable.Proofs.Session.Delivery
import TaskTable.Proofs.Session.Edited
import TaskTable.Proofs.Session.Faults
import TaskTable.Proofs.Session.Finishing
import TaskTable.Proofs.Session.Halted
import TaskTable.Proofs.Session.Itinerary
import TaskTable.Proofs.Session.Ledger
import TaskTable.Proofs.Session.Lifecycle
import TaskTable.Proofs.Session.Likeness
import TaskTable.Proofs.Session.Limits
import TaskTable.Proofs.Session.Logged
import TaskTable.Proofs.Session.Past
import TaskTable.Proofs.Session.Paused
import TaskTable.Proofs.Session.Placed
import TaskTable.Proofs.Session.Proposed
import TaskTable.Proofs.Session.Quiet
import TaskTable.Proofs.Session.Recovery
import TaskTable.Proofs.Session.Relaid
import TaskTable.Proofs.Session.Replay
import TaskTable.Proofs.Session.Restarted
import TaskTable.Proofs.Session.Resume
import TaskTable.Proofs.Session.Safety
import TaskTable.Proofs.Session.Simulated
import TaskTable.Proofs.Session.Stilled
import TaskTable.Proofs.Session.Stride
import TaskTable.Proofs.Session.Supplied
import TaskTable.Proofs.Session.Timings
import TaskTable.Proofs.Session.Trace
import TaskTable.Proofs.Session.Verdict
import TaskTable.Proofs.Session.Verification
import TaskTable.Proofs.Session.Walk
import TaskTable.Proofs.Settings.Precedence
import TaskTable.Proofs.Signals
import TaskTable.Proofs.Supply.Drawing
import TaskTable.Proofs.Supply.Feeding
import TaskTable.Proofs.Supply.Replay
import TaskTable.Proofs.Table.Acceptance
import TaskTable.Proofs.Table.Blame
import TaskTable.Proofs.Table.Columns
import TaskTable.Proofs.Table.Compiled
import TaskTable.Proofs.Table.Layout
import TaskTable.Proofs.Table.Lookup
import TaskTable.Proofs.Table.ReadBack
import TaskTable.Proofs.Table.Renumber
import TaskTable.Proofs.Table.Stored
import TaskTable.Proofs.Table.WellFormed
import TaskTable.Proofs.Task.Clearing
import TaskTable.Proofs.Task.Clock
import TaskTable.Proofs.Task.Nesting
import TaskTable.Proofs.Task.Stored
import TaskTable.Proofs.Text.Layout
import TaskTable.Proofs.Text.Uncommented
import TaskTable.Proofs.Time.Calendar
import TaskTable.Proofs.Time.ReadBack
import TaskTable.Proofs.Timers
import TaskTable.Random.ChaCha
import TaskTable.Random.Generator
import TaskTable.Recording.Basic
import TaskTable.Recording.Diff
import TaskTable.Recording.Scripts
import TaskTable.Recording.Stored
import TaskTable.Recording.Transcript
import TaskTable.Ron
import TaskTable.Script.Read
import TaskTable.Session.Basic
import TaskTable.Session.Build
import TaskTable.Session.Calls
import TaskTable.Session.Route
import TaskTable.Session.Run
import TaskTable.Session.Step
import TaskTable.Session.Verify
import TaskTable.Settings.Basic
import TaskTable.Settings.Environment
import TaskTable.Settings.File
import TaskTable.Settings.Lenient
import TaskTable.Settings.Load
import TaskTable.Settings.Path
import TaskTable.Settings.Value
import TaskTable.Signals
import TaskTable.SortedMap
import TaskTable.Supply.Any
import TaskTable.Supply.Basic
import TaskTable.Supply.Random
import TaskTable.Supply.Scripted
import TaskTable.Supply.Verified
import TaskTable.Table.Basic
import TaskTable.Table.Block
import TaskTable.Table.Compile
import TaskTable.Table.Error
import TaskTable.Table.Names
import TaskTable.Table.SourceError
import TaskTable.Table.Stored
import TaskTable.Table.Transition
import TaskTable.Table.Written
import TaskTable.Task.Basic
import TaskTable.Task.Id
import TaskTable.Task.Status
import TaskTable.Task.Stored
import TaskTable.Text.Alphanumeric
import TaskTable.Text.Blank
import TaskTable.Text.Capital
import TaskTable.Text.Comment
import TaskTable.Text.Lines
import TaskTable.Text.Quoted
import TaskTable.Time.Calendar
import TaskTable.Time.Instant
import TaskTable.Timers
import TaskTable.Toml.Document
import TaskTable.Toml.Moment
import TaskTable.Toml.Text
import TaskTable.Toml.Tree
import TaskTable.Toml.Value
import TaskTable.Yaml.Cursor
import TaskTable.Yaml.Document
import TaskTable.Yaml.Layout
import TaskTable.Yaml.Scalar
import TaskTable.Yaml.Token
