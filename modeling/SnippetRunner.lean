import SnippetRunner.Adapter.Basic
import SnippetRunner.Adapter.System
import SnippetRunner.Bench.Connection
import SnippetRunner.Bench.Ensemble
import SnippetRunner.Bench.Player
import SnippetRunner.Bench.Rehearsal
import SnippetRunner.Bench.Script
import SnippetRunner.Bench.Shell
import SnippetRunner.Bench.Spawn
import SnippetRunner.Bench.Stage
import SnippetRunner.Bench.Trial
import SnippetRunner.Bench.Troupe
import SnippetRunner.Child.Group
import SnippetRunner.Child.Status
import SnippetRunner.Driver.Event
import SnippetRunner.Driver.Intake
import SnippetRunner.Driver.Text
import SnippetRunner.Failure
import SnippetRunner.Files.Error
import SnippetRunner.Files.Tree
import SnippetRunner.Files.Workspace
import SnippetRunner.Interpreter.Cache
import SnippetRunner.Interpreter.Node
import SnippetRunner.Interpreter.Profile
import SnippetRunner.Interpreter.Python
import SnippetRunner.Interpreter.Runtime
import SnippetRunner.Interpreter.Search
import SnippetRunner.Json.Decoder
import SnippetRunner.Json.Document
import SnippetRunner.Json.Token
import SnippetRunner.Json.Value
import SnippetRunner.Language.Catalog
import SnippetRunner.Language.Spec
import SnippetRunner.Launch.Check
import SnippetRunner.Launch.Plan
import SnippetRunner.Launch.Start
import SnippetRunner.Launch.System
import SnippetRunner.Path
import SnippetRunner.Runner.Basic
import SnippetRunner.Runner.Slot
import SnippetRunner.Settings.Basic
import SnippetRunner.Settings.Environment
import SnippetRunner.Settings.Json
import SnippetRunner.Settings.Toml
import SnippetRunner.Snippet.Budget
import SnippetRunner.Snippet.Fault
import SnippetRunner.Snippet.Report
import SnippetRunner.Snippet.Transcript
import SnippetRunner.Text.Blank
import SnippetRunner.Text.Decimal
import SnippetRunner.Text.Hidden
import SnippetRunner.Text.Quoted
import SnippetRunner.Text.Utf16
import SnippetRunner.Text.Utf8
import SnippetRunner.Time.Contest
import SnippetRunner.Time.Deadline
import SnippetRunner.Time.Span
import SnippetRunner.Toml.Quoted
import SnippetRunner.Toml.Reader
import SnippetRunner.Toml.Scalar
import SnippetRunner.Toml.Value
import SnippetRunner.Wire.Event
import SnippetRunner.Wire.Request
import SnippetRunner.Worker.Framing
import SnippetRunner.Worker.Incoming
import SnippetRunner.Worker.Session
import SnippetRunner.Table
import SnippetRunner.Proofs.Adapter.Ledger
import SnippetRunner.Proofs.Adapter.Representation
import SnippetRunner.Proofs.Adapter.Termination
import SnippetRunner.Proofs.Adapter.Holders
import SnippetRunner.Proofs.Child.Group
import SnippetRunner.Proofs.Adapter.Attribution
import SnippetRunner.Proofs.Snippet.Longest
import SnippetRunner.Proofs.Adapter.Workers
import SnippetRunner.Proofs.Adapter.Cancellation
import SnippetRunner.Proofs.Adapter.Joining
import SnippetRunner.Proofs.Adapter.Outdated
import SnippetRunner.Proofs.Adapter.Stranded
import SnippetRunner.Proofs.Adapter.Results
import SnippetRunner.Proofs.Worker.Chunks
import SnippetRunner.Proofs.Driver.Arrival
import SnippetRunner.Proofs.Driver.Intake
import SnippetRunner.Proofs.Interpreter.Granted
import SnippetRunner.Proofs.Runner.Journal
import SnippetRunner.Proofs.Json.Records
import SnippetRunner.Proofs.Written
import SnippetRunner.Proofs.Json.Spelling
import SnippetRunner.Proofs.Wire.Encodings
import SnippetRunner.Proofs.Runner.Separation
import SnippetRunner.Proofs.Runner.Front
import SnippetRunner.Proofs.Runner.Once
import SnippetRunner.Proofs.Runner.Serial
import SnippetRunner.Proofs.Snippet.Counting
import SnippetRunner.Proofs.Worker.Stream
import SnippetRunner.Proofs.Worker.Taking
import SnippetRunner.Proofs.Adapter.Polling
import SnippetRunner.Proofs.Adapter.Alive
import SnippetRunner.Proofs.Adapter.Timeline
import SnippetRunner.Proofs.Adapter.Course
import SnippetRunner.Proofs.Bench.Looks
import SnippetRunner.Proofs.Adapter.Refusals
import SnippetRunner.Proofs.Interpreter.Readable
import SnippetRunner.Language.Index
import SnippetRunner.Proofs.Language.Spelling
import SnippetRunner.Proofs.Language.Catalog
import SnippetRunner.Proofs.Json.Readers
import SnippetRunner.Proofs.Wire.Requests
import SnippetRunner.Proofs.Worker.Framing
import SnippetRunner.Proofs.Files.Walking
import SnippetRunner.Proofs.Interpreter.Launchable
import SnippetRunner.Proofs.Interpreter.Cached
import SnippetRunner.Proofs.Launch.Check
import SnippetRunner.Proofs.Time.Budget
import SnippetRunner.Proofs.Settings.Validity
import SnippetRunner.Proofs.Settings.Environment
import SnippetRunner.Proofs.Snippet.Readable
import SnippetRunner.Proofs.Files.Below
import SnippetRunner.Proofs.Files.Filled
import SnippetRunner.Proofs.Text.CutShort
import SnippetRunner.Proofs.Worker.Pending
