import Sweep.Artifact.Basic
import Sweep.Artifact.Codec
import Sweep.Command.Basic
import Sweep.Command.Launch
import Sweep.Command.OutputLine
import Sweep.CommandLine.Basic
import Sweep.CommandLine.Report
import Sweep.CommandLine.Request
import Sweep.Compile.Basic
import Sweep.Compile.Control
import Sweep.Compile.Failure
import Sweep.Compile.Lineage
import Sweep.Compile.Outline
import Sweep.Compile.ParameterSet
import Sweep.Compile.Plan
import Sweep.Compile.ResolvedTask
import Sweep.Compile.Sharing
import Sweep.Condition.Basic
import Sweep.Condition.Operand
import Sweep.Condition.Parser
import Sweep.Condition.Token
import Sweep.Digest
import Sweep.Document.Basic
import Sweep.Document.Reading
import Sweep.Experiment.Basic
import Sweep.Experiment.Codec
import Sweep.Files.Directories
import Sweep.Files.Path
import Sweep.Files.Tree
import Sweep.Json.Basic
import Sweep.Json.Parser
import Sweep.Json.Printer
import Sweep.Main
import Sweep.Number.Binary64
import Sweep.Number.Leading
import Sweep.Number.Reading
import Sweep.Number.Shortest
import Sweep.Proofs.Artifact.RoundTrip
import Sweep.Proofs.Artifact.Validity
import Sweep.Proofs.Command.Fields
import Sweep.Proofs.Command.Handover
import Sweep.Proofs.Compile.Binding
import Sweep.Proofs.Compile.Collapsing
import Sweep.Proofs.Compile.DataFlow
import Sweep.Proofs.Compile.DeclaredOrder
import Sweep.Proofs.Compile.Expansion
import Sweep.Proofs.Compile.Identities
import Sweep.Proofs.Compile.Inheritance
import Sweep.Proofs.Compile.InitialInputs
import Sweep.Proofs.Compile.Merging
import Sweep.Proofs.Compile.Planning
import Sweep.Proofs.Compile.Precedence
import Sweep.Proofs.Compile.Ranges
import Sweep.Proofs.Compile.Reachability
import Sweep.Proofs.Compile.Relevance
import Sweep.Proofs.Compile.Resolution
import Sweep.Proofs.Compile.Sharing
import Sweep.Proofs.Compile.Unused
import Sweep.Proofs.Compile.Validity
import Sweep.Proofs.Compile.Violations
import Sweep.Proofs.Compile.Warnings
import Sweep.Proofs.Condition.Comparing
import Sweep.Proofs.Condition.Lexing
import Sweep.Proofs.Condition.Literal
import Sweep.Proofs.Condition.Placeholder
import Sweep.Proofs.Condition.RoundTrip
import Sweep.Proofs.Condition.Wording
import Sweep.Proofs.Document.Reading
import Sweep.Proofs.Experiment.RoundTrip
import Sweep.Proofs.Files.Directory
import Sweep.Proofs.Files.Writing
import Sweep.Proofs.Json.Printer
import Sweep.Proofs.Json.Proper
import Sweep.Proofs.Json.Reading
import Sweep.Proofs.Lists
import Sweep.Proofs.Number.Notation
import Sweep.Proofs.Number.Shortest
import Sweep.Proofs.Repository.Agreement
import Sweep.Proofs.Repository.Clock
import Sweep.Proofs.Repository.Crash
import Sweep.Proofs.Repository.Dialogue
import Sweep.Proofs.Repository.Documents
import Sweep.Proofs.Repository.Effect
import Sweep.Proofs.Repository.Frame
import Sweep.Proofs.Repository.Interleaving
import Sweep.Proofs.Repository.Latest
import Sweep.Proofs.Repository.Representation
import Sweep.Proofs.Run.Announcing
import Sweep.Proofs.Run.Brackets
import Sweep.Proofs.Run.Calls
import Sweep.Proofs.Run.Choice
import Sweep.Proofs.Run.Coherence
import Sweep.Proofs.Run.Collecting
import Sweep.Proofs.Run.Continuing
import Sweep.Proofs.Run.Counting
import Sweep.Proofs.Run.Course
import Sweep.Proofs.Run.Deciding
import Sweep.Proofs.Run.Executable
import Sweep.Proofs.Run.Journey
import Sweep.Proofs.Run.Launching
import Sweep.Proofs.Run.Ledger
import Sweep.Proofs.Run.NestedLoops
import Sweep.Proofs.Run.Orderly
import Sweep.Proofs.Run.Passage
import Sweep.Proofs.Run.Preparing
import Sweep.Proofs.Run.Previews
import Sweep.Proofs.Run.Proceeding
import Sweep.Proofs.Run.Progress
import Sweep.Proofs.Run.Protocol
import Sweep.Proofs.Run.Provenance
import Sweep.Proofs.Run.Reading
import Sweep.Proofs.Run.Recording
import Sweep.Proofs.Run.Replay
import Sweep.Proofs.Run.Resuming
import Sweep.Proofs.Run.RoundTrip
import Sweep.Proofs.Run.Route
import Sweep.Proofs.Run.SharedTable
import Sweep.Proofs.Run.Standing
import Sweep.Proofs.Run.Strokes
import Sweep.Proofs.Run.Supply
import Sweep.Proofs.Run.Telling
import Sweep.Proofs.Run.Termination
import Sweep.Proofs.Run.Touring
import Sweep.Proofs.Run.Upholding
import Sweep.Proofs.Run.Visiting
import Sweep.Proofs.Run.Visits
import Sweep.Proofs.Run.WholeCourse
import Sweep.Proofs.Source.Loading
import Sweep.Proofs.Table
import Sweep.Proofs.Text.Blank
import Sweep.Proofs.Timestamp
import Sweep.Proofs.Workflow.RoundTrip
import Sweep.Repository.Basic
import Sweep.Repository.Directory
import Sweep.Repository.Memory
import Sweep.Repository.Operation
import Sweep.Repository.Outline
import Sweep.Run.Answers
import Sweep.Run.Codec
import Sweep.Run.Event
import Sweep.Run.Failure
import Sweep.Run.NextSpace
import Sweep.Run.Outline
import Sweep.Run.Record
import Sweep.Run.Results
import Sweep.Run.Samples
import Sweep.Run.Session
import Sweep.Run.Slots
import Sweep.Run.Snapshot
import Sweep.Run.SpaceVisit
import Sweep.Run.Timeline
import Sweep.Run.Traversal
import Sweep.Settings
import Sweep.Shell.Actor
import Sweep.Shell.Arithmetic
import Sweep.Shell.Awk.Machine
import Sweep.Shell.Awk.Parser
import Sweep.Shell.Awk.Program
import Sweep.Shell.Awk.Running
import Sweep.Shell.Awk.Value
import Sweep.Shell.Execution
import Sweep.Shell.Expansion
import Sweep.Shell.Fields
import Sweep.Shell.Finding
import Sweep.Shell.Launcher
import Sweep.Shell.Octets
import Sweep.Shell.Part
import Sweep.Shell.Regex
import Sweep.Shell.Source
import Sweep.Shell.Source.Command
import Sweep.Shell.Source.Word
import Sweep.Shell.State
import Sweep.Shell.Tool.Basic
import Sweep.Shell.Tool.Clock
import Sweep.Shell.Tool.Counting
import Sweep.Shell.Tool.Cutting
import Sweep.Shell.Tool.Editing
import Sweep.Shell.Tool.Editing.Script
import Sweep.Shell.Tool.Entries
import Sweep.Shell.Tool.Lines
import Sweep.Shell.Tool.Listing
import Sweep.Shell.Tool.Printing
import Sweep.Shell.Tool.Search
import Sweep.Shell.Tool.Sorting
import Sweep.Shell.Tool.Sums
import Sweep.Shell.Tool.Testing
import Sweep.Source.Loading
import Sweep.Table
import Sweep.Text.Blank
import Sweep.Text.Bytes
import Sweep.Text.Escaped
import Sweep.Text.Letter
import Sweep.Timestamp
import Sweep.Workflow.Basic
import Sweep.Workflow.Codec
import Sweep.Yaml.Basic
import Sweep.Yaml.Quoted
import Sweep.Yaml.Token
