import ImportRedirect.Audit
import ImportRedirect.Command.Arguments
import ImportRedirect.Command.Audit
import ImportRedirect.Command.Convert
import ImportRedirect.Command.Invocation
import ImportRedirect.Command.Run
import ImportRedirect.Command.Surroundings
import ImportRedirect.Console
import ImportRedirect.Conversion
import ImportRedirect.Diagnostic
import ImportRedirect.Emit.Render
import ImportRedirect.Emit.Splice
import ImportRedirect.Fault
import ImportRedirect.Files.Disk
import ImportRedirect.Files.Path
import ImportRedirect.Files.Problem
import ImportRedirect.Host
import ImportRedirect.Log
import ImportRedirect.Main
import ImportRedirect.Node
import ImportRedirect.Pass
import ImportRedirect.Proofs.Binding.Preservation
import ImportRedirect.Proofs.Binding.Referent
import ImportRedirect.Proofs.Binding.Settling
import ImportRedirect.Proofs.Conversion.Outcome
import ImportRedirect.Proofs.Emit.Parts
import ImportRedirect.Proofs.Emit.Render
import ImportRedirect.Proofs.Emit.Splice
import ImportRedirect.Proofs.Pass.Concatenation
import ImportRedirect.Proofs.Pass.Conclusion
import ImportRedirect.Proofs.Pass.Expansion
import ImportRedirect.Proofs.Pass.Failure
import ImportRedirect.Proofs.Pass.Idempotence
import ImportRedirect.Proofs.Record
import ImportRedirect.Proofs.Script.Bindings
import ImportRedirect.Proofs.Script.Conversion
import ImportRedirect.Proofs.Script.Layout
import ImportRedirect.Proofs.Script.Nodes
import ImportRedirect.Proofs.Script.Placement
import ImportRedirect.Proofs.Script.Progress
import ImportRedirect.Proofs.Script.Scan
import ImportRedirect.Proofs.Script.Shape
import ImportRedirect.Proofs.Settings.SingleFunction
import ImportRedirect.Proofs.Statement.Alike
import ImportRedirect.Proofs.Statement.Cases
import ImportRedirect.Proofs.Statement.Evidence
import ImportRedirect.Proofs.Statement.Regular
import ImportRedirect.Proofs.Statement.View
import ImportRedirect.Proofs.Statement.Visit
import ImportRedirect.Proofs.Text.Stretch
import ImportRedirect.Proofs.Text.Utf8
import ImportRedirect.Proofs.Usage.Occurrence
import ImportRedirect.Proofs.Value.Same
import ImportRedirect.Script.Cursor
import ImportRedirect.Script.Expression
import ImportRedirect.Script.Lexeme
import ImportRedirect.Script.LineEnd
import ImportRedirect.Script.Markup
import ImportRedirect.Script.Program
import ImportRedirect.Script.Statement
import ImportRedirect.Script.Token
import ImportRedirect.Script.Tree
import ImportRedirect.Settings
import ImportRedirect.Settings.Load
import ImportRedirect.Sources
import ImportRedirect.Statement.Classify
import ImportRedirect.Statement.Redirect
import ImportRedirect.Surface
import ImportRedirect.Surface.Bundled
import ImportRedirect.Surface.Snapshot
import ImportRedirect.Text.Blank
import ImportRedirect.Text.Case
import ImportRedirect.Text.Lines
import ImportRedirect.Text.Percent
import ImportRedirect.Text.Printable
import ImportRedirect.Text.Quoted
import ImportRedirect.Text.Ranges
import ImportRedirect.Text.Utf8
import ImportRedirect.Text.Word
import ImportRedirect.Toml.Document
import ImportRedirect.Toml.Number
import ImportRedirect.Toml.Text
import ImportRedirect.Trace
import ImportRedirect.Usage
import ImportRedirect.Value
import ImportRedirect.Value.Access
import ImportRedirect.Value.Display
import ImportRedirect.Value.Printer
import ImportRedirect.Value.Reader
import ImportRedirect.World
import ImportRedirect.Proofs.Conversion.Surface
import ImportRedirect.Proofs.Text.Lines
import ImportRedirect.Proofs.Command.Convert
import ImportRedirect.Proofs.Audit.Report
import ImportRedirect.Proofs.Audit.Statement
import ImportRedirect.Proofs.Audit.Agreement
import ImportRedirect.Proofs.Command.Directory
import ImportRedirect.Proofs.Conversion.Excludes
import ImportRedirect.Proofs.Pass.Reach
import ImportRedirect.Proofs.Script.Parting
import ImportRedirect.Proofs.Script.Alone
import ImportRedirect.Proofs.Script.Border
import ImportRedirect.Proofs.Script.Finding
import ImportRedirect.Proofs.Script.Follow.Expression
import ImportRedirect.Proofs.Script.Follow.Markup
import ImportRedirect.Proofs.Script.Follow.Statement
import ImportRedirect.Proofs.Pass.Loop
import ImportRedirect.Proofs.Pass.Report
import ImportRedirect.Proofs.Binding.Widening
import ImportRedirect.Proofs.Script.Nesting.Node
import ImportRedirect.Proofs.Script.Repetition
import ImportRedirect.Proofs.Script.Attributes
import ImportRedirect.Proofs.Value.Unplaced
import ImportRedirect.Proofs.Script.Draft
import ImportRedirect.Proofs.Conversion.Phases
import ImportRedirect.Proofs.Pass.Partition
import ImportRedirect.Proofs.Command.ExitCode
import ImportRedirect.Proofs.Command.Independence
import ImportRedirect.Proofs.Script.Rereading.Import
import ImportRedirect.Proofs.Script.Rereading.Declaration
import ImportRedirect.Proofs.Script.Rereading
import ImportRedirect.Proofs.Script.Origin
import ImportRedirect.Proofs.Pass.Rereading
import ImportRedirect.Proofs.Conversion.Twice
import ImportRedirect.Proofs.Surface.Bundled
import ImportRedirect.Proofs.Surface.Names
import ImportRedirect.Proofs.Node.Quoting
