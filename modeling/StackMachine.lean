import StackMachine.ByteString
import StackMachine.Cli.Argument
import StackMachine.Cli.Color
import StackMachine.Cli.Command
import StackMachine.Cli.FileTree
import StackMachine.Cli.Help
import StackMachine.Cli.Host
import StackMachine.Cli.LogFilter.Basic
import StackMachine.Cli.LogFilter.Pattern
import StackMachine.Cli.LogFilter.Reader
import StackMachine.Cli.Perform
import StackMachine.Cli.Settings
import StackMachine.Config.Basic
import StackMachine.Config.Json
import StackMachine.Decimal.Basic
import StackMachine.Decimal.Reader
import StackMachine.Decimal.Shortest
import StackMachine.Fault.Basic
import StackMachine.Fault.Report
import StackMachine.Json.Basic
import StackMachine.Json.Decode
import StackMachine.Json.Lexer
import StackMachine.Json.Numeral
import StackMachine.Json.Reader
import StackMachine.Json.Writer
import StackMachine.Machine.Basic
import StackMachine.Machine.Condition
import StackMachine.Machine.Execute
import StackMachine.Machine.Instruction
import StackMachine.Machine.Operator
import StackMachine.Machine.Run
import StackMachine.Machine.Sink
import StackMachine.Machine.Step
import StackMachine.Machine.Watch
import StackMachine.Main
import StackMachine.Opcode
import StackMachine.Pile
import StackMachine.Program.Basic
import StackMachine.Program.Builder
import StackMachine.Program.Json
import StackMachine.Program.Listing
import StackMachine.Stack.Basic
import StackMachine.Stack.Frame
import StackMachine.Text.Alphabetic
import StackMachine.Text.Blank
import StackMachine.Text.CodePoints
import StackMachine.Text.GraphemeExtend
import StackMachine.Text.Hex
import StackMachine.Text.Layout
import StackMachine.Text.Numeric
import StackMachine.Text.Printable
import StackMachine.Text.Quoted
import StackMachine.Text.Utf8
import StackMachine.Toml.Basic
import StackMachine.Toml.Document
import StackMachine.Toml.Number
import StackMachine.Toml.Scan
import StackMachine.Value.Basic
import StackMachine.Value.Display
import StackMachine.Value.Json
import StackMachine.Word
import StackMachine.Proofs.Checks
import StackMachine.Proofs.Stack.Room
import StackMachine.Proofs.Frames.Exit
import StackMachine.Proofs.Machine.Effect
import StackMachine.Proofs.Machine.Computed
import StackMachine.Proofs.Machine.Reachable
import StackMachine.Proofs.Machine.Faults
import StackMachine.Proofs.Machine.Atomicity
import StackMachine.Proofs.Machine.Branching
import StackMachine.Proofs.Frames.Chain
import StackMachine.Proofs.Frames.Activation
import StackMachine.Proofs.Frames.Return
import StackMachine.Proofs.Machine.Consistent
import StackMachine.Proofs.Machine.Settings
import StackMachine.Proofs.Machine.Limits
import StackMachine.Proofs.Frames.Integrity
import StackMachine.Proofs.Machine.Capacity
import StackMachine.Proofs.Machine.Forward
import StackMachine.Proofs.Frames.Interior
import StackMachine.Proofs.Frames.Locality
import StackMachine.Proofs.Frames.Alike
import StackMachine.Proofs.Frames.Independence
import StackMachine.Proofs.Machine.Bounds
import StackMachine.Proofs.Machine.Record
import StackMachine.Proofs.Machine.Kinds
import StackMachine.Proofs.Machine.Origins
import StackMachine.Proofs.Machine.Reports
import StackMachine.Proofs.Machine.Signatures
import StackMachine.Proofs.Program.Assembly
import StackMachine.Proofs.Machine.Stopped
import StackMachine.Proofs.Machine.Budget
import StackMachine.Proofs.Program.Json
import StackMachine.Proofs.Program.Rendering
import StackMachine.Proofs.Word.Exact
import StackMachine.Proofs.Machine.Integers
import StackMachine.Proofs.Frames.Loader
import StackMachine.Proofs.Machine.Literals
import StackMachine.Proofs.Program.Building
import StackMachine.Proofs.Machine.Strings
import StackMachine.Proofs.Stack.Limit
import StackMachine.Proofs.Stack.Display
import StackMachine.Proofs.Machine.Lines
import StackMachine.Proofs.Cli.Argument
import StackMachine.Proofs.Machine.Journal
import StackMachine.Proofs.Value.Json
import StackMachine.Proofs.Program.Fields
import StackMachine.Proofs.Word.Position
import StackMachine.Proofs.Stack.Addressing
import StackMachine.Proofs.Stack.Positions
