import StackMachine.Cli.Argument
import StackMachine.Cli.Color
import StackMachine.Cli.Command
import StackMachine.Cli.Host
import StackMachine.Cli.LogFilter.Reader
import StackMachine.Cli.Settings
import StackMachine.Machine.Run
import StackMachine.Program.Json

/-!
Carrying out commands.
-/

set_option autoImplicit false

namespace StackMachine.Cli

/-- Why a command fails. -/
inductive Failure where
  | unreadable (path : String) (error : FileError)
  | invalidProgram (path : String)
  | invalidSettings (path : String)
  | alreadyExists (path : String)
  | uncreated (error : FileError)
  | machine (error : MachineError)

def Failure.message : Failure → String
  | unreadable path error => "cannot read '" ++ path ++ "': " ++ error.message
  | invalidProgram path =>
    "invalid program '" ++ path ++ "': invalid program json: the text describes no program"
  | invalidSettings path => "invalid toml in '" ++ path ++ "': the text describes no settings"
  | alreadyExists path => path ++ " already exists, not overwriting"
  | uncreated error => error.message
  | machine error => error.message

/-- How a command ends, for the one who called it. -/
inductive ExitStatus where
  | success | failure | usage
  deriving DecidableEq

def ExitStatus.code : ExitStatus → Nat
  | success => 0
  | failure => 1
  | usage => 2

variable {m : Type → Type} [Monad m]

/-! ## Files -/

/-- The text of a file, without which the command fails. -/
def readText (host : Host m) (path : String) : ExceptT Failure m String := do
  match ← host.read path with
  | .ok text => return text
  | .error e => throw (.unreadable path e)

def readProgram (host : Host m) (path : String) : ExceptT Failure m Program := do
  match Program.read? (← readText host path) with
  | some program => return program
  | none => throw (.invalidProgram path)

def readSettings (host : Host m) (path : String) : ExceptT Failure m Settings := do
  match Settings.read? (← readText host path) with
  | some settings => return settings
  | none => throw (.invalidSettings path)

/-- The name of settings files. -/
def settingsName : String := "bpl.toml"

/-- Where settings are looked for: in a directory, in those above it, and in the user's own. -/
def settingsPaths (s : Surroundings) : List String :=
  let names := (s.directory.toList.splitOn '/').filter fun name => !name.isEmpty
  let above := (List.range (names.length + 1)).reverse.map fun n =>
    String.join ((names.take n).map fun name => "/" ++ String.ofList name) ++ "/" ++ settingsName
  above ++ (s.home.map fun home => home ++ "/.config/bpl/" ++ settingsName).toList

/-- The settings from the file that is named, or else from the nearest one, if there is any. -/
def findSettings (host : Host m) (s : Surroundings) (named : Option String) :
    ExceptT Failure m Settings := do
  match named with
  | some path => readSettings host path
  | none =>
    match ← host.firstFile? (settingsPaths s) with
    | some path => readSettings host path
    | none => return .empty

/-! ## Running a program -/

/-- The configuration under some settings, which the command line overrides. -/
def RunOptions.config (options : RunOptions) (settings : Settings) : Config :=
  let c := settings.resolve
  { c with
    trace := c.trace || options.trace
    maxInstructions := options.budget.getD c.maxInstructions }

/-- How many steps are taken between two looks at the output. -/
def burst : Nat := 4096

/-- Passes on the entries of a log, which are held latest first, and all that is in a sink. -/
def Host.passOn (host : Host m) (entries : List LogEntry) (sink : Sink) : m Unit := do
  entries.reverse.forM fun e => host.complainLine e.display
  if 0 < sink.size then host.print sink.written

/-- Runs a machine for so many bursts, and passes on its output after each of them. -/
def Host.drive (host : Host m) (filter : LogFilter) (bursts : Nat) (machine : Machine) :
    m (Machine × Except MachineError Unit) :=
  match bursts with
  | 0 => pure (machine, .ok ())
  | bursts + 1 => do
    let watch (entries : List LogEntry) (n : Notice) := (filter.entry? n).toList ++ entries
    let r := machine.runFor watch burst []
    host.passOn r.seen r.machine.sink
    match r.result with
    | some result => pure (r.machine, result)
    | none => host.drive filter bursts { r.machine with sink := .unlimited }

/-- Loads arguments and runs to the end. -/
def Host.launch (host : Host m) (filter : LogFilter) (machine : Machine) (args : List Value) :
    m (Machine × Except MachineError Unit) := do
  let reply := machine.load args
  host.passOn (reply.notices.filterMap filter.entry?).reverse reply.machine.sink
  match reply.result with
  | .error e => pure (reply.machine, .error e)
  | .ok () => host.drive filter (machine.stepBound / burst + 1) reply.machine

def run (host : Host m) (s : Surroundings) (file : String) (options : RunOptions) :
    ExceptT Failure m Unit := do
  let filter := LogFilter.choose s.logFilter options.trace
  let config := options.config (← findSettings host s options.settings)
  let program ← readProgram host file
  let started : LogEntry :=
    ⟨.debug, "bpl", "starting program",
      [("file", file), ("argc", options.arguments.length.repr)]⟩
  if filter.shows started then host.complainLine started.display
  let machine := (Machine.start program .unlimited).withConfig config
  let (machine, result) ← host.launch filter machine (options.arguments.map argumentValue)
  if options.showStack then host.complainLine (gray machine.dump)
  match result with
  | .ok () => return
  | .error e => throw (.machine e)

/-! ## Other commands -/

/-- A line of a listing; one without an operation stands out. -/
def listingLine (line : Line) : String :=
  if line.isKnown then line.display else yellow line.display

/-- What a listing adds up to. -/
def listingSummary (program : Program) (lines : List Line) : String :=
  lines.length.repr ++ " instruction(s), " ++ program.code.size.repr ++ " word(s), pools: "
    ++ program.ints.size.repr ++ " int / " ++ program.reals.size.repr ++ " real / "
    ++ program.strings.size.repr ++ " string"

def disasm (host : Host m) (file : String) : ExceptT Failure m Unit := do
  let program ← readProgram host file
  let lines := Listing.ofCode program.code
  host.printLine (bold Listing.header)
  lines.forM fun line => host.printLine (listingLine line)
  host.printLine (gray (listingSummary program lines))

/-- A row of the table of operations. -/
def opcodeRow (op : Opcode) : String :=
  "0x" ++ Text.hex 2 op.number ++ "   " ++ Text.alignLeft 13 op.name ++ " " ++ op.arity.repr

def opcodes (host : Host m) : ExceptT Failure m Unit := do
  host.printLine (bold (Text.alignLeft 6 "OP" ++ " " ++ Text.alignLeft 13 "NAME" ++ " ARGS"))
  Opcode.all.forM fun op => host.printLine (opcodeRow op)
  host.printLine (gray (Opcode.all.length.repr ++ " opcodes"))

/-- Makes a settings file in the current directory, unless there is something of that name. -/
def init (host : Host m) : ExceptT Failure m Unit := do
  if ← host.exists? settingsName then throw (.alreadyExists settingsName)
  match ← host.create settingsName Settings.template with
  | .ok () => host.printLine (statusLabel "Created" ++ " " ++ green settingsName)
  | .error e => throw (.uncreated e)

/-! ## The program -/

def version : String := "bpl 0.1.0"

/-- Carries out a command that has been understood. -/
def perform (host : Host m) (s : Surroundings) : Command → ExceptT Failure m Unit
  | .help topic => host.print (.ofString topic.text.display)
  | .version => host.printLine version
  | .run file options => run host s file options
  | .disasm file => disasm host file
  | .opcodes => opcodes host
  | .init => init host

/-- Does what the words of a command line ask for. -/
def obey (host : Host m) (s : Surroundings) (words : List String) : m ExitStatus := do
  match Command.ofWords words with
  | .error e =>
    host.complainLine ("error: " ++ e.message ++ "\n\n" ++ Topic.program.text.usageLine)
    return .usage
  | .ok command =>
    match ← (perform host s command).run with
    | .ok () => return .success
    | .error e =>
      host.complainLine (red "error:" ++ " " ++ e.message)
      return .failure

end StackMachine.Cli
