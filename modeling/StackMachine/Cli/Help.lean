import StackMachine.Text.Layout

/-!
The help texts of the command line: what a command is for, how it is called, and lists of its parts.
-/

set_option autoImplicit false

namespace StackMachine.Cli

/-- What help can be asked for: the program as a whole or one of its commands. -/
inductive Topic where
  | program | run | disasm | opcodes | init | help
  deriving DecidableEq

/-- A list of terms with their explanations under a title. -/
structure Section where
  title : String
  entries : List (String × String)

/-- The parts of a help text. -/
structure HelpText where
  about : String
  usage : String
  sections : List Section

/-- The width of the widest term. -/
def Section.width (s : Section) : Nat :=
  (s.entries.map fun e => e.1.length).foldl max 0

/-- The section with its explanations in one column. -/
def Section.display (s : Section) : String :=
  "\n" ++ s.title ++ ":\n"
    ++ String.join (s.entries.map fun e =>
      "  " ++ Text.alignLeft s.width e.1 ++ "  " ++ e.2 ++ "\n")

namespace HelpText

def usageLine (h : HelpText) : String := "Usage: " ++ h.usage ++ "\n"

def display (h : HelpText) : String :=
  h.about ++ "\n\n" ++ h.usageLine ++ String.join (h.sections.map Section.display)

end HelpText

namespace Topic

def commands : List Topic := [run, disasm, opcodes, init, help]

/-- The name of a command on the command line. -/
def name : Topic → String
  | program => "bpl"
  | run => "run"
  | disasm => "disasm"
  | opcodes => "opcodes"
  | init => "init"
  | help => "help"

def ofName? (name : String) : Option Topic :=
  commands.find? fun topic => topic.name == name

def about : Topic → String
  | program => "The BPL bytecode virtual machine"
  | run => "Run a JSON bytecode program"
  | disasm => "Disassemble a JSON bytecode program"
  | opcodes => "List the instruction table"
  | init => "Create a bpl.toml config file in the current directory"
  | help => "Print this message or the help of the given subcommand(s)"

def usage : Topic → String
  | program => "bpl <COMMAND>"
  | run => "bpl run [OPTIONS] <FILE>"
  | disasm => "bpl disasm <FILE>"
  | opcodes => "bpl opcodes"
  | init => "bpl init"
  | help => "bpl help [COMMAND]..."

def fileSection : Section := ⟨"Arguments", [("<FILE>", "Path to the program JSON")]⟩

def helpEntry : String × String := ("-h, --help", "Print help")

def sections : Topic → List Section
  | program => [
      ⟨"Commands", commands.map fun command => (command.name, command.about)⟩,
      ⟨"Options", [helpEntry, ("-V, --version", "Print version")]⟩]
  | run => [
      fileSection,
      ⟨"Options", [
        ("    --arg <VALUE>", "Native argument passed to the program (repeatable)"),
        ("    --trace", "Log every executed instruction"),
        ("    --max-instructions <MAX_INSTRUCTIONS>", "Instruction budget (0 = unlimited)"),
        ("    --show-stack", "Print the machine state after the program halts"),
        ("    --config <CONFIG>", "Config file to use instead of the nearest bpl.toml"),
        helpEntry]⟩]
  | disasm => [fileSection, ⟨"Options", [helpEntry]⟩]
  | opcodes | init => [⟨"Options", [helpEntry]⟩]
  | help => [⟨"Arguments", [("[COMMAND]...", "Print help for the subcommand(s)")]⟩]

def text (topic : Topic) : HelpText := ⟨topic.about, topic.usage, topic.sections⟩

end Topic

end StackMachine.Cli
