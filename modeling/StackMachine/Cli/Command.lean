import StackMachine.Cli.Help
import StackMachine.Decimal.Reader
import StackMachine.Word

/-!
What the words of a command line ask for.  They are taken from left to right, and the first one that is
wrong, or that asks for help, decides.
-/

set_option autoImplicit false

namespace StackMachine.Cli

/-- How a program is to be run. -/
structure RunOptions where
  arguments : List String
  trace : Bool
  budget : Option Nat
  showStack : Bool
  settings : Option String
  deriving DecidableEq

/-- What is asked for. -/
inductive Command where
  | help (topic : Topic)
  | version
  | run (file : String) (options : RunOptions)
  | disasm (file : String)
  | opcodes
  | init
  deriving DecidableEq

/-- Why a command line cannot be understood. -/
inductive UsageError where
  | noCommand
  | unknownCommand (name : String)
  | unexpected (word : String)
  | missingValue (option : String)
  | badValue (option value : String)
  | repeated (option : String)
  | noFile
  deriving DecidableEq

namespace UsageError

def message : UsageError → String
  | noCommand => "a command is required"
  | unknownCommand name => "unrecognized command '" ++ name ++ "'"
  | unexpected word => "unexpected argument '" ++ word ++ "'"
  | missingValue option => "a value is required for '" ++ option ++ "'"
  | badValue option value => "invalid value '" ++ value ++ "' for '" ++ option ++ "'"
  | repeated option => "'" ++ option ++ "' cannot be used multiple times"
  | noFile => "a file is required"

end UsageError

/-! ## Words -/

/-- What a word is by its form. -/
inductive Shape where
  /-- Two hyphens: all that follows is plain. -/
  | separator
  /-- A name behind two hyphens, and a value if one is attached. -/
  | long (name : String) (value : Option String)
  /-- Letters behind one hyphen, of which the first decides. -/
  | short (letter : Char)
  | plain
  deriving DecidableEq

def Shape.ofText (text : String) : Shape :=
  match text.toList with
  | ['-', '-'] => .separator
  | '-' :: '-' :: cs =>
    let name := cs.takeWhile (· != '=')
    match cs.drop name.length with
    | _ :: value => .long (String.ofList name) (some (String.ofList value))
    | [] => .long (String.ofList name) none
  | '-' :: c :: _ => .short c
  | _ => .plain

/-! ## Options -/

/-- The options of `run`. -/
inductive RunOption where
  | argument | trace | budget | showStack | settings
  deriving DecidableEq

namespace RunOption

def all : List RunOption := [argument, trace, budget, showStack, settings]

def name : RunOption → String
  | argument => "arg"
  | trace => "trace"
  | budget => "max-instructions"
  | showStack => "show-stack"
  | settings => "config"

/-- The option as it is written. -/
def display (option : RunOption) : String := "--" ++ option.name

def takesValue : RunOption → Bool
  | argument | budget | settings => true
  | trace | showStack => false

/-- Whether a word of some shape can be the value of the option.  Arguments of a program may look like
anything. -/
def takes (option : RunOption) (shape : Shape) : Bool :=
  option = argument || shape = .plain

end RunOption

/-- The option of that name, if the command has it. -/
def Topic.option? (topic : Topic) (name : String) : Option RunOption :=
  if topic = .run then RunOption.all.find? fun option => option.name == name else none

def Topic.takesFile (topic : Topic) : Bool := topic = .run || topic = .disasm

/-! ## The words of one command -/

/-- A command up to some word; the arguments are held latest first. -/
structure Draft where
  file : Option String
  options : RunOptions

namespace Draft

def empty : Draft := ⟨none, ⟨[], false, none, false, none⟩⟩

/-- Takes a plain word, which can only be the file. -/
def plain (topic : Topic) (d : Draft) (text : String) : Except UsageError Draft :=
  if !topic.takesFile || d.file.isSome then .error (.unexpected text)
  else if text.isEmpty then .error (.badValue "<FILE>" text)
  else .ok { d with file := some text }

/-- Whether an option that may be given once has been given. -/
def has (d : Draft) : RunOption → Bool
  | .argument => false
  | .trace => d.options.trace
  | .budget => d.options.budget.isSome
  | .showStack => d.options.showStack
  | .settings => d.options.settings.isSome

/-- A budget: a natural number of 64 bits. -/
def budget? (value : String) : Option Nat := do
  let n ← Decimal.natural? value.toList
  if n < Word.cardinality then some n else none

/-- Takes an option with its value, which is empty for one that has none. -/
def give (d : Draft) (option : RunOption) (value : String) : Except UsageError Draft :=
  let options := d.options
  if d.has option then .error (.repeated option.display)
  else
    match option with
    | .argument => .ok { d with options := { options with arguments := value :: options.arguments } }
    | .trace => .ok { d with options := { options with trace := true } }
    | .showStack => .ok { d with options := { options with showStack := true } }
    | .budget =>
      match budget? value with
      | some n => .ok { d with options := { options with budget := some n } }
      | none => .error (.badValue option.display value)
    | .settings =>
      if value.isEmpty then .error (.badValue option.display value)
      else .ok { d with options := { options with settings := some value } }

/-- The complete command. -/
def finish (topic : Topic) (d : Draft) : Except UsageError Command :=
  match topic, d.file with
  | .run, some file => .ok (.run file { d.options with arguments := d.options.arguments.reverse })
  | .disasm, some file => .ok (.disasm file)
  | .opcodes, _ => .ok .opcodes
  | .init, _ => .ok .init
  | _, _ => .error .noFile

/-- Reads the words behind the name of a command. -/
def read (topic : Topic) (d : Draft) : List String → Except UsageError Command
  | [] => d.finish topic
  | text :: rest =>
    match Shape.ofText text with
    | .plain => do (← d.plain topic text).read topic rest
    | .separator => do (← rest.foldlM (plain topic) d).finish topic
    | .short letter => if letter = 'h' then .ok (.help topic) else .error (.unexpected text)
    | .long name value =>
      match topic.option? name, value with
      | none, value =>
        if name = "help" ∧ value = none then .ok (.help topic) else .error (.unexpected text)
      | some option, some value =>
        if option.takesValue then do (← d.give option value).read topic rest
        else .error (.unexpected text)
      | some option, none =>
        if option.takesValue then
          match rest with
          | [] => .error (.missingValue option.display)
          | next :: rest =>
            if option.takes (.ofText next) then do (← d.give option next).read topic rest
            else .error (.missingValue option.display)
        else do (← d.give option "").read topic rest

end Draft

/-! ## The whole command line -/

namespace Command

/-- What help is asked for by name. -/
def ofHelpWords : List String → Except UsageError Command
  | [] => .ok (.help .program)
  | [name] =>
    match Topic.ofName? name with
    | some topic => .ok (.help topic)
    | none => .error (.unknownCommand name)
  | _ :: name :: _ => .error (.unknownCommand name)

/-- What the words behind the program's name ask for. -/
def ofWords : List String → Except UsageError Command
  | [] => .error .noCommand
  | text :: rest =>
    match Shape.ofText text with
    | .plain =>
      match Topic.ofName? text with
      | some .help => ofHelpWords rest
      | some topic => Draft.empty.read topic rest
      | none => .error (.unknownCommand text)
    | .long "help" none | .short 'h' => .ok (.help .program)
    | .long "version" none | .short 'V' => .ok .version
    | _ => .error (.unexpected text)

end Command

end StackMachine.Cli
