import StackMachine.Fault.Report
import StackMachine.Machine.Sink

/-!
The state of a machine that executes a program, and what it reports to those who watch it.
-/

set_option autoImplicit false

namespace StackMachine

/-- Whether a machine goes on. -/
inductive RunState where
  | running | halted | faulted
  deriving DecidableEq

namespace RunState

def all : List RunState := [running, halted, faulted]

def name : RunState → String
  | running => "Running"
  | halted => "Halted"
  | faulted => "Faulted"

end RunState

/-- A machine between two instructions. -/
structure Machine where
  program : Program
  config : Config
  stack : OperandStack
  /-- The return addresses of the active calls. -/
  returns : Pile Nat
  /-- The address of the next instruction. -/
  ip : Nat
  /-- The slot of the first local of the current frame. -/
  fp : Nat
  state : RunState
  /-- The number of instructions executed. -/
  executed : Nat
  reporter : Reporter
  sink : Sink

/-- Why a machine refuses to go on or to start. -/
inductive MachineError where
  | fatal (report : Report)
  | load (cause : Cause)
  | alreadyStarted
  | notRunning (state : RunState)
  | output (failure : Sink.Failure)

namespace MachineError

def message : MachineError → String
  | fatal report => report.summary
  | load cause => "cannot load arguments: " ++ cause.fault.display
  | alreadyStarted => "arguments must be loaded before the first instruction"
  | notRunning state => "machine is not running (state: " ++ state.name ++ ")"
  | output failure => "output error: " ++ failure.message

def report? : MachineError → Option Report
  | fatal report => some report
  | _ => none

def faultKind? : MachineError → Option FaultKind
  | fatal report => some report.kind
  | load cause => some cause.kind
  | _ => none

end MachineError

/-- Something that a machine lets its watchers know. -/
inductive Notice where
  | loaded (argc fp : Nat)
  | ranPastEnd (ip : Nat)
  | traced (line : Line) (fp depth : Nat)
  | stepped (ip : Nat) (op : Opcode)
  | called (target argc fp : Nat)
  | returned (ip fp : Nat)
  | halted (ip depth : Nat)
  | left (result : Option Value)
  | faulted (kind : FaultKind) (ip : Nat)
  | reported (report : Report)

/-- What comes of asking a machine for something. -/
structure Reply (α : Type) where
  machine : Machine
  notices : List Notice
  result : Except MachineError α

namespace Machine

/-- The link of the loader's frame, which halts the machine when it is left. -/
def haltLink : Int64 := -1

/-- A machine at the start of a program, with an empty stack and no limits. -/
def start (program : Program) (sink : Sink) : Machine where
  program
  config := .default
  stack := .empty Config.default.maxStackDepth
  returns := .empty
  ip := 0
  fp := 0
  state := .running
  executed := 0
  reporter := .ofConfig .default
  sink

/-- The machine under other limits; the count of faults starts anew. -/
def withConfig (m : Machine) (config : Config) : Machine :=
  { m with
    config
    stack := m.stack.withLimit config.maxStackDepth
    reporter := .ofConfig config }

/-- How many calls are active. -/
def callDepth (m : Machine) : Nat := m.returns.height

/-- The registers and the stack, one to a line. -/
def dump (m : Machine) : String :=
  let top := match m.stack.peek 0 with
    | .ok v => v.display
    | .error _ => "-"
  "State: " ++ m.state.name
    ++ "\nIP: 0x" ++ Text.hex 4 m.ip
    ++ "\nFP: " ++ m.fp.repr
    ++ "\nDepth: " ++ m.stack.depth.repr
    ++ "\nTOS: " ++ top
    ++ "\nStack: " ++ m.stack.display

/-- The first frame for some arguments, from the top down: the link that halts, the number of arguments,
and the arguments with the first one uppermost. -/
def loaderFrame (args : List Value) : List Value :=
  .int haltLink :: .int (Int64.ofNat args.length) :: args

/-- Puts the first frame on the stack, once and before the first instruction. -/
def load (m : Machine) (args : List Value) : Reply Unit :=
  if 0 < m.executed || !m.stack.isEmpty then ⟨m, [], .error .alreadyStarted⟩
  else
    match m.stack.reserve (args.length + 2) with
    | .error cause => ⟨m, [], .error (.load cause)⟩
    | .ok () =>
      let stack := { m.stack with values := m.stack.values.pile (loaderFrame args) }
      ⟨{ m with stack, fp := stack.depth }, [.loaded args.length stack.depth], .ok ()⟩

end Machine

end StackMachine
