import StackMachine.Config.Basic
import StackMachine.Program.Listing
import StackMachine.Stack.Basic

/-!
Fault reports.  A reporter numbers the faults of a machine and decides which of them stop it; a report
shows the instruction and the stack at the time of the fault in six lines.
-/

set_option autoImplicit false

namespace StackMachine

/-- What becomes of the machine after a fault. -/
inductive FaultOutcome where
  | resume
  | abort
  deriving DecidableEq

def FaultOutcome.name : FaultOutcome → String
  | resume => "Continue"
  | abort => "Abort"

/-- All about one fault. -/
structure Report where
  kind : FaultKind
  message : String
  /-- The number of faults so far, this one included. -/
  count : Nat
  /-- The address of the instruction. -/
  ip : Nat
  /-- The instruction as a listing shows it. -/
  instruction : String
  /-- The stack at the time of the fault. -/
  stack : String
  outcome : FaultOutcome
  deriving DecidableEq

namespace Report

def isFatal (r : Report) : Bool := r.outcome = .abort

/-- The six lines that are written to the output. -/
def display (r : Report) : String :=
  r.kind.name ++ " (" ++ r.count.repr ++ ") report:\n"
    ++ r.message ++ "\n"
    ++ Listing.header ++ "\n"
    ++ r.instruction ++ "\n"
    ++ "Stack:\n"
    ++ "\t" ++ r.stack ++ "\n"

/-- The fault in one line. -/
def summary (r : Report) : String :=
  r.kind.name ++ " at 0x" ++ Text.hex 4 r.ip ++ ": " ++ r.message

end Report

/-- The number of faults so far, and the policy. -/
structure Reporter where
  count : Nat
  fatalTypeMismatch : Bool
  deriving DecidableEq

namespace Reporter

def ofConfig (c : Config) : Reporter := ⟨0, c.fatalTypeMismatch⟩

def outcome (r : Reporter) (kind : FaultKind) : FaultOutcome :=
  if kind.isRecoverable && !r.fatalTypeMismatch then .resume else .abort

/-- The instruction at an address in a report. -/
def instructionText (code : Array Word) (ip : Nat) : String :=
  match Listing.lineAt? code ip with
  | some line => line.display
  | none => "0x" ++ Text.hex 4 ip ++ "    | <end of code> | "

/-- Numbers a fault of the instruction at `ip` and reports it. -/
def report (r : Reporter) (fault : Fault) (ip : Nat) (code : Array Word) (stack : OperandStack) :
    Report × Reporter :=
  let count := r.count + 1
  ({ kind := fault.kind
     message := fault.message
     count
     ip
     instruction := instructionText code ip
     stack := stack.display
     outcome := r.outcome fault.kind },
   { r with count })

end Reporter

end StackMachine
