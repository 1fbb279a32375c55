import StackMachine.Opcode
import StackMachine.Program.Basic
import StackMachine.Value.Display

/-!
Faults.  A cause says what an instruction found wrong, with the numbers and values that belong to it;
its kind and its message follow from it.
-/

set_option autoImplicit false

namespace StackMachine

/-- The kinds of faults. -/
inductive FaultKind where
  | stackUnderflow | stackOverflow | outOfRangeFrameOffset | divisionByZero
  | unsignedOperandExpected | typeMismatch | unknownOpcode | invalidReference | indexOutOfRange
  | invalidConstant | invalidJumpTarget | truncatedInstruction | instructionLimitExceeded
  deriving DecidableEq

namespace FaultKind

def all : List FaultKind := [
  stackUnderflow, stackOverflow, outOfRangeFrameOffset, divisionByZero,
  unsignedOperandExpected, typeMismatch, unknownOpcode, invalidReference, indexOutOfRange,
  invalidConstant, invalidJumpTarget, truncatedInstruction, instructionLimitExceeded]

def name : FaultKind → String
  | stackUnderflow => "STACK_UNDERFLOW"
  | stackOverflow => "STACK_OVERFLOW"
  | outOfRangeFrameOffset => "OUT_OF_RANGE_FRAME_OFFSET"
  | divisionByZero => "DIVISION_BY_ZERO"
  | unsignedOperandExpected => "UNSIGNED_OPERAND_EXPECTED"
  | typeMismatch => "TYPE_MISMATCH"
  | unknownOpcode => "UNKNOWN_OPCODE"
  | invalidReference => "INVALID_REFERENCE"
  | indexOutOfRange => "INDEX_OUT_OF_RANGE"
  | invalidConstant => "INVALID_CONSTANT"
  | invalidJumpTarget => "INVALID_JUMP_TARGET"
  | truncatedInstruction => "TRUNCATED_INSTRUCTION"
  | instructionLimitExceeded => "INSTRUCTION_LIMIT_EXCEEDED"

/-- Only an operand of a wrong kind can be survived. -/
def isRecoverable : FaultKind → Bool
  | typeMismatch => true
  | _ => false

end FaultKind

/-- A kind of fault with a message. -/
structure Fault where
  kind : FaultKind
  message : String
  deriving DecidableEq

def Fault.display (f : Fault) : String := f.kind.name ++ ": " ++ f.message

/-- What an instruction found wrong. -/
inductive Cause where
  | value (error : ValueError)
  | underflow (needed depth : Nat)
  | overflow (extra limit : Nat)
  | callDepth (limit : Nat)
  | missingArguments (needed available : Nat)
  | nothingToReturn
  | noArgumentCount (fp : Nat)
  | argumentOffset (n count : Word)
  | argumentBelowStack (n : Word)
  | localOffset (n : Word) (slots : Nat)
  | linkNotInteger
  | countDoesNotFit (count : Word)
  | linkNotBelow (link : Word)
  | noReturnAddress
  | negative (what : String) (n : Word)
  | remainderByZero (dividend : Word)
  | divisionByZero (dividend : Float)
  | integerExpected (operation : String) (found : ValueKind)
  | notReference (found : ValueKind)
  | notScalar (code : Word)
  | noConstant (pool : Program.PoolName) (index : Word)
  | jumpTarget (target : Word) (codeLength : Nat)
  | unknownOpcode (word : Word)
  | truncated (op : Opcode) (codeLength : Nat)
  | budgetExhausted (limit : Nat)

namespace ValueError

def faultKind : ValueError → FaultKind
  | unsupported .. | typeMismatch .. => .typeMismatch
  | indexOutOfRange .. | sliceOutOfRange .. => .indexOutOfRange

end ValueError

namespace Cause

def kind : Cause → FaultKind
  | value e => e.faultKind
  | underflow .. | missingArguments .. | nothingToReturn => .stackUnderflow
  | overflow .. | callDepth .. => .stackOverflow
  | argumentOffset .. | localOffset .. => .outOfRangeFrameOffset
  | noArgumentCount .. | argumentBelowStack .. | linkNotInteger | countDoesNotFit ..
  | linkNotBelow .. | noReturnAddress | notReference .. => .invalidReference
  | negative .. => .unsignedOperandExpected
  | remainderByZero .. | divisionByZero .. => .divisionByZero
  | integerExpected .. | notScalar .. => .typeMismatch
  | noConstant .. => .invalidConstant
  | jumpTarget .. => .invalidJumpTarget
  | unknownOpcode .. => .unknownOpcode
  | truncated .. => .truncatedInstruction
  | budgetExhausted .. => .instructionLimitExceeded

def message : Cause → String
  | value e => e.message
  | underflow needed depth =>
    "needs " ++ needed.repr ++ " value(s), stack holds " ++ depth.repr
  | overflow extra limit =>
    "pushing " ++ extra.repr ++ " value(s) would exceed the stack limit of " ++ limit.repr
  | callDepth limit => "call depth exceeded " ++ limit.repr
  | missingArguments needed available =>
    "call needs " ++ needed.repr ++ " argument(s), frame holds " ++ available.repr
  | nothingToReturn => "return from a frame with no value"
  | noArgumentCount fp => "frame at " ++ fp.repr ++ " has no argument count word"
  | argumentOffset n count =>
    "argument " ++ Word.decimal n ++ " outside a frame with " ++ Word.decimal count
      ++ " argument(s)"
  | argumentBelowStack n =>
    "argument " ++ Word.decimal n ++ " lies below the bottom of the stack"
  | localOffset n slots =>
    "local " ++ Word.decimal n ++ " outside a frame with " ++ slots.repr ++ " slot(s)"
  | linkNotInteger => "frame link word is not an integer"
  | countDoesNotFit count =>
    "argument count " ++ Word.decimal count ++ " does not fit the frame"
  | linkNotBelow link =>
    "frame link " ++ Word.decimal link ++ " does not point below the frame"
  | noReturnAddress => "frame has no return address"
  | negative what n => what ++ " must not be negative, got " ++ Word.decimal n
  | remainderByZero dividend => "cannot take " ++ Word.decimal dividend ++ " modulo zero"
  | divisionByZero dividend => "cannot divide " ++ realText dividend ++ " by zero"
  | integerExpected operation found =>
    "cannot " ++ operation ++ ": expected an integer, got " ++ found.name
  | notReference found => "cannot print a value of kind " ++ found.name ++ " as a reference"
  | notScalar code => Word.decimal code ++ " is not a Unicode scalar value"
  | noConstant pool index => pool.text ++ " pool has no entry " ++ Word.decimal index
  | jumpTarget target codeLength =>
    "jump target " ++ Word.decimal target ++ " outside code of length " ++ codeLength.repr
  | unknownOpcode word => "unknown opcode 0x" ++ Word.hex 2 word
  | truncated op codeLength =>
    op.name ++ " needs " ++ op.arity.repr ++ " operand(s) but the code ends at 0x"
      ++ Text.hex 4 codeLength
  | budgetExhausted limit => "instruction budget of " ++ limit.repr ++ " exhausted"

/-- The fault that the cause amounts to. -/
def fault (c : Cause) : Fault := ⟨c.kind, c.message⟩

end Cause

end StackMachine
