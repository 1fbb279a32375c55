import StackMachine.Machine.Basic
import StackMachine.Machine.Instruction
import StackMachine.Stack.Frame

/-!
Executing one instruction.  An instruction checks all that it needs before it changes anything, so one
that fails leaves the machine as it found it, but for the octets that a full sink took.
-/

set_option autoImplicit false

namespace StackMachine

/-- Why an instruction was not completed. -/
inductive Trap where
  | fault (cause : Cause)
  | output (failure : Sink.Failure)

/-- The machine after an instruction, what it lets know, and what went wrong if anything did. -/
structure Execution where
  machine : Machine
  notices : List Notice
  trap : Option Trap

namespace Execution

def done (m : Machine) : Execution := ⟨m, [], none⟩

def fault (m : Machine) (cause : Cause) : Execution := ⟨m, [], some (.fault cause)⟩

end Execution

/-- The text that a value prints as. -/
def PrintForm.text (form : PrintForm) (v : Value) : Except Cause String :=
  match form with
  | .value => .ok v.display
  | .reference =>
    match v.referenceText? with
    | some text => .ok text
    | none => .error (.notReference v.kind)
  | .character => do
    let code ← orCause (v.expectInt "print as a character")
    match Word.index? code with
    | some n =>
      if h : n.isValidChar then return String.singleton (Char.ofNatAux n h)
      else throw (.notScalar code)
    | none => throw (.notScalar code)

/-- The result of an operator for the values on top of a stack. -/
def Operator.result (op : Operator) (s : OperandStack) : Except Cause Value :=
  match op, s.values.topDown with
  | unary f, v :: _ => f.apply v
  | binary f, w :: v :: _ => f.apply v w
  | slice, u :: w :: v :: _ => sliceValue v w u
  | op, _ => .error (.underflow op.arity s.depth)

open Execution

namespace Machine

/-- Takes over a new stack, or fails for the cause given. -/
def onStack (m : Machine) (r : Except Cause OperandStack) : Execution :=
  match r with
  | .ok stack => done { m with stack }
  | .error cause => fault m cause

/-! ## Constants and output -/

/-- The constant that an instruction refers to. -/
def constant (m : Machine) (pool : Program.PoolName) (index : Word) : Except Cause Value :=
  let found := match pool with
    | .integer => (m.program.ints.get? index).map Value.int
    | .real => (m.program.reals.get? index).map Value.real
    | .string => (m.program.strings.get? index).map Value.ofText
  match found with
  | some v => .ok v
  | none => .error (.noConstant pool index)

/-- Writes a text, and then goes on with `stack`. -/
def output (m : Machine) (text : String) (stack : OperandStack) : Execution :=
  match m.sink.write text with
  | (sink, none) => done { m with sink, stack }
  | (sink, some failure) => ⟨{ m with sink }, [], some (.output failure)⟩

/-- Prints the top value and takes it away. -/
def print (m : Machine) (form : PrintForm) (newline : Bool) : Execution :=
  match m.stack.peek 0 with
  | .error cause => fault m cause
  | .ok v =>
    match form.text v with
    | .error cause => fault m cause
    | .ok text => m.output (if newline then text ++ "\n" else text) (m.stack.drop 1)

/-! ## Operators -/

/-- Puts a result in the place of the top `n` values. -/
def replaceTop (m : Machine) (n : Nat) (r : Except Cause Value) : Execution :=
  match r with
  | .ok v => done { m with stack := (m.stack.drop n).put v }
  | .error cause => fault m cause

/-- Applies an operator to the values on top of the stack. -/
def operate (m : Machine) (op : Operator) : Execution :=
  m.replaceTop op.arity (op.result m.stack)

/-! ## Branches -/

/-- The address that a jump leads to, which must lie in the code. -/
def jumpTarget (m : Machine) (target : Word) : Except Cause Nat :=
  match Word.index? target with
  | some ip =>
    if ip < m.program.code.size then .ok ip
    else .error (.jumpTarget target m.program.code.size)
  | none => .error (.jumpTarget target m.program.code.size)

def jump (m : Machine) (target : Word) : Execution :=
  match m.jumpTarget target with
  | .ok ip => done { m with ip }
  | .error cause => fault m cause

/-- Goes to the address that `next` gives for the truth of the condition. -/
def branchTo (m : Machine) (c : Condition) (next : Bool → Nat) : Execution :=
  match c.evaluate m.stack with
  | .ok holds => done { m with stack := m.stack.drop c.arity, ip := next holds }
  | .error cause => fault m cause

/-- Jumps if the condition holds, and goes straight on otherwise. -/
def branch (m : Machine) (c : Condition) (target : Word) : Execution :=
  match m.jumpTarget target with
  | .ok ip => m.branchTo c fun holds => if holds then ip else m.ip
  | .error cause => fault m cause

/-- Jumps to one of two targets. -/
def choose (m : Machine) (c : Condition) (target otherwise : Word) : Execution :=
  match m.jumpTarget target with
  | .error cause => fault m cause
  | .ok ip =>
    match m.jumpTarget otherwise with
    | .error cause => fault m cause
    | .ok other => m.branchTo c fun holds => if holds then ip else other

/-! ## Frames -/

/-- Makes room for `n` locals. -/
def alloc (m : Machine) (n : Word) : Execution :=
  match Word.index? n with
  | some slots => m.onStack (m.stack.alloc slots)
  | none => fault m (.negative "local slot count" n)

def pushArg (m : Machine) (n : Word) : Execution :=
  m.onStack do m.stack.push (← m.stack.getArg m.fp n)

def pushLocal (m : Machine) (n : Word) : Execution :=
  m.onStack do m.stack.push (← m.stack.getLocal m.fp n)

/-- The number of arguments of a call, which must all lie in the current frame. -/
def argumentCount (m : Machine) (argc : Word) : Except Cause Nat :=
  match Word.index? argc with
  | none => .error (.negative "argument count" argc)
  | some count =>
    let available := m.stack.depth - m.fp
    if available < count then .error (.missingArguments count available) else .ok count

/-- Fails unless one more call may be active. -/
def checkCallDepth (m : Machine) : Except Cause Unit :=
  let limit := m.config.maxCallDepth
  if 0 < limit ∧ limit ≤ m.callDepth then .error (.callDepth limit) else .ok ()

/-- What a call needs: a target in the code, its arguments in the current frame, room for one more call
and for the two words below the new frame. -/
def checkCall (m : Machine) (target argc : Word) : Except Cause (Nat × Nat) := do
  let ip ← m.jumpTarget target
  let count ← m.argumentCount argc
  m.checkCallDepth
  m.stack.reserve 2
  return (ip, count)

/-- Puts the number of arguments and the link above the arguments and enters a new frame. -/
def call (m : Machine) (target argc : Word) : Execution :=
  match m.checkCall target argc with
  | .error cause => fault m cause
  | .ok (ip, count) =>
    let stack := (m.stack.put (.int (Int64.ofNat count))).put (.int (Int64.ofNat m.fp))
    let fp := stack.depth
    ⟨{ m with stack, returns := m.returns.push m.ip, fp, ip }, [.called ip count fp], none⟩

/-- Where leaving a frame leads: how much of the stack stays, and the frame and the address to go on with,
unless the machine halts. -/
structure FrameExit where
  base : Nat
  resume : Option (Nat × Nat)

/-- Follows the link of the current frame.  The arguments must fit below it, and the caller's frame below
them. -/
def frameExit (m : Machine) : Except Cause FrameExit :=
  if m.fp < 2 then .ok ⟨0, none⟩
  else
    match m.stack.get? (m.fp - 1) with
    | some (.int link) => do
      let count ← m.stack.argCount m.fp
      match Word.index? count with
      | none => throw (.countDoesNotFit count)
      | some argc =>
        if m.fp - 2 < argc then throw (.countDoesNotFit count)
        let base := m.fp - 2 - argc
        if link = haltLink then return ⟨base, none⟩
        match Word.index? link with
        | none => throw (.linkNotBelow link)
        | some fp =>
          if base < fp then throw (.linkNotBelow link)
          match m.returns.topDown with
          | ip :: _ => return ⟨base, some (fp, ip)⟩
          | [] => throw .noReturnAddress
    | _ => .error .linkNotInteger

/-- The value that a frame returns: its top value, if it has one of its own. -/
def frameResult (m : Machine) (withResult : Bool) : Except Cause (Option Value) :=
  if withResult then
    if m.stack.depth ≤ m.fp then .error .nothingToReturn
    else (m.stack.peek 0).map some
  else .ok none

/-- Leaves the current frame, which the instruction at `start` does, without its result. -/
def unwind (m : Machine) (start : Nat) (exit : FrameExit) : Machine × Notice :=
  let stack := m.stack.truncate exit.base
  match exit.resume with
  | some (fp, ip) => ({ m with stack, returns := m.returns.tail, fp, ip }, .returned ip fp)
  | none => ({ m with stack, state := .halted }, .halted start stack.depth)

/-- Leaves the current frame and puts its result, if it has one, in the place of its arguments. -/
def leave (m : Machine) (start : Nat) (withResult : Bool) : Execution :=
  match m.frameResult withResult with
  | .error cause => fault m cause
  | .ok result =>
    match m.frameExit with
    | .error cause => fault m cause
    | .ok exit =>
      let (m, notice) := m.unwind start exit
      let e := match result with
        | some v => m.onStack (m.stack.push v)
        | none => done m
      { e with notices := [notice, .left result] }

/-! ## All instructions -/

/-- Executes an instruction that starts at `start`; the machine's address is already behind it. -/
def execute (m : Machine) (start : Nat) (i : Instruction) : Execution :=
  match i with
  | .skip => done m
  | .halt => ⟨{ m with state := .halted }, [.halted start m.stack.depth], none⟩
  | .push v => m.onStack (m.stack.push v)
  | .constant pool index =>
    match m.constant pool index with
    | .ok v => m.onStack (m.stack.push v)
    | .error cause => fault m cause
  | .lineFeed => m.output "\n" m.stack
  | .print form newline => m.print form newline
  | .drop => m.onStack (m.stack.discard 1)
  | .duplicate n => m.onStack (m.stack.duplicate n)
  | .rotate n k => m.onStack (m.stack.rotate n k)
  | .operate op => m.operate op
  | .jump target => m.jump target
  | .branch c target => m.branch c target
  | .choose c target otherwise => m.choose c target otherwise
  | .alloc n => m.alloc n
  | .pushArg n => m.pushArg n
  | .pushLocal n => m.pushLocal n
  | .popLocal n => m.onStack (m.stack.setLocal m.fp n)
  | .call target argc => m.call target argc
  | .leave withResult => m.leave start withResult

end Machine

end StackMachine
