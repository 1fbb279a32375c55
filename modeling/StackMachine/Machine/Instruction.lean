import StackMachine.Machine.Condition
import StackMachine.Opcode
import StackMachine.Program.Basic

/-!
Instructions: what each operation does, with its operand words filled in.  Operations that differ only in
a constant, an operator or a condition become one kind of instruction here.
-/

set_option autoImplicit false

namespace StackMachine

/-- How a value is printed: as itself, as an address, or as the character with its number. -/
inductive PrintForm where
  | value | reference | character
  deriving DecidableEq

inductive Instruction where
  | skip
  | halt
  | push (v : Value)
  | constant (pool : Program.PoolName) (index : Word)
  | lineFeed
  | print (form : PrintForm) (newline : Bool)
  | drop
  | duplicate (n : Nat)
  | rotate (n k : Nat)
  | operate (op : Operator)
  | jump (target : Word)
  | branch (c : Condition) (target : Word)
  | choose (c : Condition) (target otherwise : Word)
  | alloc (n : Word)
  | pushArg (n : Word)
  | pushLocal (n : Word)
  | popLocal (n : Word)
  | call (target argc : Word)
  | leave (withResult : Bool)

namespace Instruction

def unary (op : UnaryOperator) : Instruction := .operate (.unary op)

def binary (op : BinaryOperator) : Instruction := .operate (.binary op)

def intBinary (op : IntBinary) : Instruction := binary (.int op)

def realBinary (op : RealBinary) : Instruction := binary (.real op)

def relation (r : Relation) : Instruction := binary (.relation r)

/-! ## Real constants with an operation of their own -/

def eulerNumber : Float := 2.718281828459045

def circleNumber : Float := 3.141592653589793

def goldenRatio : Float := 1.618033988749895

end Instruction

open Instruction in
/-- The instruction of an operation with the operand words `a` and `b`. -/
def Opcode.instruction (op : Opcode) (a b : Word) : Instruction :=
  match op with
  | .nop => .skip
  | .halt => .halt
  | .nullRef => .push .null
  | .lnFeed => .lineFeed
  | .printVal => .print .value false
  | .printRef => .print .reference false
  | .printUni => .print .character false
  | .printlnVal => .print .value true
  | .printlnRef => .print .reference true
  | .printlnUni => .print .character true
  | .iconst0 => .push (.int 0)
  | .iconst1 => .push (.int 1)
  | .iconst2 => .push (.int 2)
  | .iconst3 => .push (.int 3)
  | .iconst4 => .push (.int 4)
  | .iconst5 => .push (.int 5)
  | .iconst => .constant .integer a
  | .rconst0 => .push (.real 0.0)
  | .rconst1 => .push (.real 1.0)
  | .rconst2 => .push (.real 2.0)
  | .rconst3 => .push (.real 3.0)
  | .rconst4 => .push (.real 4.0)
  | .rconst5 => .push (.real 5.0)
  | .rconst => .constant .real a
  | .rconstE => .push (.real eulerNumber)
  | .rconstPi => .push (.real circleNumber)
  | .rconstPhi => .push (.real goldenRatio)
  | .sconst => .constant .string a
  | .drop => .drop
  | .dup => .duplicate 1
  | .dup2 => .duplicate 2
  | .swap => .rotate 2 1
  | .swap2 => .rotate 4 2
  | .iadd => intBinary .add
  | .isub => intBinary .subtract
  | .imul => intBinary .multiply
  | .imod => intBinary .remainder
  | .ishl => intBinary .shiftLeft
  | .ishr => intBinary .shiftRight
  | .iand => intBinary .and
  | .ior => intBinary .or
  | .ixor => intBinary .xor
  | .inot => unary (.int .logicalNot)
  | .icompl1 => unary (.int .complement)
  | .icompl2 => unary (.int .negative)
  | .ieq => intBinary .eq
  | .ineq => intBinary .ne
  | .radd => realBinary .add
  | .rsub => realBinary .subtract
  | .rmul => realBinary .multiply
  | .div => realBinary .divide
  | .rshl => binary .scaleUp
  | .rshr => binary .scaleDown
  | .i2r => unary .toReal
  | .r2i => unary .toInt
  | .inc => unary .increment
  | .dec => unary .decrement
  | .neg => unary .negate
  | .cmp => binary .threeWay
  | .eq => binary .equal
  | .neq => binary .notEqual
  | .lt => relation .lt
  | .leq => relation .leq
  | .gt => relation .gt
  | .geq => relation .geq
  | .scat => binary .concatenate
  | .slen => unary .length
  | .sbyte => binary .octet
  | .sslice => .operate .slice
  | .br => .jump a
  | .br0 => .branch .zero a
  | .brN0 => .branch .nonzero a
  | .brLt => .branch (.relation .lt) a
  | .brGt => .branch (.relation .gt) a
  | .brLeq => .branch (.relation .leq) a
  | .brGeq => .branch (.relation .geq) a
  | .brEq => .branch (.relation .eq) a
  | .brNeq => .branch (.relation .neq) a
  | .brNul => .branch .null a
  | .brNnul => .branch .notNull a
  | .if0 => .choose .zero a b
  | .ifN0 => .choose .nonzero a b
  | .ifLt => .choose (.relation .lt) a b
  | .ifGt => .choose (.relation .gt) a b
  | .ifLeq => .choose (.relation .leq) a b
  | .ifGeq => .choose (.relation .geq) a b
  | .ifEq => .choose (.relation .eq) a b
  | .ifNeq => .choose (.relation .neq) a b
  | .ifNul => .choose .null a b
  | .ifNnul => .choose .notNull a b
  | .alloc => .alloc a
  | .arg => .pushArg a
  | .lget => .pushLocal a
  | .lset => .popLocal a
  | .call => .call a b
  | .clear => .leave false
  | .ret => .leave true

/-- An instruction taken from code: the operation, its operand words and the address behind it. -/
structure Decoded where
  op : Opcode
  first : Word
  second : Word
  next : Nat

def Decoded.instruction (d : Decoded) : Instruction := d.op.instruction d.first d.second

/-- Takes the instruction at `ip`, whose word is `word`, from the code.  Words that are no operands of it
are 0. -/
def decode (code : Array Word) (ip : Nat) (word : Word) : Except Cause Decoded :=
  match Opcode.ofWord? word with
  | none => .error (.unknownOpcode word)
  | some op =>
    let next := ip + 1 + op.arity
    if next ≤ code.size then
      .ok {
        op
        first := if 0 < op.arity then code.getD (ip + 1) 0 else 0
        second := if 1 < op.arity then code.getD (ip + 2) 0 else 0
        next }
    else .error (.truncated op code.size)

end StackMachine
