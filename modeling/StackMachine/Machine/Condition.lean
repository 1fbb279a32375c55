import StackMachine.Machine.Operator
import StackMachine.Stack.Basic

/-!
The conditions on which a program branches.  A condition looks at the top of the stack, and the branch
takes away what it looked at.
-/

set_option autoImplicit false

namespace StackMachine

inductive Condition where
  | zero | nonzero
  | relation (r : Relation)
  | null | notNull
  deriving DecidableEq

namespace Condition

/-- How many values the condition looks at. -/
def arity : Condition → Nat
  | relation _ => 2
  | _ => 1

/-- Whether the top of the stack is a nonzero integer. -/
def truth (s : OperandStack) : Except Cause Bool := do
  let v ← s.peek 0
  match v.truth? with
  | some b => return b
  | none => throw (.integerExpected "test for zero" v.kind)

/-- Whether the relation holds between the two top values, the deeper one on its left. -/
def related (r : Relation) (s : OperandStack) : Except Cause Bool := do
  match s.values.topDown with
  | w :: v :: _ =>
    let x ← orCause (v.expectReal "compare")
    let y ← orCause (w.expectReal "compare")
    return r.holds x y
  | _ => throw (.underflow 2 s.depth)

/-- Whether the condition holds. -/
def evaluate (c : Condition) (s : OperandStack) : Except Cause Bool :=
  match c with
  | zero => do return !(← truth s)
  | nonzero => truth s
  | relation r => related r s
  | null => do return (← s.peek 0).isNull
  | notNull => do return !(← s.peek 0).isNull

end Condition

end StackMachine
