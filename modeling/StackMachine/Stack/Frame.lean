import StackMachine.Stack.Basic

/-!
Frames on the operand stack.  A frame pointer `fp` is the slot of the first local.  Below it lie the link
in slot `fp - 1`, the number of arguments in slot `fp - 2` and then the arguments, the first one nearest
to their number.
-/

set_option autoImplicit false

namespace StackMachine.OperandStack

/-- The number of arguments of the frame at `fp`. -/
def argCount (s : OperandStack) (fp : Nat) : Except Cause Word :=
  match (if 2 ≤ fp then s.get? (fp - 2) else none) with
  | some (.int count) => .ok count
  | _ => .error (.noArgumentCount fp)

/-- Argument `n` of the frame at `fp`; argument 0 is the number of arguments. -/
def getArg (s : OperandStack) (fp : Nat) (n : Word) : Except Cause Value := do
  let count ← s.argCount fp
  if n < 0 ∨ count < n then throw (.argumentOffset n count)
  match (if n.toInt.toNat ≤ fp - 2 then s.get? (fp - 2 - n.toInt.toNat) else none) with
  | some v => return v
  | none => throw (.argumentBelowStack n)

/-- The slot of local `n` of the frame at `fp`, which must lie below `bound`. -/
def localSlot (fp : Nat) (n : Word) (bound : Nat) : Except Cause Nat :=
  match Word.index? n with
  | some i => if fp + i < bound then .ok (fp + i) else .error (.localOffset n (bound - fp))
  | none => .error (.localOffset n (bound - fp))

/-- Local `n` of the frame at `fp`. -/
def getLocal (s : OperandStack) (fp : Nat) (n : Word) : Except Cause Value := do
  let slot ← localSlot fp n s.depth
  match s.get? slot with
  | some v => return v
  | none => throw (.localOffset n (s.depth - fp))

/-- Moves the top value into local `n` of the frame at `fp`, which must lie below it. -/
def setLocal (s : OperandStack) (fp : Nat) (n : Word) : Except Cause OperandStack := do
  let (v, rest) ← s.pop
  let slot ← localSlot fp n rest.depth
  return { rest with values := rest.values.set slot v }

end StackMachine.OperandStack
