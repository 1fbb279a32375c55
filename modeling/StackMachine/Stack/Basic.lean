import StackMachine.Fault.Basic
import StackMachine.Pile

/-!
The operand stack: values under a limit.  An operation either succeeds or says what is missing, and
whether more values fit is decided in one place.
-/

set_option autoImplicit false

namespace StackMachine

/-- A stack of values; a limit of zero is none. -/
structure OperandStack where
  values : Pile Value
  limit : Nat

namespace OperandStack

def empty (limit : Nat) : OperandStack := ⟨.empty, limit⟩

def withLimit (s : OperandStack) (limit : Nat) : OperandStack := { s with limit }

def depth (s : OperandStack) : Nat := s.values.height

def isEmpty (s : OperandStack) : Bool := s.depth = 0

/-- The values from the bottom to the top. -/
def toList (s : OperandStack) : List Value := s.values.toList

/-- The value in a slot, counted from the bottom. -/
def get? (s : OperandStack) (slot : Nat) : Option Value := s.values.get? slot

/-- The largest depth that can be counted. -/
def largestDepth : Nat := Word.cardinality - 1

/-- Fails unless `extra` more values fit under the limit. -/
def reserve (s : OperandStack) (extra : Nat) : Except Cause Unit :=
  if 0 < s.limit ∧ s.limit < min (s.depth + extra) largestDepth then
    .error (.overflow extra s.limit)
  else .ok ()

/-- Fails unless there are `n` values. -/
def require (s : OperandStack) (n : Nat) : Except Cause Unit :=
  if s.depth < n then .error (.underflow n s.depth) else .ok ()

/-- The stack with one more value, whether it fits or not. -/
def put (s : OperandStack) (v : Value) : OperandStack := { s with values := s.values.push v }

/-- The stack without its top `n` values, or empty. -/
def drop (s : OperandStack) (n : Nat) : OperandStack := { s with values := s.values.drop n }

def push (s : OperandStack) (v : Value) : Except Cause OperandStack := do
  s.reserve 1
  return s.put v

/-- The top value and the stack below it. -/
def pop (s : OperandStack) : Except Cause (Value × OperandStack) :=
  match s.values.topDown with
  | v :: _ => .ok (v, { s with values := s.values.tail })
  | [] => .error (.underflow 1 0)

/-- The value with `n` others above it. -/
def peek (s : OperandStack) (n : Nat) : Except Cause Value :=
  match s.values.topDown[n]? with
  | some v => .ok v
  | none => .error (.underflow (n + 1) s.depth)

/-- The top `n` values, the deepest first. -/
def top (s : OperandStack) (n : Nat) : Except Cause (List Value) := do
  s.require n
  return (s.values.topDown.take n).reverse

/-- Takes away the top `n` values. -/
def discard (s : OperandStack) (n : Nat) : Except Cause OperandStack := do
  s.require n
  return s.drop n

/-- Puts one value in the place of the top `n`, without asking for room. -/
def replace (s : OperandStack) (n : Nat) (v : Value) : Except Cause OperandStack := do
  s.require n
  return (s.drop n).put v

/-- Puts copies of the top `n` values on top, in the same order. -/
def duplicate (s : OperandStack) (n : Nat) : Except Cause OperandStack := do
  s.require n
  s.reserve n
  return { s with values := s.values.pile (s.values.topDown.take n) }

/-- Rotates the top `n` values, listed from the deepest, by `k` to the left. -/
def rotate (s : OperandStack) (n k : Nat) : Except Cause OperandStack := do
  s.require n
  let rotated := (s.values.topDown.take n).reverse.rotateLeft k
  return { s with values := (s.values.drop n).pile rotated.reverse }

/-- Keeps at most the lowest `depth` values. -/
def truncate (s : OperandStack) (depth : Nat) : OperandStack := s.drop (s.depth - depth)

/-- Puts `n` null values on top. -/
def alloc (s : OperandStack) (n : Nat) : Except Cause OperandStack := do
  s.reserve n
  return { s with values := s.values.pile (List.replicate n .null) }

/-- The values in square brackets, from the bottom to the top. -/
def display (s : OperandStack) : String :=
  "[" ++ ", ".intercalate (s.toList.map Value.display) ++ "]"

end OperandStack

end StackMachine
