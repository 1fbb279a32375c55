import StackMachine.Fault.Basic

/-!
Operators: what the instructions that compute do with the values that they take from the stack.  The
operands are given from the deepest to the top, are checked in this order, and none is ever converted.
-/

set_option autoImplicit false

namespace StackMachine

/-- A check on a value whose failure is a fault. -/
def orCause {α : Type} (r : Except ValueError α) : Except Cause α :=
  match r with
  | .ok a => .ok a
  | .error e => .error (.value e)

/-! ## Integers -/

inductive IntUnary where
  | logicalNot | complement | negative
  deriving DecidableEq

namespace IntUnary

def verb : IntUnary → String
  | logicalNot => "negate logically"
  | complement | negative => "complement"

def eval : IntUnary → Int64 → Int64
  | logicalNot, x => if x = 0 then 1 else 0
  | complement, x => ~~~x
  | negative, x => -x

end IntUnary

inductive IntBinary where
  | add | subtract | multiply | remainder | shiftLeft | shiftRight | and | or | xor | eq | ne
  deriving DecidableEq

namespace IntBinary

def verb : IntBinary → String
  | add => "add"
  | subtract => "subtract"
  | multiply => "multiply"
  | remainder => "take the remainder of"
  | shiftLeft | shiftRight => "shift"
  | and => "and"
  | or => "or"
  | xor => "xor"
  | eq | ne => "compare"

/-- Sums, differences and products wrap around; the remainder has the sign of `x`; shifts by 64 or more
leave nothing but the sign. -/
def eval (op : IntBinary) (x y : Int64) : Except Cause Int64 :=
  match op with
  | add => .ok (x + y)
  | subtract => .ok (x - y)
  | multiply => .ok (x * y)
  | remainder => if y = 0 then .error (.remainderByZero x) else .ok (x % y)
  | shiftLeft =>
    if y < 0 then .error (.negative "shift count" y)
    else .ok (if y < 64 then x <<< y else 0)
  | shiftRight =>
    if y < 0 then .error (.negative "shift count" y)
    else .ok (if y < 64 then x >>> y else if x < 0 then -1 else 0)
  | and => .ok (x &&& y)
  | or => .ok (x ||| y)
  | xor => .ok (x ^^^ y)
  | eq => .ok (if x = y then 1 else 0)
  | ne => .ok (if x = y then 0 else 1)

end IntBinary

/-! ## Reals -/

inductive RealBinary where
  | add | subtract | multiply | divide
  deriving DecidableEq

namespace RealBinary

def verb : RealBinary → String
  | add => "add"
  | subtract => "subtract"
  | multiply => "multiply"
  | divide => "divide"

def eval (op : RealBinary) (x y : Float) : Except Cause Float :=
  match op with
  | add => .ok (x + y)
  | subtract => .ok (x - y)
  | multiply => .ok (x * y)
  | divide => if y == 0.0 then .error (.divisionByZero x) else .ok (x / y)

end RealBinary

/-- The relations between reals. -/
inductive Relation where
  | lt | gt | leq | geq | eq | neq
  deriving DecidableEq

/-- Whether a relation holds; nothing but `neq` holds of a NaN. -/
def Relation.holds : Relation → Float → Float → Bool
  | lt, x, y => x < y
  | gt, x, y => y < x
  | leq, x, y => x ≤ y
  | geq, x, y => y ≤ x
  | eq, x, y => x == y
  | neq, x, y => !(x == y)

/-- -1, 0 or 1 as `x` is less than, equal to or greater than `y`; 0 also when they do not compare. -/
def threeWay (x y : Float) : Int64 :=
  if x < y then -1 else if y < x then 1 else 0

/-- `base ^ n` for `n ≥ 1` in `fuel` squarings: the product, rounded at every step, of the powers whose
exponents are the binary digits of `n`. -/
def powerLoop : Nat → Float → Float → Nat → Float
  | 0, product, _, _ => product
  | fuel + 1, product, base, n =>
    let product := if n % 2 = 1 then product * base else product
    if n / 2 = 0 then product else powerLoop fuel product (base * base) (n / 2)

/-- The largest exponent that scaling distinguishes. -/
def largestScale : Nat := 0x7FFFFFFF

def powerOfTen (n : Nat) : Float := powerLoop 31 1.0 10.0 (min n largestScale)

/-- `x * 10 ^ n`.  For a negative `n` it divides, so that exact decimals stay exact. -/
def scale (x : Float) (n : Int) : Float :=
  if n < 0 then x / powerOfTen n.natAbs else x * powerOfTen n.natAbs

/-- The negative of an exponent, the smallest becoming the largest. -/
def oppositeScale (n : Int64) : Int :=
  min (-n.toInt) Word.highest

/-- The double nearest to an integer. -/
def realOfInt (n : Int64) : Float := Float.ofModel (Float.Model.ofInt64 n)

/-- The integer part of a real, kept in range; 0 for a NaN. -/
def intOfReal (x : Float) : Int64 := x.toModel.toInt64

/-! ## Operators by the number of their operands -/

inductive UnaryOperator where
  | int (op : IntUnary)
  | toReal | toInt
  | increment | decrement | negate
  | length
  deriving DecidableEq

def UnaryOperator.apply : UnaryOperator → Value → Except Cause Value
  | int op, v => do return .int (op.eval (← orCause (v.expectInt op.verb)))
  | toReal, v => do return .real (realOfInt (← orCause (v.expectInt "convert")))
  | toInt, v => do return .int (intOfReal (← orCause (v.expectReal "convert")))
  | increment, v => orCause v.increment
  | decrement, v => orCause v.decrement
  | negate, v => orCause v.negate
  | length, v => do
    return .int (Int64.ofNat (← orCause (v.expectString "measure")).length)

inductive BinaryOperator where
  | int (op : IntBinary)
  | real (op : RealBinary)
  | relation (r : Relation)
  | threeWay
  | equal | notEqual
  | scaleUp | scaleDown
  | concatenate
  | octet
  deriving DecidableEq

def BinaryOperator.apply : BinaryOperator → Value → Value → Except Cause Value
  | int op, v, w => do
    let x ← orCause (v.expectInt op.verb)
    let y ← orCause (w.expectInt op.verb)
    return .int (← op.eval x y)
  | real op, v, w => do
    let x ← orCause (v.expectReal op.verb)
    let y ← orCause (w.expectReal op.verb)
    return .real (← op.eval x y)
  | relation r, v, w => do
    let x ← orCause (v.expectReal "compare")
    let y ← orCause (w.expectReal "compare")
    return .ofBool (r.holds x y)
  | threeWay, v, w => do
    let x ← orCause (v.expectReal "compare")
    let y ← orCause (w.expectReal "compare")
    return .int (StackMachine.threeWay x y)
  | equal, v, w => .ok (.ofBool (v.equals w))
  | notEqual, v, w => .ok (.ofBool !(v.equals w))
  | scaleUp, v, w => do
    let x ← orCause (v.expectReal "scale")
    let n ← orCause (w.expectInt "scale")
    return .real (scale x n.toInt)
  | scaleDown, v, w => do
    let x ← orCause (v.expectReal "scale")
    let n ← orCause (w.expectInt "scale")
    return .real (scale x (oppositeScale n))
  | concatenate, v, w => do
    let s ← orCause (v.expectString "concatenate")
    let t ← orCause (w.expectString "concatenate")
    return .string (s ++ t)
  | octet, v, w => do
    let s ← orCause (v.expectString "index")
    let i ← orCause (w.expectInt "index")
    return .byte (← orCause (s.octetAt i))

/-- The part of a string between two indices. -/
def sliceValue (v w u : Value) : Except Cause Value := do
  let s ← orCause (v.expectString "slice")
  let start ← orCause (w.expectInt "slice")
  let stop ← orCause (u.expectInt "slice")
  return .string (← orCause (s.slice start stop))

inductive Operator where
  | unary (op : UnaryOperator)
  | binary (op : BinaryOperator)
  | slice
  deriving DecidableEq

/-- How many values the operator takes. -/
def Operator.arity : Operator → Nat
  | unary _ => 1
  | binary _ => 2
  | slice => 3

end StackMachine
