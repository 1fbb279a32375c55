import StackMachine.Proofs.Machine.Signatures
import StackMachine.Proofs.Word.Exact

/-!
The integer operations against exact integers.  Each one gives the word for what it stands for in the integers,
wrapped around if that is out of range, or raises the one fault that it has.
-/

set_option autoImplicit false

namespace StackMachine

open Word (wrap)

/-! ## What the operations stand for -/

namespace IntUnary

/-- The operation of the operator. -/
def opcode : IntUnary → Opcode
  | logicalNot => .inot
  | complement => .icompl1
  | negative => .icompl2

def onIntegers : IntUnary → Int → Int
  | logicalNot, x => if x = 0 then 1 else 0
  | complement, x => -x - 1
  | negative, x => wrap (-x)

theorem instruction_opcode (op : IntUnary) (a b : Word) :
    op.opcode.instruction a b = .operate (.unary (.int op)) := by
  cases op <;> rfl

theorem toInt_eval (op : IntUnary) (x : Word) : (op.eval x).toInt = op.onIntegers x.toInt := by
  cases op with
  | logicalNot =>
    simp only [eval, onIntegers, ← Int64.toInt_inj, Int64.toInt_zero]
    split <;> rfl
  | complement => exact Word.toInt_complement x
  | negative => exact x.toInt_neg

end IntUnary

namespace IntBinary

/-- The operation of the operator. -/
def opcode : IntBinary → Opcode
  | add => .iadd
  | subtract => .isub
  | multiply => .imul
  | remainder => .imod
  | shiftLeft => .ishl
  | shiftRight => .ishr
  | and => .iand
  | or => .ior
  | xor => .ixor
  | eq => .ieq
  | ne => .ineq

/-- What the operator makes of two integers, of which `x` is the deeper on the stack. -/
def onIntegers : IntBinary → Int → Int → Except FaultKind Int
  | add, x, y => .ok (wrap (x + y))
  | subtract, x, y => .ok (wrap (x - y))
  | multiply, x, y => .ok (wrap (x * y))
  | remainder, x, y => if y = 0 then .error .divisionByZero else .ok (x - y * x.tdiv y)
  | shiftLeft, x, y => if y < 0 then .error .unsignedOperandExpected else .ok (wrap (x * 2 ^ y.toNat))
  | shiftRight, x, y => if y < 0 then .error .unsignedOperandExpected else .ok (x.fdiv (2 ^ y.toNat))
  | and, x, y => .ok (x.land y)
  | or, x, y => .ok (x.lor y)
  | xor, x, y => .ok (x.xor y)
  | eq, x, y => .ok (if x = y then 1 else 0)
  | ne, x, y => .ok (if x = y then 0 else 1)

/-- The result of an operator, or the kind of its fault, in the integers. -/
def exactly (result : Except Cause Int64) : Except FaultKind Int :=
  (result.map Int64.toInt).mapError Cause.kind

variable {x y : Word}

theorem instruction_opcode (op : IntBinary) (a b : Word) :
    op.opcode.instruction a b = .operate (.binary (.int op)) := by
  cases op <;> rfl

theorem exactly_remainder (x y : Word) : exactly (remainder.eval x y) = remainder.onIntegers x.toInt y.toInt := by
  simp only [eval, onIntegers, ← Int64.toInt_inj, Int64.toInt_zero]
  split
  · rfl
  · refine congrArg Except.ok ?_
    rw [Int64.toInt_mod, Int.tmod_def]

theorem exactly_shiftLeft (x y : Word) : exactly (shiftLeft.eval x y) = shiftLeft.onIntegers x.toInt y.toInt := by
  simp only [eval, onIntegers, Int64.lt_iff_toInt_lt, Int64.toInt_zero]
  by_cases hneg : y.toInt < 0
  · simp only [if_pos hneg]
    rfl
  · simp only [if_neg hneg]
    refine congrArg Except.ok ?_
    have hpos := Int.not_lt.1 hneg
    split
    · next hlt => exact Word.toInt_shiftLeft hpos hlt
    · next hle =>
      have h64 : (64 : Int) ≤ y.toInt := Int.not_lt.1 hle
      exact (Word.wrap_shift_of_le _ (by omega)).symm

theorem exactly_shiftRight (x y : Word) :
    exactly (shiftRight.eval x y) = shiftRight.onIntegers x.toInt y.toInt := by
  simp only [eval, onIntegers, Int64.lt_iff_toInt_lt, Int64.toInt_zero]
  by_cases hneg : y.toInt < 0
  · simp only [if_pos hneg]
    rfl
  · simp only [if_neg hneg]
    refine congrArg Except.ok ?_
    have hpos := Int.not_lt.1 hneg
    split
    · next hlt => exact Word.toInt_shiftRight hpos hlt
    · next hle =>
      have h64 : (64 : Int) ≤ y.toInt := Int.not_lt.1 hle
      rw [Word.fdiv_of_le x (k := y.toInt.toNat) (by omega)]
      split <;> rfl

theorem exactly_eval (op : IntBinary) (x y : Word) :
    exactly (op.eval x y) = op.onIntegers x.toInt y.toInt := by
  cases op with
  | add => exact congrArg Except.ok (x.toInt_add y)
  | subtract => exact congrArg Except.ok (x.toInt_sub y)
  | multiply => exact congrArg Except.ok (x.toInt_mul y)
  | remainder => exact exactly_remainder x y
  | shiftLeft => exact exactly_shiftLeft x y
  | shiftRight => exact exactly_shiftRight x y
  | and => exact congrArg Except.ok (Word.toInt_and x y)
  | or => exact congrArg Except.ok (Word.toInt_or x y)
  | xor => exact congrArg Except.ok (Word.toInt_xor x y)
  | eq | ne =>
    simp only [eval, onIntegers, ← Int64.toInt_inj]
    split <;> rfl

end IntBinary

namespace Machine

variable {m : Machine} {d : Decoded} {below : List Value} {x y : Word}

/-! ## Steps -/

/-- What a step does for an integer operation with this result: it puts the word for it in the place of the
operands, on top of the values below them, or raises the fault and leaves the stack. -/
inductive Yields (m : Machine) (d : Decoded) (below : List Value) : Except FaultKind Int → Prop
  | value {n : Int} {z : Word} {stack : OperandStack} (hz : z.toInt = n)
      (hstack : stack.toList = below ++ [.int z]) (hr : m.step.reports = [])
      (hm : m.step.machine = { m.fetch d with stack }) : Yields m d below (.ok n)
  | fault {kind : FaultKind} {report : Report} (hr : m.step.reports = [report]) (hk : report.kind = kind)
      (hs : m.step.machine.stack = m.stack) : Yields m d below (.error kind)

/-- A step that computes an integer from operands of which the stack is left without. -/
theorem yields_of_computed {found : Except Cause Int64} {rest : OperandStack} (hn : m.next? = some d)
    (h : (m.fetch d).computed? d.instruction = some do return rest.put (.int (← found)))
    (hrest : rest.toList = below) : m.Yields d below (IntBinary.exactly found) := by
  cases found with
  | ok z =>
    obtain ⟨hr, hm⟩ := (step_of_computed hn h).2 _ rfl
    refine .value rfl ?_ hr hm
    rw [OperandStack.toList_put, hrest]
  | error cause =>
    obtain ⟨hm, hr⟩ := step_of_fault hn (execute_computed h)
    refine .fault hr rfl ?_
    rw [hm, raise_machine]
    rfl

theorem step_int_unary (hn : m.next? = some d) (op : IntUnary) (hop : d.op = op.opcode)
    (hs : m.stack.toList = below ++ [.int x]) : m.Yields d below (.ok (op.onIntegers x.toInt)) := by
  have hi : d.instruction = .operate (.unary (.int op)) := by
    rw [Decoded.instruction, hop, op.instruction_opcode]
  have hresult : Operator.result (.unary (.int op)) m.stack = .ok (.int (op.eval x)) := Operator.result_unary hs
  have hcomputed : (m.fetch d).computed? d.instruction =
      some do return (m.stack.drop 1).put (.int (← Except.ok (op.eval x))) := by
    rw [hi]
    change some (Operator.result (.unary (.int op)) m.stack >>= _) = _
    rw [hresult]
    rfl
  rw [← op.toInt_eval]
  exact yields_of_computed hn hcomputed (OperandStack.toList_drop_of_toList hs)

theorem step_int_binary (hn : m.next? = some d) (op : IntBinary) (hop : d.op = op.opcode)
    (hs : m.stack.toList = below ++ [.int x, .int y]) :
    m.Yields d below (op.onIntegers x.toInt y.toInt) := by
  have hi : d.instruction = .operate (.binary (.int op)) := by
    rw [Decoded.instruction, hop, op.instruction_opcode]
  have hresult : Operator.result (.binary (.int op)) m.stack = (op.eval x y).map Value.int := by
    rw [Operator.result_binary hs]
    cases hfound : op.eval x y <;> simp [BinaryOperator.apply, Value.expectInt, orCause, hfound] <;> rfl
  have hcomputed : (m.fetch d).computed? d.instruction =
      some do return (m.stack.drop 2).put (.int (← op.eval x y)) := by
    rw [hi]
    change some (Operator.result (.binary (.int op)) m.stack >>= _) = _
    rw [hresult]
    cases op.eval x y <;> rfl
  rw [← op.exactly_eval]
  exact yields_of_computed hn hcomputed (OperandStack.toList_drop_of_toList hs)

/-- On every pair of words, an integer operation does what it stands for in the integers. -/
theorem integer_operations_exact (hn : m.next? = some d) :
    (∀ op below x, d.op = IntUnary.opcode op → m.stack.toList = below ++ [.int x] →
        m.Yields d below (.ok (op.onIntegers x.toInt)))
      ∧ ∀ op below x y, d.op = IntBinary.opcode op → m.stack.toList = below ++ [.int x, .int y] →
        m.Yields d below (op.onIntegers x.toInt y.toInt) :=
  ⟨fun op _ _ hop hs => step_int_unary hn op hop hs, fun op _ _ _ hop hs => step_int_binary hn op hop hs⟩

/-- The remainder of the least word by -1, whose quotient is out of range. -/
theorem integer_operations_exact_remainder :
    ∃ (m : Machine) (d : Decoded), m.next? = some d ∧ d.op = IntBinary.opcode .remainder
      ∧ m.stack.toList = [] ++ [.int Int64.minValue, .int (-1)] ∧ m.Yields d [] (.ok 0) := by
  let m := { Machine.start ⟨#[Opcode.imod.word], .empty, .empty, .empty⟩ .unlimited with
    stack := ⟨.ofList [.int Int64.minValue, .int (-1)], 0⟩ }
  have hn : m.next? = some ⟨.imod, _, _, _⟩ :=
    next?_eq_some rfl rfl rfl (decode_of_le (Opcode.ofWord?_word .imod) (by decide))
  have hyields := (integer_operations_exact hn).2 .remainder [] Int64.minValue (-1) rfl rfl
  exact ⟨m, _, hn, rfl, rfl, hyields⟩

end Machine

end StackMachine
