import StackMachine.Proofs.Machine.Faults
import StackMachine.Proofs.Value.Display

/-!
Messages of faults.  Apart from the words of the operation a message consists of names, numbers and phrases
without line breaks, and the operations have words of one line; so every fault that a machine raises is told in
one line.
-/

set_option autoImplicit false

namespace StackMachine

open Text

/-! ## Names -/

@[simp]
theorem ValueKind.oneLine_name (kind : ValueKind) : OneLine kind.name := by
  cases kind <;> exact oneLine_of_all (by decide)

@[simp]
theorem FaultKind.oneLine_name (kind : FaultKind) : OneLine kind.name := by
  cases kind <;> exact oneLine_of_all (by decide)

@[simp]
theorem RunState.oneLine_name (state : RunState) : OneLine state.name := by
  cases state <;> exact oneLine_of_all (by decide)

@[simp]
theorem Program.PoolName.oneLine_text (pool : PoolName) : OneLine pool.text := by
  cases pool <;> exact oneLine_of_all (by decide)

@[simp]
theorem Opcode.oneLine_name (op : Opcode) : OneLine op.name := by
  cases op <;> exact oneLine_of_all (by decide)

@[simp]
theorem oneLine_realText (x : Float) : OneLine (realText x) := (plainWord_realText x).plain.oneLine

/-! ## Messages -/

theorem ValueError.oneLine_message {e : ValueError} (h : OneLine e.wording) : OneLine e.message := by
  cases e <;> unfold message
  case unsupported operation found =>
    have hwords : OneLine operation := h
    simp only [oneLine_append, hwords, ValueKind.oneLine_name, and_true]
    and_intros <;> exact oneLine_of_all (by decide)
  case typeMismatch operation expected found =>
    have hwords : OneLine operation := h
    simp only [oneLine_append, hwords, ValueKind.oneLine_name, and_true]
    and_intros <;> exact oneLine_of_all (by decide)
  all_goals
    simp only [oneLine_append, oneLine_decimal, oneLine_repr, and_true]
    and_intros <;> exact oneLine_of_all (by decide)

theorem Cause.oneLine_message {cause : Cause} (h : OneLine cause.wording) : OneLine cause.message := by
  cases cause <;> unfold message
  case value e => exact ValueError.oneLine_message h
  case negative what n =>
    have hwords : OneLine what := h
    simp only [oneLine_append, hwords, oneLine_decimal, true_and, and_true]
    exact oneLine_of_all (by decide)
  case integerExpected operation found =>
    have hwords : OneLine operation := h
    simp only [oneLine_append, hwords, ValueKind.oneLine_name, and_true]
    and_intros <;> exact oneLine_of_all (by decide)
  all_goals
    try simp only [oneLine_append, oneLine_repr, oneLine_decimal, oneLine_hex, oneLine_wordHex, oneLine_realText,
      ValueKind.oneLine_name, Opcode.oneLine_name, Program.PoolName.oneLine_text, and_true, true_and]
    and_intros <;> exact oneLine_of_all (by decide)

namespace Machine

variable {m m₁ : Machine} {cause : Cause}

theorem Refusal.oneLine_message {i : Instruction} (h : m.Refusal i cause) : OneLine cause.message := by
  cases h with
  | operands h => exact Cause.oneLine_message h.wording
  | room h =>
    rw [OperandStack.reserve_eq_error h]
    exact Cause.oneLine_message oneLine_empty
  | calls _ _ h =>
    rw [h]
    exact Cause.oneLine_message oneLine_empty
  | constant _ h =>
    rw [constant_eq_error h]
    exact Cause.oneLine_message oneLine_empty
  | target _ h =>
    rw [jumpTarget_eq_error h]
    exact Cause.oneLine_message oneLine_empty

/-- Every fault that a machine raises is told in one line. -/
theorem Raises.oneLine_message (h : m.Raises m₁ cause) : OneLine cause.message := by
  cases h with
  | exhausted => exact Cause.oneLine_message oneLine_empty
  | undecoded _ hd =>
    rcases decode_eq_error hd with ⟨-, rfl⟩ | ⟨op, -, -, rfl⟩
    · exact Cause.oneLine_message oneLine_empty
    · exact Cause.oneLine_message oneLine_empty
  | refused _ h => exact h.refusal.oneLine_message

end Machine

end StackMachine
