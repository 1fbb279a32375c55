import Mathlib.Algebra.Group.Nat.Defs
import StackMachine.Opcode

/-!
Words as indices and as operations.  Every number that a machine stores as a word comes back as it was, and
the table of operations finds every operation by its word and by its name.
-/

set_option autoImplicit false

namespace StackMachine

theorem Word.toInt_ofNat {n : Nat} (h : n < 2 ^ 63) : (Int64.ofNat n).toInt = n := by
  rw [Int64.toInt_ofNat_of_lt h]

theorem Word.index?_ofNat {n : Nat} (h : n < 2 ^ 63) : Word.index? (Int64.ofNat n) = some n := by
  rw [Word.index?, Word.toInt_ofNat h]
  rfl

/-- A word that is an index is the word of its index. -/
theorem Word.ofNat_of_index? {w : Word} {n : Nat} (h : Word.index? w = some n) : Int64.ofNat n = w := by
  rw [Word.index?] at h
  have hw : w.toInt = n := Int.mem_toNat?.1 h
  have hlt := w.toInt_lt
  refine Int64.toInt_inj.1 ?_
  rw [Word.toInt_ofNat (by omega), hw]

namespace Opcode

theorem ofNumber?_number (op : Opcode) : ofNumber? op.number = some op := by
  cases op <;> rfl

theorem number_lt (op : Opcode) : op.number < 256 := by
  cases op <;> exact of_decide_eq_true rfl

theorem table_getD (op : Opcode) : table.getD op.number none = some op := by
  have hlt := op.number_lt
  rw [Array.getD_eq_getD_getElem?, table, Array.getElem?_ofFn, dif_pos hlt, ofNumber?_number]
  rfl

/-- The word of an operation stands for it. -/
@[simp]
theorem ofWord?_word (op : Opcode) : ofWord? op.word = some op := by
  have hlt := op.number_lt
  rw [ofWord?, word, Word.index?_ofNat (by omega)]
  exact op.table_getD

theorem arity_le (op : Opcode) : op.arity ≤ 2 := by
  cases op <;> exact of_decide_eq_true rfl

theorem mem_all (op : Opcode) : op ∈ all := by
  cases op <;> exact of_decide_eq_true rfl

/-- No two operations have one name. -/
theorem ofName?_name (op : Opcode) : ofName? op.name = some op := by
  have h : ∀ op ∈ all, ofName? op.name = some op := by decide +kernel
  exact h op op.mem_all

end Opcode

end StackMachine
