import StackMachine.Machine.Instruction
import StackMachine.Program.Listing

/-!
Boundaries: the addresses at which a listing has a line, and the end of the code.  In code whose listing is
consistent every boundary but the end has an instruction that ends at a boundary.
-/

set_option autoImplicit false

namespace StackMachine

/-! ## The lines of a listing -/

namespace Listing

variable {code : Array Word} {address : Nat} {line : Line}

theorem linesFrom_of_none (h : lineAt? code address = none) : linesFrom code address = [] := by
  rw [linesFrom]
  split
  · rfl
  · next line hline =>
    rw [h] at hline
    cases hline

theorem linesFrom_of_some (h : lineAt? code address = some line) :
    linesFrom code address = line :: linesFrom code line.next := by
  rw [linesFrom]
  split
  · next hline =>
    rw [h] at hline
    cases hline
  · next line' hline =>
    rw [h] at hline
    cases hline
    rfl

theorem lineAt?_eq_none : lineAt? code address = none ↔ code.size ≤ address := by
  rw [lineAt?]
  split
  · next h => simpa using h
  · next word h =>
    obtain ⟨hlt, -⟩ := Array.getElem?_eq_some_iff.1 h
    simp [hlt]

theorem address_of_lineAt? (h : lineAt? code address = some line) : line.address = address := by
  rw [lineAt?] at h
  split at h
  · cases h
  · cases h
    rfl

/-- A line of a known operation lists as many words as it has operands. -/
theorem operands_of_lineAt? {op : Opcode} (h : lineAt? code address = some line)
    (hop : line.op = some op) :
    ∃ word, code[address]? = some word ∧ Opcode.ofWord? word = some op
      ∧ line.operands = (List.range op.arity).map fun i => code[address + 1 + i]? := by
  rw [lineAt?] at h
  split at h
  · cases h
  · next word hword =>
    cases h
    dsimp only at hop
    exact ⟨word, hword, hop, by rw [hop]⟩

/-- Every line of a listing is the instruction at its address. -/
theorem lineAt?_of_mem (h : line ∈ linesFrom code address) : lineAt? code line.address = some line := by
  fun_induction linesFrom code address with
  | case1 => cases h
  | case2 address first hfirst ih =>
    rcases List.mem_cons.1 h with rfl | h
    · rw [address_of_lineAt? hfirst, hfirst]
    · exact ih h

/-- Behind every line of a listing there is the next one, or the code ends. -/
theorem next_of_mem (h : line ∈ linesFrom code address) :
    code.size ≤ line.next ∨ ∃ line' ∈ linesFrom code address, line'.address = line.next := by
  fun_induction linesFrom code address with
  | case1 => cases h
  | case2 address first hfirst ih =>
    rcases List.mem_cons.1 h with rfl | h
    · cases hnext : lineAt? code line.next with
      | none => exact .inl (lineAt?_eq_none.1 hnext)
      | some line' =>
        rw [linesFrom_of_some hnext]
        exact .inr ⟨line', List.mem_cons_of_mem _ List.mem_cons_self, address_of_lineAt? hnext⟩
    · rcases ih h with hend | ⟨line', hmem, hline'⟩
      · exact .inl hend
      · exact .inr ⟨line', List.mem_cons_of_mem _ hmem, hline'⟩

end Listing

/-! ## Consistent programs -/

/-- How many of the first operands of an operation are addresses to go on at. -/
def Opcode.targetCount : Opcode → Nat
  | br | br0 | brN0 | brLt | brGt | brLeq | brGeq | brEq | brNeq | brNul | brNnul | call => 1
  | if0 | ifN0 | ifLt | ifGt | ifLeq | ifGeq | ifEq | ifNeq | ifNul | ifNnul => 2
  | _ => 0

/-- The pool that the operand of an operation refers to. -/
def Opcode.pool? : Opcode → Option Program.PoolName
  | iconst => some .integer
  | rconst => some .real
  | sconst => some .string
  | _ => none

/-- The operands of a line that are addresses to go on at. -/
def Line.targets (line : Line) : List (Option Word) :=
  match line.op with
  | some op => line.operands.take op.targetCount
  | none => []

/-- The pool that a line refers to, and its operand. -/
def Line.constant? (line : Line) : Option (Program.PoolName × Option Word) := do
  return (← (← line.op).pool?, ← line.operands.head?)

def Program.poolSize (p : Program) : Program.PoolName → Nat
  | .integer => p.ints.size
  | .real => p.reals.size
  | .string => p.strings.size

/-- The listing of the program knows every operation and lacks no operand, its targets are addresses of
lines, and its constants are in their pools. -/
structure Program.IsConsistent (p : Program) : Prop where
  known : ∀ line ∈ Listing.ofCode p.code, line.isKnown = true
  complete : ∀ line ∈ Listing.ofCode p.code, ∀ operand ∈ line.operands, operand.isSome = true
  targets : ∀ line ∈ Listing.ofCode p.code, ∀ target ∈ line.targets,
    ∃ line' ∈ Listing.ofCode p.code, target.bind Word.index? = some line'.address
  constants : ∀ line ∈ Listing.ofCode p.code, ∀ pool index, line.constant? = some (pool, index) →
    ∃ i < p.poolSize pool, index.bind Word.index? = some i

/-- The address of a line, or the end of the code. -/
def Program.IsBoundary (p : Program) (address : Nat) : Prop :=
  address = p.code.size ∨ ∃ line ∈ Listing.ofCode p.code, line.address = address

variable {p : Program}

theorem Program.isBoundary_zero (p : Program) : p.IsBoundary 0 := by
  rw [IsBoundary, Listing.ofCode]
  cases h : Listing.lineAt? p.code 0 with
  | none => exact .inl (Nat.le_zero.1 (Listing.lineAt?_eq_none.1 h)).symm
  | some line =>
    rw [Listing.linesFrom_of_some h]
    exact .inr ⟨line, List.mem_cons_self, Listing.address_of_lineAt? h⟩

end StackMachine
