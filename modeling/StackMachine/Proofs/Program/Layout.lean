import StackMachine.Proofs.Program.Boundary
import StackMachine.Proofs.Program.Table

/-!
How a listing changes with its code.  Words that are appended to code without a missing operand are listed
behind what is there, and a word that is overwritten changes the operand that lies in it and no more, as long
as no instruction begins there.
-/

set_option autoImplicit false

namespace StackMachine

/-- The line lists no operand behind the end of the code. -/
def Line.FitsIn (line : Line) (code : Array Word) : Prop := line.next ≤ code.size

/-- The slot holds an operand of the line. -/
def Line.Holds (line : Line) (slot : Nat) : Prop := line.address < slot ∧ slot < line.next

/-- The line with another word in a slot. -/
def Line.patched (slot : Nat) (word : Word) (line : Line) : Line :=
  { line with
    operands := line.operands.mapIdx fun i operand =>
      if line.address + 1 + i = slot then some word else operand }

@[simp]
theorem Line.next_patched (slot : Nat) (word : Word) (line : Line) :
    (line.patched slot word).next = line.next := by
  rw [next, next, patched, List.length_mapIdx]

/-- A word behind the line does not change it. -/
theorem Line.patched_of_next_le {slot : Nat} {word : Word} {line : Line} (h : line.next ≤ slot) :
    line.patched slot word = line := by
  rw [next] at h
  refine congrArg (Line.mk line.address line.word line.op) (List.ext_getElem (by simp) fun i hi hi' => ?_)
  rw [List.getElem_mapIdx, if_neg (by omega)]

namespace Listing

variable {code more : Array Word} {address : Nat} {line line' : Line}

/-- How many words behind a word belong to its line. -/
def operandCount (word : Word) : Nat :=
  match Opcode.ofWord? word with
  | some op => op.arity
  | none => 0

/-- The line of a word of the code. -/
def lineOf (code : Array Word) (address : Nat) (word : Word) : Line :=
  ⟨address, word, Opcode.ofWord? word,
    (List.range (operandCount word)).map fun i => code[address + 1 + i]?⟩

theorem lineAt?_eq_some : lineAt? code address = some line ↔
    ∃ word, code[address]? = some word ∧ lineOf code address word = line := by
  rw [lineAt?]
  cases code[address]? with
  | none => simp
  | some word =>
    refine ⟨fun h => ⟨word, rfl, Option.some.inj h⟩, fun h => ?_⟩
    obtain ⟨_, hword, h⟩ := h
    cases hword
    exact congrArg some h

theorem next_lineOf (code : Array Word) (address : Nat) (word : Word) :
    (lineOf code address word).next = address + 1 + operandCount word := by
  rw [Line.next, lineOf, List.length_map, List.length_range]

theorem word_of_lineAt? (h : lineAt? code address = some line) : code[address]? = some line.word := by
  obtain ⟨word, hword, rfl⟩ := lineAt?_eq_some.1 h
  exact hword

theorem ofWord?_of_lineAt? (h : lineAt? code address = some line) : Opcode.ofWord? line.word = line.op := by
  obtain ⟨word, -, rfl⟩ := lineAt?_eq_some.1 h
  rfl

theorem next_of_lineAt? {op : Opcode} (h : lineAt? code address = some line) (hop : line.op = some op) :
    line.next = address + 1 + op.arity := by
  obtain ⟨word, -, -, hoperands⟩ := operands_of_lineAt? h hop
  rw [Line.next, hoperands, List.length_map, List.length_range, address_of_lineAt? h]

/-! ## Where lines lie -/

theorem le_address_of_mem (h : line ∈ linesFrom code address) : address ≤ line.address := by
  fun_induction linesFrom code address with
  | case1 => cases h
  | case2 address first hfirst ih =>
    rcases List.mem_cons.1 h with rfl | h
    · exact Nat.le_of_eq (address_of_lineAt? hfirst).symm
    · exact Nat.le_trans (Nat.le_of_lt (lineAt?_lt hfirst).2) (ih h)

/-- Two lines of a listing are one line, or one of them ends before the other begins. -/
theorem apart_of_mem (h : line ∈ linesFrom code address) (h' : line' ∈ linesFrom code address) :
    line = line' ∨ line.next ≤ line'.address ∨ line'.next ≤ line.address := by
  fun_induction linesFrom code address with
  | case1 => cases h
  | case2 address first hfirst ih =>
    rcases List.mem_cons.1 h with rfl | h
    · rcases List.mem_cons.1 h' with rfl | h'
      · exact .inl rfl
      · exact .inr (.inl (le_address_of_mem h'))
    · rcases List.mem_cons.1 h' with rfl | h'
      · exact .inr (.inr (le_address_of_mem h))
      · exact ih h h'

/-- No instruction begins in an operand slot of another. -/
theorem address_ne_of_holds {slot : Nat} (h : line ∈ linesFrom code address) (hslot : line.Holds slot)
    (h' : line' ∈ linesFrom code address) : line'.address ≠ slot := by
  obtain ⟨hlow, hhigh⟩ := hslot
  have hline' := (lineAt?_lt (lineAt?_of_mem h')).2
  rcases apart_of_mem h h' with rfl | hbefore | hafter
  · exact Nat.ne_of_lt hlow
  · omega
  · omega

/-! ## Code that grows -/

/-- The instruction at an address reads its own words only. -/
theorem lineAt?_append (h : lineAt? code address = some line) (hfits : line.FitsIn code) :
    lineAt? (code ++ more) address = some line := by
  obtain ⟨hlt, -⟩ := lineAt?_lt h
  obtain ⟨word, hword, rfl⟩ := lineAt?_eq_some.1 h
  rw [Line.FitsIn, next_lineOf] at hfits
  refine lineAt?_eq_some.2 ⟨word, by rw [Array.getElem?_append_left hlt, hword], ?_⟩
  have hsame : ∀ i ∈ List.range (operandCount word), (code ++ more)[address + 1 + i]?
      = code[address + 1 + i]? := fun i hi => by
    have := List.mem_range.1 hi
    exact Array.getElem?_append_left (by omega)
  rw [lineOf, lineOf, List.map_congr_left hsame]

theorem linesFrom_append (hend : address ≤ code.size)
    (hfits : ∀ line ∈ linesFrom code address, line.FitsIn code) :
    linesFrom (code ++ more) address = linesFrom code address ++ linesFrom (code ++ more) code.size := by
  fun_induction linesFrom code address with
  | case1 address hnone =>
    rw [Nat.le_antisymm hend (lineAt?_eq_none.1 hnone), List.nil_append]
  | case2 address first hfirst ih =>
    have hfirstFits := hfits first List.mem_cons_self
    rw [linesFrom_of_some (lineAt?_append hfirst hfirstFits),
      ih hfirstFits fun line hline => hfits line (List.mem_cons_of_mem _ hline), List.cons_append]

/-- One instruction behind the end of the code. -/
theorem lineAt?_emitted (code : Array Word) {op : Opcode} {operands : List Word}
    (h : operands.length = op.arity) :
    lineAt? (code ++ (op.word :: operands).toArray) code.size
      = some ⟨code.size, op.word, some op, operands.map some⟩ := by
  have hoperands : ((List.range op.arity).map fun i =>
      (code ++ (op.word :: operands).toArray)[code.size + 1 + i]?) = operands.map some := by
    refine List.ext_getElem (by simp [h]) fun i hi hi' => ?_
    have hlt : i < operands.length := by simpa using hi'
    rw [List.getElem_map, List.getElem_range, List.getElem_map, Array.getElem?_append_right (by omega),
      List.getElem?_toArray, show code.size + 1 + i - code.size = i + 1 by omega,
      List.getElem?_cons_succ, List.getElem?_eq_getElem hlt]
  refine lineAt?_eq_some.2 ⟨op.word, by simp, ?_⟩
  rw [lineOf, operandCount, Opcode.ofWord?_word, ← hoperands]

theorem next_emitted (code : Array Word) (op : Opcode) (operands : List Word) :
    (Line.mk code.size op.word (some op) (operands.map some)).next
      = (code ++ (op.word :: operands).toArray).size := by
  simp [Line.next]
  omega

theorem linesFrom_emitted (code : Array Word) {op : Opcode} {operands : List Word}
    (h : operands.length = op.arity) :
    linesFrom (code ++ (op.word :: operands).toArray) code.size
      = [⟨code.size, op.word, some op, operands.map some⟩] := by
  rw [linesFrom_of_some (lineAt?_emitted code h), linesFrom_of_none]
  exact lineAt?_eq_none.2 (Nat.le_of_eq (next_emitted code op operands).symm)

/-! ## Code that is overwritten -/

variable {slot : Nat}

theorem lineAt?_setIfInBounds (word : Word) (h : lineAt? code address = some line)
    (hslot : slot < code.size) (hne : address ≠ slot) :
    lineAt? (code.setIfInBounds slot word) address = some (line.patched slot word) := by
  obtain ⟨old, hold, rfl⟩ := lineAt?_eq_some.1 h
  refine lineAt?_eq_some.2 ⟨old, by rw [Array.getElem?_setIfInBounds_ne hne.symm, hold], ?_⟩
  refine congrArg (Line.mk address old (Opcode.ofWord? old)) ?_
  refine List.ext_getElem (by simp [lineOf]) fun i hi hi' => ?_
  simp only [lineOf, List.getElem_mapIdx, List.getElem_map, List.getElem_range]
  split
  · next heq => rw [heq, Array.getElem?_setIfInBounds_self_of_lt hslot]
  · next hother => rw [Array.getElem?_setIfInBounds_ne (Ne.symm hother)]

theorem linesFrom_setIfInBounds (word : Word) (hslot : slot < code.size)
    (hne : ∀ line ∈ linesFrom code address, line.address ≠ slot) :
    linesFrom (code.setIfInBounds slot word) address
      = (linesFrom code address).map (Line.patched slot word) := by
  fun_induction linesFrom code address with
  | case1 address hnone =>
    refine linesFrom_of_none (lineAt?_eq_none.2 ?_)
    rw [Array.size_setIfInBounds]
    exact lineAt?_eq_none.1 hnone
  | case2 address first hfirst ih =>
    have haddress := hne first List.mem_cons_self
    rw [address_of_lineAt? hfirst] at haddress
    rw [linesFrom_of_some (lineAt?_setIfInBounds word hfirst hslot haddress), Line.next_patched,
      ih fun line hline => hne line (List.mem_cons_of_mem _ hline), List.map_cons]

end Listing

end StackMachine
