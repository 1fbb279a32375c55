import Mathlib.Data.List.Chain
import Mathlib.Data.List.ReduceOption
import StackMachine.Proofs.Program.Layout

/-!
A listing partitions its code.  Its lines follow one another from the start to the end, their words put together
are the code again, and operands are missing only where the code ends within the last line.
-/

set_option autoImplicit false

namespace StackMachine

/-- The words of the code that the line shows. -/
def Line.words (line : Line) : List Word := line.word :: line.operands.reduceOption

namespace Listing

variable {code : Array Word} {address : Nat} {line : Line}

/-- The first `n` places of a list, of which those behind its end are empty. -/
theorem map_getElem?_range {α : Type} (items : List α) (n : Nat) :
    (List.range n).map (fun i => items[i]?)
      = (items.take n).map some ++ List.replicate (n - items.length) none := by
  refine List.ext_getElem (by simp; omega) fun i hi hi' => ?_
  have hn : i < n := by simpa using hi
  by_cases hlt : i < items.length
  · have hleft : i < ((items.take n).map some).length := by simp; omega
    rw [List.getElem_append_left hleft]
    simp [hlt]
  · have hright : ((items.take n).map some).length ≤ i := by simp; omega
    rw [List.getElem_append_right hright]
    simp [Nat.not_lt.1 hlt]

/-- The operands of a line are the words behind it, and behind the end of the code the missing ones. -/
theorem operands_lineOf (code : Array Word) (address : Nat) (word : Word) :
    (lineOf code address word).operands
      = ((code.toList.drop (address + 1)).take (operandCount word)).map some
        ++ List.replicate (operandCount word - (code.size - (address + 1))) none := by
  have hget : ∀ i, code[address + 1 + i]? = (code.toList.drop (address + 1))[i]? := fun i => by
    rw [List.getElem?_drop, Array.getElem?_toList]
  rw [lineOf]
  simp only [hget]
  rw [map_getElem?_range, List.length_drop, Array.length_toList]

theorem words_lineOf (code : Array Word) (address : Nat) (word : Word) :
    (lineOf code address word).words
      = word :: (code.toList.drop (address + 1)).take (operandCount word) := by
  have hpresent : ∀ words : List Word, (words.map some).reduceOption = words := fun words => by
    rw [List.reduceOption, List.filterMap_map]
    exact List.filterMap_some
  rw [Line.words, operands_lineOf, List.reduceOption_append, List.reduceOption_replicate_none,
    List.append_nil, hpresent]
  rfl

/-- A line lacks no operand exactly if it ends within the code. -/
theorem none_notMem_operands (h : lineAt? code address = some line) :
    none ∉ line.operands ↔ line.FitsIn code := by
  obtain ⟨hlt, -⟩ := lineAt?_lt h
  obtain ⟨word, -, rfl⟩ := lineAt?_eq_some.1 h
  rw [Line.FitsIn, next_lineOf, operands_lineOf]
  simp only [List.mem_append, List.mem_map, reduceCtorEq, and_false, exists_false, false_or,
    List.mem_replicate, and_true, not_not]
  omega

/-! ## From an address to the end -/

theorem address_of_head? (h : line ∈ (linesFrom code address).head?) : line.address = address := by
  rw [linesFrom] at h
  split at h
  · cases h
  · next hline =>
    cases h
    exact address_of_lineAt? hline

theorem length_linesFrom_le (code : Array Word) (address : Nat) :
    (linesFrom code address).length ≤ code.size - address := by
  fun_induction linesFrom code address with
  | case1 => exact Nat.zero_le _
  | case2 address first hfirst ih =>
    obtain ⟨hlt, hnext⟩ := lineAt?_lt hfirst
    rw [List.length_cons]
    omega

theorem isChain_linesFrom (code : Array Word) (address : Nat) :
    (linesFrom code address).IsChain fun line line' => line'.address = line.next := by
  fun_induction linesFrom code address with
  | case1 => exact .nil
  | case2 address first hfirst ih => exact List.isChain_cons.2 ⟨fun line hline => address_of_head? hline, ih⟩

theorem flatMap_words_linesFrom (code : Array Word) (address : Nat) :
    (linesFrom code address).flatMap Line.words = code.toList.drop address := by
  fun_induction linesFrom code address with
  | case1 address hnone =>
    have hend : code.toList.length ≤ address := lineAt?_eq_none.1 hnone
    rw [List.flatMap_nil, List.drop_eq_nil_of_le hend]
  | case2 address first hfirst ih =>
    obtain ⟨hlt, -⟩ := lineAt?_lt hfirst
    obtain ⟨word, hword, rfl⟩ := lineAt?_eq_some.1 hfirst
    have hrest : code.toList.drop (address + 1 + operandCount word)
        = (code.toList.drop (address + 1)).drop (operandCount word) := List.drop_drop.symm
    have hget : code.toList[address]? = some word := by rw [Array.getElem?_toList, hword]
    obtain ⟨hlen, hget⟩ := List.getElem?_eq_some_iff.1 hget
    rw [List.flatMap_cons, ih, words_lineOf, next_lineOf, hrest, List.cons_append,
      List.take_append_drop, List.drop_eq_getElem_cons hlen, hget]

/-- A line with another behind it lacks no operand. -/
theorem none_notMem_of_dropLast (h : line ∈ (linesFrom code address).dropLast) : none ∉ line.operands := by
  fun_induction linesFrom code address with
  | case1 => cases h
  | case2 address first hfirst ih =>
    cases hrest : linesFrom code first.next with
    | nil =>
      rw [hrest] at h
      cases h
    | cons second rest =>
      rw [hrest] at h ih
      rcases List.mem_cons.1 h with rfl | h
      · have hsecond : lineAt? code second.address = some second :=
          lineAt?_of_mem (hrest ▸ List.mem_cons_self)
        have haddress : second.address = line.next := address_of_head? (by rw [hrest]; rfl)
        obtain ⟨hlt, -⟩ := lineAt?_lt hsecond
        exact (none_notMem_operands hfirst).2 (Nat.le_of_lt (haddress ▸ hlt))
      · exact ih h

/-! ## The whole code -/

/-- The lines are the instructions of the code, cut one behind the other without a gap or a rest. -/
structure Partitions (code : Array Word) (lines : List Line) : Prop where
  length_le : lines.length ≤ code.size
  /-- The first line is at the start; there is one unless the code is empty. -/
  first : lines.head?.map Line.address = if code.isEmpty then none else some 0
  chained : lines.IsChain fun line line' => line'.address = line.next
  /-- Every line is the one that is shown for its address alone. -/
  instruction : ∀ line ∈ lines, lineAt? code line.address = some line
  words : lines.flatMap Line.words = code.toList
  complete : ∀ line ∈ lines.dropLast, none ∉ line.operands
  /-- The missing operands of the last line are behind the present ones. -/
  missing : ∀ line ∈ lines.getLast?, ∃ present count,
    line.operands = List.map some present ++ List.replicate count none

theorem listing_partitions_code (code : Array Word) : Partitions code (ofCode code) where
  length_le := length_linesFrom_le code 0
  first := by
    rw [ofCode]
    cases hline : lineAt? code 0 with
    | none =>
      have hempty : code.size = 0 := Nat.le_zero.1 (lineAt?_eq_none.1 hline)
      rw [linesFrom_of_none hline, Array.isEmpty, hempty]
      rfl
    | some line =>
      obtain ⟨hlt, -⟩ := lineAt?_lt hline
      have hne : code.isEmpty = false := decide_eq_false (Nat.ne_of_gt hlt)
      rw [linesFrom_of_some hline, hne, List.head?_cons, Option.map_some, address_of_lineAt? hline]
      rfl
  chained := isChain_linesFrom code 0
  instruction := fun line hline => lineAt?_of_mem hline
  words := flatMap_words_linesFrom code 0
  complete := fun line hline => none_notMem_of_dropLast hline
  missing := by
    intro line hline
    have hmem := lineAt?_of_mem (List.mem_of_getLast? hline)
    obtain ⟨word, -, hword⟩ := lineAt?_eq_some.1 hmem
    rw [← hword]
    exact ⟨_, _, operands_lineOf code line.address word⟩

end Listing

end StackMachine
