import StackMachine.Opcode
import StackMachine.Program.Basic

/-!
Listings: code cut into instructions.  From any address an instruction takes its word and as many
operands as the table says; a word that is no operation stands alone, and operands past the end of the
code are missing.
-/

set_option autoImplicit false

namespace StackMachine

/-- One instruction of a listing; an unknown word has no operation. -/
structure Line where
  address : Nat
  word : Word
  op : Option Opcode
  operands : List (Option Word)
  deriving DecidableEq

namespace Line

def isKnown (line : Line) : Bool := line.op.isSome

/-- The name that the listing shows. -/
def name (line : Line) : String :=
  match line.op with
  | some op => op.name
  | none => "???"

/-- The address after the instruction. -/
def next (line : Line) : Nat := line.address + 1 + line.operands.length

/-- An operand in a column of eight, with a mark for a missing one. -/
def operandText (operand : Option Word) : String :=
  Text.alignLeft 8 <| match operand with
    | some w => Word.decimal w
    | none => "?"

def display (line : Line) : String :=
  "0x" ++ Text.hex 4 line.address ++ "." ++ Word.hex 2 line.word ++ " | "
    ++ Text.alignRight 13 line.name ++ " | " ++ " ".intercalate (line.operands.map operandText)

end Line

namespace Listing

/-- The heading over the columns of a line. -/
def header : String := "    IP    |  INSTRUCTION  | ARGS"

/-- The instruction at an address: `none` past the end. -/
def lineAt? (code : Array Word) (address : Nat) : Option Line :=
  match code[address]? with
  | none => none
  | some word =>
    let op := Opcode.ofWord? word
    let arity := match op with
      | some op => op.arity
      | none => 0
    some ⟨address, word, op, (List.range arity).map fun i => code[address + 1 + i]?⟩

theorem lineAt?_lt {code : Array Word} {address : Nat} {line : Line}
    (h : lineAt? code address = some line) : address < code.size ∧ address < line.next := by
  unfold lineAt? at h
  split at h
  · contradiction
  · next hw =>
    obtain ⟨hlt, -⟩ := Array.getElem?_eq_some_iff.1 hw
    cases h
    exact ⟨hlt, by simp only [Line.next]; omega⟩

/-- The instructions from an address to the end, each where the one before it ends. -/
def linesFrom (code : Array Word) (address : Nat) : List Line :=
  match _ : lineAt? code address with
  | none => []
  | some line => line :: linesFrom code line.next
termination_by code.size - address
decreasing_by
  have := lineAt?_lt ‹_›
  omega

/-- The whole code as instructions. -/
def ofCode (code : Array Word) : List Line := linesFrom code 0

end Listing

end StackMachine
