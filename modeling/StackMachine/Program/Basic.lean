import StackMachine.Word

/-!
Programs: one line of code words, and three pools of constants that operands refer to by index.
-/

set_option autoImplicit false

namespace StackMachine

/-- Constants in the order in which they were added. -/
structure Pool (α : Type) where
  items : Array α

namespace Pool

variable {α : Type}

def empty : Pool α := ⟨#[]⟩

def size (p : Pool α) : Nat := p.items.size

def isEmpty (p : Pool α) : Bool := p.items.isEmpty

/-- The pool with one more constant, whose index is the size before. -/
def push (p : Pool α) (a : α) : Pool α := ⟨p.items.push a⟩

/-- The constant that an operand word refers to. -/
def get? (p : Pool α) (index : Word) : Option α :=
  match Word.index? index with
  | some i => p.items[i]?
  | none => none

end Pool

/-- A program as it is loaded into a machine. -/
structure Program where
  code : Array Word
  ints : Pool Int64
  reals : Pool Float
  strings : Pool String

namespace Program

def empty : Program := ⟨#[], .empty, .empty, .empty⟩

/-- The pools by the names that faults call them. -/
inductive PoolName where
  | integer | real | string
  deriving DecidableEq

def PoolName.text : PoolName → String
  | integer => "integer"
  | real => "real"
  | string => "string"

end Program

end StackMachine
