import StackMachine.Text.Layout

/-!
The 64-bit words that programs are made of: their range, and words as indices and as text.
-/

set_option autoImplicit false

namespace StackMachine

/-- A signed word of 64 bits. -/
abbrev Word := Int64

namespace Word

/-- The least integer that is a word. -/
def lowest : Int := -0x8000000000000000

/-- The greatest integer that is a word. -/
def highest : Int := 0x7FFFFFFFFFFFFFFF

/-- The number of words, which bounds the unsigned numbers of the same size. -/
def cardinality : Nat := 0x10000000000000000

/-- The word with the value `n`, if there is one. -/
def ofInt? (n : Int) : Option Word :=
  if lowest ≤ n ∧ n ≤ highest then some (Int64.ofInt n) else none

/-- The word as a position: `none` when it is negative. -/
def index? (w : Word) : Option Nat :=
  w.toInt.toNat?

/-- Two's complement in upper-case hexadecimal, filled with zeros to `width`. -/
def hex (width : Nat) (w : Word) : String :=
  Text.hex width w.toUInt64.toNat

/-- The word in decimal. -/
def decimal (w : Word) : String :=
  w.toInt.repr

end Word

end StackMachine
