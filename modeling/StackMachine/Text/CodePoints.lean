/-!
Sets of characters, given by ranges of their code points.
-/

set_option autoImplicit false

namespace StackMachine.Text

/-- Inclusive ranges of code points, in increasing order. -/
structure CodePoints where
  ranges : Array (Nat × Nat)

/-- Whether a character is in the set. -/
def CodePoints.contains (s : CodePoints) (c : Char) : Bool :=
  s.ranges.any fun range => range.1 ≤ c.toNat && c.toNat ≤ range.2

end StackMachine.Text
