/-!
The limits under which a machine runs.  A limit of zero is no limit.
-/

set_option autoImplicit false

namespace StackMachine

/-- Limits and the policy for faults. -/
structure Config where
  /-- The most values that the operand stack may hold. -/
  maxStackDepth : Nat
  /-- The most calls that may be active at once. -/
  maxCallDepth : Nat
  /-- The most instructions that may be executed. -/
  maxInstructions : Nat
  /-- Whether every instruction is logged before it is executed. -/
  trace : Bool
  /-- Whether an operand of a wrong kind stops the machine. -/
  fatalTypeMismatch : Bool
  deriving DecidableEq

namespace Config

/-- No limits, no trace, and operands of a wrong kind are survived. -/
def default : Config := ⟨0, 0, 0, false, false⟩

end Config

end StackMachine
