import StackMachine.Decimal.Reader
import StackMachine.Word

/-!
The numerals of JSON: a whole part without leading zeros, then perhaps a fraction and an exponent.
-/

set_option autoImplicit false

namespace StackMachine

/-- A numeral that has been read: its sign, its value, and whether it has neither fraction nor exponent. -/
structure Numeral where
  negative : Bool
  value : Decimal
  isWhole : Bool
  deriving DecidableEq

namespace Numeral

/-- Reads an unsigned numeral. -/
def unsigned? (cs : List Char) : Option (Decimal × Bool) := do
  let whole := cs.takeWhile Char.isDigit
  let rest := cs.dropWhile Char.isDigit
  guard (!whole.isEmpty && (whole.length = 1 || whole.head? != some '0'))
  match rest with
  | '.' :: afterPoint =>
    let fraction := afterPoint.takeWhile Char.isDigit
    guard !fraction.isEmpty
    let power ← Decimal.exponent? (afterPoint.dropWhile Char.isDigit)
    return (⟨Decimal.ofDigits (whole ++ fraction), power.getD 0 - fraction.length⟩, false)
  | _ =>
    let power ← Decimal.exponent? rest
    return (⟨Decimal.ofDigits whole, power.getD 0⟩, power.isNone)

/-- Reads a numeral. -/
def ofChars? : List Char → Option Numeral
  | '-' :: rest => (unsigned? rest).map fun (value, isWhole) => ⟨true, value, isWhole⟩
  | cs => (unsigned? cs).map fun (value, isWhole) => ⟨false, value, isWhole⟩

/-- The integer that the numeral writes.  `-0` writes none: it has the sign of a floating point zero. -/
def int? (n : Numeral) : Option Int :=
  if !n.isWhole || (n.negative && n.value.significand = 0) then none
  else some (if n.negative then -(n.value.significand : Int) else n.value.significand)

/-- The double nearest to the numeral, unless it is too large. -/
def float? (n : Numeral) : Option Float :=
  let x := n.value.toSignedFloat n.negative
  if x.isFinite then some x else none

/-- The number in single precision for the numeral.  Integers of 64 bits are rounded once, all else goes
through double precision, from where it may become infinite. -/
def single? (n : Numeral) : Option Float32 :=
  match n.int? with
  | some i =>
    if Word.lowest ≤ i ∧ i < Word.cardinality then some (Float32.ofModel (Float32.Model.ofInt i))
    else n.float?.map roundToSingle
  | none => n.float?.map roundToSingle

end Numeral

end StackMachine
