import StackMachine.Decimal.Reader
import StackMachine.Value.Basic

/-!
Arguments of a program as they are given on the command line: an integer if the text is one, else a real,
else a string.
-/

set_option autoImplicit false

namespace StackMachine.Cli

/-- A word in decimal. -/
def word? (text : String) : Option Word := do Word.ofInt? (← Decimal.signedInt? text.toList)

/-- Digits with an optional point among or around them, then perhaps an exponent. -/
def unsignedReal? (cs : List Char) : Option Decimal := do
  let whole := cs.takeWhile Char.isDigit
  let rest := cs.dropWhile Char.isDigit
  let (fraction, rest) := match rest with
    | '.' :: afterPoint => (afterPoint.takeWhile Char.isDigit, afterPoint.dropWhile Char.isDigit)
    | _ => ([], rest)
  guard !(whole.isEmpty && fraction.isEmpty)
  let power ← Decimal.exponent? rest
  return ⟨Decimal.ofDigits (whole ++ fraction), power.getD 0 - fraction.length⟩

def infinity : Float := Float.ofBits 0x7FF0000000000000

def notANumber : Float := Float.ofBits 0x7FF8000000000000

/-- A real: a decimal number, or an infinity or NaN by name, in any case and with an optional sign. -/
def real? (text : String) : Option Float :=
  let (negative, cs) := Decimal.splitSign text.toList
  let signed (x : Float) := if negative then -x else x
  match String.ofList (cs.map Char.toLower) with
  | "inf" | "infinity" => some (signed infinity)
  | "nan" => some (signed notANumber)
  | _ => (unsignedReal? cs).map (Decimal.toSignedFloat negative)

/-- The value of an argument. -/
def argumentValue (text : String) : Value :=
  match word? text with
  | some n => .int n
  | none =>
    match real? text with
    | some x => .real x
    | none => .ofText text

end StackMachine.Cli
