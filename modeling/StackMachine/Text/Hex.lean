/-!
Reading hexadecimal digits.
-/

set_option autoImplicit false

namespace StackMachine.Text

def isHexDigit (c : Char) : Bool :=
  c.isDigit || 'a' ≤ c && c ≤ 'f' || 'A' ≤ c && c ≤ 'F'

/-- The number that hexadecimal digits stand for. -/
def hexValue (digits : List Char) : Nat :=
  digits.foldl (fun n c =>
    n * 16 + if c.isDigit then c.toNat - '0'.toNat else c.toLower.toNat - 'a'.toNat + 10) 0

/-- The number that hexadecimal digits stand for, if they are ones. -/
def hexNumber? (digits : List Char) : Option Nat :=
  if digits.all isHexDigit then some (hexValue digits) else none

/-- The character with a number in hexadecimal. -/
def codePoint? (digits : List Char) : Option Char :=
  (hexNumber? digits).bind fun n => if n.isValidChar then some (Char.ofNat n) else none

end StackMachine.Text
