import StackMachine.Decimal.Basic

/-!
Parts of written decimal numbers that several formats share: runs of digits, and exponents.
-/

set_option autoImplicit false

namespace StackMachine.Decimal

/-- The number that a run of digits stands for. -/
def ofDigits (digits : List Char) : Nat := Nat.ofDigitChars 10 digits 0

/-- An optional sign, and whether it is a minus. -/
def splitSign : List Char → Bool × List Char
  | '-' :: rest => (true, rest)
  | '+' :: rest => (false, rest)
  | cs => (false, cs)

/-- An integer: an optional sign and at least one digit, up to the end. -/
def signedInt? (cs : List Char) : Option Int :=
  let (negative, digits) := splitSign cs
  if digits.isEmpty || !digits.all Char.isDigit then none
  else some (if negative then -(ofDigits digits : Int) else ofDigits digits)

/-- A natural number: an optional plus and at least one digit, up to the end. -/
def natural? (cs : List Char) : Option Nat :=
  match signedInt? cs with
  | some n => if cs.head? = some '-' then none else n.toNat?
  | none => none

/-- What follows the digits of a number: nothing, or an `e` and an exponent. -/
def exponent? : List Char → Option (Option Int)
  | [] => some none
  | c :: rest => if c = 'e' ∨ c = 'E' then (signedInt? rest).map some else none

end StackMachine.Decimal
