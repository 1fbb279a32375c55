/-!
Fixed-width text: columns counted in characters, and numbers in hexadecimal.
-/

set_option autoImplicit false

namespace StackMachine.Text

/-- `text` at the right end of a column of `width` characters; longer text is kept whole. -/
def alignRight (width : Nat) (text : String) : String :=
  String.ofList (List.replicate (width - text.length) ' ') ++ text

/-- `text` at the left end of a column of `width` characters; longer text is kept whole. -/
def alignLeft (width : Nat) (text : String) : String :=
  text ++ String.ofList (List.replicate (width - text.length) ' ')

/-- Lower-case hexadecimal digits without leading zeros. -/
def hexLower (n : Nat) : String :=
  String.ofList (Nat.toDigits 16 n)

/-- Upper-case hexadecimal digits, filled with zeros to `width`. -/
def hex (width n : Nat) : String :=
  let digits := (Nat.toDigits 16 n).map Char.toUpper
  String.ofList (List.replicate (width - digits.length) '0' ++ digits)

end StackMachine.Text
