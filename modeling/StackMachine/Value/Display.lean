import StackMachine.Decimal.Shortest
import StackMachine.Value.Basic

/-!
Values as one line of text.  Reals always show a point, an exponent is never used, and strings are
quoted, so a shown value contains no line break.
-/

set_option autoImplicit false

namespace StackMachine

open Float.Model (Format UnpackedFloat)

/-- Whether `mantissa * 2 ^ exponent` is a whole number below `bound`. -/
def isWholeBelow (bound mantissa : Nat) (exponent : Int) : Bool :=
  if 0 ≤ exponent then mantissa * Nat.pow 2 exponent.toNat < bound
  else
    let unit := Nat.pow 2 (-exponent).toNat
    mantissa % unit = 0 && mantissa < bound * unit

def signText : Float.Model.UnpackedFloat.Sign → String
  | .positive => ""
  | .negative => "-"

/-- The shortest digits that read back, in their places.  Whole numbers below `bound` end in `.0`. -/
def floatText (format : Format) (bound : Nat) : UnpackedFloat → String
  | .notANumber => "NaN"
  | .infinity sign => signText sign ++ "inf"
  | .zero sign => signText sign ++ "0.0"
  | .finite sign mantissa exponent _ =>
    let digits := String.ofList (Decimal.shortest format .up mantissa exponent).positional
    signText sign ++ digits ++ if isWholeBelow bound mantissa exponent then ".0" else ""

/-- A double as text. -/
def realText (x : Float) : String :=
  floatText Format.binary64 1000000000000000 x.toModel.unpack

/-- A number in single precision as text. -/
def singleText (x : Float32) : String :=
  floatText Format.binary32 10000000 x.toModel.unpack

/-- `(re+imi)`, with the sign of the imaginary part between the two. -/
def Complex.display (z : Complex) : String :=
  let sign := if z.im.toBits >>> 63 = 0 then "+" else "-"
  "(" ++ realText z.re ++ sign ++ realText z.im.abs ++ "i)"

/-- A handle as an address. -/
def addressText (handle : UInt64) : String :=
  "*(0x" ++ Text.hex 0 handle.toNat ++ ")"

/-- An octet as the character that it is in ASCII, or by its number. -/
def octetText (b : UInt8) : String :=
  if 0x20 ≤ b && b ≤ 0x7E then "'" ++ String.singleton (Char.ofNat b.toNat) ++ "'"
  else "'\\x" ++ Text.hex 2 b.toNat ++ "'"

namespace Value

def display : Value → String
  | null => "null"
  | int n | long n => Word.decimal n
  | uint n => n.toNat.repr
  | ulong n => n.toNat.repr
  | real x | double x => realText x
  | float x => singleText x
  | byte b => octetText b
  | complex z => z.display
  | string s => s.display
  | ref handle => addressText handle

/-- The address that a handle or an integer stands for, as the instructions that print references
show it. -/
def referenceText? : Value → Option String
  | int n => some (addressText n.toUInt64)
  | ref handle => some (addressText handle)
  | _ => none

end Value

end StackMachine
