/-!
Decimal numbers `significand * 10 ^ exponent`, how they are written in digits, and the binary floating
point numbers nearest to them.
-/

set_option autoImplicit false

namespace StackMachine

/-- The number `significand * 10 ^ exponent`. -/
structure Decimal where
  significand : Nat
  exponent : Int
  deriving DecidableEq

namespace Decimal

/-- The digits of the significand, without leading zeros. -/
def digits (d : Decimal) : List Char :=
  Nat.toDigits 10 d.significand

/-- The power of ten of the first digit. -/
def leadingPower (d : Decimal) : Int :=
  d.exponent + (d.digits.length - 1 : Nat)

/-! ## Writing -/

/-- All digits in their places and no exponent: `1200`, `1.2`, `0.0012`. -/
def positional (d : Decimal) : List Char :=
  let ds := d.digits
  if 0 ≤ d.exponent then ds ++ List.replicate d.exponent.toNat '0'
  else
    let places := (-d.exponent).toNat
    if places < ds.length then
      ds.take (ds.length - places) ++ '.' :: ds.drop (ds.length - places)
    else '0' :: '.' :: (List.replicate (places - ds.length) '0' ++ ds)

/-- One digit before the point, the rest after it, and the power of ten with its sign: `1.2e+16`. -/
def scientific (d : Decimal) : List Char :=
  let mantissa := match d.digits with
    | first :: second :: rest => first :: '.' :: second :: rest
    | short => short
  let sign := if d.leadingPower < 0 then '-' else '+'
  mantissa ++ 'e' :: sign :: Nat.toDigits 10 d.leadingPower.natAbs

/-! ## Rounding to binary -/

/-- The double nearest to the number, a tie going to the even one; too large a number becomes infinite. -/
def toFloat (d : Decimal) : Float :=
  Float.ofModel (Float.Model.ofScientific d.significand d.exponent)

/-- The double nearest to the number with a sign in front, which also tells `-0` from `0`. -/
def toSignedFloat (negative : Bool) (d : Decimal) : Float :=
  if negative then -d.toFloat else d.toFloat

end Decimal

/-- The number in single precision nearest to a double. -/
def roundToSingle (x : Float) : Float32 :=
  Float32.ofModel <| Float32.Model.pack <| match x.toModel.unpack with
    | .finite sign mantissa exponent _ =>
      Float.Model.UnpackedFloat.round Float.Model.Format.binary32 sign mantissa exponent
    | other => other

end StackMachine
