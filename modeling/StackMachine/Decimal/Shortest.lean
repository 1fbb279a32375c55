import StackMachine.Decimal.Basic

/-!
The shortest decimal that reads back as a given floating point number.  A number `m * 2 ^ e` stands
for an interval of reals that round to it; the search goes from coarse powers of ten to finer ones and
takes the first whose multiples meet the interval, and of two multiples the nearer.
-/

set_option autoImplicit false

namespace StackMachine.Decimal

open Float.Model (Format)

/-- Which of two equally near decimals is taken. -/
inductive Tie where
  | up
  | even

/-- The reals that round to `mantissa * 2 ^ exponent`, with every bound counted in quarters of the last
place.  The bounds themselves round to the number when its mantissa is even. -/
structure Interval where
  center : Nat
  low : Nat
  high : Nat
  closed : Bool
  exponent : Int

/-- The step below a power of two is half the step above, save at the bottom of the exponents. -/
def Interval.ofBinary (format : Format) (mantissa : Nat) (exponent : Int) : Interval where
  center := 4 * mantissa
  low := if mantissa = Nat.pow 2 format.mantissaBitsWithoutImplicit ∧ exponent ≠ format.minExponent
    then 4 * mantissa - 1 else 4 * mantissa - 2
  high := 4 * mantissa + 2
  closed := mantissa % 2 = 0
  exponent := exponent - 2

/-- The multiple of `10 ^ power` in the interval that is nearest to its centre. -/
def Interval.multiple? (i : Interval) (tie : Tie) (power : Int) : Option Nat :=
  let scale := Nat.pow 2 i.exponent.toNat * Nat.pow 10 (-power).toNat
  let unit := Nat.pow 2 (-i.exponent).toNat * Nat.pow 10 power.toNat
  let below := i.center * scale / unit
  let rest := i.center * scale % unit
  let meets (a b : Nat) : Bool := a < b || i.closed && a = b
  let belowFits := meets (i.low * scale) (below * unit)
  let aboveFits := meets ((below + 1) * unit) (i.high * scale)
  match belowFits, aboveFits with
  | true, true =>
    if 2 * rest < unit then some below
    else if unit < 2 * rest then some (below + 1)
    else match tie with
      | .up => some (below + 1)
      | .even => some (if below % 2 = 0 then below else below + 1)
  | true, false => some below
  | false, true => some (below + 1)
  | false, false => none

/-- The first hit at `power` or one of the `tries` powers below it. -/
def Interval.search (i : Interval) (tie : Tie) : Nat → Int → Option Decimal
  | 0, _ => none
  | tries + 1, power =>
    match i.multiple? tie power with
    | some n => some ⟨n, power⟩
    | none => i.search tie tries (power - 1)

/-- All digits of `mantissa * 2 ^ exponent`. -/
def ofBinary (mantissa : Nat) (exponent : Int) : Decimal :=
  if 0 ≤ exponent then ⟨mantissa * Nat.pow 2 exponent.toNat, 0⟩
  else ⟨mantissa * Nat.pow 5 (-exponent).toNat, exponent⟩

/-- The search starts above the number itself, since `30103 / 100000` is just over `log 2 / log 10`. -/
def shortest (format : Format) (tie : Tie) (mantissa : Nat) (exponent : Int) : Decimal :=
  let i := Interval.ofBinary format mantissa exponent
  let start := Float.Model.totalExponent mantissa exponent * 30103 / 100000 + 2
  (i.search tie (format.mantissaBits / 3 + 8) start).getD (ofBinary mantissa exponent)

end StackMachine.Decimal
