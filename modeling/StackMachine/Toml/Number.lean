import StackMachine.Decimal.Reader
import StackMachine.Toml.Basic
import StackMachine.Toml.Scan
import StackMachine.Word

/-!
The numbers and times of TOML.  Times are recognised but their parts are not kept.
-/

set_option autoImplicit false

namespace StackMachine.Toml

/-- Digits of one kind with single underscores between them. -/
def digits? (isDigit : Char → Bool) : Scan (List Char) := fun cs =>
  match cs with
  | c :: rest => if isDigit c then some (more [c] rest) else none
  | [] => none
where
  /-- The digits behind `done`, which is held latest first. -/
  more (done : List Char) : List Char → List Char × List Char
    | '_' :: c :: rest => if isDigit c then more (c :: done) rest else (done.reverse, '_' :: c :: rest)
    | c :: rest => if isDigit c then more (c :: done) rest else (done.reverse, c :: rest)
    | [] => (done.reverse, [])

/-- A decimal whole part, without leading zeros. -/
def wholePart? : Scan (List Char)
  | '0' :: rest => some (['0'], rest)
  | cs => digits? Char.isDigit cs

/-- The integer, if it has at most 64 bits with its sign. -/
def inRange? (n : Int) : Option Toml :=
  if Word.lowest ≤ n ∧ n ≤ Word.highest then some (.integer n) else none

/-- The digits of an integer in another base, behind its mark. -/
def basedInteger? (base : Nat) (isDigit : Char → Bool) : Scan Toml := fun cs => do
  let (digits, rest) ← digits? isDigit cs
  let n := digits.foldl (fun n c => n * base + Text.hexValue [c]) 0
  return (← inRange? n, rest)

def isBinaryDigit (c : Char) : Bool := c = '0' || c = '1'

def isOctalDigit (c : Char) : Bool := '0' ≤ c && c ≤ '7'

def integer? : Scan Toml
  | '0' :: 'x' :: rest => basedInteger? 16 Text.isHexDigit rest
  | '0' :: 'o' :: rest => basedInteger? 8 isOctalDigit rest
  | '0' :: 'b' :: rest => basedInteger? 2 isBinaryDigit rest
  | cs => do
    let (negative, unsigned) := Decimal.splitSign cs
    let (digits, rest) ← wholePart? unsigned
    let n := Decimal.ofDigits digits
    return (← inRange? (if negative then -(n : Int) else n), rest)

/-- The exponent of a float. -/
def floatExponent? : Scan Int
  | c :: rest => do
    guard (c = 'e' || c = 'E')
    let (negative, unsigned) := Decimal.splitSign rest
    let (digits, rest) ← digits? Char.isDigit unsigned
    let n := Decimal.ofDigits digits
    return (if negative then -(n : Int) else n, rest)
  | [] => none

/-- A float: a fraction, an exponent or both must follow the whole part, and it must not be too large. -/
def decimalFloat? : Scan Toml := fun cs => do
  let (negative, unsigned) := Decimal.splitSign cs
  let (whole, rest) ← wholePart? unsigned
  let (fraction, rest) ← match rest with
    | '.' :: rest => digits? Char.isDigit rest
    | _ => some ([], rest)
  let (power, rest) ← match floatExponent? rest with
    | some (power, rest) => some (power, rest)
    | none => if fraction.isEmpty then none else some (0, rest)
  let d : Decimal := ⟨Decimal.ofDigits (whole ++ fraction), power - fraction.length⟩
  guard (negative || !d.toFloat.isInf)
  return (.float, rest)

def specialFloat? (cs : List Char) : Option (Toml × List Char) :=
  match (Decimal.splitSign cs).2 with
  | 'i' :: 'n' :: 'f' :: rest => some (.float, rest)
  | 'n' :: 'a' :: 'n' :: rest => some (.float, rest)
  | _ => none

/-! ## Times -/

/-- A number of `count` digits between two bounds. -/
def fixedDigits? (count low high : Nat) : Scan Nat := fun cs =>
  let digits := cs.take count
  let n := Decimal.ofDigits digits
  if digits.length = count && digits.all Char.isDigit && low ≤ n && n ≤ high then
    some (n, cs.drop count)
  else none

def expect? (c : Char) : List Char → Option (List Char)
  | d :: rest => if c = d then some rest else none
  | [] => none

def daysIn (year month : Nat) : Nat :=
  if month = 2 then
    if year % 4 = 0 && (year % 100 != 0 || year % 400 = 0) then 29 else 28
  else if month = 4 || month = 6 || month = 9 || month = 11 then 30
  else 31

def date? (cs : List Char) : Option (List Char) := do
  let (year, rest) ← fixedDigits? 4 0 9999 cs
  let (month, rest) ← fixedDigits? 2 1 12 (← expect? '-' rest)
  let (_, rest) ← fixedDigits? 2 1 (daysIn year month) (← expect? '-' rest)
  return rest

def time? (cs : List Char) : Option (List Char) := do
  let (_, rest) ← fixedDigits? 2 0 23 cs
  let (_, rest) ← fixedDigits? 2 0 59 (← expect? ':' rest)
  let (_, rest) ← fixedDigits? 2 0 60 (← expect? ':' rest)
  match rest with
  | '.' :: fraction =>
    let digits := fraction.takeWhile Char.isDigit
    return if digits.isEmpty then rest else fraction.drop digits.length
  | _ => return rest

/-- The offset of a time, which may be missing but not be wrong. -/
def offset? : List Char → Option (List Char)
  | 'Z' :: rest | 'z' :: rest => some rest
  | '+' :: rest | '-' :: rest => do
    let (_, rest) ← fixedDigits? 2 0 23 rest
    let (_, rest) ← fixedDigits? 2 0 59 (← expect? ':' rest)
    return rest
  | cs => some cs

/-- A date with or without a time, or a time alone. -/
def datetime? (cs : List Char) : Option (Toml × List Char) :=
  match date? cs with
  | some afterDate =>
    match afterDate with
    | separator :: rest =>
      if separator = 'T' || separator = 't' || separator = ' ' then
        match time? rest with
        | some afterTime => (offset? afterTime).map fun rest => (.datetime, rest)
        | none => some (.datetime, afterDate)
      else some (.datetime, afterDate)
    | [] => some (.datetime, [])
  | none => (time? cs).map fun rest => (.datetime, rest)

/-- A time or a number. -/
def number? (cs : List Char) : Option (Toml × List Char) :=
  datetime? cs <|> decimalFloat? cs <|> specialFloat? cs <|> integer? cs

end StackMachine.Toml
