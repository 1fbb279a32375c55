import StackMachine.ByteString

/-!
The values that a program computes with.  Every value has one of twelve kinds; an operation keeps the
kind of its operand or fails, and no kind is ever promoted to another.
-/

set_option autoImplicit false

namespace StackMachine

/-- The kinds of values. -/
inductive ValueKind where
  | null | int | real | byte | uint | long | ulong | float | double | complex | string | ref
  deriving DecidableEq

namespace ValueKind

def all : List ValueKind :=
  [null, int, real, byte, uint, long, ulong, float, double, complex, string, ref]

def name : ValueKind → String
  | null => "Null"
  | int => "Int"
  | real => "Real"
  | byte => "Byte"
  | uint => "UInt"
  | long => "Long"
  | ulong => "ULong"
  | float => "Float"
  | double => "Double"
  | complex => "Complex"
  | string => "String"
  | ref => "Ref"

/-- Unsigned kinds stop at zero when decremented and cannot be negated. -/
def isUnsigned : ValueKind → Bool
  | byte | uint | ulong => true
  | _ => false

end ValueKind

/-- A complex number in double precision. -/
structure Complex where
  re : Float
  im : Float

/-- A value with its kind. -/
inductive Value where
  | null
  | int (n : Int64)
  | real (x : Float)
  | byte (n : UInt8)
  | uint (n : UInt32)
  | long (n : Int64)
  | ulong (n : UInt64)
  | float (x : Float32)
  | double (x : Float)
  | complex (z : Complex)
  | string (s : ByteString)
  | ref (handle : UInt64)

/-- Why an operation refuses a value. -/
inductive ValueError where
  | unsupported (operation : String) (found : ValueKind)
  | typeMismatch (operation : String) (expected found : ValueKind)
  | indexOutOfRange (index : Word) (length : Nat)
  | sliceOutOfRange (start stop : Word) (length : Nat)

def ValueError.message : ValueError → String
  | unsupported operation found => "cannot " ++ operation ++ " a value of kind " ++ found.name
  | typeMismatch operation expected found =>
    "cannot " ++ operation ++ ": expected " ++ expected.name ++ ", got " ++ found.name
  | indexOutOfRange index length =>
    "index " ++ Word.decimal index ++ " out of range for string of length " ++ length.repr
  | sliceOutOfRange start stop length =>
    "slice " ++ Word.decimal start ++ ".." ++ Word.decimal stop
      ++ " out of range for string of length " ++ length.repr

namespace Value

def kind : Value → ValueKind
  | null => .null
  | int _ => .int
  | real _ => .real
  | byte _ => .byte
  | uint _ => .uint
  | long _ => .long
  | ulong _ => .ulong
  | float _ => .float
  | double _ => .double
  | complex _ => .complex
  | string _ => .string
  | ref _ => .ref

/-- Truth values are the integers 1 and 0. -/
def ofBool (b : Bool) : Value := int (if b then 1 else 0)

/-- The string value of a text. -/
def ofText (text : String) : Value := string (ByteString.ofString text)

def isNull : Value → Bool
  | null => true
  | _ => false

/-- Whether an integer is nonzero; values of the other kinds have no truth. -/
def truth? : Value → Option Bool
  | int n | long n => some (n != 0)
  | byte n => some (n != 0)
  | uint n => some (n != 0)
  | ulong n => some (n != 0)
  | _ => none

def int? : Value → Option Int64
  | int n => some n
  | _ => none

def real? : Value → Option Float
  | real x => some x
  | _ => none

def string? : Value → Option ByteString
  | string s => some s
  | _ => none

/-- Equality of kind and content; floating point parts compare as numbers, so a NaN differs from
itself and the two zeros are equal. -/
def equals : Value → Value → Bool
  | null, null => true
  | int a, int b => a == b
  | real a, real b => a == b
  | byte a, byte b => a == b
  | uint a, uint b => a == b
  | long a, long b => a == b
  | ulong a, ulong b => a == b
  | float a, float b => a == b
  | double a, double b => a == b
  | complex a, complex b => a.re == b.re && a.im == b.im
  | string a, string b => a == b
  | ref a, ref b => a == b
  | _, _ => false

/-! ## Expecting a kind -/

/-- The integer in `v`, for an operation that takes no other kind. -/
def expectInt (v : Value) (operation : String) : Except ValueError Int64 :=
  match v with
  | int n => .ok n
  | other => .error (.typeMismatch operation .int other.kind)

/-- The real in `v`, for an operation that takes no other kind. -/
def expectReal (v : Value) (operation : String) : Except ValueError Float :=
  match v with
  | real x => .ok x
  | other => .error (.typeMismatch operation .real other.kind)

/-- The string in `v`, for an operation that takes no other kind. -/
def expectString (v : Value) (operation : String) : Except ValueError ByteString :=
  match v with
  | string s => .ok s
  | other => .error (.typeMismatch operation .string other.kind)

/-! ## Arithmetic that keeps the kind -/

/-- One more; integers wrap around at their largest. -/
def increment : Value → Except ValueError Value
  | int n => .ok (int (n + 1))
  | long n => .ok (long (n + 1))
  | byte n => .ok (byte (n + 1))
  | uint n => .ok (uint (n + 1))
  | ulong n => .ok (ulong (n + 1))
  | real x => .ok (real (x + 1.0))
  | float x => .ok (float (x + 1.0))
  | double x => .ok (double (x + 1.0))
  | complex z => .ok (complex ⟨z.re + 1.0, z.im⟩)
  | other => .error (.unsupported "increment" other.kind)

/-- One less; signed integers wrap around at their smallest, unsigned ones stop at zero. -/
def decrement : Value → Except ValueError Value
  | int n => .ok (int (n - 1))
  | long n => .ok (long (n - 1))
  | byte n => .ok (byte (if n = 0 then 0 else n - 1))
  | uint n => .ok (uint (if n = 0 then 0 else n - 1))
  | ulong n => .ok (ulong (if n = 0 then 0 else n - 1))
  | real x => .ok (real (x - 1.0))
  | float x => .ok (float (x - 1.0))
  | double x => .ok (double (x - 1.0))
  | complex z => .ok (complex ⟨z.re - 1.0, z.im⟩)
  | other => .error (.unsupported "decrement" other.kind)

/-- The negative of a signed number; the smallest integer is its own negative. -/
def negate : Value → Except ValueError Value
  | int n => .ok (int (-n))
  | long n => .ok (long (-n))
  | real x => .ok (real (-x))
  | float x => .ok (float (-x))
  | double x => .ok (double (-x))
  | complex z => .ok (complex ⟨-z.re, -z.im⟩)
  | other => .error (.unsupported "negate" other.kind)

end Value

namespace ByteString

/-- The octet at `index`, which must lie in the string. -/
def octetAt (s : ByteString) (index : Word) : Except ValueError UInt8 :=
  match s.octet? index with
  | some b => .ok b
  | none => .error (.indexOutOfRange index s.length)

/-- The octets from `start` up to `stop`, which must lie in the string. -/
def slice (s : ByteString) (start stop : Word) : Except ValueError ByteString :=
  match s.slice? start stop with
  | some t => .ok t
  | none => .error (.sliceOutOfRange start stop s.length)

end ByteString

end StackMachine
