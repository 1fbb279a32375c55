import StackMachine.Json.Decode
import StackMachine.Json.Writer
import StackMachine.Value.Basic

/-!
Values as JSON: an object with one member, named for the kind, that holds the content.  The null value
is its name alone.
-/

set_option autoImplicit false

namespace StackMachine

/-- A complex number as a record of its two parts, both required. -/
def Complex.ofJson? (v : Json) : Option Complex := do
  match ← v.fields? ["re", "im"] with
  | [some re, some im] => return ⟨← re.float?, ← im.float?⟩
  | _ => none

namespace ByteString

/-- A string as the array of its octets. -/
def ofJson? (v : Json) : Option ByteString :=
  (v.arrayOf? fun b => (b.natBelow? 256).map UInt8.ofNat).map ByteString.mk

def toJson (s : ByteString) : Json :=
  .array (s.octets.toList.map fun b => Json.ofInt b.toNat)

end ByteString

namespace Value

/-- The value with the content `v` under the name of a kind. -/
def ofMember? (name : String) (v : Json) : Option Value :=
  match name with
  | "Null" => match v with
    | .null => some null
    | _ => none
  | "Int" => v.word?.map int
  | "Real" => v.float?.map real
  | "Byte" => (v.natBelow? 256).map fun n => byte (UInt8.ofNat n)
  | "UInt" => (v.natBelow? 0x100000000).map fun n => uint (UInt32.ofNat n)
  | "Long" => v.word?.map long
  | "ULong" => (v.natBelow? Word.cardinality).map fun n => ulong (UInt64.ofNat n)
  | "Float" => v.single?.map float
  | "Double" => v.float?.map double
  | "Complex" => (Complex.ofJson? v).map complex
  | "String" => (ByteString.ofJson? v).map string
  | "Ref" => (v.natBelow? Word.cardinality).map fun n => ref (UInt64.ofNat n)
  | _ => none

/-- The value that a JSON value describes. -/
def ofJson? : Json → Option Value
  | .string (some "Null") => some null
  | .object [(some name, v)] => ofMember? name v
  | _ => none

/-- Reads a value from JSON text. -/
def read? (text : String) : Option Value :=
  (Json.read? text).bind ofJson?

/-- The content of a value. -/
def content : Value → Json
  | null => .null
  | int n | long n => .ofInt n.toInt
  | real x | double x => .ofFloat x
  | byte n => .ofInt n.toNat
  | uint n => .ofInt n.toNat
  | ulong n | ref n => .ofInt n.toNat
  | float x => .ofSingle x
  | complex z => .object [(some "re", .ofFloat z.re), (some "im", .ofFloat z.im)]
  | string s => s.toJson

def toJson : Value → Json
  | null => .ofText ValueKind.null.name
  | v => .object [(some v.kind.name, v.content)]

/-- The value as JSON text on one line. -/
def write (v : Value) : String := v.toJson.compact

end Value

end StackMachine
