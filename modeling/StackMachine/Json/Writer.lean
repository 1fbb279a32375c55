import StackMachine.Json.Basic
import StackMachine.Decimal.Shortest

/-!
Writing JSON: on one line without spaces, or with a line for every item and two spaces for every level.
Floating point numbers get the shortest digits that read back, in their places if the number is neither
very small nor very large, and with an exponent otherwise.
-/

set_option autoImplicit false

namespace StackMachine.Json

open Float.Model (Format UnpackedFloat)

/-! ## Leaves -/

/-- Two lower-case hexadecimal digits. -/
def hexPair (n : Nat) : String :=
  String.ofList [Nat.digitChar (n / 16), Nat.digitChar (n % 16)]

/-- How a character is written between quotes. -/
def escapedChar (c : Char) : String :=
  if c = '"' then "\\\""
  else if c = '\\' then "\\\\"
  else if c = '\x08' then "\\b"
  else if c = '\x0c' then "\\f"
  else if c = '\n' then "\\n"
  else if c = '\r' then "\\r"
  else if c = '\t' then "\\t"
  else if c < ' ' then "\\u00" ++ hexPair c.toNat
  else String.singleton c

/-- A text as a JSON string. -/
def quotedText (text : String) : String :=
  text.toList.foldl (fun written c => written ++ escapedChar c) "\"" ++ "\""

/-- How numbers of a floating point format are written: with their digits in place if the first digit
stands at a power of ten from `lowest` to `highest`. -/
structure NumeralStyle where
  format : Format
  lowest : Int
  highest : Int

/-- Doubles have their digits in place from `1e-5` up to `1e16`. -/
def NumeralStyle.double : NumeralStyle := ⟨Format.binary64, -5, 15⟩

/-- Singles have their digits in place from `1e-6` up to `1e13`. -/
def NumeralStyle.single : NumeralStyle := ⟨Format.binary32, -6, 12⟩

/-- The numeral for a finite number, `null` for the others. -/
def ofUnpacked (style : NumeralStyle) : UnpackedFloat → Json
  | .notANumber | .infinity _ => .null
  | .zero .positive => .number "0.0"
  | .zero .negative => .number "-0.0"
  | .finite sign mantissa exponent _ =>
    let d := Decimal.shortest style.format .even mantissa exponent
    let digits :=
      if d.leadingPower < style.lowest ∨ style.highest < d.leadingPower then d.scientific
      else if 0 ≤ d.exponent then d.positional ++ ['.', '0']
      else d.positional
    .number <| String.ofList <| match sign with
      | .positive => digits
      | .negative => '-' :: digits

def ofFloat (x : Float) : Json := ofUnpacked .double x.toModel.unpack

def ofSingle (x : Float32) : Json := ofUnpacked .single x.toModel.unpack

def ofInt (n : Int) : Json := .number n.repr

def ofText (text : String) : Json := .string (some text)

/-! ## Values -/

/-- How a value is laid out: what stands before an item at a level of nesting, and between a key and its
value. -/
structure Layout where
  newline : Nat → String
  colon : String

/-- One line without spaces. -/
def Layout.compact : Layout := ⟨fun _ => "", ":"⟩

/-- A line for every item, with two spaces for every level. -/
def Layout.pretty : Layout :=
  ⟨fun level => "\n" ++ String.ofList (List.replicate (2 * level) ' '), ": "⟩

mutual

/-- The pieces of a value in the order in which they are written. -/
def pieces (layout : Layout) (level : Nat) : Json → List String
  | .null => ["null"]
  | .bool b => [if b then "true" else "false"]
  | .number numeral => [numeral]
  | .string text => [quotedText (text.getD "")]
  | .array [] => ["[]"]
  | .array (v :: rest) =>
    "[" :: (itemPieces layout (level + 1) (v :: rest) ++ [layout.newline level, "]"])
  | .object [] => ["\x7b\x7d"]
  | .object (m :: rest) =>
    "\x7b" :: (memberPieces layout (level + 1) (m :: rest) ++ [layout.newline level, "\x7d"])

/-- The items of an array, with commas between them. -/
def itemPieces (layout : Layout) (level : Nat) : List Json → List String
  | [] => []
  | [v] => layout.newline level :: pieces layout level v
  | v :: rest => layout.newline level :: (pieces layout level v ++ "," :: itemPieces layout level rest)

/-- The members of an object, with commas between them. -/
def memberPieces (layout : Layout) (level : Nat) : List (Option String × Json) → List String
  | [] => []
  | [(key, v)] =>
    layout.newline level :: quotedText (key.getD "") :: layout.colon :: pieces layout level v
  | (key, v) :: rest =>
    layout.newline level :: quotedText (key.getD "") :: layout.colon
      :: (pieces layout level v ++ "," :: memberPieces layout level rest)

end

/-- The value on one line. -/
def compact (v : Json) : String := String.join (v.pieces .compact 0)

/-- The value on many lines. -/
def pretty (v : Json) : String := String.join (v.pieces .pretty 0)

end StackMachine.Json
