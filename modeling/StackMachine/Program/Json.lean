import StackMachine.Json.Decode
import StackMachine.Json.Writer
import StackMachine.Program.Basic

/-!
Programs as JSON: a record of the code and the three pools, of which the pools may be absent.
-/

set_option autoImplicit false

namespace StackMachine.Program

open StackMachine (Json)

def fieldNames : List String := ["code", "ints", "reals", "strings"]

/-- A pool as an array of its constants. -/
def pool? {α : Type} (item? : Json → Option α) (v : Json) : Option (Pool α) :=
  (v.arrayOf? item?).map Pool.mk

/-- The program that a JSON value describes. -/
def ofJson? (v : Json) : Option Program := do
  match ← v.fields? fieldNames with
  | [some code, ints, reals, strings] =>
    return {
      code := ← code.arrayOf? Json.word?
      ints := ← Json.orDefault .empty (pool? Json.word?) ints
      reals := ← Json.orDefault .empty (pool? Json.float?) reals
      strings := ← Json.orDefault .empty (pool? Json.text?) strings }
  | _ => none

/-- Reads a program from JSON text. -/
def read? (text : String) : Option Program :=
  (Json.read? text).bind ofJson?

/-- The program as a JSON object with all its fields. -/
def toJson (p : Program) : Json :=
  .object [
    (some "code", .array (p.code.toList.map fun w => Json.ofInt w.toInt)),
    (some "ints", .array (p.ints.items.toList.map fun n => Json.ofInt n.toInt)),
    (some "reals", .array (p.reals.items.toList.map Json.ofFloat)),
    (some "strings", .array (p.strings.items.toList.map Json.ofText))]

/-- The program as indented JSON text. -/
def write (p : Program) : String := p.toJson.pretty

end StackMachine.Program
