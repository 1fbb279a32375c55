import StackMachine.Config.Basic
import StackMachine.Json.Decode
import StackMachine.Json.Writer
import StackMachine.Word

/-!
Configurations as JSON: a record of five fields, each of which may be absent.
-/

set_option autoImplicit false

namespace StackMachine.Config

open StackMachine (Json)

def fieldNames : List String :=
  ["max_stack_depth", "max_call_depth", "max_instructions", "trace", "fatal_type_mismatch"]

/-- A limit: a natural number of 64 bits. -/
def limit? (v : Json) : Option Nat := v.natBelow? Word.cardinality

/-- The configuration that a JSON value describes. -/
def ofJson? (v : Json) : Option Config := do
  match ← v.fields? fieldNames with
  | [stack, call, instructions, trace, fatal] =>
    return {
      maxStackDepth := ← Json.orDefault default.maxStackDepth limit? stack
      maxCallDepth := ← Json.orDefault default.maxCallDepth limit? call
      maxInstructions := ← Json.orDefault default.maxInstructions limit? instructions
      trace := ← Json.orDefault default.trace Json.bool? trace
      fatalTypeMismatch := ← Json.orDefault default.fatalTypeMismatch Json.bool? fatal }
  | _ => none

/-- Reads a configuration from JSON text. -/
def read? (text : String) : Option Config :=
  (Json.read? text).bind ofJson?

/-- The configuration as a JSON object with all its fields. -/
def toJson (c : Config) : Json :=
  .object [
    (some "max_stack_depth", .ofInt c.maxStackDepth),
    (some "max_call_depth", .ofInt c.maxCallDepth),
    (some "max_instructions", .ofInt c.maxInstructions),
    (some "trace", .bool c.trace),
    (some "fatal_type_mismatch", .bool c.fatalTypeMismatch)]

/-- The configuration as JSON text on one line. -/
def write (c : Config) : String := c.toJson.compact

end StackMachine.Config
