import StackMachine.Config.Basic
import StackMachine.Toml.Document

/-!
The settings file: a TOML document whose table `vm` may set each limit and policy of the machine.
-/

set_option autoImplicit false

namespace StackMachine.Cli

/-- What a settings file sets. -/
structure Settings where
  maxStackDepth : Option Nat
  maxCallDepth : Option Nat
  maxInstructions : Option Nat
  trace : Option Bool
  fatalTypeMismatch : Option Bool
  deriving DecidableEq

namespace Settings

/-- Nothing is set. -/
def empty : Settings := ⟨none, none, none, none, none⟩

/-- The instruction budget where neither the file nor the command line sets one. -/
def defaultBudget : Nat := 10000000

/-- The configuration of the machine: what is set, and defaults for the rest. -/
def resolve (s : Settings) : Config where
  maxStackDepth := s.maxStackDepth.getD Config.default.maxStackDepth
  maxCallDepth := s.maxCallDepth.getD Config.default.maxCallDepth
  maxInstructions := s.maxInstructions.getD defaultBudget
  trace := s.trace.getD Config.default.trace
  fatalTypeMismatch := s.fatalTypeMismatch.getD Config.default.fatalTypeMismatch

/-! ## Reading -/

/-- A limit, if it is given; it must not be negative. -/
def limit? : Option Toml → Option (Option Nat)
  | none => some none
  | some (.integer n) => n.toNat?.map some
  | some _ => none

/-- A switch, if it is given. -/
def switch? : Option Toml → Option (Option Bool)
  | none => some none
  | some (.boolean b) => some (some b)
  | some _ => none

/-- Settings from their values in order. -/
def ofFields? (stack call instructions trace fatal : Option Toml) : Option Settings :=
  return {
    maxStackDepth := ← limit? stack
    maxCallDepth := ← limit? call
    maxInstructions := ← limit? instructions
    trace := ← switch? trace
    fatalTypeMismatch := ← switch? fatal }

/-- Settings by their names; others are ignored. -/
def ofEntries? (entries : Toml.Entries) : Option Settings :=
  let field := Toml.find? entries
  ofFields? (field "max_stack_depth") (field "max_call_depth") (field "max_instructions")
    (field "trace") (field "fatal_type_mismatch")

/-- The settings under `vm`: a table, or an array of the values in order. -/
def ofToml? : Toml → Option Settings
  | .table _ entries | .inline entries => ofEntries? entries
  | .array items => ofFields? items[0]? items[1]? items[2]? items[3]? items[4]?
  | .datetime => some empty
  | _ => none

/-- Reads a settings file. -/
def read? (text : String) : Option Settings := do
  match Toml.find? (← Toml.read? text) "vm" with
  | some v => ofToml? v
  | none => return empty

/-- The settings file that is made for a start. -/
def template : String :=
  "# BPL VM configuration\n\n[vm]\n# 0 disables a limit\n# max_stack_depth = 0\n"
    ++ "# max_call_depth = 0\n# max_instructions = 10000000\n# trace = false\n"
    ++ "# fatal_type_mismatch = false\n"

end Settings

end StackMachine.Cli
