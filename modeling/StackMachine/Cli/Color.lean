import StackMachine.Text.Layout

/-!
Colours on a terminal.
-/

set_option autoImplicit false

namespace StackMachine.Cli

/-- A text between the sequence that sets a style and the one that resets it. -/
def styled (codes text : String) : String :=
  "\x1b[" ++ codes ++ "m" ++ text ++ "\x1b[0m"

def green (text : String) : String := styled "32" text

def red (text : String) : String := styled "31" text

def yellow (text : String) : String := styled "33" text

def bold (text : String) : String := styled "1" text

def gray (text : String) : String := styled "90" text

/-- A label at the right end of its column. -/
def statusLabel (label : String) : String := styled "1;32" (Text.alignRight 12 label)

end StackMachine.Cli
