/-!
JSON values as trees.  Numbers keep the digits in which they are written, since it depends on the reader
whether `1`, `1.0` and `1e0` are the same; strings keep whether they are text at all, since escapes can
spell half of a surrogate pair.
-/

set_option autoImplicit false

namespace StackMachine

/-- A JSON value.  A string is `none` when an escape leaves a surrogate without its partner. -/
inductive Json where
  | null
  | bool (b : Bool)
  | number (numeral : String)
  | string (text : Option String)
  | array (items : List Json)
  | object (members : List (Option String × Json))
  deriving Inhabited

/-- The pieces of which JSON text consists, spaces apart. -/
inductive Json.Token where
  | openArray | closeArray | openObject | closeObject | comma | colon
  | null
  | bool (b : Bool)
  | number (numeral : String)
  | string (text : Option String)
  deriving DecidableEq

end StackMachine
