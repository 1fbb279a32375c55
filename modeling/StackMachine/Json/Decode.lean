import StackMachine.Json.Reader

/-!
Reading typed data out of a JSON tree.  A record is an object, whose members come in any order and may
stand among unknown ones, or an array of the fields in order.
-/

set_option autoImplicit false

namespace StackMachine.Json

/-! ## Leaves -/

def bool? : Json → Option Bool
  | .bool b => some b
  | _ => none

def text? : Json → Option String
  | .string text => text
  | _ => none

def numeral? : Json → Option Numeral
  | .number numeral => Numeral.ofChars? numeral.toList
  | _ => none

/-- A natural number below `bound`. -/
def natBelow? (bound : Nat) (v : Json) : Option Nat := do
  let n ← (← (← v.numeral?).int?).toNat?
  if n < bound then some n else none

/-- A signed word. -/
def word? (v : Json) : Option Word := do Word.ofInt? (← (← v.numeral?).int?)

def float? (v : Json) : Option Float := do (← v.numeral?).float?

def single? (v : Json) : Option Float32 := do (← v.numeral?).single?

/-- An array whose items are all read by `item?`. -/
def arrayOf? {α : Type} (item? : Json → Option α) : Json → Option (Array α)
  | .array items => (items.mapM item?).map List.toArray
  | _ => none

/-! ## Records -/

/-- The value of the only member called `name`; the outer option is `none` if there are several. -/
def member? (name : String) (members : List (Option String × Json)) : Option (Option Json) :=
  match members.filter fun m => m.1 == some name with
  | [] => some none
  | [m] => some (some m.2)
  | _ => none

/-- The fields of a record in the order of `names`, each perhaps absent.  Refused are a field that is
given twice, a member whose name is no text, and an array with too many items. -/
def fields? (names : List String) : Json → Option (List (Option Json))
  | .object members =>
    if members.all fun m => m.1.isSome then names.mapM fun name => member? name members else none
  | .array items =>
    if items.length ≤ names.length then
      some (items.map some ++ List.replicate (names.length - items.length) none)
    else none
  | _ => none

/-- A field that has a value when it is absent. -/
def orDefault {α : Type} (default : α) (read? : Json → Option α) : Option Json → Option α
  | some v => read? v
  | none => some default

end StackMachine.Json
