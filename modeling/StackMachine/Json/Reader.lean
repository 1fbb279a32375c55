import StackMachine.Json.Lexer

/-!
Building the tree from the tokens.  The containers that are still open lie on a stack, so nesting of any
depth is read by one loop over the tokens.
-/

set_option autoImplicit false

namespace StackMachine.Json

/-- A container that is still open: what it holds so far, latest first. -/
inductive Container where
  | array (done : List Json)
  | object (done : List (Option String × Json)) (key : Option String)

/-- What may come next. -/
inductive Expects where
  | value
  | valueOrClose
  | key
  | keyOrClose
  | colon
  | commaOrClose
  | nothing

/-- The reader between two tokens. -/
structure Reader where
  stack : List Container
  expects : Expects
  result : Json

namespace Reader

def initial : Reader := ⟨[], .value, .null⟩

/-- Puts a complete value where it belongs. -/
def accept (stack : List Container) (v : Json) : Reader :=
  match stack with
  | [] => ⟨[], .nothing, v⟩
  | .array done :: outer => ⟨.array (v :: done) :: outer, .commaOrClose, .null⟩
  | .object done key :: outer => ⟨.object ((key, v) :: done) key :: outer, .commaOrClose, .null⟩

/-- A token where a value may start. -/
def start? (stack : List Container) : Token → Option Reader
  | .openArray => some ⟨.array [] :: stack, .valueOrClose, .null⟩
  | .openObject => some ⟨.object [] none :: stack, .keyOrClose, .null⟩
  | .null => some (accept stack .null)
  | .bool b => some (accept stack (.bool b))
  | .number numeral => some (accept stack (.number numeral))
  | .string text => some (accept stack (.string text))
  | _ => none

/-- A closing bracket, which must fit the innermost container. -/
def close? (stack : List Container) (token : Token) : Option Reader :=
  match token, stack with
  | .closeArray, .array done :: outer => some (accept outer (.array done.reverse))
  | .closeObject, .object done _ :: outer => some (accept outer (.object done.reverse))
  | _, _ => none

/-- A key of the innermost container, which must be an object. -/
def key? (stack : List Container) (token : Token) : Option Reader :=
  match token, stack with
  | .string text, .object done _ :: outer => some ⟨.object done text :: outer, .colon, .null⟩
  | _, _ => none

def step? (r : Reader) (token : Token) : Option Reader :=
  match r.expects with
  | .value => start? r.stack token
  | .valueOrClose => if token = .closeArray then close? r.stack token else start? r.stack token
  | .key => key? r.stack token
  | .keyOrClose => if token = .closeObject then close? r.stack token else key? r.stack token
  | .colon => if token = .colon then some { r with expects := .value } else none
  | .commaOrClose =>
    if token = .comma then
      match r.stack with
      | .array _ :: _ => some { r with expects := .value }
      | .object _ _ :: _ => some { r with expects := .key }
      | [] => none
    else close? r.stack token
  | .nothing => none

/-- Reads all tokens; the value must be complete at the end. -/
def run? (r : Reader) (tokens : List Token) : Option Json :=
  match tokens with
  | [] =>
    match r.expects with
    | .nothing => some r.result
    | _ => none
  | token :: rest =>
    match r.step? token with
    | some next => next.run? rest
    | none => none

end Reader

/-- The value that the tokens spell. -/
def ofTokens? (tokens : List Token) : Option Json :=
  Reader.initial.run? tokens

/-- Reads a text as one JSON value. -/
def read? (text : String) : Option Json :=
  (tokens? text).bind ofTokens?

end StackMachine.Json
