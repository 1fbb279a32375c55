import StackMachine.Text.Hex

/-!
The smallest parts of TOML text: blanks, line ends, comments, strings and keys.  A scanner takes what it
is looking for from the front of the text, or fails.
-/

set_option autoImplicit false

namespace StackMachine.Toml

open Text (codePoint?)

/-- A scanner for `α`. -/
abbrev Scan (α : Type) := List Char → Option (α × List Char)

def isBlank (c : Char) : Bool := c = ' ' || c = '\t'

def skipBlanks (cs : List Char) : List Char := cs.dropWhile isBlank

/-- Characters that a line may hold: tabs, and all but controls. -/
def isLineChar (c : Char) : Bool := c = '\t' || ' ' ≤ c && c != '\x7f'

/-- A comment, if there is one, up to the end of its line. -/
def skipComment : List Char → List Char
  | '#' :: rest => rest.dropWhile isLineChar
  | cs => cs

/-- The end of a line. -/
def lineEnd? : List Char → Option (List Char)
  | '\n' :: rest => some rest
  | '\r' :: '\n' :: rest => some rest
  | _ => none

/-- What may stand behind a statement: blanks, a comment, and the end of the line or of the text. -/
def statementEnd? (cs : List Char) : Option (List Char) :=
  match skipComment (skipBlanks cs) with
  | [] => some []
  | rest => lineEnd? rest

/-- Skips blanks, line ends and comments; `inComment` says whether a comment has begun. -/
def skipLines (inComment : Bool) : List Char → List Char
  | [] => []
  | '\n' :: rest => skipLines false rest
  | '\r' :: '\n' :: rest => skipLines false rest
  | c :: rest =>
    if inComment then if isLineChar c then skipLines true rest else c :: rest
    else if isBlank c then skipLines false rest
    else if c = '#' then skipLines true rest
    else c :: rest

/-! ## Strings -/

/-- The character that an escape with one letter stands for. -/
def shortEscape? : Char → Option Char
  | 'b' => some '\x08'
  | 't' => some '\t'
  | 'n' => some '\n'
  | 'f' => some '\x0c'
  | 'r' => some '\r'
  | '"' => some '"'
  | '\\' => some '\\'
  | _ => none

/-- The rest of a string in double quotes on one line; `done` is what came before, latest first. -/
def basicRest? (done : List Char) : Scan String
  | '"' :: rest => some (String.ofList done.reverse, rest)
  | '\\' :: 'u' :: a :: b :: c :: d :: rest => do
    basicRest? ((← codePoint? [a, b, c, d]) :: done) rest
  | '\\' :: 'U' :: a :: b :: c :: d :: e :: f :: g :: h :: rest => do
    basicRest? ((← codePoint? [a, b, c, d, e, f, g, h]) :: done) rest
  | '\\' :: c :: rest => do basicRest? ((← shortEscape? c) :: done) rest
  | '\\' :: [] => none
  | c :: rest => if isLineChar c then basicRest? (c :: done) rest else none
  | [] => none

/-- The rest of a string in single quotes on one line. -/
def literalRest? : Scan String := fun cs =>
  let body := cs.takeWhile fun c => isLineChar c && c != '\''
  match cs.drop body.length with
  | '\'' :: rest => some (String.ofList body, rest)
  | _ => none

/-- Where the reader of a string between triple quotes is. -/
inductive Multiline where
  /-- In the text, behind so many quotes. -/
  | text (quotes : Nat)
  /-- Behind a backslash. -/
  | escape
  /-- Behind a backslash and some blanks, up to the end of the line. -/
  | joining
  /-- Behind the end of a line that is joined to what follows. -/
  | joined

/-- The rest of a string between triple quotes, of which `escapes` says whether they are double ones.  Up
to two quotes more belong to the string. -/
def multilineRest? (escapes : Bool) (state : Multiline) (cs : List Char) : Option (List Char) :=
  let quote := if escapes then '"' else '\''
  match state, cs with
  | .text quotes, [] => if 3 ≤ quotes then some [] else none
  | _, [] => none
  | .escape, 'u' :: a :: b :: c :: d :: rest => do
    let _ ← codePoint? [a, b, c, d]
    multilineRest? escapes (.text 0) rest
  | .escape, 'U' :: a :: b :: c :: d :: e :: f :: g :: h :: rest => do
    let _ ← codePoint? [a, b, c, d, e, f, g, h]
    multilineRest? escapes (.text 0) rest
  | .text quotes, '\r' :: '\n' :: rest =>
    if 3 ≤ quotes then some cs else multilineRest? escapes (.text 0) rest
  | .joined, '\r' :: '\n' :: rest | .joining, '\r' :: '\n' :: rest
  | .escape, '\r' :: '\n' :: rest => multilineRest? escapes .joined rest
  | .escape, c :: rest =>
    if c = '\n' then multilineRest? escapes .joined rest
    else if isBlank c then multilineRest? escapes .joining rest
    else if (shortEscape? c).isSome then multilineRest? escapes (.text 0) rest
    else none
  | .joining, c :: rest =>
    if c = '\n' then multilineRest? escapes .joined rest
    else if isBlank c then multilineRest? escapes .joining rest
    else none
  | .text quotes, c :: rest =>
    if c = quote then
      if quotes = 4 then some rest else multilineRest? escapes (.text (quotes + 1)) rest
    else if 3 ≤ quotes then some cs
    else if escapes && c = '\\' then multilineRest? escapes .escape rest
    else if c = '\n' || isLineChar c then multilineRest? escapes (.text 0) rest
    else none
  | .joined, c :: rest =>
    if c = '\n' || isBlank c then multilineRest? escapes .joined rest
    else if c = quote then multilineRest? escapes (.text 1) rest
    else if escapes && c = '\\' then multilineRest? escapes .escape rest
    else if isLineChar c then multilineRest? escapes (.text 0) rest
    else none

/-- A string as a value; its text does not matter. -/
def string? (cs : List Char) : Option (List Char) :=
  match cs with
  | '"' :: '"' :: '"' :: rest => multilineRest? true (.text 0) rest
  | '"' :: rest => (basicRest? [] rest).map (·.2)
  | '\'' :: '\'' :: '\'' :: rest => multilineRest? false (.text 0) rest
  | '\'' :: rest => (literalRest? rest).map (·.2)
  | _ => none

/-! ## Keys -/

def isBareKeyChar (c : Char) : Bool :=
  c.isAlphanum || c = '_' || c = '-'

/-- One part of a key. -/
def simpleKey? : Scan String
  | '"' :: rest => basicRest? [] rest
  | '\'' :: rest => literalRest? rest
  | cs =>
    let name := cs.takeWhile isBareKeyChar
    if name.isEmpty then none else some (String.ofList name, cs.drop name.length)

/-- The most parts that a key may have. -/
def keyLimit : Nat := 79

/-- Parts joined by points, with blanks around each. -/
def dottedKey? (fuel : Nat) : Scan (List String) := fun cs =>
  match fuel with
  | 0 => none
  | fuel + 1 => do
    let (name, rest) ← simpleKey? (skipBlanks cs)
    match skipBlanks rest with
    | '.' :: rest =>
      let (names, rest) ← dottedKey? fuel rest
      return (name :: names, rest)
    | rest => return ([name], rest)

def key? : Scan (List String) := dottedKey? keyLimit

end StackMachine.Toml
