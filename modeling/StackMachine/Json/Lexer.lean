import StackMachine.Json.Basic
import StackMachine.Json.Numeral
import StackMachine.Text.Hex

/-!
Cutting JSON text into tokens, one character at a time.  Words and numerals are collected up to the first
character that cannot belong to them, strings up to their closing quote, and judged when complete.
-/

set_option autoImplicit false

namespace StackMachine.Json

/-! ## Strings -/

/-- The character that an escape with one letter stands for. -/
def shortEscape? : Char → Option Char
  | '"' => some '"'
  | '\\' => some '\\'
  | '/' => some '/'
  | 'b' => some '\x08'
  | 'f' => some '\x0c'
  | 'n' => some '\n'
  | 'r' => some '\r'
  | 't' => some '\t'
  | _ => none

/-- The characters of a string as its escapes spell them, in UTF-16 units where they are numeric. -/
inductive Piece where
  | char (c : Char)
  | code (unit : Nat)

/-- Undoes the escapes between two quotes; `none` where an escape is malformed. -/
def units? : List Char → Option (List Piece)
  | [] => some []
  | '\\' :: 'u' :: a :: b :: c :: d :: rest => do
    let unit ← Text.hexNumber? [a, b, c, d]
    return .code unit :: (← units? rest)
  | '\\' :: c :: rest => do
    let char ← shortEscape? c
    return .char char :: (← units? rest)
  | '\\' :: [] => none
  | c :: rest => do
    return .char c :: (← units? rest)

/-- Joins surrogate pairs; `none` where one half stands alone. -/
def joinUnits? : List Piece → Option (List Char)
  | [] => some []
  | .char c :: rest => (joinUnits? rest).map (c :: ·)
  | .code high :: .code low :: rest =>
    if 0xD800 ≤ high ∧ high < 0xDC00 then
      if 0xDC00 ≤ low ∧ low < 0xE000 then
        (joinUnits? rest).map
          (Char.ofNat (0x10000 + (high - 0xD800) * 0x400 + (low - 0xDC00)) :: ·)
      else none
    else if 0xDC00 ≤ high ∧ high < 0xE000 then none
    else (joinUnits? (.code low :: rest)).map (Char.ofNat high :: ·)
  | .code unit :: rest =>
    if 0xD800 ≤ unit ∧ unit < 0xE000 then none
    else (joinUnits? rest).map (Char.ofNat unit :: ·)

/-- The token for what stands between two quotes. -/
def stringToken? (cs : List Char) : Option Token :=
  (units? cs).map fun units => .string ((joinUnits? units).map String.ofList)

/-! ## Tokens -/

/-- The token for a run of letters. -/
def wordToken? (cs : List Char) : Option Token :=
  match String.ofList cs with
  | "null" => some .null
  | "true" => some (.bool true)
  | "false" => some (.bool false)
  | _ => none

/-- The token for a run of the characters of numerals. -/
def numberToken? (cs : List Char) : Option Token :=
  (Numeral.ofChars? cs).map fun _ => .number (String.ofList cs)

/-- Where the lexer is, with what it has collected, latest first. -/
inductive Lexer where
  | between
  | word (collected : List Char)
  | number (collected : List Char)
  | string (collected : List Char)
  | escape (collected : List Char)

/-- A character between tokens: where it leads, and the token that it is by itself. -/
def Lexer.start? (c : Char) : Option (Lexer × List Token) :=
  match c with
  | ' ' | '\t' | '\n' | '\r' => some (.between, [])
  | '[' => some (.between, [.openArray])
  | ']' => some (.between, [.closeArray])
  | '\x7b' => some (.between, [.openObject])
  | '\x7d' => some (.between, [.closeObject])
  | ',' => some (.between, [.comma])
  | ':' => some (.between, [.colon])
  | '"' => some (.string [], [])
  | '-' => some (.number ['-'], [])
  | _ =>
    if c.isDigit then some (.number [c], [])
    else if c.isLower then some (.word [c], [])
    else none

/-- Whether a numeral may go on with `c`. -/
def continuesNumber (c : Char) : Bool :=
  c.isDigit || c = '.' || c = 'e' || c = 'E' || c = '+' || c = '-'

/-- One character: the tokens that it completes and the new place. -/
def Lexer.step? : Lexer → Char → Option (Lexer × List Token)
  | .between, c => start? c
  | .word collected, c =>
    if c.isAlpha then some (.word (c :: collected), [])
    else do
      let token ← wordToken? collected.reverse
      let (state, tokens) ← start? c
      return (state, token :: tokens)
  | .number collected, c =>
    if continuesNumber c then some (.number (c :: collected), [])
    else do
      let token ← numberToken? collected.reverse
      let (state, tokens) ← start? c
      return (state, token :: tokens)
  | .string collected, c =>
    if c = '"' then (stringToken? collected.reverse).map fun token => (.between, [token])
    else if c = '\\' then some (.escape (c :: collected), [])
    else if c < ' ' then none
    else some (.string (c :: collected), [])
  | .escape collected, c => if c < ' ' then none else some (.string (c :: collected), [])

/-- The end of the text. -/
def Lexer.finish? : Lexer → Option (List Token)
  | .between => some []
  | .word collected => (wordToken? collected.reverse).map ([·])
  | .number collected => (numberToken? collected.reverse).map ([·])
  | .string _ | .escape _ => none

/-- The tokens of `cs` after those seen already, which are held latest first. -/
def Lexer.run? (state : Lexer) (seen : List Token) (cs : List Char) : Option (List Token) :=
  match cs with
  | [] => state.finish?.map fun tokens => seen.reverse ++ tokens
  | c :: rest =>
    match state.step? c with
    | some (next, tokens) => next.run? (tokens.reverse ++ seen) rest
    | none => none

/-- The tokens of a text. -/
def tokens? (text : String) : Option (List Token) :=
  Lexer.between.run? [] text.toList

end StackMachine.Json
