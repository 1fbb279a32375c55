import StackMachine.Text.GraphemeExtend
import StackMachine.Text.Layout
import StackMachine.Text.Printable

/-!
Text between double quotes.  Every character that would end the quotation, break the line or not be
seen is written as an escape, so the quoted form is one line that shows the text exactly.
-/

set_option autoImplicit false

namespace StackMachine.Text

/-- The escape for a character by its code point. -/
def codePointEscape (c : Char) : String :=
  "\\u\x7b" ++ hexLower c.toNat ++ "\x7d"

/-- The halfwidth sound marks, which extend the cluster before them but have a cell of their own. -/
def isSoundMark (c : Char) : Bool := c = '\uff9e' || c = '\uff9f'

/-- Whether the character is seen when it stands for itself. -/
def isVisible (c : Char) : Bool := isPrintable c && (!isGraphemeExtend c || isSoundMark c)

/-- How one character is written between the quotes. -/
def quotedChar (c : Char) : String :=
  if c = '\x00' then "\\0"
  else if c = '\t' then "\\t"
  else if c = '\r' then "\\r"
  else if c = '\n' then "\\n"
  else if c = '"' then "\\\""
  else if c = '\\' then "\\\\"
  else if ' ' < c && c < '\x7f' then String.singleton c
  else if isVisible c then String.singleton c
  else codePointEscape c

/-- The text in double quotes. -/
def quoted (text : String) : String :=
  text.toList.foldl (fun written c => written ++ quotedChar c) "\"" ++ "\""

end StackMachine.Text
