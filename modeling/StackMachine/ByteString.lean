import StackMachine.Text.Quoted
import StackMachine.Text.Utf8
import StackMachine.Word

/-!
Strings of octets.  They need not be UTF-8: only showing them asks for characters, and then what does
not decode is replaced.
-/

set_option autoImplicit false

namespace StackMachine

/-- A sequence of octets. -/
structure ByteString where
  octets : Array UInt8
  deriving DecidableEq

namespace ByteString

def empty : ByteString := ⟨#[]⟩

/-- The octets of a text in UTF-8. -/
def ofString (text : String) : ByteString := ⟨text.toUTF8.data⟩

def length (s : ByteString) : Nat := s.octets.size

def isEmpty (s : ByteString) : Bool := s.octets.isEmpty

/-- `s` followed by `t`. -/
def append (s t : ByteString) : ByteString := ⟨s.octets ++ t.octets⟩

instance : Append ByteString := ⟨append⟩

/-- The first `n` octets, or all if there are fewer. -/
def take (s : ByteString) (n : Nat) : ByteString := ⟨s.octets.take n⟩

/-- The octet at a signed index. -/
def octet? (s : ByteString) (index : Word) : Option UInt8 :=
  match Word.index? index with
  | some i => s.octets[i]?
  | none => none

/-- The octets from `start` up to `stop`; both must lie in the string, in this order. -/
def slice? (s : ByteString) (start stop : Word) : Option ByteString :=
  match Word.index? start, Word.index? stop with
  | some i, some j => if i ≤ j ∧ j ≤ s.length then some ⟨s.octets.extract i j⟩ else none
  | _, _ => none

/-- The text that the octets spell in UTF-8, with U+FFFD for those that spell none. -/
def toText (s : ByteString) : String :=
  Text.Utf8.decodeLossy s.octets.toList

/-- The text in double quotes. -/
def display (s : ByteString) : String :=
  Text.quoted s.toText

end ByteString

end StackMachine
