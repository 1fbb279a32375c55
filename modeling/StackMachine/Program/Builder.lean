import StackMachine.Opcode
import StackMachine.Program.Basic

/-!
Assembling programs.  Every emission is checked against the instruction table; the first one with a
wrong number of operands is remembered, and then no program is handed out.
-/

set_option autoImplicit false

namespace StackMachine

/-- An operation that was emitted with a wrong number of operands. -/
structure ArityError where
  op : Opcode
  found : Nat
  address : Nat
  deriving DecidableEq

def ArityError.message (e : ArityError) : String :=
  e.op.name ++ " takes " ++ e.op.arity.repr ++ " operand(s), got " ++ e.found.repr
    ++ " (at address " ++ e.address.repr ++ ")"

/-- A program under construction. -/
structure Builder where
  program : Program
  error : Option ArityError

namespace Builder

def empty : Builder := ⟨.empty, none⟩

/-- The address of the next word. -/
def here (b : Builder) : Word := Int64.ofNat b.program.code.size

/-- Appends an operation with its operand words. -/
def emit (b : Builder) (op : Opcode) (operands : List Word) : Builder where
  program :=
    { b.program with code := (b.program.code.push op.word).append operands.toArray }
  error :=
    if operands.length = op.arity then b.error
    else some (b.error.getD ⟨op, operands.length, b.program.code.size⟩)

/-- Appends operations without operands. -/
def emitAll (b : Builder) (ops : List Opcode) : Builder :=
  ops.foldl (fun b op => b.emit op []) b

/-- Overwrites a word that has been emitted; any other address is ignored. -/
def patch (b : Builder) (address word : Word) : Builder :=
  match Word.index? address with
  | some i => { b with program := { b.program with code := b.program.code.setIfInBounds i word } }
  | none => b

/-! ## Constants -/

def addInt (b : Builder) (n : Int64) : Builder :=
  { b with program := { b.program with ints := b.program.ints.push n } }

def addReal (b : Builder) (x : Float) : Builder :=
  { b with program := { b.program with reals := b.program.reals.push x } }

def addString (b : Builder) (text : String) : Builder :=
  { b with program := { b.program with strings := b.program.strings.push text } }

/-- The index that the next integer constant will get. -/
def nextInt (b : Builder) : Word := Int64.ofNat b.program.ints.size

/-- The index that the next real constant will get. -/
def nextReal (b : Builder) : Word := Int64.ofNat b.program.reals.size

/-- The index that the next string constant will get. -/
def nextString (b : Builder) : Word := Int64.ofNat b.program.strings.size

/-! ## Literals -/

/-- The operations that push a small integer without a constant. -/
def shortInt? (n : Int64) : Option Opcode :=
  if n = 0 then some .iconst0
  else if n = 1 then some .iconst1
  else if n = 2 then some .iconst2
  else if n = 3 then some .iconst3
  else if n = 4 then some .iconst4
  else if n = 5 then some .iconst5
  else none

/-- Pushes an integer, through a constant only if no operation does it alone. -/
def pushInt (b : Builder) (n : Int64) : Builder :=
  match shortInt? n with
  | some op => b.emit op []
  | none => (b.addInt n).emit .iconst [b.nextInt]

def pushReal (b : Builder) (x : Float) : Builder :=
  (b.addReal x).emit .rconst [b.nextReal]

def pushString (b : Builder) (text : String) : Builder :=
  (b.addString text).emit .sconst [b.nextString]

/-! ## Finishing -/

/-- The finished program and an empty builder, or the first error, which is forgotten then while the
words and constants stay. -/
def build (b : Builder) : Except ArityError Program × Builder :=
  match b.error with
  | some e => (.error e, { b with error := none })
  | none => (.ok b.program, empty)

end Builder

end StackMachine
