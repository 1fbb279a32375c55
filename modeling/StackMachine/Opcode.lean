import StackMachine.Word

/-!
The instruction table: the number, the name and the operand count of every operation.  Numbers and
names are the format of programs; a word that is not the number of an operation is no instruction.
-/

set_option autoImplicit false

namespace StackMachine

/-- The operations, in the order of their numbers. -/
inductive Opcode where
  | nop | halt | nullRef
  | lnFeed | printVal | printRef | printUni | printlnVal | printlnRef | printlnUni
  | iconst0 | iconst1 | iconst2 | iconst3 | iconst4 | iconst5 | iconst
  | rconst0 | rconst1 | rconst2 | rconst3 | rconst4 | rconst5 | rconst | rconstE | rconstPi
  | rconstPhi
  | sconst
  | drop | dup | dup2 | swap | swap2
  | iadd | isub | imul | imod | ishl | ishr | iand | ior | ixor | inot | icompl1 | icompl2 | ieq
  | ineq
  | radd | rsub | rmul | div | rshl | rshr
  | i2r | r2i
  | inc | dec | neg
  | cmp | eq | neq | lt | leq | gt | geq
  | scat | slen | sbyte | sslice
  | br | br0 | brN0 | brLt | brGt | brLeq | brGeq | brEq | brNeq | brNul | brNnul
  | if0 | ifN0 | ifLt | ifGt | ifLeq | ifGeq | ifEq | ifNeq | ifNul | ifNnul
  | alloc | arg | lget | lset | call | clear | ret
  deriving DecidableEq, Inhabited

namespace Opcode

def all : List Opcode := [
  .nop, .halt, .nullRef,
  .lnFeed, .printVal, .printRef, .printUni, .printlnVal, .printlnRef, .printlnUni,
  .iconst0, .iconst1, .iconst2, .iconst3, .iconst4, .iconst5, .iconst,
  .rconst0, .rconst1, .rconst2, .rconst3, .rconst4, .rconst5, .rconst, .rconstE, .rconstPi,
  .rconstPhi,
  .sconst,
  .drop, .dup, .dup2, .swap, .swap2,
  .iadd, .isub, .imul, .imod, .ishl, .ishr, .iand, .ior, .ixor, .inot, .icompl1, .icompl2, .ieq,
  .ineq,
  .radd, .rsub, .rmul, .div, .rshl, .rshr,
  .i2r, .r2i,
  .inc, .dec, .neg,
  .cmp, .eq, .neq, .lt, .leq, .gt, .geq,
  .scat, .slen, .sbyte, .sslice,
  .br, .br0, .brN0, .brLt, .brGt, .brLeq, .brGeq, .brEq, .brNeq, .brNul, .brNnul,
  .if0, .ifN0, .ifLt, .ifGt, .ifLeq, .ifGeq, .ifEq, .ifNeq, .ifNul, .ifNnul,
  .alloc, .arg, .lget, .lset, .call, .clear, .ret]

/-- The number that stands for the operation in a program. -/
def number : Opcode → Nat
  | nop => 0x00
  | halt => 0x01
  | nullRef => 0x02
  | lnFeed => 0x08
  | printVal => 0x09
  | printRef => 0x0A
  | printUni => 0x0B
  | printlnVal => 0x0C
  | printlnRef => 0x0D
  | printlnUni => 0x0E
  | iconst0 => 0x10
  | iconst1 => 0x11
  | iconst2 => 0x12
  | iconst3 => 0x13
  | iconst4 => 0x14
  | iconst5 => 0x15
  | iconst => 0x16
  | rconst0 => 0x18
  | rconst1 => 0x19
  | rconst2 => 0x1A
  | rconst3 => 0x1B
  | rconst4 => 0x1C
  | rconst5 => 0x1D
  | rconst => 0x1E
  | rconstE => 0x20
  | rconstPi => 0x21
  | rconstPhi => 0x22
  | sconst => 0x24
  | drop => 0x28
  | dup => 0x29
  | dup2 => 0x2A
  | swap => 0x2B
  | swap2 => 0x2C
  | iadd => 0x30
  | isub => 0x31
  | imul => 0x32
  | imod => 0x33
  | ishl => 0x34
  | ishr => 0x35
  | iand => 0x36
  | ior => 0x37
  | ixor => 0x38
  | inot => 0x39
  | icompl1 => 0x3A
  | icompl2 => 0x3B
  | ieq => 0x3C
  | ineq => 0x3D
  | radd => 0x40
  | rsub => 0x41
  | rmul => 0x42
  | div => 0x43
  | rshl => 0x44
  | rshr => 0x45
  | i2r => 0x48
  | r2i => 0x49
  | inc => 0x4C
  | dec => 0x4D
  | neg => 0x4E
  | cmp => 0x50
  | eq => 0x51
  | neq => 0x52
  | lt => 0x53
  | leq => 0x54
  | gt => 0x55
  | geq => 0x56
  | scat => 0x58
  | slen => 0x59
  | sbyte => 0x5A
  | sslice => 0x5B
  | br => 0x60
  | br0 => 0x61
  | brN0 => 0x62
  | brLt => 0x63
  | brGt => 0x64
  | brLeq => 0x65
  | brGeq => 0x66
  | brEq => 0x67
  | brNeq => 0x68
  | brNul => 0x69
  | brNnul => 0x6A
  | if0 => 0x70
  | ifN0 => 0x71
  | ifLt => 0x72
  | ifGt => 0x73
  | ifLeq => 0x74
  | ifGeq => 0x75
  | ifEq => 0x76
  | ifNeq => 0x77
  | ifNul => 0x78
  | ifNnul => 0x79
  | alloc => 0x80
  | arg => 0x81
  | lget => 0x82
  | lset => 0x83
  | call => 0x84
  | clear => 0x85
  | ret => 0x86

def name : Opcode → String
  | nop => "nop"
  | halt => "halt"
  | nullRef => "nullref"
  | lnFeed => "lnfeed"
  | printVal => "print_val"
  | printRef => "print_ref"
  | printUni => "print_uni"
  | printlnVal => "println_val"
  | printlnRef => "println_ref"
  | printlnUni => "println_uni"
  | iconst0 => "iconst_0"
  | iconst1 => "iconst_1"
  | iconst2 => "iconst_2"
  | iconst3 => "iconst_3"
  | iconst4 => "iconst_4"
  | iconst5 => "iconst_5"
  | iconst => "iconst"
  | rconst0 => "rconst_0"
  | rconst1 => "rconst_1"
  | rconst2 => "rconst_2"
  | rconst3 => "rconst_3"
  | rconst4 => "rconst_4"
  | rconst5 => "rconst_5"
  | rconst => "rconst"
  | rconstE => "rconst_e"
  | rconstPi => "rconst_pi"
  | rconstPhi => "rconst_phi"
  | sconst => "sconst"
  | drop => "drop"
  | dup => "dup"
  | dup2 => "dup2"
  | swap => "swap"
  | swap2 => "swap2"
  | iadd => "iadd"
  | isub => "isub"
  | imul => "imul"
  | imod => "imod"
  | ishl => "ishl"
  | ishr => "ishr"
  | iand => "iand"
  | ior => "ior"
  | ixor => "ixor"
  | inot => "inot"
  | icompl1 => "icompl1"
  | icompl2 => "icompl2"
  | ieq => "ieq"
  | ineq => "ineq"
  | radd => "radd"
  | rsub => "rsub"
  | rmul => "rmul"
  | div => "div"
  | rshl => "rshl"
  | rshr => "rshr"
  | i2r => "i2r"
  | r2i => "r2i"
  | inc => "inc"
  | dec => "dec"
  | neg => "neg"
  | cmp => "cmp"
  | eq => "eq"
  | neq => "neq"
  | lt => "lt"
  | leq => "leq"
  | gt => "gt"
  | geq => "geq"
  | scat => "scat"
  | slen => "slen"
  | sbyte => "sbyte"
  | sslice => "sslice"
  | br => "br"
  | br0 => "br_0"
  | brN0 => "br_n0"
  | brLt => "br_lt"
  | brGt => "br_gt"
  | brLeq => "br_leq"
  | brGeq => "br_geq"
  | brEq => "br_eq"
  | brNeq => "br_neq"
  | brNul => "br_nul"
  | brNnul => "br_nnul"
  | if0 => "if_0"
  | ifN0 => "if_n0"
  | ifLt => "if_lt"
  | ifGt => "if_gt"
  | ifLeq => "if_leq"
  | ifGeq => "if_geq"
  | ifEq => "if_eq"
  | ifNeq => "if_neq"
  | ifNul => "if_nul"
  | ifNnul => "if_nnul"
  | alloc => "alloc"
  | arg => "arg"
  | lget => "lget"
  | lset => "lset"
  | call => "call"
  | clear => "clear"
  | ret => "ret"

/-- How many operand words follow the operation. -/
def arity : Opcode → Nat
  | iconst | rconst | sconst | alloc | arg | lget | lset => 1
  | br | br0 | brN0 | brLt | brGt | brLeq | brGeq | brEq | brNeq | brNul | brNnul => 1
  | if0 | ifN0 | ifLt | ifGt | ifLeq | ifGeq | ifEq | ifNeq | ifNul | ifNnul | call => 2
  | _ => 0

/-- The word of the operation. -/
def word (op : Opcode) : Word := Int64.ofNat op.number

/-- The operation with a given number. -/
def ofNumber? (n : Nat) : Option Opcode :=
  all.find? fun op => op.number == n

/-- The operations by number, one entry for each octet. -/
def table : Array (Option Opcode) :=
  Array.ofFn fun n : Fin 256 => ofNumber? n

/-- The operation that a word of a program stands for. -/
def ofWord? (w : Word) : Option Opcode :=
  match Word.index? w with
  | some n => table.getD n none
  | none => none

def ofName? (name : String) : Option Opcode :=
  all.find? fun op => op.name == name

end Opcode

end StackMachine
