import StackMachine.Machine.Basic

/-!
Two views of what a machine lets know: events for a debugger, and entries for a log.
-/

set_option autoImplicit false

namespace StackMachine

/-- What a debugger is told. -/
inductive Event where
  | step (ip : Nat) (op : Opcode)
  | enter (target argc : Nat)
  | exit (result : Option Value)
  | fault (kind : FaultKind) (ip : Nat)

/-- How much an entry of the log matters, the most important first. -/
inductive LogLevel where
  | error | warn | info | debug | trace
  deriving DecidableEq

namespace LogLevel

def name : LogLevel → String
  | error => "ERROR"
  | warn => "WARN"
  | info => "INFO"
  | debug => "DEBUG"
  | trace => "TRACE"

/-- 1 for the most important entries, up to 5. -/
def rank : LogLevel → Nat
  | error => 1
  | warn => 2
  | info => 3
  | debug => 4
  | trace => 5

end LogLevel

/-- One entry of a log. -/
structure LogEntry where
  level : LogLevel
  /-- The part of the program that speaks. -/
  target : String
  message : String
  /-- Names and texts of further facts, in order. -/
  fields : List (String × String)

/-- The entry on one line. -/
def LogEntry.display (e : LogEntry) : String :=
  e.level.name ++ " " ++ e.target ++ ": " ++ e.message
    ++ String.join (e.fields.map fun f => " " ++ f.1 ++ "=" ++ f.2)

namespace Notice

def toEvent? : Notice → Option Event
  | stepped ip op => some (.step ip op)
  | called target argc _ => some (.enter target argc)
  | left result => some (.exit result)
  | faulted kind ip => some (.fault kind ip)
  | _ => none

def toLog? : Notice → Option LogEntry
  | loaded argc fp =>
    some ⟨.debug, "bpl_vm::vm", "loaded initial frame", [("argc", argc.repr), ("fp", fp.repr)]⟩
  | ranPastEnd ip =>
    some ⟨.warn, "bpl_vm::vm", "ran past the end of the code, halting", [("ip", ip.repr)]⟩
  | traced line fp depth =>
    some ⟨.trace, "bpl_vm::exec", line.display, [("fp", fp.repr), ("depth", depth.repr)]⟩
  | called target argc fp =>
    some ⟨.debug, "bpl_vm::vm::calls", "call",
      [("to", target.repr), ("argc", argc.repr), ("fp", fp.repr)]⟩
  | returned ip fp =>
    some ⟨.debug, "bpl_vm::vm::calls", "return", [("ip", ip.repr), ("fp", fp.repr)]⟩
  | halted ip depth =>
    some ⟨.debug, "bpl_vm::vm", "halt", [("ip", ip.repr), ("depth", depth.repr)]⟩
  | reported report =>
    some ⟨if report.isFatal then .error else .warn, "bpl_vm::diagnostics", report.message,
      [("kind", report.kind.name), ("ip", report.ip.repr), ("count", report.count.repr)]⟩
  | stepped .. | left .. | faulted .. => none

end Notice

end StackMachine
