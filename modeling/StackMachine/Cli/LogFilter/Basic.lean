import StackMachine.Machine.Watch

/-!
Which entries of the log are shown.  A filter is a list of directives such as `bpl_vm=debug`, divided by
commas; for each entry the directive that names its target most closely decides.
-/

set_option autoImplicit false

namespace StackMachine.Cli

/-- Lets entries of some targets through up to a rank; rank 0 holds all of them back. -/
structure Directive where
  /-- How the targets begin; all of them if it is missing. -/
  target : Option String
  /-- A field that an entry must have. -/
  field : Option String
  rank : Nat
  deriving DecidableEq

namespace Directive

def hasField (e : LogEntry) (name : String) : Bool :=
  name = "message" || e.fields.any fun f => f.1 == name

/-- Whether the directive is about `e`. -/
def concerns (d : Directive) (e : LogEntry) : Bool :=
  (d.target.all fun target => target.toList.isPrefixOf e.target.toList)
    && d.field.all (hasField e)

/-- Whether `d` decides rather than `other` about an entry that both are about: a longer target counts
first, then a field, then the order of the fields' names. -/
def supersedes (d other : Directive) : Bool :=
  let length (d : Directive) := d.target.elim 0 fun target => target.utf8ByteSize + 1
  length other < length d
    || length other = length d && match other.field, d.field with
      | none, _ => true
      | some _, none => false
      | some name, some name' => name ≤ name'

/-- The more specific of two directives, the later one if they are equally so. -/
def moreSpecific (best : Option Directive) (d : Directive) : Option Directive :=
  match best with
  | none => some d
  | some other => if d.supersedes other then some d else best

end Directive

/-- Directives in the order in which they are given. -/
structure LogFilter where
  directives : List Directive
  deriving DecidableEq

namespace LogFilter

/-- Nothing is shown. -/
def off : LogFilter := ⟨[]⟩

/-- All that the machine lets know is shown. -/
def traced : LogFilter := ⟨[⟨some "bpl_vm", none, LogLevel.trace.rank⟩]⟩

def shows (f : LogFilter) (e : LogEntry) : Bool :=
  match (f.directives.filter fun d => d.concerns e).foldl Directive.moreSpecific none with
  | some d => e.level.rank ≤ d.rank
  | none => false

/-- The entry for something that a machine lets know, if it has one and it is shown. -/
def entry? (f : LogFilter) (n : Notice) : Option LogEntry :=
  if f.directives.isEmpty then none else n.toLog?.filter f.shows

end LogFilter

end StackMachine.Cli
