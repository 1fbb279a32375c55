import StackMachine.Cli.Argument
import StackMachine.Cli.LogFilter.Basic
import StackMachine.Cli.LogFilter.Pattern

/-!
Reading filters.  Blanks around a directive do not count for its form, but its parts are counted off from
the very start of its text, so behind blanks every part is taken from as many octets too early, and a level
at the end keeps the blanks behind it.
-/

set_option autoImplicit false

namespace StackMachine.Cli

/-- What is left of a directive: without the blanks around it, and as a whole from the same distance. -/
structure Directive.Source where
  form : List Char
  text : List Char

namespace Directive.Source

/-- A text without the blanks around it. -/
def trimmed (text : List Char) : List Char :=
  ((text.dropWhile Text.isBlank).reverse.dropWhile Text.isBlank).reverse

def ofText (text : List Char) : Source := ⟨trimmed text, text⟩

/-- The characters that begin within the first `n` octets, and the others. -/
def splitOctets (n : Nat) : List Char → List Char × List Char
  | [] => ([], [])
  | c :: cs =>
    if n = 0 then ([], c :: cs)
    else
      let (front, rest) := splitOctets (n - c.utf8Size) cs
      (c :: front, rest)

/-- Cuts off as much as is as long as `piece`, with which the form begins. -/
def split (d : Source) (piece : List Char) : List Char × Source :=
  let (part, text) := splitOctets (String.ofList piece).utf8ByteSize d.text
  (part, ⟨d.form.drop piece.length, text⟩)

/-- Cuts off the part whose characters satisfy `p`. -/
def span (d : Source) (p : Char → Bool) : List Char × Source := d.split (d.form.takeWhile p)

/-- What is behind the next character. -/
def tail (d : Source) : Source := (d.split (d.form.take 1)).2

end Directive.Source

namespace LogFilter

/-- A rank, by its number or by the name of its level. -/
def rank? (text : List Char) : Option Nat :=
  match Decimal.natural? text with
  | some n => if n ≤ LogLevel.trace.rank then some n else none
  | none =>
    match String.ofList (text.map Char.toLower) with
    | "off" => some 0
    | "error" => some LogLevel.error.rank
    | "warn" => some LogLevel.warn.rank
    | "info" => some LogLevel.info.rank
    | "debug" => some LogLevel.debug.rank
    | "trace" => some LogLevel.trace.rank
    | _ => none

/-- The rank behind a target or a scope: an equals sign and perhaps a level, or nothing. -/
def rankBehind? (d : Directive.Source) : Option Nat :=
  match d.form with
  | [] => some LogLevel.trace.rank
  | '=' :: _ => if d.tail.text.isEmpty then some LogLevel.trace.rank else rank? d.tail.text
  | _ => none

/-- The characters with which a target may start. -/
def startsTarget (c : Char) : Bool :=
  c = '-' || c = ':' || c = '_' || Text.isAlphabetic c || Text.isNumeric c

/-- The value that a field is asked for: what follows its equals sign, up to another one. -/
def fieldValue? (field : List Char) : Option (List Char) :=
  match field.splitOn '=' with
  | _ :: value :: _ => some value
  | _ => none

/-- Whether a field can be asked for a value: a number or a regular expression. -/
def isFieldValue (value : List Char) : Bool :=
  (real? (String.ofList value)).isSome || Pattern.isWellFormed value

/-- A directive with a scope, of which the opening bracket has been read.  A scope that names a span or the
value of a field is none that an entry outside of all spans can be in. -/
def scoped? (target : Option String) (d : Directive.Source) : Option (List Directive) := do
  let (span, d) := d.span fun c => c != ']' && c != '\x7b'
  match d.form with
  | ']' :: _ =>
    let _ ← rankBehind? d.tail
    return []
  | '\x7b' :: _ =>
    let (field, d) := d.tail.span (· != '\x7d')
    match d.form with
    | '\x7d' :: ']' :: _ =>
      guard (!field.isEmpty && (fieldValue? field).all isFieldValue)
      let rank ← rankBehind? d.tail.tail
      return if span.isEmpty && (fieldValue? field).isNone then
        [⟨target, some (String.ofList field), rank⟩]
      else []
    | _ => none
  | _ => none

/-- What one directive means, unless it is malformed.  A level stands for all targets; a target without a
level is shown completely. -/
def directive? (text : List Char) : Option (List Directive) := do
  let d := Directive.Source.ofText text
  match d.form with
  | [] => none
  | '[' :: _ => scoped? none d.tail
  | first :: _ =>
    guard (startsTarget first)
    let (target, d) := d.span fun c => c != '=' && c != '['
    match d.form with
    | [] =>
      return match rank? text with
        | some rank => [⟨none, none, rank⟩]
        | none => [⟨some (String.ofList text), none, LogLevel.trace.rank⟩]
    | '[' :: _ => scoped? (some (String.ofList target)) d.tail
    | _ => return [⟨some (String.ofList target), none, ← rankBehind? d⟩]

/-- Reads a filter, unless it is malformed.  One without directives shows errors. -/
def read? (text : String) : Option LogFilter :=
  match (text.toList.splitOn ',').filter fun piece => !piece.isEmpty with
  | [] => some ⟨[⟨none, none, LogLevel.error.rank⟩]⟩
  | pieces => (pieces.mapM directive?).map fun ds => ⟨ds.flatten⟩

/-- The filter that is asked for, or else the one for a run with or without a trace. -/
def choose (asked : Option String) (trace : Bool) : LogFilter :=
  match asked.bind read? with
  | some filter => filter
  | none => if trace then traced else off

end LogFilter

end StackMachine.Cli
