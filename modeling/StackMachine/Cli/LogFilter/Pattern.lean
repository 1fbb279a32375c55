import StackMachine.Text.Alphabetic
import StackMachine.Text.Blank
import StackMachine.Text.Hex
import StackMachine.Text.Numeric

/-!
Regular expressions in a filter.  What they match is of no interest, since they are asked about fields of
spans and no entry is inside a span; but a filter with a malformed one is malformed.  A closing brace ends
the expression, so nothing that needs one is well formed: no bounds of a repetition, no code point in
braces.
-/

set_option autoImplicit false

namespace StackMachine.Cli.Pattern

/-- What the flags of an expression turn on and off. -/
structure Modes where
  /-- Letters stand for both of their cases. -/
  anyCase : Bool
  /-- The expression is about characters of Unicode, not of ASCII alone. -/
  unicode : Bool
  /-- Blanks and comments do not count. -/
  spaced : Bool
  deriving DecidableEq

/-- What stands for one character, or for a place between two. -/
inductive Atom where
  | character (c : Char)
  /-- A code point in two hexadecimal digits, which is an octet if the expression is about ASCII. -/
  | octet (n : Nat)
  /-- A class of characters with a letter for its name. -/
  | named (negated : Bool)
  | any
  | edge
  | wordEdge
  deriving DecidableEq

namespace Modes

def initial : Modes := ⟨false, true, false⟩

/-- Whether an atom may be used.  There are no tables of Unicode behind the expressions, so a class by name,
an edge of a word and a letter in both cases must be of ASCII; and what is about ASCII must not match
other octets. -/
def admits (m : Modes) : Atom → Bool
  | .character _ => !(m.anyCase && m.unicode)
  | .octet n => if m.unicode then !m.anyCase else n < 0x80
  | .named negated => !m.unicode && !negated
  | .any => m.unicode
  | .edge => true
  | .wordEdge => !m.unicode

/-- Whether an atom may be used between square brackets. -/
def admitsItem (m : Modes) : Atom → Bool
  | .character c => if m.unicode then !m.anyCase else c.toNat < 0x80
  | .any | .edge | .wordEdge => false
  | a => m.admits a

/-- The modes under a flag that is turned on or off.  Other flags do not bear on the form. -/
def set (m : Modes) (on : Bool) : Char → Modes
  | 'i' => { m with anyCase := on }
  | 'u' => { m with unicode := on }
  | 'x' => { m with spaced := on }
  | _ => m

/-- The modes under some flags, of which those behind a minus are turned off. -/
def withFlags (m : Modes) (flags : List Char) : Modes :=
  let off := flags.dropWhile (· != '-')
  off.foldl (fun m c => m.set false c) ((flags.takeWhile (· != '-')).foldl (fun m c => m.set true c) m)

end Modes

/-- Whether flags are spelled well: known ones, none of them twice, and one behind a minus. -/
def areFlags (flags : List Char) : Bool :=
  flags.all (fun c => c = '-' || "imsUuRx".toList.contains c)
    && flags.Nodup && flags.getLast? != some '-'

/-- Whether a group may have this name. -/
def isName (name : List Char) : Bool :=
  match name with
  | [] => false
  | first :: rest =>
    (first = '_' || Text.isAlphabetic first)
      && rest.all fun c =>
        c = '_' || c = '.' || c = '[' || c = ']' || Text.isAlphabetic c || Text.isNumeric c

/-! ## Blanks -/

/-- What follows blanks and comments, and the characters of which `also` holds. -/
def skipBlanks (also : Char → Bool) (inComment : Bool) : List Char → List Char
  | [] => []
  | c :: cs =>
    if inComment then skipBlanks also (c != '\n') cs
    else if also c || Text.isBlank c then skipBlanks also false cs
    else if c = '#' then skipBlanks also true cs
    else c :: cs

/-- What follows blanks and comments, if they do not count. -/
def Modes.skip (m : Modes) (cs : List Char) : List Char :=
  if m.spaced then skipBlanks (fun _ => false) false cs else cs

/-- What follows hyphens. -/
def Modes.skipHyphens (m : Modes) (cs : List Char) : List Char :=
  if m.spaced then skipBlanks (· = '-') false cs else cs.dropWhile (· = '-')

/-! ## Atoms -/

/-- The code point in the next `count` hexadecimal digits, of which `digits` have been read. -/
def codePoint? (m : Modes) (count : Nat) (digits : List Char) (cs : List Char) :
    Option (Char × List Char) :=
  match count with
  | 0 => (Text.codePoint? digits).map fun c => (c, m.skip cs)
  | count + 1 =>
    match m.skip cs with
    | c :: rest => if Text.isHexDigit c then codePoint? m count (digits ++ [c]) rest else none
    | [] => none

/-- The atom behind a backslash. -/
def escaped? (m : Modes) : List Char → Option (Atom × List Char)
  | [] => none
  | c :: cs =>
    match c with
    | 'x' => (codePoint? m 2 [] cs).map fun (c, rest) => (.octet c.toNat, rest)
    | 'u' => (codePoint? m 4 [] cs).map fun (c, rest) => (.character c, rest)
    | 'U' => (codePoint? m 8 [] cs).map fun (c, rest) => (.character c, rest)
    | 'd' | 's' | 'w' => some (.named false, cs)
    | 'D' | 'S' | 'W' => some (.named true, cs)
    | 'a' | 'f' | 'n' | 'r' | 't' | 'v' => some (.character c, cs)
    | 'A' | 'z' => some (.edge, cs)
    | 'b' | 'B' | '<' | '>' => some (.wordEdge, cs)
    | _ => if c.toNat < 0x80 && !c.isAlphanum then some (.character c, cs) else none

/-- The character whose code point bounds a range. -/
def Atom.bound? : Atom → Option Nat
  | .character c => some c.toNat
  | .octet n => some n
  | _ => none

/-! ## Square brackets -/

/-- The names of classes between colons. -/
def classNames : List String :=
  ["alnum", "alpha", "ascii", "blank", "cntrl", "digit", "graph", "lower", "print", "punct", "space",
    "upper", "word", "xdigit"]

/-- A class by name, of which the opening bracket has been read: whether it is negated, and the rest. -/
def namedClass? : List Char → Option (Bool × List Char)
  | ':' :: cs =>
    let negated := cs.head? = some '^'
    let cs := if negated then cs.tail else cs
    let name := cs.takeWhile (· != ':')
    match cs.drop name.length with
    | ':' :: ']' :: rest =>
      if classNames.contains (String.ofList name) then some (negated, rest) else none
    | _ => none
  | _ => none

/-- What follows the opening bracket: a negation, hyphens that stand for themselves, and a closing bracket
that does so because nothing stands before it. -/
def openBracket? (m : Modes) (cs : List Char) : Option (List Char) := do
  let cs := m.skip cs
  let negated := cs.head? = some '^'
  let cs := if negated then m.skip cs.tail else cs
  guard (if m.unicode then !m.anyCase else !negated)
  match cs, m.skipHyphens cs with
  | ']' :: rest, _ => if (m.skip rest).isEmpty then none else some (m.skip rest)
  | _, [] => none
  | _, rest => some rest

/-- One item between brackets. -/
def item? (m : Modes) (cs : List Char) : Option (Atom × List Char) := do
  let (a, rest) ← match cs with
    | [] => none
    | '\\' :: rest => escaped? m rest
    | c :: rest => some (.character c, rest)
  guard (m.admitsItem a)
  return (a, rest)

/-- Whether a hyphen stands between two bounds of a range: what follows it is neither the end of the class
nor another hyphen. -/
def joinsRange (m : Modes) : List Char → Bool
  | '-' :: rest => (m.skip rest).head? != some ']' && (m.skip rest).head? != some '-'
  | _ => false

/-- An item or a range of them. -/
def items? (m : Modes) (cs : List Char) : Option (List Char) := do
  let (a, rest) ← item? m cs
  let rest := m.skip rest
  if joinsRange m rest then
    let (b, rest) ← item? m (m.skip rest.tail)
    guard ((← a.bound?) ≤ (← b.bound?))
    return rest
  else return rest

/-! ## Expressions -/

/-- What has been read of an expression. -/
structure Progress where
  modes : Modes
  /-- The modes outside of each group that is open, the innermost first. -/
  outer : List Modes
  /-- The names of groups. -/
  names : List (List Char)
  /-- How many brackets are open. -/
  brackets : Nat
  /-- Whether there is something that can be repeated. -/
  isRepeatable : Bool

namespace Progress

def initial : Progress := ⟨.initial, [], [], 0, false⟩

/-- Opens a group with modes of its own. -/
def openGroup (p : Progress) (modes : Modes) : Progress :=
  { p with modes, outer := p.modes :: p.outer, isRepeatable := false }

/-- Opens a group with a name behind its opening angle. -/
def openNamed? (p : Progress) (cs : List Char) : Option (Progress × List Char) := do
  let name := cs.takeWhile (· != '>')
  guard (isName name && !p.names.contains name && name.length < cs.length)
  return ({ p.openGroup p.modes with names := name :: p.names }, cs.drop (name.length + 1))

/-- What is behind an opening parenthesis: a name, flags, or the expression of the group itself. -/
def parenthesis? (p : Progress) (cs : List Char) : Option (Progress × List Char) :=
  match p.modes.skip cs with
  | '?' :: 'P' :: '<' :: rest | '?' :: '<' :: rest => p.openNamed? rest
  | '?' :: rest => do
    let flags := rest.takeWhile fun c => c != ':' && c != ')'
    guard (areFlags flags)
    match rest.drop flags.length with
    | ':' :: rest => return (p.openGroup (p.modes.withFlags flags), rest)
    | ')' :: rest =>
      guard !flags.isEmpty
      return ({ p with modes := p.modes.withFlags flags, isRepeatable := false }, rest)
    | _ => none
  | rest => some (p.openGroup p.modes, rest)

/-- Adds an atom, which the modes must admit. -/
def add? (p : Progress) (a : Atom) (rest : List Char) : Option (Progress × List Char) :=
  if p.modes.admits a then some ({ p with isRepeatable := true }, rest) else none

/-- What `c` means outside of brackets, together with some of `cs` behind it. -/
def outside? (p : Progress) (c : Char) (cs : List Char) : Option (Progress × List Char) :=
  match c with
  | '(' => p.parenthesis? cs
  | ')' =>
    match p.outer with
    | modes :: outer => some ({ p with modes, outer, isRepeatable := true }, cs)
    | [] => none
  | '|' => some ({ p with isRepeatable := false }, cs)
  | '[' => (openBracket? p.modes cs).map fun rest => ({ p with brackets := 1 }, rest)
  | '?' | '*' | '+' =>
    if p.isRepeatable then some (p, if cs.head? = some '?' then cs.tail else cs) else none
  | '\x7b' => none
  | '\\' => do
    let (a, rest) ← escaped? p.modes cs
    p.add? a rest
  | '.' => p.add? .any cs
  | '^' | '$' => p.add? .edge cs
  | c => p.add? (.character c) cs

/-- What `c` means between brackets, together with some of `cs` behind it. -/
def inside? (p : Progress) (c : Char) (cs : List Char) : Option (Progress × List Char) :=
  match c with
  | '[' =>
    match namedClass? cs with
    | some (negated, rest) => if !p.modes.unicode && negated then none else some (p, rest)
    | none =>
      (openBracket? p.modes cs).map fun rest => ({ p with brackets := p.brackets + 1 }, rest)
  | ']' => some ({ p with brackets := p.brackets - 1, isRepeatable := true }, cs)
  | c =>
    if (c = '&' || c = '-' || c = '~') && cs.head? = some c then some (p, cs.tail)
    else (items? p.modes (c :: cs)).map fun rest => (p, rest)

/-- Takes `c`, together with some of `cs` behind it. -/
def take? (p : Progress) (c : Char) (cs : List Char) : Option (Progress × List Char) :=
  if p.modes.spaced && (Text.isBlank c || c = '#') then some (p, p.modes.skip (c :: cs))
  else if p.brackets = 0 then p.outside? c cs
  else p.inside? c cs

/-- Reads on behind `taken` characters that have been dealt with already. -/
def read? (p : Progress) (taken : Nat) : List Char → Option Progress
  | [] => some p
  | c :: cs =>
    match taken with
    | taken + 1 => p.read? taken cs
    | 0 => do
      let (next, rest) ← p.take? c cs
      next.read? (cs.length - rest.length) cs

end Progress

/-- Whether an expression is well formed. -/
def isWellFormed (cs : List Char) : Bool :=
  match Progress.initial.read? 0 cs with
  | some p => p.outer.isEmpty && p.brackets = 0
  | none => false

end StackMachine.Cli.Pattern
