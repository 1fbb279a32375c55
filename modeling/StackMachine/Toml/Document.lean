import StackMachine.Toml.Number

/-!
Values with others inside them, and whole documents.
-/

set_option autoImplicit false

namespace StackMachine.Toml

/-! ## Values -/

/-- The items of an array behind its bracket. -/
def arrayRest? (item? : Scan Toml) (fuel : Nat) (done : List Toml) : Scan Toml := fun cs =>
  match fuel with
  | 0 => none
  | fuel + 1 =>
    match skipLines false cs with
    | ']' :: rest => some (.array done.reverse, rest)
    | start => do
      let (v, rest) ← item? start
      match skipLines false rest with
      | ',' :: rest => arrayRest? item? fuel (v :: done) rest
      | ']' :: rest => return (.array (v :: done).reverse, rest)
      | _ => none

/-- A key, an equals sign and a value. -/
def keyValue? (item? : Scan Toml) : Scan (List String × Toml) := fun cs => do
  let (path, rest) ← key? cs
  let rest ← expect? '=' rest
  let (v, rest) ← item? (skipBlanks rest)
  return ((path, v), rest)

/-- Adds a value under a key with points to a table. -/
def insert? (path : List String) (v : Toml) (entries : Entries) : Option Entries := do
  let key ← path.getLast?
  insertDotted path.dropLast key v entries

/-- The entries of an inline table behind its brace; there is at least one. -/
def inlineRest? (item? : Scan Toml) (fuel : Nat) (done : Entries) : Scan Toml := fun cs =>
  match fuel with
  | 0 => none
  | fuel + 1 => do
    let ((path, v), rest) ← keyValue? item? cs
    let entries ← insert? path v done
    match skipBlanks rest with
    | ',' :: rest => inlineRest? item? fuel entries rest
    | '\x7d' :: rest => return (.inline entries, rest)
    | _ => none

/-- A value in which others are nested less than `depth` deep. -/
def value? (depth : Nat) : Scan Toml := fun cs =>
  match depth with
  | 0 => none
  | inner + 1 =>
    match cs with
    | '"' :: _ | '\'' :: _ => (string? cs).map fun rest => (.string, rest)
    | '[' :: rest => if inner = 0 then none else arrayRest? (value? inner) (rest.length + 1) [] rest
    | '\x7b' :: rest =>
      if inner = 0 then none
      else
        match skipBlanks rest with
        | '\x7d' :: rest => some (.inline [], rest)
        | start => inlineRest? (value? inner) (start.length + 1) [] start
    | 't' :: 'r' :: 'u' :: 'e' :: rest => some (.boolean true, rest)
    | 'f' :: 'a' :: 'l' :: 's' :: 'e' :: rest => some (.boolean false, rest)
    | _ => number? cs

/-- How deep values may be nested. -/
def depthLimit : Nat := 80

/-! ## Documents -/

/-- A document up to some line: the tables that are complete, and the one that is being filled. -/
structure Document where
  root : Entries
  current : Entries
  path : List String
  /-- Whether the current table is an element under double brackets. -/
  isElement : Bool

namespace Document

def empty : Document := ⟨[], [], [], false⟩

/-- Puts the current table in its place. -/
def close? (d : Document) : Option Entries :=
  match d.path.getLast? with
  | none => some d.current
  | some key =>
    descend false d.path.dropLast (fun _ entries =>
      if d.isElement then
        match find? entries key with
        | some (.tables elements) => some (put entries key (.tables (d.current :: elements)))
        | none => some (put entries key (.tables [d.current]))
        | some _ => none
      else some (put entries key (.table .header d.current))) .header d.root

/-- What is at the place that a header names, if its parents allow that anything is. -/
def lookUp? (root : Entries) (parents : List String) (key : String) : Option (Option Toml) :=
  match parents with
  | [] => some (find? root key)
  | name :: rest =>
    match find? root name with
    | none => some none
    | some (.table _ entries) => lookUp? entries rest key
    | some (.tables (last :: _)) => lookUp? last rest key
    | some _ => none

/-- A header in single brackets: the table must be new, or have come about on the way to another one. -/
def openTable? (d : Document) (path : List String) : Option Document := do
  let root ← d.close?
  match ← lookUp? root path.dropLast (← path.getLast?) with
  | none => return ⟨root, [], path, false⟩
  | some (.table .path entries) => return ⟨root, entries, path, false⟩
  | some _ => none

/-- A header in double brackets: what is there, if anything, must be of the same sort. -/
def openElement? (d : Document) (path : List String) : Option Document := do
  let root ← d.close?
  match ← lookUp? root path.dropLast (← path.getLast?) with
  | none | some (.tables _) => return ⟨root, [], path, true⟩
  | some _ => none

/-- A header behind its first bracket. -/
def header? (d : Document) (cs : List Char) : Option (Document × List Char) :=
  match cs with
  | '[' :: rest => do
    let (path, rest) ← key? rest
    let rest ← expect? ']' (← expect? ']' rest)
    return (← d.openElement? path, ← statementEnd? rest)
  | _ => do
    let (path, rest) ← key? cs
    let rest ← expect? ']' rest
    return (← d.openTable? path, ← statementEnd? rest)

/-- The lines that are left, in at most `fuel` statements. -/
def lines? (fuel : Nat) (d : Document) (cs : List Char) : Option Entries :=
  match fuel with
  | 0 => none
  | fuel + 1 =>
    match skipBlanks cs with
    | [] => d.close?
    | '#' :: rest =>
      match statementEnd? ('#' :: rest) with
      | some rest => lines? fuel d rest
      | none => none
    | '[' :: rest =>
      match d.header? rest with
      | some (d, rest) => lines? fuel d rest
      | none => none
    | start =>
      match lineEnd? start with
      | some rest => lines? fuel d rest
      | none => do
        let ((path, v), rest) ← keyValue? (value? depthLimit) start
        let current ← insert? path v d.current
        lines? fuel { d with current } (← statementEnd? rest)

end Document

/-- Reads a document; a mark of the byte order at its start is skipped. -/
def read? (text : String) : Option Entries :=
  let cs := match text.toList with
    | '\ufeff' :: rest => rest
    | cs => cs
  Document.empty.lines? (cs.length + 1) cs

end StackMachine.Toml
