import StackMachine.Cli.Host

/-!
A tree of files in memory, and the host that it makes.
-/

set_option autoImplicit false

namespace StackMachine.Cli

/-- Names from the root down. -/
abbrev Place := List String

/-- Files with their texts, and directories besides those that hold files. -/
structure FileTree where
  files : List (Place × String)
  directories : List Place
  deriving DecidableEq

namespace FileTree

def file? (t : FileTree) (place : Place) : Option String := t.files.lookup place

/-- A directory is the root, one that is listed, or one on the way to something. -/
def isDirectory (t : FileTree) (place : Place) : Bool :=
  place.isEmpty || t.directories.any place.isPrefixOf
    || t.files.any fun f => f.1 != place && place.isPrefixOf f.1

/-- The longest name in octets. -/
def longestName : Nat := 255

/-- The longest path in octets. -/
def longestPath : Nat := 4095

/-- Follows names from a place.  Only a directory has names below it. -/
def follow (t : FileTree) (place : Place) : List String → Except FileError Place
  | [] => .ok place
  | name :: rest =>
    if !t.isDirectory place then .error .notDirectory
    else if name = "" ∨ name = "." then t.follow place rest
    else if name = ".." then t.follow place.dropLast rest
    else if longestName < name.utf8ByteSize then .error .nameTooLong
    else
      let next := place ++ [name]
      if t.isDirectory next || (t.file? next).isSome then t.follow next rest
      else .error .notFound

/-- The names in a path. -/
def names (path : String) : List String := (path.toList.splitOn '/').map String.ofList

/-- The place where a path starts: the root if it begins with a slash. -/
def origin (directory : Place) (path : String) : Place :=
  if path.toList.head? = some '/' then [] else directory

/-- The place that a path leads to from a directory. -/
def locate (t : FileTree) (directory : Place) (path : String) : Except FileError Place :=
  if path.isEmpty then .error .notFound
  else if longestPath < path.utf8ByteSize then .error .nameTooLong
  else t.follow (origin directory path) (names path)

/-- The text of the file at a path. -/
def read (t : FileTree) (directory : Place) (path : String) : Except FileError String := do
  let place ← t.locate directory path
  match t.file? place with
  | some text => return text
  | none => throw .isDirectory

/-- The tree with a text in the place of what the file at a path holds, or in a new file. -/
def write (t : FileTree) (directory : Place) (path text : String) : Except FileError FileTree := do
  let names := names path
  let parent ← t.follow (origin directory path) names.dropLast
  match names.getLast? with
  | none => throw .notFound
  | some name =>
    let place := parent ++ [name]
    if !t.isDirectory parent then throw .notDirectory
    else if t.isDirectory place then throw .isDirectory
    else return { t with files := (place, text) :: t.files.filter fun f => f.1 != place }

end FileTree

/-- A tree of files, a directory in it, and what was printed and complained of, latest first. -/
structure Session where
  tree : FileTree
  directory : Place
  printed : List ByteString
  complaints : List String

namespace Session

/-- The host that works on a session. -/
def host : Host (StateM Session) where
  read path := do
    let s ← get
    return s.tree.read s.directory path
  create path text := do
    let s ← get
    match s.tree.write s.directory path text with
    | .ok tree =>
      set { s with tree }
      return .ok ()
    | .error e => return .error e
  print octets := modify fun s => { s with printed := octets :: s.printed }
  complain text := modify fun s => { s with complaints := text :: s.complaints }

/-- All that was printed. -/
def output (s : Session) : ByteString :=
  s.printed.foldr (fun octets before => before ++ octets) .empty

/-- All complaints. -/
def errors (s : Session) : String := String.join s.complaints.reverse

end Session

end StackMachine.Cli
