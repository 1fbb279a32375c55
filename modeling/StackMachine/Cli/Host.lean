import StackMachine.ByteString

/-!
What commands need of their surroundings: files, two streams of output, and a few facts.  The commands are
written for any host, so that they can be followed on a tree of files in memory as well as run.
-/

set_option autoImplicit false

namespace StackMachine.Cli

/-- Why a file cannot be read or made. -/
inductive FileError where
  | notFound
  | denied
  | notDirectory
  | isDirectory
  | nameTooLong
  | notText
  | other (description : String)
  deriving DecidableEq

namespace FileError

def message : FileError → String
  | notFound => "No such file or directory (os error 2)"
  | denied => "Permission denied (os error 13)"
  | notDirectory => "Not a directory (os error 20)"
  | isDirectory => "Is a directory (os error 21)"
  | nameTooLong => "File name too long (os error 36)"
  | notText => "stream did not contain valid UTF-8"
  | other description => description

/-- Whether the error shows that there is something at the path. -/
def isPresence : FileError → Bool
  | denied | isDirectory | notText => true
  | notFound | notDirectory | nameTooLong | other _ => false

end FileError

/-- How files are read and made, and where output goes. -/
structure Host (m : Type → Type) where
  read : String → m (Except FileError String)
  create : String → String → m (Except FileError Unit)
  print : ByteString → m Unit
  complain : String → m Unit

namespace Host

variable {m : Type → Type} [Monad m]

/-- Whether there is anything at a path. -/
def exists? (host : Host m) (path : String) : m Bool :=
  return match ← host.read path with
    | .ok _ => true
    | .error e => e.isPresence

/-- Whether there is a file at a path, readable or not. -/
def isFile (host : Host m) (path : String) : m Bool :=
  return match ← host.read path with
    | .ok _ => true
    | .error e => e.isPresence && e != .isDirectory

/-- The first of some paths at which there is a file. -/
def firstFile? (host : Host m) : List String → m (Option String)
  | [] => pure none
  | path :: rest => do if ← host.isFile path then pure (some path) else host.firstFile? rest

def printLine (host : Host m) (text : String) : m Unit := host.print (.ofString (text ++ "\n"))

def complainLine (host : Host m) (text : String) : m Unit := host.complain (text ++ "\n")

end Host

/-- The facts that a command may ask for. -/
structure Surroundings where
  /-- The current directory, from the root down. -/
  directory : String
  home : Option String
  /-- What the log is to show. -/
  logFilter : Option String

end StackMachine.Cli
