/-!
TOML documents as trees.  A table remembers how it came about, because that decides who may add to it
later.
-/

set_option autoImplicit false

namespace StackMachine

/-- How a table came about: by a header of its own, on the way to another header, or by a dotted key. -/
inductive Toml.Origin where
  | header | path | dotted
  deriving DecidableEq

/-- A TOML value.  Only what the reader of a configuration can tell apart is kept. -/
inductive Toml where
  | string
  | integer (n : Int)
  | float
  | boolean (b : Bool)
  | datetime
  | array (items : List Toml)
  | inline (entries : List (String × Toml))
  | table (origin : Toml.Origin) (entries : List (String × Toml))
  /-- Tables under one header with double brackets, the latest first. -/
  | tables (elements : List (List (String × Toml)))

namespace Toml

abbrev Entries := List (String × Toml)

def find? (entries : Entries) (key : String) : Option Toml :=
  entries.lookup key

/-- The entries with `v` under `key`, in the place of what was there. -/
def put (entries : Entries) (key : String) (v : Toml) : Entries :=
  (key, v) :: entries.filter fun e => e.1 != key

/-- Changes the table that `path` leads to, making the tables on the way where there are none.  Dotted
keys may not go into a table that has a header of its own. -/
def descend (dotted : Bool) (path : List String) (change : Origin → Entries → Option Entries)
    (origin : Origin) (entries : Entries) : Option Entries :=
  match path with
  | [] => change origin entries
  | key :: rest =>
    match find? entries key with
    | none => do
      let made : Origin := if dotted then .dotted else .path
      let inner ← descend dotted rest change made []
      return put entries key (.table made inner)
    | some (.table inner old) =>
      if dotted && inner = .header then none
      else do
        let new ← descend dotted rest change inner old
        return put entries key (.table inner new)
    | some (.tables (last :: before)) => do
      let new ← descend dotted rest change .header last
      return put entries key (.tables (new :: before))
    | some _ => none

/-- Adds a value under a dotted key to a table. -/
def insertDotted (path : List String) (key : String) (v : Toml) (entries : Entries) : Option Entries :=
  descend true path (fun origin inner =>
    if (origin = .dotted) = path.isEmpty then none
    else if (find? inner key).isSome then none
    else some (put inner key v)) .header entries

end Toml

end StackMachine
