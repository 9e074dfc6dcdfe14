/-
Paths: names between slashes. A path is absolute when it begins with a slash; repeated slashes count
as one, and a slash at the end asks for a directory.
-/

namespace ScopedRetrieval.Volume.Path

def isAbsolute (path : String) : Bool := path.toList.head? = some '/'

def endsWithSlash (path : String) : Bool := path.toList.getLast? = some '/'

/-- A path that starts at another one; an absolute path stands alone. -/
def join (base path : String) : String :=
  if isAbsolute path then path
  else if base.isEmpty ∨ endsWithSlash base then base ++ path
  else base ++ "/" ++ path

/-- The names in a path, without empty ones. -/
def names (path : String) : List String :=
  ((path.toList.splitOn '/').map String.ofList).filter fun name => !name.isEmpty

/-- The names to go along: a slash at the end stands for one more, empty name. -/
def steps (path : String) : List String :=
  let names := names path
  if endsWithSlash path ∧ !names.isEmpty then names ++ [""] else names

/-- The parts of a path. -/
inductive Component where
  | root
  | current
  | parent
  | normal (name : String)
deriving DecidableEq

namespace Component

/-- The part that a name stands for. -/
def ofName (name : String) : Component :=
  if name = "." then current else if name = ".." then parent else normal name

def name : Component → String
  | root => "/"
  | current => "."
  | parent => ".."
  | normal name => name

end Component

/-- The parts of a path: the root of an absolute one, and then its names. A name that stays where it
is counts at the start of a relative path only. -/
def components (path : String) : List Component :=
  let parts := (names path).map Component.ofName
  if isAbsolute path then .root :: parts.filter (· ≠ .current)
  else parts.take 1 ++ (parts.drop 1).filter (· ≠ .current)

/-- The path of some parts. -/
def ofComponents (parts : List Component) : String := parts.foldl (fun p c => join p c.name) ""

/-- The path without its last part, if it has parts and is not the root alone. -/
def parent? (path : String) : Option String :=
  match components path with
  | [] | [.root] => none
  | parts => some (ofComponents parts.dropLast)

end ScopedRetrieval.Volume.Path
