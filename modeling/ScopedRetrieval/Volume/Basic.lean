/-
Volumes: directories, files and symbolic links in one tree, with text attributes on them. A volume
is a finite map from places to what is there; the place of the root is the empty text, and any other
place is that of its directory, a slash and its name.
-/
import ScopedRetrieval.KeyMap
import ScopedRetrieval.Text.Utf8
import ScopedRetrieval.Volume.Fault
import ScopedRetrieval.Volume.Path

namespace ScopedRetrieval

/-- What is at a place. -/
inductive Volume.Item where
  | file (content : List UInt8)
  | directory
  | link (target : String)
deriving DecidableEq, Inhabited

structure Volume.Node where
  item : Volume.Item
  attributes : KeyMap (List UInt8) := .empty
deriving DecidableEq, Inhabited

/-- A tree of files. -/
structure Volume where
  nodes : KeyMap Volume.Node := .ofList [("", ⟨.directory, .empty⟩)]
  /-- The place where relative paths start. -/
  current : String := ""
  /-- Whether attributes can be stored. -/
  keepsAttributes : Bool := true

namespace Volume

/-- The place of a name in a directory. -/
def place (directory name : String) : String := directory ++ "/" ++ name

/-- The directory of a place; that of the root is the root. -/
def directoryOf (place : String) : String :=
  .ofList ((place.toList.reverse.dropWhile (· ≠ '/')).drop 1).reverse

/-- Where a path leads. -/
inductive Target where
  | found (place : String) (node : Node)
  /-- Nothing is there yet, in a directory that exists. -/
  | absent (directory name : String)

/-! ## Following paths -/

/-- The longest name, and the length from which on a path is too long, in bytes. -/
def nameLimit : Nat := 255

def pathLimit : Nat := 4096

/-- How the end of a path is treated. -/
inductive Finish where
  /-- A link is what is meant. -/
  | stay
  /-- A link is followed. -/
  | follow
  /-- A link is followed to a file that may still have to be made; a slash is refused. -/
  | create
deriving DecidableEq

/-- Goes along the names of a path from a directory. What is to be done at a link is left to
`onLink`, which gets the directory of the link, its target and the names behind it. -/
def stepThrough (v : Volume) (finish : Finish)
    (onLink : String → String → List String → Except Fault Target) :
    String → List String → Except Fault Target
  | here, [] =>
    match v.nodes.find? here with
    | some node => .ok (.found here node)
    | none => .error .notFound
  | here, name :: rest =>
    if finish = .create ∧ rest = [""] then .error .isDirectory
    else if name = "." ∨ name = "" then v.stepThrough finish onLink here rest
    else if name = ".." then v.stepThrough finish onLink (directoryOf here) rest
    else if nameLimit < name.utf8ByteSize then .error .nameTooLong
    else
      match v.nodes.find? (place here name) with
      | none => if rest.isEmpty then .ok (.absent here name) else .error .notFound
      | some node =>
        match node.item with
        | .directory => v.stepThrough finish onLink (place here name) rest
        | .file _ =>
          if rest.isEmpty then .ok (.found (place here name) node) else .error .notDirectory
        | .link target =>
          if rest.isEmpty ∧ finish = .stay then .ok (.found (place here name) node)
          else onLink here target rest

/-- The place where a path starts, seen from a directory. -/
def startOf (directory path : String) : String := if Path.isAbsolute path then "" else directory

/-- Goes along names and follows at most `links` links. -/
def walk (v : Volume) (finish : Finish) : Nat → String → List String → Except Fault Target
  | 0 => v.stepThrough finish fun _ _ _ => .error .linkLoop
  | links + 1 => v.stepThrough finish fun directory target rest =>
    v.walk finish links (startOf directory target) (Path.steps target ++ rest)

def linkLimit : Nat := 40

/-- Goes along some names of a path. -/
def resolveNames (v : Volume) (finish : Finish) (path : String) (names : List String) :
    Except Fault Target :=
  if path.isEmpty then .error .notFound
  else if pathLimit ≤ path.utf8ByteSize then .error .nameTooLong
  else v.walk finish linkLimit (startOf v.current path) names

def resolve (v : Volume) (finish : Finish) (path : String) : Except Fault Target :=
  v.resolveNames finish path (Path.steps path)

/-- Refuses a path that holds the character that ends paths. -/
def checkPath (fault : Fault) (path : String) : Except Fault Unit :=
  if path.toList.contains '\x00' then .error fault else .ok ()

/-- The node to which a path leads. -/
def node (v : Volume) (finish : Finish) (path : String) : Except Fault (String × Node) := do
  match ← v.resolve finish path with
  | .found place node => return (place, node)
  | .absent .. => throw .notFound

/-! ## Looking -/

def isDirectory (v : Volume) (path : String) : Bool :=
  match checkPath .nulInPath path, v.node .follow path with
  | .ok _, .ok (_, node) => (node.item matches .directory)
  | _, _ => false

def pathExists (v : Volume) (path : String) : Bool :=
  (checkPath .nulInPath path).isOk && (v.node .follow path).isOk

/-- The name of a place within a directory, if it is right in it. -/
def nameWithin? (directory place : String) : Option String :=
  let start := directory.toList ++ ['/']
  let cs := place.toList
  if start.isPrefixOf cs ∧ !(cs.drop start.length).contains '/' then
    some (.ofList (cs.drop start.length))
  else none

/-- The names in a directory and what is there. -/
def entries (v : Volume) (path : String) : Except Fault (List (String × Item)) := do
  checkPath .nulInPath path
  let (place, node) ← v.node .follow path
  match node.item with
  | .directory =>
    return v.nodes.toList.filterMap fun e => (nameWithin? place e.1).map (·, e.2.item)
  | _ => throw .notDirectory

def read (v : Volume) (path : String) : Except Fault (List UInt8) := do
  checkPath .nulInPath path
  let (_, node) ← v.node .follow path
  match node.item with
  | .file content => return content
  | _ => throw .isDirectory

def readText (v : Volume) (path : String) : Except Fault String := do
  match Text.ofUtf8? (← v.read path) with
  | some text => return text
  | none => throw .notText

/-! ## Changing -/

/-- The volume with a node at a place. -/
def put (v : Volume) (place : String) (node : Node) : Volume :=
  { v with nodes := v.nodes.insert place node }

/-- Writes a file, a new one or one that is there; its attributes stay. A path that ends with a
slash names no file. -/
def write (v : Volume) (path : String) (content : List UInt8) : Except Fault Volume := do
  checkPath .nulInPath path
  match ← v.resolve .create path with
  | .absent directory name => return v.put (place directory name) ⟨.file content, .empty⟩
  | .found place node =>
    match node.item with
    | .file _ => return v.put place { node with item := .file content }
    | _ => throw .isDirectory

/-- Makes a directory where nothing is. -/
def makeDirectory (v : Volume) (path : String) : Except Fault Volume := do
  checkPath .nulInPath path
  match ← v.resolveNames .stay path (Path.names path) with
  | .absent directory name => return v.put (place directory name) ⟨.directory, .empty⟩
  | .found .. => throw .alreadyExists

/-- Makes a directory, and if its own directory is missing, that one first, by `above`. -/
def makeWithin (v : Volume) (path : String) (above : Except Fault Volume) : Except Fault Volume :=
  match v.makeDirectory path with
  | .ok v => .ok v
  | .error .notFound => do
    let v ← above
    match v.makeDirectory path with
    | .ok v => return v
    | .error fault => if v.isDirectory path then return v else throw fault
  | .error fault => if v.isDirectory path then .ok v else .error fault

/-- Makes the directories of a path given by its parts, the last one first. -/
def makeParts (v : Volume) : List Path.Component → Except Fault Volume
  | [] => .ok v
  | c :: above => v.makeWithin (Path.ofComponents (c :: above).reverse) (v.makeParts above)

/-- Makes a directory and all those above it that are missing. -/
def makeDirectories (v : Volume) (path : String) : Except Fault Volume :=
  if path.isEmpty then .ok v
  else v.makeWithin path (v.makeParts ((Path.components path).reverse.drop 1))

/-- Makes a symbolic link where nothing is. -/
def makeLink (v : Volume) (path target : String) : Except Fault Volume := do
  checkPath .nulInPath path
  match ← v.resolveNames .stay path (Path.names path) with
  | .absent directory name => return v.put (place directory name) ⟨.link target, .empty⟩
  | .found .. => throw .alreadyExists

/-- Removes a file or a link. -/
def remove (v : Volume) (path : String) : Except Fault Volume := do
  checkPath .nulInPath path
  let (place, node) ← v.node .stay path
  match node.item with
  | .directory => throw .isDirectory
  | _ => return { v with nodes := v.nodes.erase place }

/-- Removes a directory with all that is in it. -/
def removeDirectory (v : Volume) (path : String) : Except Fault Volume := do
  checkPath .nulInPath path
  let (directory, node) ← v.node .stay path
  match node.item with
  | .directory =>
    let within (e : String × Node) : Bool :=
      e.1 = directory || (directory.toList ++ ['/']).isPrefixOf e.1.toList
    return { v with nodes := .ofList (v.nodes.toList.filter fun e => !within e) }
  | _ => throw .notDirectory

end Volume

end ScopedRetrieval
