/-
Corpora in directories: each visible regular file is a document, identified by its name, and its
attributes are those in the namespace of users, without the name of that. An identifier is a path
with a single part, but not the one of the root.
-/
import ScopedRetrieval.Provider
import ScopedRetrieval.Volume.Attributes

namespace ScopedRetrieval

/-- A corpus in the directory `root`. -/
structure DirectoryCorpus where
  root : String
deriving DecidableEq, Inhabited

namespace DirectoryCorpus

/-- The name under which an attribute is stored. -/
def namespaced (key : String) : String :=
  if (Volume.userKey? key).isSome then key else Volume.userNamespace ++ key

/-- The path of a document; its identifier must be a single part of a path. -/
def pathFor (c : DirectoryCorpus) (id : String) : Except ProviderError String :=
  if (Volume.Path.components id).length ≠ 1 ∨ Volume.Path.isAbsolute id then .error (.notFound id)
  else .ok (Volume.Path.join c.root id)

/-! ## Reading -/

/-- The identifiers of the documents in ascending order. -/
def list (c : DirectoryCorpus) (v : Volume) : Except ProviderError (List String) :=
  match v.entries c.root with
  | .error fault => .error (.content c.root fault.message)
  | .ok entries =>
    .ok <| ((entries.filter fun e =>
      e.2 matches .file _ && e.1.toList.head? ≠ some '.').map (·.1)).mergeSort fun a b => a ≤ b

def content (c : DirectoryCorpus) (v : Volume) (id : String) : Except ProviderError String := do
  let path ← c.pathFor id
  match v.readText path with
  | .ok text => return text
  | .error .notFound => throw (.notFound id)
  | .error fault => throw (.content id fault.message)

/-- The attributes at a path, among all those of a volume. -/
def userAttributes (v : Volume) (path : String) (names : List String) : Attributes :=
  .ofList <| names.filterMap fun name =>
    match Volume.userKey? name, v.getAttribute path name with
    | some key, .ok (some value) => some (key, Text.ofBytesLenient value)
    | _, _ => none

def attributes (c : DirectoryCorpus) (v : Volume) (id : String) :
    Except ProviderError Attributes := do
  let path ← c.pathFor id
  match v.attributeNames path with
  | .ok names => return userAttributes v path names
  | .error fault => throw (.attributes id fault.message)

/-- The corpus, as it is on a volume, as a source of documents. -/
def toProvider (c : DirectoryCorpus) (v : Volume) : MetadataProvider :=
  ⟨.now (c.list v), fun id => .now (c.content v id), fun id => .now (c.attributes v id)⟩

/-! ## Writing -/

/-- Sets attributes one after the other; the first failure ends it, and those before stay. -/
def setAttributes (id path : String) (v : Volume) :
    List (String × String) → Volume × Except ProviderError Unit
  | [] => (v, .ok ())
  | (key, value) :: rest =>
    match v.setAttribute path (namespaced key) (Text.utf8 value) with
    | .ok v => setAttributes id path v rest
    | .error fault =>
      (v, .error (.attributes id
        ("failed to set " ++ namespaced key ++ ": " ++ fault.message)))

/-- Writes the content of a document and then sets its attributes in the order of their names. -/
def write (c : DirectoryCorpus) (v : Volume) (id content : String) (attributes : Attributes) :
    Volume × Except ProviderError Unit :=
  match c.pathFor id with
  | .error error => (v, .error error)
  | .ok path =>
    match v.write path (Text.utf8 content) with
    | .error fault => (v, .error (.content id fault.message))
    | .ok v => setAttributes id path v attributes.toList

/-- Writes documents one after the other up to the first failure. -/
def writeAll (c : DirectoryCorpus) (v : Volume) : List Document → Volume × Except ProviderError Unit
  | [] => (v, .ok ())
  | d :: rest =>
    match c.write v d.id d.content d.attributes with
    | (v, .ok ()) => c.writeAll v rest
    | (v, .error error) => (v, .error error)

/-! ## Probing -/

def probeName : String := ".scoperag_xattr_probe"

def probeKey : String := "user.scoperag.probe"

def probeValue : List UInt8 := Text.utf8 "probe"

/-- Sets an attribute at a path, reads it back and removes it. -/
def probe (v : Volume) (path : String) : Volume × Except ProviderError Unit :=
  match v.setAttribute path probeKey probeValue with
  | .error fault => (v, .error (.unsupported ("filesystem rejected user xattr: " ++ fault.message)))
  | .ok v =>
    match v.getAttribute path probeKey with
    | .error fault =>
      (v, .error (.unsupported ("xattr was set but could not be read: " ++ fault.message)))
    | .ok value =>
      if value = some probeValue then ((v.removeAttribute path probeKey).toOption.getD v, .ok ())
      else (v, .error (.unsupported "xattr was set but read back a different value"))

/-- Whether attributes can be stored in a directory, found out on a file that is removed again. -/
def checkSupport (v : Volume) (directory : String) : Volume × Except ProviderError Unit :=
  let path := Volume.Path.join directory probeName
  match v.write path probeValue with
  | .error fault =>
    (v, .error (.unsupported ("could not create probe file: " ++ fault.message)))
  | .ok v =>
    let (v, outcome) := probe v path
    ((v.remove path).toOption.getD v, outcome)

end DirectoryCorpus

end ScopedRetrieval
