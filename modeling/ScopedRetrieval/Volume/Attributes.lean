/-
Attributes of files and directories. A call concerns a link itself, and links have no attributes;
the names that may be set are those in the namespace of users.
-/
import ScopedRetrieval.Volume.Basic

namespace ScopedRetrieval.Volume

/-- What the names of attributes begin with that users may set. -/
def userNamespace : String := "user."

/-- The name without the namespace of users. -/
def userKey? (name : String) : Option String :=
  if userNamespace.toList.isPrefixOf name.toList then
    some (.ofList (name.toList.drop userNamespace.toList.length))
  else none

/-- The largest value of an attribute in bytes. -/
def valueLimit : Nat := 65536

/-- The node whose attributes are meant. -/
def attributeNode (v : Volume) (path : String) : Except Fault (String × Node) := do
  checkPath .invalid path
  let found ← v.node .stay path
  if v.keepsAttributes then return found else throw .unsupported

def attributeNames (v : Volume) (path : String) : Except Fault (List String) := do
  return (← v.attributeNode path).2.attributes.keys

def getAttribute (v : Volume) (path name : String) : Except Fault (Option (List UInt8)) := do
  return (← v.attributeNode path).2.attributes.find? name

/-- Refuses names and values that no attribute can have. -/
def checkAttribute (name : String) (value : List UInt8) : Except Fault Unit :=
  if name.toList.contains '\x00' then .error .invalid
  else if name.isEmpty ∨ nameLimit < name.utf8ByteSize then .error .outOfRange
  else if valueLimit < value.length then .error .tooBig
  else .ok ()

/-- Sets an attribute, in place of the one of the same name. -/
def setAttribute (v : Volume) (path name : String) (value : List UInt8) : Except Fault Volume := do
  checkPath .invalid path
  checkAttribute name value
  let (place, node) ← v.attributeNode path
  match userKey? name with
  | none => throw .unsupported
  | some key =>
    if node.item matches .link _ then throw .notPermitted
    if key.isEmpty then throw .invalid
    return v.put place { node with attributes := node.attributes.insert name value }

def removeAttribute (v : Volume) (path name : String) : Except Fault Volume := do
  let (place, node) ← v.attributeNode path
  if node.attributes.contains name then
    return v.put place { node with attributes := node.attributes.erase name }
  else throw .noAttribute

end ScopedRetrieval.Volume
