/-
Corpora in memory, and the TOML documents that they are read from and written to. In a manifest
every document has an identifier of its own, and none is blank.
-/
import ScopedRetrieval.Provider
import ScopedRetrieval.Text.Blank
import ScopedRetrieval.Toml.Parser
import ScopedRetrieval.Toml.Printer
import ScopedRetrieval.Toml.Shape
import ScopedRetrieval.Volume.Basic

namespace ScopedRetrieval

open Toml (Value Table ShapeFault)

/-- Why a text or a file is no manifest. -/
inductive ManifestFault where
  | blankId
  | duplicateId (id : String)
  | malformed (fault : Toml.Fault)
  | misshapen (fault : Toml.ShapeFault)
  | unreadable (path : String) (fault : Volume.Fault)
  | unwritable
deriving DecidableEq

def ManifestFault.message : ManifestFault → String
  | blankId => "Document id must not be empty"
  | duplicateId id => "Duplicate document id: " ++ id
  | malformed fault => "Failed to parse manifest: " ++ fault.message
  | misshapen fault => "Failed to parse manifest: " ++ fault.message
  | unreadable path fault => "Failed to read " ++ path ++ ": " ++ fault.message
  | unwritable => "Failed to serialize manifest: an integer is out of range"

namespace Document

def toToml (d : Document) : Value :=
  .table
    [("id", .string d.id), ("content", .string d.content),
      ("attributes", .table (d.attributes.toList.map fun e => (e.1, .string e.2)))]

def fieldNames : List String := ["id", "content", "attributes"]

def ofToml (v : Value) : Except ShapeFault Document := do
  let some (t : Table) := v.record? fieldNames | throw (.wrong "documents")
  return {
    id := ← t.need "id" Value.string?
    content := ← t.need "content" Value.string?
    attributes := ← t.needOr "attributes" .empty Value.texts? }

def listOfToml : Value → Except ShapeFault (List Document)
  | .array items => items.mapM ofToml
  | _ => .error (.wrong "documents")

end Document

/-- Documents under their identifiers. -/
structure MemoryCorpus where
  documents : KeyMap Document := .empty
deriving DecidableEq, Inhabited

namespace MemoryCorpus

/-- Adds a document, in place of the one with the same identifier. -/
def insert (c : MemoryCorpus) (d : Document) : MemoryCorpus := ⟨c.documents.insert d.id d⟩

/-- The corpus of some documents, the later of two with the same identifier. -/
def ofDocuments (documents : List Document) : MemoryCorpus :=
  ⟨.ofList (documents.map fun d => (d.id, d))⟩

/-- The documents in ascending order of their identifiers. -/
def toList (c : MemoryCorpus) : List Document := c.documents.values

def ids (c : MemoryCorpus) : List String := c.documents.keys

def size (c : MemoryCorpus) : Nat := c.documents.size

def isEmpty (c : MemoryCorpus) : Bool := c.documents.isEmpty

def lookup (c : MemoryCorpus) (id : String) : Except ProviderError Document :=
  (c.documents.find? id).elim (.error (.notFound id)) .ok

def content (c : MemoryCorpus) (id : String) : Except ProviderError String :=
  (c.lookup id).map (·.content)

def attributes (c : MemoryCorpus) (id : String) : Except ProviderError Attributes :=
  (c.lookup id).map (·.attributes)

def toProvider (c : MemoryCorpus) : MetadataProvider :=
  ⟨.now (.ok c.ids), fun id => .now (c.content id), fun id => .now (c.attributes id)⟩

/-! ## Manifests -/

/-- The first fault among the identifiers of some documents when those in `seen` are taken. -/
def idFault? (seen : List String) : List Document → Option ManifestFault
  | [] => none
  | d :: rest =>
    if Text.isBlank d.id then some .blankId
    else if d.id ∈ seen then some (.duplicateId d.id)
    else idFault? (d.id :: seen) rest

/-- The corpus of documents whose identifiers are not blank and all differ. -/
def ofDistinct (documents : List Document) : Except ManifestFault MemoryCorpus :=
  match idFault? [] documents with
  | some fault => .error fault
  | none => .ok (ofDocuments documents)

/-- The documents that a TOML document lists. -/
def documentsOfToml (t : Table) : Except ShapeFault (List Document) :=
  t.within "documents" [] Document.listOfToml

def parse (text : String) : Except ManifestFault MemoryCorpus := do
  let t ← (Toml.parse text).mapError .malformed
  ofDistinct (← (documentsOfToml t).mapError .misshapen)

def loadFile (v : Volume) (path : String) : Except ManifestFault MemoryCorpus := do
  parse (← (v.readText path).mapError (.unreadable path))

def toToml (c : MemoryCorpus) : Table := [("documents", .array (c.toList.map Document.toToml))]

def render (c : MemoryCorpus) : Except ManifestFault String :=
  (Toml.render c.toToml).elim (.error .unwritable) .ok

end MemoryCorpus

end ScopedRetrieval
