/-
The index: a finite map from identifiers to documents with their embeddings, a counter of the
changes made to it, and whether a corpus was ever loaded. It is a value: a snapshot is the value of
a moment, and later changes make other values.
-/
import ScopedRetrieval.Provider

namespace ScopedRetrieval

/-- A document with the embedding computed for it. -/
structure Entry where
  document : Document
  embedding : Embedding
deriving DecidableEq, Inhabited

/-- The entries of a moment and the generation they belong to. -/
structure Snapshot where
  entries : KeyMap Entry
  generation : UInt64
deriving DecidableEq, Inhabited

namespace Snapshot

/-- The entries in ascending order of their identifiers. -/
def toList (s : Snapshot) : List Entry := s.entries.values

/-- The identifiers in ascending order. -/
def ids (s : Snapshot) : List String := s.entries.keys

def size (s : Snapshot) : Nat := s.entries.size

def isEmpty (s : Snapshot) : Bool := s.entries.isEmpty

end Snapshot

/-- The indexed documents, the number of changes made so far and whether a load has completed. -/
structure Index where
  entries : KeyMap Entry := .empty
  generation : UInt64 := 0
  loaded : Bool := false
deriving DecidableEq, Inhabited

namespace Index

/-- The index before any operation. -/
def empty : Index := {}

/-- Stores an entry under the identifier of its document. -/
def put (i : Index) (entry : Entry) : Index :=
  { i with entries := i.entries.insert entry.document.id entry, generation := i.generation + 1 }

def get? (i : Index) (id : String) : Option Entry := i.entries.find? id

/-- Removes the entry of an identifier, and tells whether there was one; without one nothing
changes. -/
def remove (i : Index) (id : String) : Bool × Index :=
  if i.entries.contains id then
    (true, { i with entries := i.entries.erase id, generation := i.generation + 1 })
  else (false, i)

/-- The entries under the identifiers of their documents, the later of two with the same one. -/
def entryMap (entries : List Entry) : KeyMap Entry :=
  .ofList (entries.map fun e => (e.document.id, e))

/-- Puts other entries in place of all, in one change that counts as a completed load. -/
def replaceAll (i : Index) (entries : List Entry) : Index :=
  { entries := entryMap entries, generation := i.generation + 1, loaded := true }

/-- Removes all entries; a loaded index stays loaded. -/
def clear (i : Index) : Index :=
  { i with entries := .empty, generation := i.generation + 1 }

/-- Notes that a load has completed. -/
def markLoaded (i : Index) : Index := { i with loaded := true }

def snapshot (i : Index) : Snapshot := ⟨i.entries, i.generation⟩

def size (i : Index) : Nat := i.entries.size

def isEmpty (i : Index) : Bool := i.entries.isEmpty

end Index

end ScopedRetrieval
