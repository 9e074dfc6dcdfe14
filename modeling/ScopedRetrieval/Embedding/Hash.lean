/-
Embeddings that stand in for a model: they are computed from the hash of the text alone. The first
component is the hash, the second the length of the text in bytes, and each further one a salted
hash divided by `2^64`. A vector of fewer components is the initial part of a longer one.
-/
import ScopedRetrieval.Document
import ScopedRetrieval.Text.Utf8
import ScopedRetrieval.Embedding.Basic
import ScopedRetrieval.Embedding.Fnv

namespace ScopedRetrieval

/-- An embedder with a fixed number of components, at least one. -/
structure HashEmbedder where
  dimension : Nat := 2
  dimension_pos : 0 < dimension := by decide

namespace HashEmbedder

/-- The embedder with the asked-for number of components, and with one when none is asked for. -/
def ofDimension (d : Nat) : HashEmbedder :=
  ⟨max d 1, Nat.lt_of_lt_of_le Nat.one_pos (Nat.le_max_right d 1)⟩

/-- The state from which a salted hash starts. -/
def saltedSeed (hash : UInt64) (salt : Nat) : UInt64 := hash ^^^ (.ofNat salt * Fnv.prime)

/-- The hash of bytes under a salt. -/
def saltedHash (bytes : List UInt8) (salt : Nat) : UInt64 :=
  Fnv.hashFrom (saltedSeed (Fnv.hash bytes) salt) bytes

/-- The component at a position: hash, length, and then salted hashes as parts of `2^64`. -/
def component (bytes : List UInt8) : Nat → Binary64
  | 0 => .ofNat (Fnv.hash bytes).toNat
  | 1 => .ofNat bytes.length
  | salt => .nearest false (saltedHash bytes salt).toNat UInt64.size

def embedText (e : HashEmbedder) (text : String) : Embedding :=
  ⟨(List.range e.dimension).map (component (Text.utf8 text))⟩

def embed (e : HashEmbedder) (content : String) (attributes : Attributes) : Embedding :=
  e.embedText (embeddingText content attributes)

end HashEmbedder

end ScopedRetrieval
