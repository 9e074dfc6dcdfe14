/-
Providers: where documents come from and who computes their embeddings. A provider answers a call
after a delay, with a value or with an error; what it answers depends on the arguments alone.
-/
import ScopedRetrieval.Embedding.Hash

namespace ScopedRetrieval

/-- Why a provider could not do what was asked. -/
inductive ProviderError where
  | notFound (id : String)
  | content (id reason : String)
  | attributes (id reason : String)
  | embedding (reason : String)
  /-- An embedder returned a vector of another length than it declares. -/
  | wrongDimension (embedder : String) (returned declared : Nat)
  | timeout (durationMs : UInt64)
  | unsupported (reason : String)
deriving DecidableEq

namespace ProviderError

def embeddingMessage (reason : String) : String := "Embedding failed: " ++ reason

def message : ProviderError → String
  | notFound id => "Document not found: " ++ id
  | content id reason => "Failed to read content of " ++ id ++ ": " ++ reason
  | attributes id reason => "Failed to read attributes of " ++ id ++ ": " ++ reason
  | embedding reason => embeddingMessage reason
  | wrongDimension embedder returned declared =>
    embeddingMessage (embedder ++ " returned " ++ toString returned ++ " dimensions, expected " ++
      toString declared)
  | timeout durationMs => "Provider call timed out after " ++ toString durationMs.toNat ++ "ms"
  | unsupported reason => "Unsupported metadata backend: " ++ reason

end ProviderError

/-- An answer and how many milliseconds it takes to come. -/
structure Reply (α : Type) where
  delayMs : Nat := 0
  outcome : Except ProviderError α

namespace Reply

variable {α : Type}

def now (outcome : Except ProviderError α) : Reply α := { outcome }

end Reply

/-- A source of documents. -/
structure MetadataProvider where
  list : Reply (List String)
  content : String → Reply String
  attributes : String → Reply Attributes

/-- A source of embeddings. -/
structure EmbeddingProvider where
  name : String
  /-- The length of the vectors it promises to return. -/
  dimension : Nat
  embed : String → Attributes → Reply Embedding

def HashEmbedder.toProvider (e : HashEmbedder) : EmbeddingProvider :=
  ⟨"hash", e.dimension, fun content attributes => .now (.ok (e.embed content attributes))⟩

end ScopedRetrieval
