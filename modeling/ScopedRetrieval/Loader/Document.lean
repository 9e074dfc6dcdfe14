/-
Loading one document: its content, then its attributes, then its embedding, each call bounded by the
same time. Without content or embedding the document fails; without attributes it is degraded and
goes on with none.
-/
import ScopedRetrieval.Index

namespace ScopedRetrieval

/-- How a corpus is loaded. -/
structure LoaderSettings where
  /-- How many documents are loaded side by side. -/
  concurrency : UInt64
  /-- How many milliseconds each call of a provider may take. -/
  providerTimeoutMs : UInt64 := 5000
deriving DecidableEq, Inhabited

/-- How a corpus is loaded where nothing is given: as many documents side by side as the machine has
processors, and one at least. -/
def LoaderSettings.builtIn (processors : UInt64) : LoaderSettings :=
  { concurrency := max processors 1 }

inductive LoadStage where
  | content
  | attributes
  | embedding
deriving DecidableEq, Inhabited

def LoadStage.label : LoadStage → String
  | content => "content"
  | attributes => "attributes"
  | embedding => "embedding"

/-- A document and the step that failed for it. -/
structure LoadFailure where
  id : String
  stage : LoadStage
  error : ProviderError
deriving DecidableEq

/-- A document that can be indexed, with the failure it was degraded by. -/
structure LoadedDocument where
  entry : Entry
  degraded : Option LoadFailure
deriving DecidableEq

/-- What became of one document. -/
abbrev LoadResult := Except LoadFailure LoadedDocument

/-- The answer as it is seen by one who waits no longer than a given time. -/
def Reply.bounded {α : Type} (timeoutMs : UInt64) (r : Reply α) : Reply α :=
  if timeoutMs.toNat < r.delayMs then ⟨timeoutMs.toNat, .error (.timeout timeoutMs)⟩ else r

/-- Refuses a vector of another length than the embedder declares. -/
def EmbeddingProvider.checkDimension (p : EmbeddingProvider) (e : Embedding) :
    Except ProviderError Embedding :=
  if e.dimension = p.dimension then .ok e
  else .error (.wrongDimension p.name e.dimension p.dimension)

/-- Loads documents from one provider and embeds them with another. -/
structure Loader where
  metadata : MetadataProvider
  embedder : EmbeddingProvider
  settings : LoaderSettings

namespace Loader

def bounded {α : Type} (l : Loader) (r : Reply α) : Reply α :=
  r.bounded l.settings.providerTimeoutMs

def contentReply (l : Loader) (id : String) : Reply String := l.bounded (l.metadata.content id)

def attributesReply (l : Loader) (id : String) : Reply Attributes :=
  l.bounded (l.metadata.attributes id)

def embeddingReply (l : Loader) (content : String) (attributes : Attributes) : Reply Embedding :=
  l.bounded (l.embedder.embed content attributes)

/-- The attributes to go on with, and the failure when there are none to be had. -/
def readAttributes (l : Loader) (id : String) : Attributes × Option LoadFailure :=
  match (l.attributesReply id).outcome with
  | .ok attributes => (attributes, none)
  | .error error => (.empty, some ⟨id, .attributes, error⟩)

def loadDocument (l : Loader) (id : String) : LoadResult := do
  let content ← (l.contentReply id).outcome.mapError (⟨id, .content, ·⟩)
  let (attributes, degraded) := l.readAttributes id
  let embedding ← ((l.embeddingReply content attributes).outcome.bind
    l.embedder.checkDimension).mapError (⟨id, .embedding, ·⟩)
  return ⟨⟨⟨id, content, attributes⟩, embedding⟩, degraded⟩

/-- How long the calls for a document take. -/
def loadTime (l : Loader) (id : String) : Nat :=
  let reply := l.contentReply id
  reply.delayMs + match reply.outcome with
    | .error _ => 0
    | .ok content =>
      (l.attributesReply id).delayMs +
        (l.embeddingReply content (l.readAttributes id).1).delayMs

end Loader

end ScopedRetrieval
