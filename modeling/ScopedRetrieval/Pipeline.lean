/-
The pipeline: a corpus is loaded into an index, documents are retrieved from it for a requester, and
a prompt is made of those admitted.
-/
import ScopedRetrieval.Failure
import ScopedRetrieval.Loader.Corpus

namespace ScopedRetrieval

/-- The parts that work on an index, and the index they work on. -/
structure Pipeline where
  loader : Loader
  filter : Filter
  prompt : PromptSettings := {}
  index : Index := .empty

/-- What was retrieved for a query and the prompt made of it. -/
structure Answer where
  outcome : Outcome
  prompt : Prompt
deriving DecidableEq, Inhabited

namespace Pipeline

/-- The pipeline that a configuration describes, over a source of documents and a network. -/
def ofConfiguration (network : Network) (c : Configuration) (metadata : MetadataProvider) :
    Except Failure Pipeline := do
  let filter ← c.filter.mapError .configuration
  let embedder ← (c.embedding.provider network).mapError .http
  return { loader := ⟨metadata, embedder, c.loader⟩, filter, prompt := c.prompt }

theorem ofConfiguration_of_ok {network : Network} {c : Configuration} {f : Filter}
    {e : EmbeddingProvider} (hfilter : Filter.ofSettings c.policy = .ok f)
    (hembedder : c.embedding.provider network = .ok e) (metadata : MetadataProvider) :
    ofConfiguration network c metadata =
      .ok { loader := ⟨metadata, e, c.loader⟩, filter := f, prompt := c.prompt } := by
  unfold ofConfiguration Configuration.filter
  rw [hfilter, hembedder]
  rfl

def load (p : Pipeline) : Pipeline × Except ProviderError LoadReport :=
  let (index, report) := p.loader.loadAll p.index
  ({ p with index }, report)

/-- Loads the whole corpus in place of what was loaded before. -/
def reload (p : Pipeline) : Pipeline × Except ProviderError LoadReport :=
  let (index, report) := p.loader.rebuildAll p.index
  ({ p with index }, report)

/-- Retrieves for a requester and makes the prompt. -/
def execute (p : Pipeline) (query : String) (requester : Requester) :
    Except RetrievalFault Answer :=
  (p.index.retrieve p.filter query requester).map fun outcome =>
    ⟨outcome, .build p.prompt query outcome.admitted⟩

end Pipeline

end ScopedRetrieval
