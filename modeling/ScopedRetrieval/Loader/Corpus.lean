/-
Loading a corpus into an index, one document after the other as they complete, or all of them in one
change. No failure of a document ends a load; only a failed listing does, and it changes nothing.
-/
import ScopedRetrieval.Loader.Report
import ScopedRetrieval.Loader.Schedule

namespace ScopedRetrieval.Loader

/-- The results for some identifiers in the order in which the documents complete. -/
def results (l : Loader) (ids : List String) : List LoadResult :=
  Schedule.completions l.settings.concurrency.toNat
    (ids.map fun id => ⟨l.loadDocument id, l.loadTime id⟩)

/-- The entries among some results, in their order. -/
def entriesOf (results : List LoadResult) : List Entry :=
  (LoadReport.loadedOf results).map (·.entry)

/-- Stores the entries one by one and notes the completed load. -/
def applyOneByOne (i : Index) (results : List LoadResult) : Index × LoadReport :=
  let i := ((entriesOf results).foldl Index.put i).markLoaded
  (i, .ofResults results i.generation)

/-- Puts the entries in place of all others, in one change. -/
def applyAtOnce (i : Index) (results : List LoadResult) : Index × LoadReport :=
  let i := i.replaceAll (entriesOf results)
  (i, .ofResults results i.generation)

/-- Loads the given documents beside those already indexed. -/
def load (l : Loader) (i : Index) (ids : List String) : Index × LoadReport :=
  applyOneByOne i (l.results ids)

/-- Loads the given documents in place of those already indexed. -/
def rebuild (l : Loader) (i : Index) (ids : List String) : Index × LoadReport :=
  applyAtOnce i (l.results ids)

def listing (l : Loader) : Except ProviderError (List String) := (l.bounded l.metadata.list).outcome

/-- Loads every document that the provider lists. -/
def loadAll (l : Loader) (i : Index) : Index × Except ProviderError LoadReport :=
  match l.listing with
  | .error error => (i, .error error)
  | .ok ids => (l.load i ids).map id .ok

/-- Loads every document that the provider lists in place of those already indexed. -/
def rebuildAll (l : Loader) (i : Index) : Index × Except ProviderError LoadReport :=
  match l.listing with
  | .error error => (i, .error error)
  | .ok ids => (l.rebuild i ids).map id .ok

end ScopedRetrieval.Loader
