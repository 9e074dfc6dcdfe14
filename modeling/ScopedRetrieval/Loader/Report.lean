/-
Reports of a load: what was indexed, what was indexed without its attributes and what was skipped,
each list in ascending order of the identifiers.
-/
import ScopedRetrieval.Loader.Document

namespace ScopedRetrieval

structure LoadReport where
  indexed : List String
  degraded : List LoadFailure
  failures : List LoadFailure
  /-- The generation of the index after the load. -/
  generation : UInt64
deriving DecidableEq

namespace LoadReport

/-- How many documents were to be loaded. -/
def attempted (r : LoadReport) : Nat := r.indexed.length + r.failures.length

/-- Whether every document was indexed with its attributes. -/
def isClean (r : LoadReport) : Bool := r.failures.isEmpty && r.degraded.isEmpty

def degradedIds (r : LoadReport) : List String := r.degraded.map (·.id)

def failedIds (r : LoadReport) : List String := r.failures.map (·.id)

/-- The documents among some results, in their order. -/
def loadedOf (results : List LoadResult) : List LoadedDocument := results.filterMap (·.toOption)

/-- The failures among some results, in their order. -/
def failuresOf (results : List LoadResult) : List LoadFailure :=
  results.filterMap fun
    | .error failure => some failure
    | .ok _ => none

/-- Failures in ascending order of the identifiers. -/
def sortFailures (failures : List LoadFailure) : List LoadFailure :=
  failures.mergeSort fun a b => a.id ≤ b.id

/-- The report of some results, in whatever order they came. -/
def ofResults (results : List LoadResult) (generation : UInt64) : LoadReport :=
  let loaded := loadedOf results
  { indexed := (loaded.map (·.entry.document.id)).mergeSort fun a b => a ≤ b
    degraded := sortFailures (loaded.filterMap (·.degraded))
    failures := sortFailures (failuresOf results)
    generation }

end LoadReport

end ScopedRetrieval
