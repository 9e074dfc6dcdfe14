/-
Embeddings: vectors of doubles that are computed once, when a document is indexed.
-/
import ScopedRetrieval.Number.Decimal

namespace ScopedRetrieval

/-- The vector of a document. -/
structure Embedding where
  values : List Binary64
deriving DecidableEq, Inhabited

namespace Embedding

def dimension (e : Embedding) : Nat := e.values.length

/-- The components between brackets. -/
def describe (e : Embedding) : String :=
  "[" ++ String.intercalate ", " (e.values.map Number.Layout.plain.render) ++ "]"

end Embedding

end ScopedRetrieval
