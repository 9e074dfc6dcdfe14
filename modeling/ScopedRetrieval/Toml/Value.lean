/-
The values of TOML documents. A document is a table; a table is a list of fields whose keys differ.
-/
import ScopedRetrieval.Number.Binary64

namespace ScopedRetrieval.Toml

/-- A value; a date or time is kept as its text. -/
inductive Value where
  | string (s : String)
  | integer (n : Int)
  | float (x : Binary64)
  | boolean (b : Bool)
  | moment (text : String)
  | array (items : List Value)
  | table (fields : List (String × Value))
deriving Inhabited

/-- The fields of a table in their order. -/
abbrev Table := List (String × Value)

/-- The smallest and the largest integer that can be written. -/
def integerMin : Int := -0x8000000000000000

def integerMax : Int := 0x7FFFFFFFFFFFFFFF

def integerFits (n : Int) : Bool := integerMin ≤ n ∧ n ≤ integerMax

end ScopedRetrieval.Toml
