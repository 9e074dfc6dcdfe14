/-
Tables as they come together. A table is opened by a header of its own, or implied by a longer
header, or made by a dotted key; which of these it is decides how it may be added to. A header can
open a table that was only implied, and a dotted key can add to one that dotted keys made.
-/
import ScopedRetrieval.Toml.Value

namespace ScopedRetrieval.Toml

/-- How a table came to be. -/
inductive Origin where
  | header
  | implied
  | dotted
deriving DecidableEq

/-- A value, or a table that may still grow, or a list of such tables, the last one apart. -/
inductive Node where
  | closed (v : Value)
  | table (origin : Origin) (fields : List (String × Node))
  | rows (earlier : List Node) (last : Node)

namespace Node

/-- The document before its first line. -/
def root : Node := table .header []

/-- Puts a node under a key, in place of the one that is there. -/
def setField (key : String) (n : Node) : List (String × Node) → List (String × Node)
  | [] => [(key, n)]
  | e :: rest => if e.1 = key then (key, n) :: rest else e :: setField key n rest

/-- Changes the table to which a path leads. Tables that are missing on the way are made, as dotted
keys or headers make them; a dotted path does not enter a table that has a header. -/
def descend (dotted : Bool) (change : Node → Option Node) : List String → Node → Option Node
  | [], n => change n
  | key :: path, table origin fields => do
    let next := (fields.lookup key).getD (table (if dotted then .dotted else .implied) [])
    let next ← match next with
      | closed _ => none
      | rows earlier last => (descend dotted change path last).map (rows earlier)
      | table o _ => if dotted ∧ o = .header then none else descend dotted change path next
    return table origin (setField key next fields)
  | _ :: _, _ => none

/-- Adds a value to a table. A table that a dotted path leads to must have been made by one. -/
def addValue (direct : Bool) (key : String) (v : Value) : Node → Option Node
  | table origin fields =>
    if (origin = .dotted) = direct ∨ (fields.lookup key).isSome then none
    else some (table origin (fields ++ [(key, closed v)]))
  | _ => none

/-- Adds a value under a path of dotted keys. -/
def addAt (path : List String) (key : String) (v : Value) : Node → Option Node :=
  descend true (addValue path.isEmpty key v) path

/-- Opens a table in another: a new one, or one that was only implied. -/
def openTable (key : String) : Node → Option Node
  | table origin fields =>
    match fields.lookup key with
    | none => some (table origin (fields ++ [(key, table .header [])]))
    | some (table .implied inner) => some (table origin (setField key (table .header inner) fields))
    | some _ => none
  | _ => none

/-- Opens one more row of a list of tables. -/
def openRow (key : String) : Node → Option Node
  | table origin fields =>
    match fields.lookup key with
    | none => some (table origin (fields ++ [(key, rows [] (table .header []))]))
    | some (rows earlier last) =>
      some (table origin (setField key (rows (last :: earlier) (table .header [])) fields))
    | some _ => none
  | _ => none

mutual

/-- The value that a node has become. -/
def toValue : Node → Value
  | closed v => v
  | table _ fields => .table (fieldValues fields)
  | rows earlier last => .array (rowValues earlier [toValue last])

def fieldValues : List (String × Node) → List (String × Value)
  | [] => []
  | (key, n) :: rest => (key, toValue n) :: fieldValues rest

/-- Puts the values of rows, the latest first, before others. -/
def rowValues : List Node → List Value → List Value
  | [], done => done
  | n :: earlier, done => rowValues earlier (toValue n :: done)

end

end Node

end ScopedRetrieval.Toml
