/-
Writing documents. The plain fields of a table come first, then its tables, each under a header with
an empty line before it. An array of at least two items has one on each line.
-/
import ScopedRetrieval.Number.Decimal
import ScopedRetrieval.Toml.Key
import ScopedRetrieval.Toml.Value

namespace ScopedRetrieval.Toml

/-- How floats are written. -/
def floatLayout : Number.Layout := { Number.Layout.plain with notANumber := "nan" }

/-- The items of an array between its brackets. -/
def bracketed (items : List String) : String :=
  if items.length ≤ 1 then "[" ++ String.join items ++ "]"
  else "[\n" ++ String.join (items.map fun item => "    " ++ item ++ ",\n") ++ "]"

mutual

/-- The text of a value within a line. -/
def writeValue : Value → String
  | .string s => writeQuoted s
  | .integer n => toString n
  | .float x => floatLayout.render x
  | .boolean b => if b then "true" else "false"
  | .moment text => text
  | .array items => bracketed (writeItems items)
  | .table fields => "\x7b " ++ String.intercalate ", " (writeFields fields) ++ " \x7d"

def writeItems : List Value → List String
  | [] => []
  | v :: rest => writeValue v :: writeItems rest

def writeFields : List (String × Value) → List String
  | [] => []
  | (key, v) :: rest => (writeKey key ++ " = " ++ writeValue v) :: writeFields rest

end

def Value.isTable : Value → Bool
  | .table _ => true
  | _ => false

/-- Whether a value is written under headers: a table, or an array of tables that is not empty. -/
def Value.hasHeader : Value → Bool
  | .table _ => true
  | .array items => !items.isEmpty && items.all Value.isTable
  | _ => false

/-- The lines of the fields that need no header. -/
def plainLines (fields : Table) : String :=
  String.join ((writeFields (fields.filter fun e => !e.2.hasHeader)).map (· ++ "\n"))

mutual

/-- The sections of a value that is written under headers. -/
def valueSections (path : List String) : Value → List String
  | .table fields =>
    ("[" ++ writePath path ++ "]\n" ++ plainLines fields) :: fieldSections path fields
  | .array items => if items.all Value.isTable then rowSections path items else []
  | _ => []

/-- The sections of the fields of a table. -/
def fieldSections (path : List String) : List (String × Value) → List String
  | [] => []
  | (key, v) :: rest => valueSections (path ++ [key]) v ++ fieldSections path rest

/-- The sections of the rows of a list of tables. -/
def rowSections (path : List String) : List Value → List String
  | [] => []
  | .table fields :: rest =>
    ("[[" ++ writePath path ++ "]]\n" ++ plainLines fields) ::
      (fieldSections path fields ++ rowSections path rest)
  | _ :: rest => rowSections path rest

end

mutual

/-- Whether every integer in a value can be written. -/
def Value.fits : Value → Bool
  | .integer n => integerFits n
  | .array items => itemsFit items
  | .table fields => fieldsFit fields
  | _ => true

def itemsFit : List Value → Bool
  | [] => true
  | v :: rest => v.fits && itemsFit rest

def fieldsFit : List (String × Value) → Bool
  | [] => true
  | (_, v) :: rest => v.fits && fieldsFit rest

end

/-- The text of a document. -/
def renderText (fields : Table) : String :=
  let head := plainLines fields
  String.intercalate "\n" ((if head.isEmpty then [] else [head]) ++ fieldSections [] fields)

/-- The text of a document, if every integer in it can be written. -/
def render (fields : Table) : Option String :=
  if fieldsFit fields then some (renderText fields) else none

end ScopedRetrieval.Toml
