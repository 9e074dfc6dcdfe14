/-
Reading documents: lines that hold a field, a header or neither, and the values of fields, which may
be nested to a limit.
-/
import ScopedRetrieval.Toml.Assembly
import ScopedRetrieval.Toml.Key
import ScopedRetrieval.Toml.Moment
import ScopedRetrieval.Toml.Number

namespace ScopedRetrieval.Toml

/-! ## Values -/

/-- Reads a value that does not hold others. -/
def readScalar : Reader Value
  | 't' :: 'r' :: 'u' :: 'e' :: rest => some (.boolean true, rest)
  | 'f' :: 'a' :: 'l' :: 's' :: 'e' :: rest => some (.boolean false, rest)
  | c :: rest =>
    if c = '"' ∨ c = '\'' then (readQuoted (c :: rest)).map fun r => (.string r.1, r.2)
    else
      match readMoment (c :: rest) with
      | some (text, rest) => some (.moment text, rest)
      | none => readNumber (c :: rest)
  | [] => none

/-- Reads the items of an array behind its bracket, at most `fuel` of them. Line ends and comments
may stand between them, and a comma behind the last. -/
def readItems (item : Reader Value) : Nat → Reader (List Value)
  | 0, _ => none
  | fuel + 1, cs =>
    match skipFiller false cs with
    | ']' :: rest => some ([], rest)
    | cs => do
      let (v, rest) ← item cs
      match skipFiller false rest with
      | ',' :: rest =>
        let (vs, rest) ← readItems item fuel rest
        return (v :: vs, rest)
      | ']' :: rest => return ([v], rest)
      | _ => none

/-- Reads a field: a path, an equals sign and a value. -/
def readField (item : Reader Value) : Reader ((List String × String) × Value) := fun cs => do
  let (path, rest) ← readPath cs
  match rest with
  | '=' :: rest =>
    let (v, rest) ← item (skipSpaces rest)
    return ((path, v), rest)
  | _ => none

/-- Reads the fields of a table between braces, at most `fuel` of them, into a node. They stand on
one line, and there is no comma behind the last. -/
def readBraced (item : Reader Value) (n : Node) : Nat → Reader Node
  | 0, _ => none
  | fuel + 1, cs => do
    let (((path, key), v), rest) ← readField item cs
    let n ← n.addAt path key v
    match skipSpaces rest with
    | ',' :: rest => readBraced item n fuel rest
    | '\x7d' :: rest => return (n, rest)
    | _ => none

/-- How deep values may be nested. -/
def nestingLimit : Nat := 80

/-- Reads a value that is nested at most so deep. -/
def readValueWithin : Nat → Reader Value
  | 0, _ => none
  | depth + 1, '[' :: rest =>
    if depth = 0 then none
    else (readItems (readValueWithin depth) (rest.length + 1) rest).map fun r => (.array r.1, r.2)
  | depth + 1, '\x7b' :: rest =>
    if depth = 0 then none
    else
      match skipSpaces rest with
      | '\x7d' :: rest => some (.table [], rest)
      | rest =>
        (readBraced (readValueWithin depth) .root (rest.length + 1) rest).map fun r =>
          (r.1.toValue, r.2)
  | _ + 1, cs => readScalar cs

def readValue : Reader Value := readValueWithin nestingLimit

/-! ## Lines -/

/-- What a line says. -/
inductive Statement where
  | field (path : List String) (key : String) (v : Value)
  | header (path : List String) (key : String)
  | row (path : List String) (key : String)

/-- Reads the path of a header up to the brackets that close it. -/
def readHeader (brackets : Nat) (build : List String → String → Statement) : Reader Statement :=
  fun cs => do
    let ((path, key), rest) ← readPath cs
    if rest.take brackets = List.replicate brackets ']' then
      return (build path key, rest.drop brackets)
    else none

/-- Reads what a line says, if it says anything. -/
def readStatement (cs : List Char) : Option (Option Statement × List Char) :=
  match cs with
  | [] => some (none, cs)
  | '[' :: '[' :: rest => (readHeader 2 .row rest).map fun r => (some r.1, r.2)
  | '[' :: rest => (readHeader 1 .header rest).map fun r => (some r.1, r.2)
  | c :: _ =>
    if c = '#' ∨ (skipNewline? cs).isSome then some (none, cs)
    else (readField readValue cs).map fun r => (some (.field r.1.1.1 r.1.1.2 r.1.2), r.2)

/-! ## Documents -/

/-- Why a text is no document; lines are counted from one. -/
inductive Fault where
  | malformed (line : Nat)
  | conflict (line : Nat)
deriving DecidableEq

def Fault.message : Fault → String
  | malformed line => "not a statement at line " ++ toString line
  | conflict line => "a key or table is defined twice at line " ++ toString line

/-- A document up to some line: its tables, and the header that its fields now stand under. -/
structure Draft where
  root : Node
  header : List String

/-- Adds what a line says. -/
def Draft.add (d : Draft) : Statement → Option Draft
  | .field path key v =>
    (d.root.descend false (·.addAt path key v) d.header).map (⟨·, d.header⟩)
  | .header path key => (d.root.descend false (·.openTable key) path).map (⟨·, path ++ [key]⟩)
  | .row path key => (d.root.descend false (·.openRow key) path).map (⟨·, path ++ [key]⟩)

def Draft.fields (d : Draft) : Table :=
  match d.root.toValue with
  | .table fields => fields
  | _ => []

/-- Reads at most `fuel` lines; `lineOf` tells the number of the line with which a text begins. -/
def readLines (lineOf : List Char → Nat) (d : Draft) : Nat → List Char → Except Fault Draft
  | _, [] => .ok d
  | 0, cs => .error (.malformed (lineOf cs))
  | fuel + 1, cs =>
    match readStatement (skipSpaces cs) with
    | none => .error (.malformed (lineOf cs))
    | some (statement, rest) =>
      match skipLineEnd? rest with
      | none => .error (.malformed (lineOf cs))
      | some next =>
        match statement.elim (some d) d.add with
        | none => .error (.conflict (lineOf cs))
        | some d => readLines lineOf d fuel next

/-- The number of the line at which the end `rest` of a text begins. -/
def lineNumber (cs rest : List Char) : Nat := (cs.take (cs.length - rest.length)).count '\n' + 1

/-- The characters of a text without the mark of its byte order. -/
def withoutMark : List Char → List Char
  | '\uFEFF' :: rest => rest
  | cs => cs

def parse (text : String) : Except Fault Table :=
  let cs := withoutMark text.toList
  (readLines (lineNumber cs) ⟨.root, []⟩ (cs.length + 1) cs).map (·.fields)

end ScopedRetrieval.Toml
