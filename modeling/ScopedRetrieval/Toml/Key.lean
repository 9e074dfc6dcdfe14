/-
Keys: bare words, or strings on one line; several of them, joined by dots, make a path.
-/
import ScopedRetrieval.Toml.Quoted

namespace ScopedRetrieval.Toml

/-- The characters of bare keys. -/
def isBare (c : Char) : Bool := c.isAlphanum || c = '_' || c = '-'

def readKey : Reader String
  | [] => none
  | c :: rest =>
    if isBare c then
      some (.ofList (c :: rest.takeWhile isBare), rest.dropWhile isBare)
    else readQuotedLine (c :: rest)

/-- The number of keys from which on a path is too long. -/
def pathLimit : Nat := 80

/-- Reads a path of at most `fuel` keys, with spaces around its dots. -/
def readPathWithin : Nat → Reader (List String)
  | 0, _ => none
  | fuel + 1, cs => do
    let (key, rest) ← readKey (skipSpaces cs)
    match skipSpaces rest with
    | '.' :: rest =>
      let (keys, rest) ← readPathWithin fuel rest
      return (key :: keys, rest)
    | rest => return ([key], rest)

/-- Reads a path, as the keys that lead to it and its last key. -/
def readPath : Reader (List String × String) := fun cs => do
  let (keys, rest) ← readPathWithin (pathLimit - 1) cs
  let last ← keys.getLast?
  return ((keys.dropLast, last), rest)

/-- Writes a key: bare if it can be, else in the first form of one line that can hold it. -/
def writeKey (s : String) : String :=
  let cs := s.toList
  .ofList <|
    if !cs.isEmpty ∧ cs.all isBare then cs
    else if fitsLine '"' cs ∧ !cs.contains '\\' then basicLine cs
    else if fitsLine '\'' cs then literalLine cs
    else basicLine cs

def writePath (path : List String) : String := String.intercalate "." (path.map writeKey)

end ScopedRetrieval.Toml
