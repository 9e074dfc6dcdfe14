/-
JSON values and their two texts: the compact one, without blanks, and the indented one, with two
spaces for each level, one item or field on a line, and empty arrays and objects closed at once.
-/

namespace ScopedRetrieval

/-- A JSON value; a number is kept as its text. -/
inductive Json where
  | null
  | boolean (b : Bool)
  | number (text : String)
  | string (s : String)
  | array (items : List Json)
  | object (fields : List (String × Json))
deriving Inhabited

namespace Json

def natural (n : Nat) : Json := number (toString n)

def ofString? (s : Option String) : Json := s.elim null string

def ofStrings (l : List String) : Json := array (l.map string)

/-- Two hexadecimal digits of a code point below 256. -/
def hexPair (n : Nat) : String :=
  .ofList [Nat.digitChar (n / 16), Nat.digitChar (n % 16)]

/-- A character inside quotes: a quote, a backslash and control characters are escaped. -/
def escapeChar (c : Char) : String :=
  if c = '"' then "\\\""
  else if c = '\\' then "\\\\"
  else if c = '\n' then "\\n"
  else if c = '\r' then "\\r"
  else if c = '\t' then "\\t"
  else if c.toNat = 0x08 then "\\b"
  else if c.toNat = 0x0C then "\\f"
  else if c.toNat < 0x20 then "\\u00" ++ hexPair c.toNat
  else c.toString

def quote (s : String) : String := "\"" ++ String.join (s.toList.map escapeChar) ++ "\""

/-! ## Compact text -/

mutual

/-- The compact text of a value. -/
def compact : Json → String
  | null => "null"
  | boolean b => if b then "true" else "false"
  | number text => text
  | string s => quote s
  | array [] => "[]"
  | array (item :: items) => "[" ++ compact item ++ compactItems items ++ "]"
  | object [] => "\x7b\x7d"
  | object ((name, value) :: fields) =>
    "\x7b" ++ quote name ++ ":" ++ compact value ++ compactFields fields ++ "\x7d"

/-- The items behind the first. -/
def compactItems : List Json → String
  | [] => ""
  | item :: items => "," ++ compact item ++ compactItems items

/-- The fields behind the first. -/
def compactFields : List (String × Json) → String
  | [] => ""
  | (name, value) :: fields => "," ++ quote name ++ ":" ++ compact value ++ compactFields fields

end

/-! ## Indented text -/

/-- The line break before something at a level. -/
def newline (level : Nat) : String := "\n" ++ .ofList (List.replicate (2 * level) ' ')

mutual

/-- The text of a value that stands at a level. -/
def prettyAt (level : Nat) : Json → String
  | null => "null"
  | boolean b => if b then "true" else "false"
  | number text => text
  | string s => quote s
  | array [] => "[]"
  | array (item :: items) =>
    "[" ++ newline (level + 1) ++ prettyAt (level + 1) item ++ prettyItems (level + 1) items ++
      newline level ++ "]"
  | object [] => "\x7b\x7d"
  | object ((name, value) :: fields) =>
    "\x7b" ++ newline (level + 1) ++ quote name ++ ": " ++ prettyAt (level + 1) value ++
      prettyFields (level + 1) fields ++ newline level ++ "\x7d"

/-- The items behind the first. -/
def prettyItems (level : Nat) : List Json → String
  | [] => ""
  | item :: items => "," ++ newline level ++ prettyAt level item ++ prettyItems level items

/-- The fields behind the first. -/
def prettyFields (level : Nat) : List (String × Json) → String
  | [] => ""
  | (name, value) :: fields =>
    "," ++ newline level ++ quote name ++ ": " ++ prettyAt level value ++ prettyFields level fields

end

def pretty (j : Json) : String := prettyAt 0 j

end Json

end ScopedRetrieval
