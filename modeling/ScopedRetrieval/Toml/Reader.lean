/-
Readers: functions that take what they read from the front of a text and leave the rest. Here are
the ones for what separates values: spaces, line ends and comments.
-/

namespace ScopedRetrieval.Toml

/-- Reads something from the front of a text, or fails. -/
abbrev Reader (α : Type) := List Char → Option (α × List Char)

/-- The blanks within a line. -/
def isSpace (c : Char) : Bool := c = ' ' || c = '\t'

/-- The characters that comments and strings may hold: all but the control characters, and tabs. -/
def isText (c : Char) : Bool := c = '\t' || 0x20 ≤ c.toNat && c.toNat ≠ 0x7F

def skipSpaces (cs : List Char) : List Char := cs.dropWhile isSpace

/-- What follows a line end: a line feed, which a carriage return may precede. -/
def skipNewline? : List Char → Option (List Char)
  | '\n' :: rest => some rest
  | '\r' :: '\n' :: rest => some rest
  | _ => none

/-- What follows a line end, or the text itself where there is none. -/
def skipNewline (cs : List Char) : List Char := (skipNewline? cs).getD cs

/-- What follows a comment, or the text itself where there is none. -/
def skipComment : List Char → List Char
  | '#' :: rest => rest.dropWhile isText
  | cs => cs

/-- What follows the end of a line, before which there may be spaces and a comment. The end of the
text ends the last line. -/
def skipLineEnd? (cs : List Char) : Option (List Char) :=
  match skipComment (skipSpaces cs) with
  | [] => some []
  | rest => skipNewline? rest

/-- What follows spaces, line ends and comments. -/
def skipFiller (inComment : Bool := false) : List Char → List Char
  | [] => []
  | c :: rest =>
    if c = '\n' then skipFiller false rest
    else if c = '\r' ∧ rest.head? = some '\n' then skipFiller false rest
    else if inComment then if isText c then skipFiller true rest else c :: rest
    else if isSpace c then skipFiller false rest
    else if c = '#' then skipFiller true rest
    else c :: rest

/-- The number of a digit in a base up to sixteen. -/
def digit? (base : Nat) (c : Char) : Option Nat :=
  let n :=
    if '0' ≤ c ∧ c ≤ '9' then c.toNat - '0'.toNat
    else if 'a' ≤ c ∧ c ≤ 'f' then c.toNat - 'a'.toNat + 10
    else if 'A' ≤ c ∧ c ≤ 'F' then c.toNat - 'A'.toNat + 10
    else base
  if n < base then some n else none

/-- The number of some digits. -/
def digitsValue (base : Nat) (digits : List Char) : Nat :=
  digits.foldl (fun n c => n * base + (digit? base c).getD 0) 0

end ScopedRetrieval.Toml
