/-
Strings in quotes. There are four forms: basic ones, in which a backslash begins an escape, and
literal ones, which hold their text as it is; either on one line or, between three quotes, on
several. A string is written in the first form that can hold it without escapes.
-/
import ScopedRetrieval.Toml.Reader

namespace ScopedRetrieval.Toml

/-! ## Reading -/

/-- Puts characters before those that are read. -/
def prepend (cs : List Char) (r : Option (List Char × List Char)) :
    Option (List Char × List Char) :=
  r.map fun x => (cs ++ x.1, x.2)

/-- What two quotes that follow a quote mean in a form on several lines: the end, to which up to two
more quotes may be attached that belong to the text. -/
def closing? (quote : Char) : List Char → Option (List Char × List Char)
  | a :: b :: rest =>
    if a = quote ∧ b = quote then
      let extra := (rest.take 2).takeWhile (· = quote)
      some (extra, rest.drop extra.length)
    else none
  | _ => none

/-- The character that an escape of one letter stands for. -/
def escaped? (c : Char) : Option Char :=
  [('b', '\x08'), ('t', '\t'), ('n', '\n'), ('f', '\x0c'), ('r', '\r'), ('"', '"'),
    ('\\', '\\')].lookup c

/-- How the characters of a basic string are to be taken. -/
inductive BasicState where
  | text
  /-- Behind a backslash. -/
  | escape
  /-- Within an escape by number: the digits that are missing and the number so far. -/
  | number (missing value : Nat)
  /-- Between a backslash and the end of its line. -/
  | lineEnd
  /-- Behind a line that ended with a backslash, where blanks are left out. -/
  | skipped

/-- Reads a basic string behind its opening quotes. -/
def basicRest (multi : Bool) : BasicState → Reader (List Char)
  | _, [] => none
  | .escape, c :: rest =>
    match escaped? c with
    | some d => prepend [d] (basicRest multi .text rest)
    | none =>
      if c = 'u' then basicRest multi (.number 4 0) rest
      else if c = 'U' then basicRest multi (.number 8 0) rest
      else if multi ∧ isSpace c then basicRest multi .lineEnd rest
      else if multi ∧ c = '\n' then basicRest multi .skipped rest
      else if multi ∧ c = '\r' ∧ rest.head? = some '\n' then basicRest multi .skipped rest
      else none
  | .number missing value, c :: rest =>
    match digit? 16 c with
    | none => none
    | some d =>
      let value := value * 16 + d
      if 1 < missing then basicRest multi (.number (missing - 1) value) rest
      else if value.isValidChar then prepend [Char.ofNat value] (basicRest multi .text rest)
      else none
  | .lineEnd, c :: rest =>
    if isSpace c then basicRest multi .lineEnd rest
    else if c = '\n' then basicRest multi .skipped rest
    else if c = '\r' ∧ rest.head? = some '\n' then basicRest multi .skipped rest
    else none
  | state, c :: rest =>
    if state matches .skipped ∧ (isSpace c ∨ c = '\n') then basicRest multi .skipped rest
    else if c = '\r' ∧ multi then
      if rest.head? ≠ some '\n' then none
      else if state matches .skipped then basicRest multi .skipped rest
      else basicRest multi .text rest
    else if c = '\\' then basicRest multi .escape rest
    else if c = '"' then
      if multi then
        match closing? '"' rest with
        | some r => some r
        | none => prepend ['"'] (basicRest multi .text rest)
      else some ([], rest)
    else if isText c ∨ multi ∧ c = '\n' then prepend [c] (basicRest multi .text rest)
    else none

/-- Reads a literal string behind its opening quotes. -/
def literalRest (multi : Bool) : Reader (List Char)
  | [] => none
  | c :: rest =>
    if c = '\'' then
      if multi then
        match closing? '\'' rest with
        | some r => some r
        | none => prepend ['\''] (literalRest multi rest)
      else some ([], rest)
    else if c = '\r' ∧ multi then
      if rest.head? = some '\n' then literalRest multi rest else none
    else if isText c ∨ multi ∧ c = '\n' then prepend [c] (literalRest multi rest)
    else none

def readQuotedLine : Reader String
  | '"' :: rest => (basicRest false .text rest).map fun r => (.ofList r.1, r.2)
  | '\'' :: rest => (literalRest false rest).map fun r => (.ofList r.1, r.2)
  | _ => none

/-- Reads a string in any of the four forms. A line end right behind three quotes is left out. -/
def readQuoted : Reader String
  | '"' :: '"' :: '"' :: rest =>
    (basicRest true .text (skipNewline rest)).map fun r => (.ofList r.1, r.2)
  | '\'' :: '\'' :: '\'' :: rest =>
    (literalRest true (skipNewline rest)).map fun r => (.ofList r.1, r.2)
  | cs => readQuotedLine cs

/-! ## Writing -/

/-- The length of the longest run of a character. -/
def longestRun (c : Char) (cs : List Char) : Nat :=
  (cs.foldl (fun (best, run) d =>
    let run := if d = c then run + 1 else 0
    (max best run, run)) ((0, 0) : Nat × Nat)).1

/-- Whether a text holds control characters besides tabs and line feeds. -/
def hasControl (cs : List Char) : Bool := cs.any fun c => !isText c && c ≠ '\n'

/-- The characters whose escape is a single letter, and that letter. -/
def shortEscapes : List (Char × Char) :=
  [('\x08', 'b'), ('\t', 't'), ('\n', 'n'), ('\x0c', 'f'), ('\r', 'r'), ('\\', '\\')]

/-- The escape of a control character or a backslash. -/
def escapeOf? (c : Char) : Option (List Char) :=
  match shortEscapes.lookup c with
  | some d => some ['\\', d]
  | none =>
    if isText c then none
    else some (['\\', 'u', '0', '0'] ++
      [Nat.digitChar (c.toNat / 16), (Nat.digitChar (c.toNat % 16)).toUpper])

/-- The text of a basic string on one line. -/
def escapeLine : List Char → List Char
  | [] => []
  | c :: rest =>
    (if c = '"' then ['\\', '"'] else (escapeOf? c).getD [c]) ++ escapeLine rest

/-- The text of a basic string on several lines: of quotes in a row each third one is escaped. -/
def escapeLines (run : Nat) : List Char → List Char
  | [] => []
  | c :: rest =>
    if c = '"' then
      if run = 2 then '\\' :: '"' :: escapeLines 0 rest else '"' :: escapeLines (run + 1) rest
    else (if c = '\n' then [c] else (escapeOf? c).getD [c]) ++ escapeLines 0 rest

/-- A basic string on one line. -/
def basicLine (cs : List Char) : List Char := ['"'] ++ escapeLine cs ++ ['"']

/-- A literal string on one line. -/
def literalLine (cs : List Char) : List Char := ['\''] ++ cs ++ ['\'']

/-- Quotes for several lines; a text of several lines begins on a line of its own. -/
def betweenThree (quote : Char) (cs body : List Char) : List Char :=
  let quotes := List.replicate 3 quote
  quotes ++ (if cs.contains '\n' then ['\n'] else []) ++ body ++ quotes

/-- Whether a text fits between quotes on one line without escapes, tabs apart. -/
def fitsLine (quote : Char) (cs : List Char) : Bool :=
  !hasControl cs && !cs.contains '\n' && !cs.contains quote

/-- Writes a string in the first form that can hold it: basic, literal, then the same on several
lines; and with escapes where none can. -/
def writeQuoted (s : String) : String :=
  let cs := s.toList
  let plain := !cs.contains '\\'
  .ofList <|
    if fitsLine '"' cs ∧ plain then basicLine cs
    else if fitsLine '\'' cs then literalLine cs
    else if !hasControl cs ∧ plain ∧ longestRun '"' cs ≤ 2 then
      betweenThree '"' cs (escapeLines 0 cs)
    else if !hasControl cs ∧ longestRun '\'' cs ≤ 2 then betweenThree '\'' cs cs
    else if cs.contains '\n' then betweenThree '"' cs (escapeLines 0 cs)
    else basicLine cs

end ScopedRetrieval.Toml
