/-
Reading JSON texts. Blanks may stand around every value and mark. Of two fields of one name in an
object the later one counts.
-/
import ScopedRetrieval.Json.Basic

namespace ScopedRetrieval.Json

def hexDigit? (c : Char) : Option Nat :=
  if '0' ≤ c ∧ c ≤ '9' then some (c.toNat - '0'.toNat)
  else if 'a' ≤ c ∧ c ≤ 'f' then some (c.toNat - 'a'.toNat + 10)
  else if 'A' ≤ c ∧ c ≤ 'F' then some (c.toNat - 'A'.toNat + 10)
  else none

/-- The number of four hexadecimal digits. -/
def hexFour? (a b c d : Char) : Option Nat := do
  let digits ← [a, b, c, d].mapM hexDigit?
  return digits.foldl (fun n digit => n * 16 + digit) 0

def isHighSurrogate (n : Nat) : Bool := 0xD800 ≤ n ∧ n < 0xDC00

def isLowSurrogate (n : Nat) : Bool := 0xDC00 ≤ n ∧ n < 0xE000

/-- The character of a surrogate pair. -/
def ofSurrogates (high low : Nat) : Char :=
  .ofNat (0x10000 + (high - 0xD800) * 0x400 + (low - 0xDC00))

/-- The character that stands behind a backslash. -/
def escaped? : Char → Option Char
  | '"' => some '"'
  | '\\' => some '\\'
  | '/' => some '/'
  | 'b' => some (.ofNat 0x08)
  | 'f' => some (.ofNat 0x0C)
  | 'n' => some '\n'
  | 'r' => some '\r'
  | 't' => some '\t'
  | _ => none

/-- Reads on in a string behind the characters `read`, which come in reverse order, up to the quote
that ends it. -/
def readString (read : List Char) : List Char → Option (String × List Char)
  | '"' :: rest => some (.ofList read.reverse, rest)
  | '\\' :: 'u' :: a :: b :: c :: d :: '\\' :: 'u' :: e :: f :: g :: h :: rest => do
    let first ← hexFour? a b c d
    if isHighSurrogate first then
      let second ← hexFour? e f g h
      if isLowSurrogate second then readString (ofSurrogates first second :: read) rest else none
    else readString (.ofNat first :: read) ('\\' :: 'u' :: e :: f :: g :: h :: rest)
  | '\\' :: 'u' :: a :: b :: c :: d :: rest => do
    let n ← hexFour? a b c d
    if isHighSurrogate n || isLowSurrogate n then none else readString (.ofNat n :: read) rest
  | '\\' :: c :: rest => do readString ((← escaped? c) :: read) rest
  | c :: rest => if c.toNat < 0x20 then none else readString (c :: read) rest
  | [] => none

/-- What follows blanks. -/
def skipBlanks (cs : List Char) : List Char :=
  cs.dropWhile fun c => c = ' ' || c = '\n' || c = '\r' || c = '\t'

def isNumeric (c : Char) : Bool :=
  c.isDigit || c = '-' || c = '+' || c = '.' || c = 'e' || c = 'E'

mutual

/-- Reads a value. The fuel bounds the number of values and marks. -/
def readValue : (fuel : Nat) → List Char → Option (Json × List Char)
  | 0, _ => none
  | fuel + 1, cs =>
    match skipBlanks cs with
    | 'n' :: 'u' :: 'l' :: 'l' :: rest => some (null, rest)
    | 't' :: 'r' :: 'u' :: 'e' :: rest => some (boolean true, rest)
    | 'f' :: 'a' :: 'l' :: 's' :: 'e' :: rest => some (boolean false, rest)
    | '"' :: rest => (readString [] rest).map fun r => (string r.1, r.2)
    | '[' :: rest =>
      match skipBlanks rest with
      | ']' :: rest => some (array [], rest)
      | rest => readItems fuel [] rest
    | '\x7b' :: rest =>
      match skipBlanks rest with
      | '\x7d' :: rest => some (object [], rest)
      | rest => readFields fuel [] rest
    | rest =>
      match rest.takeWhile isNumeric with
      | [] => none
      | digits => some (number (.ofList digits), rest.dropWhile isNumeric)

/-- Reads the items of an array behind those in `read`, which come in reverse order. -/
def readItems : (fuel : Nat) → (read : List Json) → List Char → Option (Json × List Char)
  | 0, _, _ => none
  | fuel + 1, read, cs => do
    let (item, rest) ← readValue fuel cs
    match skipBlanks rest with
    | ',' :: rest => readItems fuel (item :: read) rest
    | ']' :: rest => some (array (item :: read).reverse, rest)
    | _ => none

/-- Reads the fields of an object behind those in `read`, which come in reverse order. -/
def readFields : (fuel : Nat) → (read : List (String × Json)) → List Char →
    Option (Json × List Char)
  | 0, _, _ => none
  | fuel + 1, read, cs =>
    match skipBlanks cs with
    | '"' :: rest => do
      let (name, rest) ← readString [] rest
      match skipBlanks rest with
      | ':' :: rest =>
        let (value, rest) ← readValue fuel rest
        let read := (name, value) :: read.filter (·.1 ≠ name)
        match skipBlanks rest with
        | ',' :: rest => readFields fuel read rest
        | '\x7d' :: rest => some (object read.reverse, rest)
        | _ => none
      | _ => none
    | _ => none

end

/-- The value that a text is of. -/
def parse (text : String) : Option Json := do
  let cs := text.toList
  let (value, rest) ← readValue (2 * cs.length + 1) cs
  if (skipBlanks rest).isEmpty then some value else none

def field? (name : String) : Json → Option Json
  | object fields => fields.lookup name
  | _ => none

end ScopedRetrieval.Json
