/-
Dates and times. A moment is a date, a time, or both, and both may stand at an offset. Its text is
written anew: `T` between date and time, `Z` or a sign before the offset, and the parts of a second
without the zeros at their end.
-/
import ScopedRetrieval.Toml.Reader

namespace ScopedRetrieval.Toml

/-- Reads a fixed number of digits that make a number within bounds. -/
def readDigits (count low high : Nat) : Reader Nat := fun cs =>
  let digits := cs.take count
  let n := digitsValue 10 digits
  if digits.length = count ∧ digits.all Char.isDigit ∧ low ≤ n ∧ n ≤ high then
    some (n, cs.drop count)
  else none

def readChar (c : Char) : Reader Unit
  | d :: rest => if c = d then some ((), rest) else none
  | [] => none

def daysIn (year month : Nat) : Nat :=
  if month = 2 then
    if year % 4 = 0 ∧ (year % 100 ≠ 0 ∨ year % 400 = 0) then 29 else 28
  else if month ∈ [4, 6, 9, 11] then 30
  else 31

/-- A number in decimal with zeros before it. -/
def padded (width n : Nat) : String :=
  let digits := Nat.toDigits 10 n
  .ofList (List.replicate (width - digits.length) '0' ++ digits)

def readDate : Reader String := fun cs => do
  let (year, cs) ← readDigits 4 0 9999 cs
  let (_, cs) ← readChar '-' cs
  let (month, cs) ← readDigits 2 1 12 cs
  let (_, cs) ← readChar '-' cs
  let (day, cs) ← readDigits 2 1 (daysIn year month) cs
  return (padded 4 year ++ "-" ++ padded 2 month ++ "-" ++ padded 2 day, cs)

/-- Reads the parts of a second, of which nine places count. -/
def readFraction : Reader String
  | '.' :: rest =>
    let digits := rest.takeWhile Char.isDigit
    if digits.isEmpty then none
    else
      let kept := ((digits.take 9).reverse.dropWhile (· = '0')).reverse
      some (if kept.isEmpty then "" else "." ++ .ofList kept, rest.dropWhile Char.isDigit)
  | cs => some ("", cs)

def readTime : Reader String := fun cs => do
  let (hour, cs) ← readDigits 2 0 23 cs
  let (_, cs) ← readChar ':' cs
  let (minute, cs) ← readDigits 2 0 59 cs
  let (_, cs) ← readChar ':' cs
  let (second, cs) ← readDigits 2 0 60 cs
  let (fraction, cs) ← readFraction cs
  return (padded 2 hour ++ ":" ++ padded 2 minute ++ ":" ++ padded 2 second ++ fraction, cs)

/-- Reads an offset, if there is one. -/
def readOffset : Reader String
  | c :: rest =>
    if c = 'Z' ∨ c = 'z' then some ("Z", rest)
    else if c = '+' ∨ c = '-' then do
      let (hour, rest) ← readDigits 2 0 23 rest
      let (_, rest) ← readChar ':' rest
      let (minute, rest) ← readDigits 2 0 59 rest
      let sign := if c = '-' ∧ (hour, minute) ≠ (0, 0) then "-" else "+"
      return (sign ++ padded 2 hour ++ ":" ++ padded 2 minute, rest)
    else some ("", c :: rest)
  | [] => some ("", [])

/-- Reads what follows a date: a time behind `T` or a space, at an offset, or nothing. -/
def readTimeOfDate (date : String) : Reader String
  | c :: d :: rest =>
    if c = 'T' ∨ c = 't' ∨ c = ' ' ∧ d.isDigit then do
      let (time, rest) ← readTime (d :: rest)
      let (offset, rest) ← readOffset rest
      return (date ++ "T" ++ time ++ offset, rest)
    else some (date, c :: d :: rest)
  | rest => some (date, rest)

/-- Reads a date or a time or both. -/
def readMoment : Reader String := fun cs =>
  match readDate cs with
  | some (date, rest) => readTimeOfDate date rest
  | none => readTime cs

end ScopedRetrieval.Toml
