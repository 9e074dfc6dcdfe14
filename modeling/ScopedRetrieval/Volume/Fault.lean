/-
The failures of a file system, with their wordings.
-/

namespace ScopedRetrieval.Volume

/-- Why an operation on files fails. -/
inductive Fault where
  | notFound
  | isDirectory
  | notDirectory
  | alreadyExists
  | linkLoop
  | nameTooLong
  | invalid
  | notPermitted
  | outOfRange
  | tooBig
  | noAttribute
  | unsupported
  /-- A path holds the character that ends paths. -/
  | nulInPath
  /-- A file is not text. -/
  | notText
deriving DecidableEq, Inhabited

namespace Fault

/-- The number of a failure that the operating system reports. -/
def number? : Fault → Option Nat
  | notFound => some 2
  | isDirectory => some 21
  | notDirectory => some 20
  | alreadyExists => some 17
  | linkLoop => some 40
  | nameTooLong => some 36
  | invalid => some 22
  | notPermitted => some 1
  | outOfRange => some 34
  | tooBig => some 7
  | noAttribute => some 61
  | unsupported => some 95
  | nulInPath => none
  | notText => none

def words : Fault → String
  | notFound => "No such file or directory"
  | isDirectory => "Is a directory"
  | notDirectory => "Not a directory"
  | alreadyExists => "File exists"
  | linkLoop => "Too many levels of symbolic links"
  | nameTooLong => "File name too long"
  | invalid => "Invalid argument"
  | notPermitted => "Operation not permitted"
  | outOfRange => "Numerical result out of range"
  | tooBig => "Argument list too long"
  | noAttribute => "No data available"
  | unsupported => "Operation not supported"
  | nulInPath => "file name contained an unexpected NUL byte"
  | notText => "stream did not contain valid UTF-8"

/-- The message of a failure: its words and its number, if it has one. -/
def message (f : Fault) : String :=
  f.words ++ match f.number? with
    | some n => " (os error " ++ toString n ++ ")"
    | none => ""

end Fault

end ScopedRetrieval.Volume
