/-
Reading the arguments of one level of a command line: those of the program up to the command, or
those of a command. A value that has been read is pending until the next parameter is recognised or
the arguments end; only then is it checked, so that an argument that nobody knows is reported
before a value that is wrong.
-/
import ScopedRetrieval.CommandLine.Parameter

namespace ScopedRetrieval.CommandLine

/-- How an argument looks. -/
inductive Argument where
  /-- The mark `--`, behind which nothing is an option. -/
  | separator
  /-- An option by its long name, with the value behind `=` if there is one. -/
  | long (name : String) (value : Option String)
  /-- Options by their short names. -/
  | cluster (letters : List Char)
  | word
deriving DecidableEq

namespace Argument

/-- The name before the first `=` and the value behind it. -/
def splitValue (cs : List Char) : Argument :=
  match cs.dropWhile (· ≠ '=') with
  | [] => long (.ofList cs) none
  | _ :: value => long (.ofList (cs.takeWhile (· ≠ '='))) (some (.ofList value))

/-- How a text looks as an argument; a dash alone is a word. -/
def ofString (text : String) : Argument :=
  match text.toList with
  | ['-', '-'] => separator
  | '-' :: '-' :: cs => splitValue cs
  | '-' :: c :: cs => cluster (c :: cs)
  | _ => word

end Argument

/-- A parameter that was given, with its value; that of a switch is empty. -/
structure Occurrence where
  parameter : Parameter
  value : String
deriving DecidableEq, Inhabited

/-- The parameters that were given, in their order. -/
abbrev Given := List Occurrence

namespace Given

def values (g : Given) (p : Parameter) : List String :=
  (g.filter (·.parameter = p)).map (·.value)

def value? (g : Given) (p : Parameter) : Option String := (g.values p).head?

def count (g : Given) (p : Parameter) : Nat := (g.values p).length

def has (g : Given) (p : Parameter) : Bool := g.count p ≠ 0

/-- Adds a parameter, unless it is there and may not be repeated, or its value is wrong. -/
def add (g : Given) (p : Parameter) (value : String) : Except Stop Given :=
  if p.isSingle && g.has p then .error (.repeated p)
  else if p.kind = .path ∧ value.isEmpty then .error (.emptyValue p)
  else .ok (g ++ [⟨p, value⟩])

end Given

/-- How far the reading has come. -/
structure Scan where
  given : Given := []
  /-- The parameter whose value is not checked yet, or has still to come. -/
  pending : Option (Parameter × Option String) := none
deriving Inhabited

namespace Scan

/-- The parameter whose value has to come next. -/
def awaits? (s : Scan) : Option Parameter :=
  match s.pending with
  | some (p, none) => some p
  | _ => none

/-- Whether a parameter was given, checked or not. -/
def mentions (s : Scan) (p : Parameter) : Bool := s.given.has p || s.pending.any (·.1 = p)

/-- Checks what is pending and adds it. -/
def settle (s : Scan) : Except Stop Given :=
  match s.pending with
  | none => .ok s.given
  | some (p, none) => .error (.emptyValue p)
  | some (p, some value) => s.given.add p value

/-- Adds a parameter at once. -/
def note (s : Scan) (p : Parameter) (value : String) : Except Stop Scan := do
  return { given := ← (← s.settle).add p value }

/-- Makes a parameter pending. -/
def postpone (s : Scan) (p : Parameter) (value : Option String) : Except Stop Scan := do
  return { given := ← s.settle, pending := some (p, value) }

/-- Adds a parameter that takes no value. -/
def raise (s : Scan) (p : Parameter) : Except Stop Scan :=
  match p with
  | .help => do let _ ← s.settle; throw .help
  | .version => do let _ ← s.settle; throw .version
  | p => s.note p ""

end Scan

/-- What may be given at one level. -/
structure Level where
  options : List Parameter
  /-- The parameter that is told by its position. -/
  operand : Option Parameter := none
  /-- The commands that end the level. -/
  commands : List String := []

namespace Level

def long? (l : Level) (name : String) : Option Parameter := l.options.find? (·.name = name)

def short? (l : Level) (c : Char) : Option Parameter := l.options.find? (·.short? = some c)

def readLong (l : Level) (s : Scan) (name : String) (value : Option String) : Except Stop Scan :=
  match l.long? name with
  | none => .error (.unknownArgument ("--" ++ name))
  | some p =>
    match p.takesValue, value with
    | true, some value => s.note p value
    | true, none => s.postpone p none
    | false, some _ => .error (.unexpectedValue p)
    | false, none => s.raise p

/-- Reads options by their short names; what follows the name of one with a value is its value,
before which `=` may stand. -/
def readCluster (l : Level) (s : Scan) : List Char → Except Stop Scan
  | [] => .ok s
  | c :: rest =>
    match l.short? c with
    | none => .error (.unknownArgument ("-" ++ c.toString))
    | some p =>
      if p.takesValue then
        match rest with
        | [] => s.postpone p none
        | '=' :: value => s.note p (.ofList value)
        | value => s.note p (.ofList value)
      else do l.readCluster (← s.raise p) rest

/-- What is wrong with a word that has no place at a level. Behind the mark `--` a command is no
command. -/
def misplaced (l : Level) (trailing : Bool) (text : String) : Stop :=
  if l.commands.isEmpty || trailing && l.commands.contains text then .unknownArgument text
  else .unknownCommand text

/-- Reads a word in its position. -/
def readOperand (l : Level) (trailing : Bool) (s : Scan) (text : String) : Except Stop Scan :=
  match l.operand with
  | none => .error (l.misplaced trailing text)
  | some p =>
    if s.mentions p then .error (l.misplaced trailing text) else s.postpone p (some text)

/-- Reads a word, which is the value that has to come or stands in its position. -/
def readWord (l : Level) (s : Scan) (text : String) : Except Stop Scan :=
  match s.awaits? with
  | some p => .ok { s with pending := some (p, some text) }
  | none => l.readOperand false s text

/-- Reads arguments up to a command, which comes with the arguments behind it, or to their end. A
command is one only where no value has to come. -/
def scan (l : Level) (trailing : Bool) (s : Scan) :
    List String → Except Stop (Scan × Option (String × List String))
  | [] => .ok (s, none)
  | text :: rest =>
    if trailing then do l.scan true (← l.readOperand true s text) rest
    else if s.awaits?.isNone && l.commands.contains text then .ok (s, some (text, rest))
    else
      match Argument.ofString text with
      | .separator => l.scan true s rest
      | .long name value => do l.scan false (← l.readLong s name value) rest
      | .cluster letters => do l.scan false (← l.readCluster s letters) rest
      | .word => do l.scan false (← l.readWord s text) rest

end Level

end ScopedRetrieval.CommandLine
