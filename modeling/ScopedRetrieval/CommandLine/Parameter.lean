/-
The parameters of the command line: how each is named, what it takes and how often it may be given.
-/

namespace ScopedRetrieval.CommandLine

/-- What can be given on a command line, by a named option or by its position. -/
inductive Parameter where
  | help
  | version
  | config
  | verbose
  | quiet
  | inMemory
  | requireAttributes
  | brief
  | query
  | manifest
  | directory
  | claim
  | explain
  | json
  | probed
deriving DecidableEq, Inhabited

inductive Parameter.Kind where
  /-- Asks for a text about the program and ends the reading. -/
  | notice
  /-- Has no value and is given once. -/
  | switch
  /-- Has no value and counts how often it is given. -/
  | counter
  /-- Has a value that is not empty, and is given once. -/
  | path
  /-- Has a value and is given once. -/
  | text
  /-- Has a value and is given any number of times. -/
  | texts
deriving DecidableEq

namespace Parameter

def kind : Parameter → Kind
  | help | version => .notice
  | verbose => .counter
  | quiet | inMemory | requireAttributes | brief | explain | json => .switch
  | config | manifest | directory | probed => .path
  | query => .text
  | claim => .texts

def takesValue (p : Parameter) : Bool := p.kind matches .path | .text | .texts

def isSingle (p : Parameter) : Bool := p.kind matches .switch | .path | .text

/-- The long name; for a parameter given by its position, what stands for it in messages. -/
def name : Parameter → String
  | help => "help"
  | version => "version"
  | config => "config"
  | verbose => "verbose"
  | quiet => "quiet"
  | inMemory => "in-memory"
  | requireAttributes => "require-xattr"
  | brief => "brief"
  | query => "QUERY"
  | manifest => "manifest"
  | directory => "dir"
  | claim => "context"
  | explain => "explain"
  | json => "json"
  | probed => "DIR"

def short? : Parameter → Option Char
  | help => some 'h'
  | version => some 'V'
  | config => some 'c'
  | verbose => some 'v'
  | quiet => some 'q'
  | claim => some 'C'
  | _ => none

/-- Whether the position tells a parameter, and not a name. -/
def isPositional : Parameter → Bool
  | query | probed => true
  | _ => false

/-- The parameter as a user writes it. -/
def describe (p : Parameter) : String := if p.isPositional then p.name else "--" ++ p.name

end Parameter

/-- Why the reading of a command line ends without something to be done. -/
inductive Stop where
  | help
  | version
  | nothingGiven
  | commandMissing
  | unknownCommand (text : String)
  | unknownArgument (text : String)
  /-- A parameter that has to be given is not. -/
  | missing (p : Parameter)
  | repeated (p : Parameter)
  /-- Two parameters that exclude each other. -/
  | conflict (p q : Parameter)
  /-- A value is missing, or empty where it must not be. -/
  | emptyValue (p : Parameter)
  | unexpectedValue (p : Parameter)
deriving DecidableEq

namespace Stop

def versionText : String := "scoperag 0.1.0\n"

def usageText : String :=
  "Retrieve only the documents a requester is allowed to see\n\n" ++
    "Usage: scoperag [-c FILE] [-v]... [-q] COMMAND\n\n" ++
    "Commands:\n" ++
    "  demo [--in-memory | --require-xattr] [--brief]\n" ++
    "  query QUERY (--manifest FILE | --dir DIR) [-C KEY=VALUE]... [--explain | --json]\n" ++
    "  check-xattr [DIR]\n" ++
    "  config\n" ++
    "  help [COMMAND]\n"

def message : Stop → String
  | help => usageText
  | version => versionText
  | nothingGiven => usageText
  | commandMissing => "error: a command is required\n"
  | unknownCommand text => "error: unrecognized command " ++ text ++ "\n"
  | unknownArgument text => "error: unexpected argument " ++ text ++ "\n"
  | missing p => "error: " ++ p.describe ++ " is required\n"
  | repeated p => "error: " ++ p.describe ++ " cannot be used more than once\n"
  | conflict p q => "error: " ++ p.describe ++ " cannot be used with " ++ q.describe ++ "\n"
  | emptyValue p => "error: a value is required for " ++ p.describe ++ "\n"
  | unexpectedValue p => "error: no value is expected for " ++ p.describe ++ "\n"

/-- Whether the text was asked for. -/
def isAskedFor : Stop → Bool
  | help | version => true
  | _ => false

end Stop

end ScopedRetrieval.CommandLine
