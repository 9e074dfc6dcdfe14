/-
Invocations: what a command line asks for. The options that go with every command may stand before
or behind it; where one stands in both places, the one behind the command counts.
-/
import ScopedRetrieval.CommandLine.Level
import ScopedRetrieval.CommandLine.Verbosity

namespace ScopedRetrieval.CommandLine

/-- Where the corpus of the demonstration is kept. -/
inductive DemonstrationStore where
  /-- In a directory, or in memory where a directory does not do. -/
  | directoryIfPossible
  | directory
  | memory
deriving DecidableEq, Inhabited

/-- Where the corpus of a query is. -/
inductive CorpusSource where
  | manifest (path : String)
  | directory (path : String)
deriving DecidableEq, Inhabited

inductive AnswerForm where
  | text
  /-- With the reasons for what is withheld. -/
  | explained
  | json
deriving DecidableEq, Inhabited

inductive Command where
  | demonstrate (store : DemonstrationStore) (brief : Bool)
  | query (text : String) (source : CorpusSource) (claims : List String) (form : AnswerForm)
  | checkAttributes (directory : Option String)
  | showConfiguration
deriving DecidableEq, Inhabited

/-- What a command line asks for. -/
structure Invocation where
  config : Option String
  /-- How often more was asked for, up to the largest byte. -/
  verbose : UInt8
  quiet : Bool
  command : Command
deriving DecidableEq, Inhabited

/-- How much is to be shown. -/
def Invocation.verbosity (i : Invocation) : Verbosity := .ofFlags i.quiet i.verbose.toNat

/-! ## Levels -/

inductive Verb where
  | demo
  | query
  | checkAttributes
  | config
deriving DecidableEq, Inhabited

namespace Verb

def all : List Verb := [demo, query, checkAttributes, config]

def name : Verb → String
  | demo => "demo"
  | query => "query"
  | checkAttributes => "check-xattr"
  | config => "config"

def ofName? (name : String) : Option Verb := all.find? (·.name = name)

end Verb

/-- The name of the command that shows how the program is used. -/
def helpName : String := "help"

/-- What may be given everywhere. -/
def commonOptions : List Parameter := [.help, .config, .verbose, .quiet]

/-- What may be given before the command. -/
def programLevel : Level :=
  { options := .version :: commonOptions, commands := helpName :: Verb.all.map Verb.name }

/-- What may be given behind a command. -/
def Verb.level : Verb → Level
  | demo => { options := commonOptions ++ [.inMemory, .requireAttributes, .brief] }
  | query =>
    { options := commonOptions ++ [.manifest, .directory, .claim, .explain, .json]
      operand := some .query }
  | checkAttributes => { options := commonOptions, operand := some .probed }
  | config => { options := commonOptions }

/-! ## Commands -/

/-- Refuses two parameters that exclude each other. -/
def exclude (g : Given) (p q : Parameter) : Except Stop Unit :=
  if g.has p && g.has q then .error (.conflict p q) else .ok ()

def demonstrationOf (g : Given) : Except Stop Command := do
  exclude g .inMemory .requireAttributes
  let store :=
    if g.has .inMemory then .memory
    else if g.has .requireAttributes then .directory
    else .directoryIfPossible
  return .demonstrate store (g.has .brief)

def sourceOf (g : Given) : Except Stop CorpusSource :=
  match g.value? .manifest, g.value? .directory with
  | some path, _ => .ok (.manifest path)
  | none, some path => .ok (.directory path)
  | none, none => .error (.missing .manifest)

def queryOf (g : Given) : Except Stop Command := do
  exclude g .manifest .directory
  exclude g .json .explain
  let some text := g.value? .query | throw (.missing .query)
  let form := if g.has .json then .json else if g.has .explain then .explained else .text
  return .query text (← sourceOf g) (g.values .claim) form

/-- The command that is asked for. -/
def Verb.command (v : Verb) (g : Given) : Except Stop Command :=
  match v with
  | demo => demonstrationOf g
  | query => queryOf g
  | checkAttributes => .ok (.checkAttributes (g.value? .probed))
  | config => .ok .showConfiguration

/-! ## Reading -/

def readCommand (v : Verb) (arguments : List String) : Except Stop (Given × Command) := do
  let (s, _) ← v.level.scan false {} arguments
  let given ← s.settle
  return (given, ← v.command given)

/-- The invocation of a command, from what was given before it and behind it. -/
def invocationOf (before behind : Given) (command : Command) : Invocation :=
  let verbose := if behind.has .verbose then behind.count .verbose else before.count .verbose
  { config := (behind.value? .config).or (before.value? .config)
    verbose := .ofNat (min 255 verbose)
    quiet := behind.has .quiet || before.has .quiet
    command }

/-- What asking for help about something ends with. -/
def helpAbout : List String → Stop
  | [] => .help
  | name :: rest =>
    if !programLevel.commands.contains name then .unknownCommand name
    else
      match rest with
      | [] => .help
      | name :: _ => .unknownCommand name

/-- What to do when no command was given. -/
def withoutCommand (s : Scan) : Stop :=
  match s.settle with
  | .error stop => stop
  | .ok [] => .nothingGiven
  | .ok _ => .commandMissing

def parse (arguments : List String) : Except Stop Invocation := do
  match ← programLevel.scan false {} arguments with
  | (s, none) => throw (withoutCommand s)
  | (s, some (name, rest)) =>
    match Verb.ofName? name with
    | none => throw (helpAbout rest)
    | some v =>
      let (behind, command) ← readCommand v rest
      return invocationOf (← s.settle) behind command

end ScopedRetrieval.CommandLine
