/-
The program: from arguments, a volume and what it is told of its surroundings to what it prints.
-/
import ScopedRetrieval.CommandLine.Report
import ScopedRetrieval.Configuration.Storage
import ScopedRetrieval.Corpus.Demonstration
import ScopedRetrieval.Corpus.Directory

namespace ScopedRetrieval.CommandLine

/-- What the program is told of its surroundings. -/
structure Surroundings where
  home : Option String
  temporary : String
  /-- A text that tells this run from all others. -/
  runId : String
  requestId : String
  timestamp : String
  /-- How many processors the machine has. -/
  processors : UInt64
  network : Network

/-! ## Queries -/

/-- The source of documents that a query names; a failure is given by its messages. -/
def openSource (v : Volume) : CorpusSource → Except (List String) MetadataProvider
  | .manifest path =>
    match MemoryCorpus.loadFile v path with
    | .ok corpus => .ok corpus.toProvider
    | .error fault =>
      .error (("Failed to load manifest " ++ path) :: (Failure.manifest fault).chain)
  | .directory path =>
    if v.isDirectory path then .ok (DirectoryCorpus.toProvider ⟨path⟩ v)
    else .error [path ++ " is not a directory"]

/-- The loaded pipeline over a source of documents, and the account of the load. -/
def openPipeline (network : Network) (c : Configuration) (v : Verbosity)
    (metadata : MetadataProvider) : Except (List String) (Pipeline × List Line) := do
  let p ← (Pipeline.ofConfiguration network c metadata).mapError Failure.chain
  match p.load with
  | (p, .ok report) => return (p, loadLines v report)
  | (_, .error error) => throw ("Corpus load failed" :: (Failure.provider error).chain)

/-- The requester with the given claims, and the loaded pipeline over the given source. -/
def prepareQuery (network : Network) (c : Configuration) (v : Volume) (verbosity : Verbosity)
    (source : CorpusSource) (claims : List String) :
    Except (List String) (Requester × Pipeline × List Line) := do
  let requester ← (Requester.readClaims claims).mapError fun fault => [fault.message]
  return (requester, ← openPipeline network c verbosity (← openSource v source))

/-- Answers a query. Nothing but the answer goes with JSON. -/
def query (s : Surroundings) (c : Configuration) (v : Volume) (verbosity : Verbosity)
    (text : String) (source : CorpusSource) (claims : List String) (form : AnswerForm) :
    Transcript :=
  let verbosity := if form = .json then .quiet else verbosity
  match prepareQuery s.network c v verbosity source claims with
  | .error messages => .failed [] messages
  | .ok (requester, p, loaded) =>
    match p.execute text requester with
    | .error fault => .failed loaded (Failure.retrieval fault).chain
    | .ok answer =>
      let lines := match form with
        | .json => [.out (answerJson s.requestId s.timestamp answer).pretty]
        | .explained => answerLines verbosity true requester answer
        | .text => answerLines verbosity verbosity.showsDecisions requester answer
      ⟨loaded ++ lines, .success⟩

/-! ## The demonstration -/

/-- The line of a scenario in brief, or all that is shown of it. -/
def scenarioLines (verbosity : Verbosity) (brief : Bool) (number : Nat)
    (scenario : Demonstration.Scenario) (answer : Answer) : List Line :=
  if brief then
    [.out (toString number ++ " " ++ String.intercalate "," answer.outcome.admittedIds)]
  else
    .out ("\nScenario " ++ toString number ++ ": " ++ scenario.title) ::
      answerLines verbosity verbosity.showsDecisions scenario.requester answer

/-- Answers scenarios one after the other, numbered onward. -/
def runScenarios (verbosity : Verbosity) (brief : Bool) (p : Pipeline) :
    Nat → List Demonstration.Scenario → Transcript
  | _, [] => ⟨[], .success⟩
  | number, scenario :: rest =>
    match p.execute scenario.query scenario.requester with
    | .error fault => .failed [] (Failure.retrieval fault).chain
    | .ok answer =>
      (runScenarios verbosity brief p (number + 1) rest).after
        (scenarioLines verbosity brief number scenario answer)

/-- Answers all scenarios over a source of documents. -/
def demonstrateOver (network : Network) (c : Configuration) (verbosity : Verbosity) (brief : Bool)
    (metadata : MetadataProvider) : Transcript :=
  match openPipeline network c verbosity metadata with
  | .error messages => .failed [] messages
  | .ok (p, loaded) => (runScenarios verbosity brief p 1 Demonstration.scenarios).after loaded

/-- Writes the corpus of the demonstration to a directory in which nothing is. -/
def fillDirectory (v : Volume) (directory : String) : Volume × Except (List String) Unit :=
  match DirectoryCorpus.checkSupport v directory with
  | (v, .error error) => (v, .error [error.message])
  | (v, .ok ()) =>
    let (v, written) := DirectoryCorpus.writeAll ⟨directory⟩ v Demonstration.documents
    (v, written.mapError fun error => [error.message])

/-- Makes a directory with the corpus of the demonstration; where that fails nothing is left of
it. -/
def makeDemonstration (v : Volume) (directory : String) : Volume × Except (List String) Unit :=
  match v.makeDirectories directory with
  | .error fault => (v, .error ["Failed to create " ++ directory, fault.message])
  | .ok v =>
    match fillDirectory v directory with
    | (v, .ok ()) => (v, .ok ())
    | (v, .error messages) => ((v.removeDirectory directory).toOption.getD v, .error messages)

/-- Removes the directory of the demonstration. -/
def cleanUp (v : Volume) (verbosity : Verbosity) (directory : String) : List Line :=
  match v.removeDirectory directory with
  | .ok _ => linesIf verbosity.showsProgress [.out ("\n🧹 Cleaned up " ++ directory)]
  | .error fault => [.err ("Warning: could not remove " ++ directory ++ ": " ++ fault.message)]

def demonstrateInMemory (network : Network) (c : Configuration) (verbosity : Verbosity)
    (brief : Bool) : Transcript :=
  demonstrateOver network c verbosity brief
    (MemoryCorpus.ofDocuments Demonstration.documents).toProvider

def demonstrateInDirectory (network : Network) (c : Configuration) (v : Volume)
    (verbosity : Verbosity) (brief : Bool) (directory : String) : Transcript :=
  let t := demonstrateOver network c verbosity brief (DirectoryCorpus.toProvider ⟨directory⟩ v)
  { t with
    lines := linesIf verbosity.showsProgress [.out ("📁 Corpus written to " ++ directory)] ++
      t.lines ++ cleanUp v verbosity directory }

def demonstrate (s : Surroundings) (c : Configuration) (v : Volume) (verbosity : Verbosity)
    (store : DemonstrationStore) (brief : Bool) : Transcript :=
  let directory := Volume.Path.join s.temporary ("scoperag-demo-" ++ s.runId)
  if store = .memory then demonstrateInMemory s.network c verbosity brief
  else
    match makeDemonstration v directory with
    | (v, .ok ()) => demonstrateInDirectory s.network c v verbosity brief directory
    | (_, .error messages) =>
      if store = .directory then
        .failed [] ("xattr corpus required but could not be created" :: messages)
      else
        (demonstrateInMemory s.network c verbosity brief).after
          [.err ("Warning: " ++ String.intercalate ": " messages ++
            ". Falling back to an in-memory corpus.")]

/-! ## The other commands -/

/-- Tells whether attributes can be stored in a directory. -/
def checkAttributes (v : Volume) (directory : String) : Transcript :=
  let first := Line.out ("Checking extended attribute support in " ++ directory ++ "...")
  match (DirectoryCorpus.checkSupport v directory).2 with
  | .ok () => ⟨[first, .out "✓ user.* extended attributes are supported"], .success⟩
  | .error error => ⟨[first, .err ("✗ " ++ error.message)], .negative⟩

/-- Where the configuration comes from. -/
def sourceLine (v : Volume) (home config : Option String) : String :=
  match config, home.map Configuration.homePath with
  | some path, _ => "Source: " ++ path
  | none, some path =>
    if v.pathExists path then "Source: " ++ path
    else "Source: built-in defaults (" ++ path ++ " not found)"
  | none, none => "Source: built-in defaults"

def showConfiguration (s : Surroundings) (c : Configuration) (v : Volume) (i : Invocation) :
    Transcript :=
  let first : List Line :=
    [.out "scoperag Configuration", .out "", .out (sourceLine v s.home i.config),
      .out ("Verbosity: " ++ i.verbosity.name), .out ""]
  match c.render with
  | .error fault => .failed first (Failure.configuration fault).chain
  | .ok text =>
    match c.filter with
    | .error fault => .failed (first ++ [.out text]) (Failure.configuration fault).chain
    | .ok filter =>
      ⟨first ++ [.out text, .out ("Check order: " ++ String.intercalate " -> " filter.checkNames)],
        .success⟩

/-! ## Runs -/

/-- Does what is asked for. -/
def perform (s : Surroundings) (c : Configuration) (v : Volume) (i : Invocation) : Transcript :=
  match i.command with
  | .demonstrate store brief => demonstrate s c v i.verbosity store brief
  | .query text source claims form => query s c v i.verbosity text source claims form
  | .checkAttributes directory => checkAttributes v (directory.getD s.temporary)
  | .showConfiguration => showConfiguration s c v i

def Stop.transcript (stop : Stop) : Transcript :=
  let text := Text.trimEnd stop.message
  if stop.isAskedFor then ⟨[.out text], .success⟩ else ⟨[.err text], .misuse⟩

/-- Runs the program with some arguments. -/
def run (s : Surroundings) (v : Volume) (arguments : List String) : Transcript :=
  match parse arguments with
  | .error stop => stop.transcript
  | .ok i =>
    match Configuration.load s.processors v s.home i.config with
    | .error fault =>
      .failed [] ("Failed to load configuration" :: (Failure.configuration fault).chain)
    | .ok c => perform s c v i

end ScopedRetrieval.CommandLine
