/-
What is shown of a load and of an answer.
-/
import ScopedRetrieval.CommandLine.Invocation
import ScopedRetrieval.CommandLine.Transcript
import ScopedRetrieval.Json.Coding

namespace ScopedRetrieval.CommandLine

/-- Lines that are shown only under a condition. -/
def linesIf (condition : Bool) (lines : List Line) : List Line := if condition then lines else []

/-! ## Loads -/

/-- The warning about a document without attributes. -/
def degradedLine (f : LoadFailure) : Line :=
  .err ("Warning: " ++ f.id ++ " indexed without attributes (" ++ f.error.message ++ ")")

/-- The error about a document that was skipped. -/
def skippedLine (f : LoadFailure) : Line :=
  .err ("Error: " ++ f.id ++ " skipped at " ++ f.stage.label ++ " stage (" ++ f.error.message ++
    ")")

def indexedLine (r : LoadReport) : Line :=
  .out ("📚 Indexed " ++ toString r.indexed.length ++ " of " ++ toString r.attempted ++
    " documents (generation " ++ toString r.generation.toNat ++ ")")

def loadLines (v : Verbosity) (r : LoadReport) : List Line :=
  r.degraded.map degradedLine ++ r.failures.map skippedLine ++
    linesIf v.showsProgress [indexedLine r]

/-! ## Answers -/

/-- The lines about a query and who asks. -/
def questionLines (requester : Requester) (o : Outcome) : List Line :=
  [.out ("🔎 Query:   " ++ o.query), .out ("👤 Context: " ++ requester.describe),
    .out ("   " ++ toString o.admitted.length ++ " of " ++ toString o.evaluated ++
      " documents admitted")]

def admittedLines (o : Outcome) : List Line :=
  if o.admitted.isEmpty then [.out "No documents admitted"]
  else .out "Admitted:" :: o.admittedIds.map fun id => .out ("  ✓ " ++ id)

def withheldLine (d : DeniedDocument) : Line :=
  .out ("  ✗ " ++ d.id ++ " [" ++ d.denial.check ++ "] " ++ d.denial.reason)

def withheldLines (o : Outcome) : List Line :=
  linesIf (!o.denied.isEmpty) (.out "Withheld:" :: o.denied.map withheldLine)

def promptLines (p : Prompt) : List Line :=
  [.out "\nPrompt context:", .out (Text.trimEnd p.text)] ++
    linesIf (p.omitted ≠ 0)
      [.out ("(" ++ toString p.omitted ++
        " admitted documents omitted by the context token budget)")]

/-- An answer as text; `explain` shows what is withheld. -/
def answerLines (v : Verbosity) (explain : Bool) (requester : Requester) (a : Answer) : List Line :=
  linesIf v.showsProgress (questionLines requester a.outcome) ++ admittedLines a.outcome ++
    linesIf explain (withheldLines a.outcome) ++ linesIf v.showsProgress (promptLines a.prompt)

/-- An answer as JSON, under the identifier and the time of the request. -/
def answerJson (requestId timestamp : String) (a : Answer) : Json :=
  .object
    [("outcome", .object
        ([("request_id", .string requestId)] ++ a.outcome.jsonFields ++
          [("timestamp", .string timestamp)])),
      ("context", a.prompt.toJson)]

end ScopedRetrieval.CommandLine
