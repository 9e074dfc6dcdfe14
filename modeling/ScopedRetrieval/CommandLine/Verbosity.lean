/-
How much the program says.
-/

namespace ScopedRetrieval

/-- The levels of verbosity, from results alone to every detail. -/
inductive Verbosity where
  | quiet
  | normal
  | verbose
  | veryVerbose
deriving DecidableEq, Inhabited

namespace Verbosity

/-- The level asked for: quiet wins, and otherwise the number of requests for more counts. -/
def ofFlags (quiet : Bool) (verbose : Nat) : Verbosity :=
  if quiet then .quiet
  else match verbose with
    | 0 => .normal
    | 1 => .verbose
    | _ => .veryVerbose

def name : Verbosity → String
  | quiet => "quiet"
  | normal => "normal"
  | verbose => "verbose"
  | veryVerbose => "very_verbose"

def showsProgress (v : Verbosity) : Bool := v ≠ .quiet

/-- Whether the decision on each document is shown. -/
def showsDecisions (v : Verbosity) : Bool := v = .verbose || v = .veryVerbose

/-- The filter of the log: the configured level counts at normal verbosity only. -/
def logDirective (v : Verbosity) (level : String) : String :=
  "scoperag=" ++ match v with
    | quiet => "error"
    | normal => level
    | verbose => "debug"
    | veryVerbose => "trace"

end Verbosity

end ScopedRetrieval
