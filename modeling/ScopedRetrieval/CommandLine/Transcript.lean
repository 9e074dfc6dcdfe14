/-
Transcripts: what the program prints, line by line, and how it ends. A failure is printed with its
causes: a single one is indented, several are numbered, and the further lines of a cause are
indented like its first one.
-/

namespace ScopedRetrieval.CommandLine

/-- A line, with the stream it goes to. -/
inductive Line where
  | out (text : String)
  | err (text : String)
deriving DecidableEq, Inhabited

/-- How a run ends. -/
inductive Ending where
  | success
  /-- Something did not hold that was to be checked; nothing more is printed. -/
  | negative
  /-- A failure, by its message and the messages of its causes. -/
  | failure (message : String) (causes : List String)
  /-- The command line was not accepted. -/
  | misuse
deriving DecidableEq, Inhabited

/-- What is printed, and the end. -/
structure Transcript where
  lines : List Line
  ending : Ending := .success
deriving DecidableEq, Inhabited

/-! ## Failures -/

/-- A cause of which the first line begins with `mark` and the others with as many blanks. -/
def indented (mark cause : String) : String :=
  let blanks := String.ofList (List.replicate mark.length ' ')
  mark ++ String.intercalate ("\n" ++ blanks) ((cause.toList.splitOn '\n').map String.ofList)

/-- A number in five columns. -/
def numberMark (n : Nat) : String :=
  let digits := toString n
  .ofList (List.replicate (5 - digits.length) ' ') ++ digits ++ ": "

def causesText : List String → String
  | [] => ""
  | [cause] => "\n\nCaused by:\n" ++ indented "    " cause
  | causes =>
    "\n\nCaused by:" ++
      String.join (causes.zipIdx.map fun c => "\n" ++ indented (numberMark c.2) c.1)

namespace Ending

def text : Ending → String
  | failure message causes => "Error: " ++ message ++ causesText causes ++ "\n"
  | _ => ""

/-- The code with which the program ends. -/
def code : Ending → UInt8
  | success => 0
  | negative | failure .. => 1
  | misuse => 2

end Ending

namespace Transcript

def stdout (t : Transcript) : String :=
  .join <| t.lines.map fun
    | .out text => text ++ "\n"
    | .err _ => ""

def stderr (t : Transcript) : String :=
  .join (t.lines.map fun
    | .out _ => ""
    | .err text => text ++ "\n") ++ t.ending.text

def code (t : Transcript) : UInt8 := t.ending.code

/-- The transcript that ends with a failure, given by its messages down to the last cause. -/
def failed (lines : List Line) : List String → Transcript
  | [] => ⟨lines, .negative⟩
  | message :: causes => ⟨lines, .failure message causes⟩

/-- The transcript with further lines before its own. -/
def after (lines : List Line) (t : Transcript) : Transcript := { t with lines := lines ++ t.lines }

end Transcript

end ScopedRetrieval.CommandLine
