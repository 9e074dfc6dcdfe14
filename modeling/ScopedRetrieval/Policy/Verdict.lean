/-
Verdicts of single checks and the decision they add up to: the trail of verdicts in the order in
which they were given, and the veto that ended it, if there was one.
-/

namespace ScopedRetrieval

/-- What one check says about one document and one requester. -/
inductive Verdict where
  /-- The check applies and objects to nothing. -/
  | allow
  /-- The check applies and vetoes the document. -/
  | deny (reason : String)
  /-- The check does not apply. -/
  | noOpinion
deriving DecidableEq, Inhabited

namespace Verdict

def veto? : Verdict → Option String
  | deny reason => some reason
  | _ => none

def isDeny (v : Verdict) : Bool := v.veto?.isSome

/-- The verdict in words. -/
def describe : Verdict → String
  | allow => "allow"
  | deny reason => "deny: " ++ reason
  | noOpinion => "no opinion"

end Verdict

/-- The verdict of a named check. -/
structure CheckOutcome where
  check : String
  verdict : Verdict
deriving DecidableEq, Inhabited

/-- The check that withheld a document, and why. -/
structure Denial where
  check : String
  reason : String
deriving DecidableEq, Inhabited

/-- The record of one evaluation. -/
structure Decision where
  outcomes : List CheckOutcome
  deniedBy : Option Denial
deriving DecidableEq, Inhabited

def Decision.isAdmitted (d : Decision) : Bool := d.deniedBy.isNone

end ScopedRetrieval
