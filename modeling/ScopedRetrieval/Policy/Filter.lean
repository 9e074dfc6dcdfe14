/-
Filters: checks in their order, of which each can veto. The first veto decides and ends the
evaluation; a document that no check vetoes is admitted, so the filter without checks admits all.
-/
import ScopedRetrieval.Policy.Settings

namespace ScopedRetrieval

/-- An ordered list of checks. -/
structure Filter where
  checks : List Check := []
deriving Inhabited

namespace Filter

def empty : Filter := {}

/-- The filter with one more check behind the others. -/
def register (f : Filter) (c : Check) : Filter := ⟨f.checks ++ [c]⟩

/-- The checks that settings describe, whether they are valid or not. -/
def ofSettingsUnchecked (s : PolicySettings) : Filter := ⟨s.checks⟩

/-- The filter that valid settings describe. -/
def ofSettings (s : PolicySettings) : Except PolicyFault Filter :=
  s.validate.map fun _ => ofSettingsUnchecked s

/-- The built-in checks with their defaults. -/
def standard : Filter := ofSettingsUnchecked {}

/-- The verdicts of the checks up to the first veto, and that veto. -/
def evaluateChecks (attributes : Attributes) (requester : Requester) : List Check → Decision
  | [] => ⟨[], none⟩
  | c :: rest =>
    let verdict := c.judge attributes requester
    match verdict.veto? with
    | some reason => ⟨[⟨c.name, verdict⟩], some ⟨c.name, reason⟩⟩
    | none =>
      let decision := evaluateChecks attributes requester rest
      { decision with outcomes := ⟨c.name, verdict⟩ :: decision.outcomes }

/-- Evaluates the checks in their order up to the first veto. -/
def evaluate (f : Filter) (attributes : Attributes) (requester : Requester) : Decision :=
  evaluateChecks attributes requester f.checks

def admits (f : Filter) (attributes : Attributes) (requester : Requester) : Bool :=
  f.checks.all fun c => !(c.judge attributes requester).isDeny

/-- The names of the checks in the order of evaluation. -/
def checkNames (f : Filter) : List String := f.checks.map (·.name)

end Filter

end ScopedRetrieval
