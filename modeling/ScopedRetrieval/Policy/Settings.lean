/-
The settings of a policy: under which keys the built-in checks look, who is privileged, and the
further matches that are asked for. Settings are valid when every key is filled in and every check
has a name of its own.
-/
import ScopedRetrieval.Policy.Check

namespace ScopedRetrieval

/-- A further match; it looks for the claim under the key of the attribute unless it names another,
and treats missing attributes as the policy does unless it says otherwise. -/
structure Rule where
  name : String
  attributeKey : String
  contextKey : Option String := none
  missing : Option MissingMode := none
deriving DecidableEq, Inhabited

/-- The settings of a policy, each with its default. -/
structure PolicySettings where
  identityKey : String := "user_id"
  locationKey : String := "location"
  departmentKey : String := "department"
  sensitivityKey : String := "sensitivity"
  privilegedDepartments : List String := ["IT"]
  privilegedIdentities : List String := ["123"]
  missing : MissingMode := .noOpinion
  rules : List Rule := []
deriving DecidableEq, Inhabited

inductive PolicyFault where
  | emptyKey (field : String)
  | incompleteRule
  | emptyContextKey (rule : String)
  | duplicateRule (rule : String)
deriving DecidableEq

def PolicyFault.message : PolicyFault → String
  | emptyKey field => "policy." ++ field ++ " must not be empty"
  | incompleteRule => "policy.rules entries need a name and an attribute"
  | emptyContextKey rule => "policy rule '" ++ rule ++ "' has an empty context_key"
  | duplicateRule rule => "Duplicate policy rule name: " ++ rule

namespace PolicySettings

def builtinNames : List String := ["identity", "location", TierCheck.name]

/-- The keys that must be filled in, under the names of their fields. -/
def requiredKeys (s : PolicySettings) : List (String × String) :=
  [("identity_key", s.identityKey), ("location_key", s.locationKey),
    ("department_key", s.departmentKey), ("sensitivity_key", s.sensitivityKey)]

/-- The first fault of a rule when the names `taken` are given away. -/
def ruleFault? (taken : List String) (r : Rule) : Option PolicyFault :=
  if Text.isBlank r.name ∨ Text.isBlank r.attributeKey then some .incompleteRule
  else if r.contextKey.any Text.isBlank then some (.emptyContextKey r.name)
  else if r.name ∈ taken then some (.duplicateRule r.name)
  else none

/-- The first fault in a list of rules; a rule takes its name from those behind it. -/
def rulesFault? (taken : List String) : List Rule → Option PolicyFault
  | [] => none
  | r :: rest => (ruleFault? taken r).or (rulesFault? (r.name :: taken) rest)

def keysFault? (s : PolicySettings) : Option PolicyFault :=
  (s.requiredKeys.find? fun k => Text.isBlank k.2).map fun k => .emptyKey k.1

/-- The first fault: of the keys, then of the rules in their order. -/
def fault? (s : PolicySettings) : Option PolicyFault :=
  s.keysFault?.or (rulesFault? builtinNames s.rules)

def validate (s : PolicySettings) : Except PolicyFault Unit :=
  match s.fault? with
  | some fault => .error fault
  | none => .ok ()

def ruleMatch (s : PolicySettings) (r : Rule) : AttributeMatch :=
  ⟨r.name, r.attributeKey, r.contextKey.getD r.attributeKey, r.missing.getD s.missing⟩

def tierCheck (s : PolicySettings) : TierCheck :=
  ⟨s.sensitivityKey, s.identityKey, s.departmentKey, s.privilegedDepartments,
    s.privilegedIdentities⟩

/-- The built-in checks and then the rules in their order. -/
def checks (s : PolicySettings) : List Check :=
  [(AttributeMatch.identity s.identityKey s.missing).toCheck,
    (AttributeMatch.location s.locationKey s.missing).toCheck, s.tierCheck.toCheck] ++
    s.rules.map fun r => (s.ruleMatch r).toCheck

end PolicySettings

end ScopedRetrieval
