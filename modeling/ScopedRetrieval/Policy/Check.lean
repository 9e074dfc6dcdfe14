/-
Access checks. A check is a name and a function of the attributes of a document and the claims of a
requester; checks do not know of each other. Two kinds are built here: the match of an attribute
with a claim, and the one by the sensitivity tiers.
-/
import ScopedRetrieval.Document
import ScopedRetrieval.Requester
import ScopedRetrieval.Policy.Verdict

namespace ScopedRetrieval

/-- A named access rule. -/
structure Check where
  name : String
  judge : Attributes → Requester → Verdict

/-- What a match says about a document that lacks the attribute. -/
inductive MissingMode where
  /-- The match does not apply. -/
  | noOpinion
  /-- The lack counts as a mismatch. -/
  | deny
deriving DecidableEq, Inhabited

/-! ## Matching an attribute with a claim -/

/-- The requirement that an attribute equal a claim. -/
structure AttributeMatch where
  name : String
  attributeKey : String
  contextKey : String
  missing : MissingMode := .noOpinion
deriving DecidableEq, Inhabited

namespace AttributeMatch

/-- The match of the owner, whose key is the same on both sides. -/
def identity (key : String) (missing : MissingMode := .noOpinion) : AttributeMatch :=
  ⟨"identity", key, key, missing⟩

/-- The match of the place, whose key is the same on both sides. -/
def location (key : String) (missing : MissingMode := .noOpinion) : AttributeMatch :=
  ⟨"location", key, key, missing⟩

def mismatchReason (attributeKey actual required : String) : String :=
  attributeKey ++ " mismatch (document: " ++ actual ++ ", requester: " ++ required ++ ")"

def absentReason (attributeKey : String) : String :=
  "document has no " ++ attributeKey ++ " attribute but requester presents one"

/-- A requester without the claim is not concerned; otherwise the attribute must equal the claim,
and a document without it is treated as `missing` says. -/
def judge (m : AttributeMatch) (attributes : Attributes) (requester : Requester) : Verdict :=
  match requester.claim? m.contextKey with
  | none => .noOpinion
  | some required =>
    match attributes.find? m.attributeKey, m.missing with
    | some actual, _ =>
      if actual = required then .allow else .deny (mismatchReason m.attributeKey actual required)
    | none, .noOpinion => .noOpinion
    | none, .deny => .deny (absentReason m.attributeKey)

def toCheck (m : AttributeMatch) : Check := ⟨m.name, m.judge⟩

end AttributeMatch

/-! ## Sensitivity tiers -/

inductive SensitivityTier where
  | publicTier
  | internal
  | confidential
deriving DecidableEq, Inhabited

namespace SensitivityTier

def label : SensitivityTier → String
  | publicTier => "public"
  | internal => "internal"
  | confidential => "confidential"

/-- The tier that bears exactly this label. -/
def ofLabel? (text : String) : Option SensitivityTier :=
  [publicTier, internal, confidential].find? (·.label = text)

end SensitivityTier

/-- The check of documents by their tier. -/
structure TierCheck where
  attributeKey : String
  identityKey : String
  departmentKey : String
  privilegedDepartments : List String := []
  privilegedIdentities : List String := []
deriving DecidableEq, Inhabited

namespace TierCheck

/-- The name under which the check reports. -/
def name : String := "sensitivity"

/-- Whether the requester is cleared for confidential documents, by department or by identity. -/
def isPrivileged (g : TierCheck) (requester : Requester) : Bool :=
  (requester.claim? g.departmentKey).any (g.privilegedDepartments.contains ·) ||
    (requester.claim? g.identityKey).any (g.privilegedIdentities.contains ·)

def confidentialReason : String := "not authorized for confidential document"

def internalReason (identityKey : String) : String :=
  "internal document requires a " ++ identityKey ++ " in context"

/-- The tier of a document, when its label is one of the three. -/
def tier? (g : TierCheck) (attributes : Attributes) : Option SensitivityTier :=
  (attributes.find? g.attributeKey).bind SensitivityTier.ofLabel?

/-- Confidential documents are for privileged requesters, internal ones for those who present an
identity; to all others the check does not apply. -/
def judge (g : TierCheck) (attributes : Attributes) (requester : Requester) : Verdict :=
  match g.tier? attributes with
  | some .confidential =>
    if g.isPrivileged requester then .allow else .deny confidentialReason
  | some .internal =>
    if requester.presents g.identityKey then .allow else .deny (internalReason g.identityKey)
  | some .publicTier | none => .noOpinion

def toCheck (g : TierCheck) : Check := ⟨name, g.judge⟩

end TierCheck

end ScopedRetrieval
