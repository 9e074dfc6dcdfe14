/-
Configurations as TOML documents. Writing gives every field, and leaves out what a rule does not
say. Reading takes the default of each field and each section that is absent, on a machine with a
given number of processors.
-/
import ScopedRetrieval.Configuration.Basic
import ScopedRetrieval.Toml.Printer

namespace ScopedRetrieval

open Toml (Value Table ShapeFault)

def MissingMode.label : MissingMode → String
  | noOpinion => "no_opinion"
  | deny => "deny"

/-- Values under their labels. -/
def labelled {α : Type} (label : α → String) (choices : List α) : List (String × α) :=
  choices.map fun a => (label a, a)

namespace Toml

def Value.ofNat (n : Nat) : Value := .integer n

def Value.ofStrings (l : List String) : Value := .array (l.map .string)

def Value.missingMode? : Value → Option MissingMode :=
  Value.choice? (labelled MissingMode.label [.noOpinion, .deny])

end Toml

/-! ## Policy -/

namespace Rule

def toToml (r : Rule) : Value :=
  .table <|
    [("name", .string r.name), ("attribute", .string r.attributeKey)] ++
      (r.contextKey.toList.map fun key => ("context_key", .string key)) ++
      (r.missing.toList.map fun mode => ("missing_attribute", .string mode.label))

def fieldNames : List String := ["name", "attribute", "context_key", "missing_attribute"]

def ofToml (v : Value) : Except ShapeFault Rule := do
  let some (t : Table) := v.record? fieldNames | throw (.wrong "rules")
  return {
    name := ← t.need "name" Value.string?
    attributeKey := ← t.need "attribute" Value.string?
    contextKey := ← t.need? "context_key" Value.string?
    missing := ← t.need? "missing_attribute" Value.missingMode? }

def listOfToml : Value → Except ShapeFault (List Rule)
  | .array items => items.mapM ofToml
  | _ => .error (.wrong "rules")

end Rule

namespace PolicySettings

def toToml (s : PolicySettings) : Table :=
  [("identity_key", .string s.identityKey), ("location_key", .string s.locationKey),
    ("department_key", .string s.departmentKey), ("sensitivity_key", .string s.sensitivityKey),
    ("privileged_departments", .ofStrings s.privilegedDepartments),
    ("privileged_identities", .ofStrings s.privilegedIdentities),
    ("missing_attribute", .string s.missing.label), ("rules", .array (s.rules.map Rule.toToml))]

def fieldNames : List String :=
  ["identity_key", "location_key", "department_key", "sensitivity_key", "privileged_departments",
    "privileged_identities", "missing_attribute", "rules"]

def ofToml (v : Value) : Except ShapeFault PolicySettings := do
  let some (t : Table) := v.record? fieldNames | throw (.wrong "policy")
  let s : PolicySettings := {}
  let texts := Value.list? Value.string?
  return {
    identityKey := ← t.needOr "identity_key" s.identityKey Value.string?
    locationKey := ← t.needOr "location_key" s.locationKey Value.string?
    departmentKey := ← t.needOr "department_key" s.departmentKey Value.string?
    sensitivityKey := ← t.needOr "sensitivity_key" s.sensitivityKey Value.string?
    privilegedDepartments := ← t.needOr "privileged_departments" s.privilegedDepartments texts
    privilegedIdentities := ← t.needOr "privileged_identities" s.privilegedIdentities texts
    missing := ← t.needOr "missing_attribute" s.missing Value.missingMode?
    rules := ← t.within "rules" s.rules Rule.listOfToml }

end PolicySettings

/-! ## The other sections -/

namespace EmbeddingSettings

def toToml (s : EmbeddingSettings) : Table :=
  [("provider", .string s.backend.label), ("dimension", .ofNat s.dimension.toNat),
    ("host", .string s.host), ("port", .ofNat s.port.toNat), ("model", .string s.model),
    ("request_timeout_secs", .ofNat s.requestTimeoutSecs.toNat)]

def fieldNames : List String :=
  ["provider", "dimension", "host", "port", "model", "request_timeout_secs"]

def ofToml (v : Value) : Except ShapeFault EmbeddingSettings := do
  let some (t : Table) := v.record? fieldNames | throw (.wrong "embedding")
  let s : EmbeddingSettings := {}
  return {
    backend := ← t.needOr "provider" s.backend
      (Value.choice? (labelled EmbeddingBackend.label [.hash, .remote]))
    dimension := ← t.needOr "dimension" s.dimension Value.word?
    host := ← t.needOr "host" s.host Value.string?
    port := ← t.needOr "port" s.port Value.halfWord?
    model := ← t.needOr "model" s.model Value.string?
    requestTimeoutSecs := ← t.needOr "request_timeout_secs" s.requestTimeoutSecs Value.word? }

end EmbeddingSettings

namespace LoaderSettings

def toToml (s : LoaderSettings) : Table :=
  [("concurrency", .ofNat s.concurrency.toNat),
    ("provider_timeout_ms", .ofNat s.providerTimeoutMs.toNat)]

def ofToml (processors : UInt64) (v : Value) : Except ShapeFault LoaderSettings := do
  let some (t : Table) := v.record? ["concurrency", "provider_timeout_ms"] | throw (.wrong "loader")
  let s := builtIn processors
  return {
    concurrency := ← t.needOr "concurrency" s.concurrency Value.word?
    providerTimeoutMs := ← t.needOr "provider_timeout_ms" s.providerTimeoutMs Value.word? }

end LoaderSettings

namespace PromptSettings

def toToml (s : PromptSettings) : Table :=
  [("max_context_tokens", .ofNat s.maxTokens.toNat),
    ("include_attributes", .boolean s.includeAttributes)]

def ofToml (v : Value) : Except ShapeFault PromptSettings := do
  let some (t : Table) := v.record? ["max_context_tokens", "include_attributes"]
    | throw (.wrong "context")
  let s : PromptSettings := {}
  return {
    maxTokens := ← t.needOr "max_context_tokens" s.maxTokens Value.word?
    includeAttributes := ← t.needOr "include_attributes" s.includeAttributes Value.boolean? }

end PromptSettings

namespace Configuration

def logLevelOfToml (default : String) (v : Value) : Except ShapeFault String := do
  let some (t : Table) := v.record? ["level"] | throw (.wrong "logging")
  t.needOr "level" default Value.string?

/-! ## Documents -/

def toToml (c : Configuration) : Table :=
  [("policy", .table c.policy.toToml), ("embedding", .table c.embedding.toToml),
    ("loader", .table c.loader.toToml), ("context", .table c.prompt.toToml),
    ("logging", .table [("level", .string c.logLevel)])]

def ofToml (processors : UInt64) (t : Table) : Except ShapeFault Configuration := do
  let c := builtIn processors
  return {
    policy := ← t.within "policy" c.policy PolicySettings.ofToml
    embedding := ← t.within "embedding" c.embedding EmbeddingSettings.ofToml
    loader := ← t.within "loader" c.loader (LoaderSettings.ofToml processors)
    prompt := ← t.within "context" c.prompt PromptSettings.ofToml
    logLevel := ← t.within "logging" c.logLevel (logLevelOfToml c.logLevel) }

def render (c : Configuration) : Except ConfigurationFault String :=
  (Toml.render c.toToml).elim (.error .unwritable) .ok

/-- The valid configuration that a text describes. -/
def parse (processors : UInt64) (text : String) : Except ConfigurationFault Configuration := do
  let t ← (Toml.parse text).mapError .malformed
  let c ← (ofToml processors t).mapError .misshapen
  c.validate
  return c

end Configuration

end ScopedRetrieval
