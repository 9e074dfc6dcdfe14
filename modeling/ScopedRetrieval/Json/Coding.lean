/-
Documents, outcomes and prompts as JSON values.
-/
import ScopedRetrieval.Json.Basic
import ScopedRetrieval.Pipeline

namespace ScopedRetrieval

def Json.ofWord (n : UInt64) : Json := .natural n.toNat

/-- The object of texts under their keys. -/
def Json.ofTexts (m : KeyMap String) : Json := .object (m.toList.map fun e => (e.1, .string e.2))

def Document.toJson (d : Document) : Json :=
  .object
    [("id", .string d.id), ("content", .string d.content),
      ("attributes", .ofTexts d.attributes)]

def Denial.toJson (d : Denial) : Json :=
  .object [("check", .string d.check), ("reason", .string d.reason)]

def DeniedDocument.toJson (d : DeniedDocument) : Json :=
  .object [("id", .string d.id), ("denial", d.denial.toJson)]

/-- The fields of an outcome. -/
def Outcome.jsonFields (o : Outcome) : List (String × Json) :=
  [("query", .string o.query), ("generation", .ofWord o.generation),
    ("evaluated", .natural o.evaluated), ("admitted", .array (o.admitted.map Document.toJson)),
    ("denied", .array (o.denied.map DeniedDocument.toJson))]

def Prompt.toJson (p : Prompt) : Json :=
  .object
    [("text", .string p.text), ("document_count", .natural p.documentCount),
      ("estimated_tokens", .natural p.estimatedTokens), ("document_ids", .ofStrings p.documentIds),
      ("omitted", .natural p.omitted)]

end ScopedRetrieval
