/-
Prompts: the admitted documents as a text for a model, under a budget of tokens. Documents are taken
in their order, each one when there is still room for it; one that is too large is left out and
does not end the selection.
-/
import ScopedRetrieval.Document

namespace ScopedRetrieval

structure PromptSettings where
  maxTokens : UInt64 := 2000
  includeAttributes : Bool := true
deriving DecidableEq, Inhabited

/-- The documents in the form of a prompt. -/
structure Prompt where
  text : String
  documentCount : Nat
  /-- The tokens of the documents in the prompt, as estimated. -/
  estimatedTokens : Nat
  documentIds : List String
  /-- How many documents were left out for lack of room. -/
  omitted : Nat
deriving DecidableEq, Inhabited

namespace Prompt

/-- What is said when there are no documents. -/
def noDocumentsNotice : String :=
  "No relevant documents were found for this query with the requester's permissions."

/-- What is said when there is no room for any document. -/
def overBudgetNotice : String :=
  "Admitted documents exceeded the context budget and were left out."

/-- The estimate of one token for four bytes. -/
def tokens (d : Document) : Nat := d.content.utf8ByteSize / 4

def totalTokens : List Document → Nat
  | [] => 0
  | d :: rest => tokens d + totalTokens rest

/-- The documents for which there is room, taken in their order. -/
def select (room : Nat) : List Document → List Document
  | [] => []
  | d :: rest => if tokens d ≤ room then d :: select (room - tokens d) rest else select room rest

/-- The part of the text for one document. -/
def block (includeAttributes : Bool) (number : Nat) (d : Document) : String :=
  "### Document " ++ toString number ++ " (Id: " ++ d.id ++ ")\nContent: " ++ d.content ++ "\n" ++
    (if includeAttributes then "Attributes: " ++ d.attributes.line ++ "\n" else "") ++ "\n"

/-- The parts for some documents, numbered onward. -/
def blocks (includeAttributes : Bool) : Nat → List Document → String
  | _, [] => ""
  | number, d :: rest =>
    block includeAttributes number d ++ blocks includeAttributes (number + 1) rest

def header (query : String) : String := "User query: " ++ query ++ "\n\n"

/-- What stands behind the header. -/
def body (s : PromptSettings) (documents selected : List Document) : String :=
  if documents.isEmpty then noDocumentsNotice ++ "\n"
  else "Retrieved information:\n" ++ blocks s.includeAttributes 1 selected ++
    if selected.isEmpty then overBudgetNotice ++ "\n" else ""

/-- Makes the prompt for a query from the documents for which there is room. -/
def build (s : PromptSettings) (query : String) (documents : List Document) : Prompt :=
  let selected := select s.maxTokens.toNat documents
  { text := header query ++ body s documents selected
    documentCount := selected.length
    estimatedTokens := totalTokens selected
    documentIds := selected.map (·.id)
    omitted := documents.length - selected.length }

end Prompt

end ScopedRetrieval
