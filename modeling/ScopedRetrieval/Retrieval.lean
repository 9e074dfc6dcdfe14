/-
Retrieval: every indexed document is put to the filter, in ascending order of the identifiers, and
is either admitted or withheld with the denial on record. The query selects nothing.
-/
import ScopedRetrieval.Index
import ScopedRetrieval.Policy.Filter

namespace ScopedRetrieval

/-- A document that was withheld, and by which check. -/
structure DeniedDocument where
  id : String
  denial : Denial
deriving DecidableEq, Inhabited

/-- The record of one retrieval. -/
structure Outcome where
  query : String
  /-- The generation of the index that was searched. -/
  generation : UInt64
  /-- How many documents were put to the filter. -/
  evaluated : Nat
  admitted : List Document
  denied : List DeniedDocument
deriving DecidableEq, Inhabited

def Outcome.admittedIds (o : Outcome) : List String := o.admitted.map (·.id)

inductive RetrievalFault where
  /-- No load has completed yet. -/
  | indexNotLoaded
deriving DecidableEq

def RetrievalFault.message : RetrievalFault → String
  | indexNotLoaded => "Document index is not loaded; run a corpus load before retrieving"

namespace Filter

/-- The denial of a document, when it is withheld. -/
def denial? (f : Filter) (requester : Requester) (d : Document) : Option Denial :=
  (f.evaluate d.attributes requester).deniedBy

/-- The documents that a requester may see. -/
def admitted (f : Filter) (requester : Requester) (documents : List Document) : List Document :=
  documents.filter fun d => (f.denial? requester d).isNone

/-- The documents that are withheld from a requester. -/
def denied (f : Filter) (requester : Requester) (documents : List Document) :
    List DeniedDocument :=
  documents.filterMap fun d => (f.denial? requester d).map (⟨d.id, ·⟩)

end Filter

namespace Index

/-- Puts every document to the filter, once a load has completed. -/
def retrieve (i : Index) (f : Filter) (query : String) (requester : Requester) :
    Except RetrievalFault Outcome :=
  if i.loaded then
    let documents := i.snapshot.toList.map (·.document)
    .ok {
      query
      generation := i.snapshot.generation
      evaluated := i.snapshot.size
      admitted := f.admitted requester documents
      denied := f.denied requester documents }
  else .error .indexNotLoaded

/-- The documents that a requester may see, without the record of the others. -/
def retrieveDocuments (i : Index) (f : Filter) (query : String) (requester : Requester) :
    Except RetrievalFault (List Document) :=
  (i.retrieve f query requester).map (·.admitted)

end Index

end ScopedRetrieval
