/-
The failures that end a piece of work, whatever part they come from, with their messages.
-/
import ScopedRetrieval.Configuration.Basic
import ScopedRetrieval.Corpus.Manifest
import ScopedRetrieval.Retrieval

namespace ScopedRetrieval

/-- Why a piece of work failed. -/
inductive Failure where
  | retrieval (fault : RetrievalFault)
  | provider (error : ProviderError)
  | configuration (fault : ConfigurationFault)
  | manifest (fault : ManifestFault)
  | http (fault : ClientFault)
  | io (reason : String)
deriving DecidableEq

namespace Failure

/-- The message of a provider's error where it ends a piece of work. -/
def providerMessage (reason : String) : String := "Provider error: " ++ reason

def configurationMessage (reason : String) : String := "Configuration error: " ++ reason

def manifestMessage (reason : String) : String := "Manifest error: " ++ reason

def httpMessage (reason : String) : String := "HTTP request failed: " ++ reason

def ioMessage (reason : String) : String := "I/O error: " ++ reason

def message : Failure → String
  | retrieval fault => fault.message
  | provider error => providerMessage error.message
  | configuration fault => configurationMessage fault.message
  | manifest fault => manifestMessage fault.message
  | http fault => httpMessage fault.message
  | io reason => ioMessage reason

/-- The messages from the failure down to its causes. A provider's error and that of a client are
causes of their own. -/
def chain : Failure → List String
  | provider error => [(provider error).message, error.message]
  | http fault => (http fault).message :: fault.message :: fault.causes
  | failure => [failure.message]

end Failure

end ScopedRetrieval
