/-
The configuration: the settings of every part, each with its default, and when they are valid.
-/
import ScopedRetrieval.Embedding.Remote
import ScopedRetrieval.Loader.Document
import ScopedRetrieval.Policy.Filter
import ScopedRetrieval.Prompt
import ScopedRetrieval.Toml.Parser
import ScopedRetrieval.Toml.Shape
import ScopedRetrieval.Volume.Fault

namespace ScopedRetrieval

/-- Who computes embeddings. -/
inductive EmbeddingBackend where
  | hash
  | remote
deriving DecidableEq, Inhabited

def EmbeddingBackend.label : EmbeddingBackend → String
  | hash => "hash"
  | remote => "ollama"

structure EmbeddingSettings where
  backend : EmbeddingBackend := .hash
  dimension : UInt64 := 2
  host : String := "127.0.0.1"
  port : UInt16 := 11434
  model : String := "nomic-embed-text"
  requestTimeoutSecs : UInt64 := 30
deriving DecidableEq, Inhabited

namespace EmbeddingSettings

def url (s : EmbeddingSettings) : String := "http://" ++ s.host ++ ":" ++ toString s.port.toNat

/-- The embedder that the settings ask for. One that computes hashes needs no network. -/
def provider (network : Network) (s : EmbeddingSettings) : Except ClientFault EmbeddingProvider :=
  match s.backend with
  | .hash => .ok (HashEmbedder.ofDimension s.dimension.toNat).toProvider
  | .remote => do
    let client ← network.client s.requestTimeoutSecs
    return (RemoteEmbedder.ofUrl client s.url s.model s.dimension.toNat).toProvider

end EmbeddingSettings

structure Configuration where
  policy : PolicySettings := {}
  embedding : EmbeddingSettings := {}
  loader : LoaderSettings
  prompt : PromptSettings := {}
  logLevel : String := "info"
deriving DecidableEq, Inhabited

/-- What is wrong with a configuration, or with the file that holds it. -/
inductive ConfigurationFault where
  | policy (fault : PolicyFault)
  | zero (field : String)
  | modelMissing
  | logLevel (level : String)
  | unreadable (fault : Volume.Fault)
  | malformed (fault : Toml.Fault)
  | misshapen (fault : Toml.ShapeFault)
  | unwritable
  | directory (fault : Volume.Fault)
  | unwritten (fault : Volume.Fault)
deriving DecidableEq

def ConfigurationFault.message : ConfigurationFault → String
  | policy fault => fault.message
  | zero field => field ++ " must be greater than 0"
  | modelMissing => "embedding.model is required for the ollama provider"
  | logLevel level => "Invalid log level: " ++ level
  | unreadable fault => "Failed to read config: " ++ fault.message
  | malformed fault => "Failed to parse config: " ++ fault.message
  | misshapen fault => "Failed to parse config: " ++ fault.message
  | unwritable => "Failed to serialize config: an integer is out of range"
  | directory fault => "Failed to create config dir: " ++ fault.message
  | unwritten fault => "Failed to write config: " ++ fault.message

namespace Configuration

/-- The configuration where nothing is given, on a machine with a number of processors. -/
def builtIn (processors : UInt64) : Configuration := { loader := .builtIn processors }

def logLevels : List String := ["trace", "debug", "info", "warn", "error"]

/-- What must hold beside the validity of the policy, in the order in which it is checked. -/
def requirements (c : Configuration) : List (Bool × ConfigurationFault) :=
  [(c.embedding.dimension ≠ 0, .zero "embedding.dimension"),
    (c.embedding.backend = .remote → c.embedding.model ≠ "", .modelMissing),
    (c.loader.concurrency ≠ 0, .zero "loader.concurrency"),
    (c.loader.providerTimeoutMs ≠ 0, .zero "loader.provider_timeout_ms"),
    (c.prompt.maxTokens ≠ 0, .zero "context.max_context_tokens"),
    (c.logLevel ∈ logLevels, .logLevel c.logLevel)]

/-- Accepts a configuration in which nothing is wrong, and otherwise tells the first fault. -/
def validate (c : Configuration) : Except ConfigurationFault Unit :=
  match c.policy.fault?, c.requirements.find? (!·.1) with
  | some fault, _ => .error (.policy fault)
  | none, some (_, fault) => .error fault
  | none, none => .ok ()

def filter (c : Configuration) : Except ConfigurationFault Filter :=
  (Filter.ofSettings c.policy).mapError .policy

end Configuration

end ScopedRetrieval
