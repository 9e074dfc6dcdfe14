/-
Embeddings from a model that a service on the network serves. A request is a text for a model at an
address; the service, and the network in front of it, may let the time run out, stay out of reach or
answer with anything. Only an answer that tells of success and holds a vector of the promised length
is an embedding, and of every other the error says what is wrong.
-/
import ScopedRetrieval.Provider

namespace ScopedRetrieval

/-! ## Services -/

/-- What is asked of a service: the vector of a text under a model. -/
structure EmbeddingRequest where
  endpoint : String
  model : String
  prompt : String
deriving DecidableEq, Inhabited

/-- What a service says of how it dealt with a request. -/
structure ServiceStatus where
  code : Nat
  reason : String
deriving DecidableEq, Inhabited

namespace ServiceStatus

/-- The codes between 200 and 299 tell of success. -/
def isSuccess (s : ServiceStatus) : Bool := 200 ≤ s.code ∧ s.code < 300

def describe (s : ServiceStatus) : String := toString s.code ++ " " ++ s.reason

end ServiceStatus

/-- What comes of a request. -/
inductive ServiceResponse where
  | timedOut (reason : String)
  /-- The request failed before an answer came, for another reason than the time. -/
  | failed (reason : String)
  /-- An answer; its body holds a vector, or it cannot be read. -/
  | answered (status : ServiceStatus) (body : Except String (List Binary64))

/-- A way to send requests. What comes of one, and after how many milliseconds, depends on the
request alone. -/
structure ServiceClient where
  delayMs : EmbeddingRequest → Nat
  send : EmbeddingRequest → ServiceResponse

/-- Why there is no client, with the messages of what caused it. -/
structure ClientFault where
  message : String
  causes : List String := []
deriving DecidableEq, Inhabited

/-- What the program is connected to: it gives a client that waits a number of seconds for each
answer, if there can be one. -/
structure Network where
  client (timeoutSecs : UInt64) : Except ClientFault ServiceClient

/-! ## Embedders -/

/-- A model at an address, which promises vectors of a fixed length. -/
structure RemoteEmbedder where
  client : ServiceClient
  baseUrl : String
  model : String
  dimension : Nat

namespace RemoteEmbedder

/-- The embedder at an address, without the slashes at its end. -/
def ofUrl (client : ServiceClient) (url model : String) (dimension : Nat) : RemoteEmbedder :=
  ⟨client, .ofList (url.toList.reverse.dropWhile (· = '/')).reverse, model, dimension⟩

def endpoint (e : RemoteEmbedder) : String := e.baseUrl ++ "/api/embeddings"

def request (e : RemoteEmbedder) (content : String) (attributes : Attributes) : EmbeddingRequest :=
  ⟨e.endpoint, e.model, embeddingText content attributes⟩

/-- The vector of an answer, if it has the promised length. -/
def checkLength (e : RemoteEmbedder) (values : List Binary64) : Except String Embedding :=
  if values.length = e.dimension then .ok ⟨values⟩
  else .error ("Expected " ++ toString e.dimension ++ " dimensions from " ++ e.model ++ ", got " ++
    toString values.length)

/-- The embedding that comes of a request, or why there is none. -/
def read (e : RemoteEmbedder) : ServiceResponse → Except String Embedding
  | .timedOut reason => .error ("Ollama request timed out: " ++ reason)
  | .failed reason => .error ("Failed to connect to Ollama: " ++ reason)
  | .answered status body =>
    if status.isSuccess then do
      e.checkLength (← body.mapError ("Failed to parse response: " ++ ·))
    else .error ("Ollama API error: " ++ status.describe)

def embed (e : RemoteEmbedder) (content : String) (attributes : Attributes) : Reply Embedding :=
  let request := e.request content attributes
  ⟨e.client.delayMs request, (e.read (e.client.send request)).mapError .embedding⟩

def toProvider (e : RemoteEmbedder) : EmbeddingProvider := ⟨"ollama", e.dimension, e.embed⟩

end RemoteEmbedder

end ScopedRetrieval
