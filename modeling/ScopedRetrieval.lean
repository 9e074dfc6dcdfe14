import ScopedRetrieval.Json.Reader
import ScopedRetrieval.Main
import ScopedRetrieval.Proofs.Text.ByteOrder
import ScopedRetrieval.Proofs.Policy.Evaluation
import ScopedRetrieval.Proofs.Policy.Requirement
import ScopedRetrieval.Proofs.Policy.Admission
import ScopedRetrieval.Proofs.Policy.Addition
import ScopedRetrieval.Proofs.Index.History
import ScopedRetrieval.Proofs.Index.Documents
import ScopedRetrieval.Proofs.Index.Change
import ScopedRetrieval.Proofs.Index.Generation
import ScopedRetrieval.Proofs.Index.LastStored
import ScopedRetrieval.Proofs.Index.Sharing
import ScopedRetrieval.Proofs.Index.Log
import ScopedRetrieval.Proofs.Index.Loaded
import ScopedRetrieval.Proofs.Index.Provenance
import ScopedRetrieval.Proofs.Retrieval.Partition
import ScopedRetrieval.Proofs.Retrieval.Confinement
import ScopedRetrieval.Proofs.Retrieval.NamedKeys
import ScopedRetrieval.Proofs.Loader.Schedule
import ScopedRetrieval.Proofs.Loader.Document
import ScopedRetrieval.Proofs.Loader.Effect
import ScopedRetrieval.Proofs.Loader.Interleaving
import ScopedRetrieval.Proofs.Loader.Report
import ScopedRetrieval.Proofs.Loader.Confluence
import ScopedRetrieval.Proofs.Loader.Rebuild
import ScopedRetrieval.Proofs.Loader.Batch
import ScopedRetrieval.Proofs.Loader.Account
import ScopedRetrieval.Proofs.Loader.Listing
import ScopedRetrieval.Proofs.Retrieval.Degraded
import ScopedRetrieval.Proofs.Corpus.Memory
import ScopedRetrieval.Proofs.Loader.Whole
import ScopedRetrieval.Proofs.Pipeline.InMemory
import ScopedRetrieval.Proofs.Toml.Key
import ScopedRetrieval.Proofs.Toml.Scalar
import ScopedRetrieval.Proofs.Toml.Line
import ScopedRetrieval.Proofs.Toml.Place
import ScopedRetrieval.Proofs.Toml.RoundTrip
import ScopedRetrieval.Proofs.Toml.Shape
import ScopedRetrieval.Proofs.Toml.Removal
import ScopedRetrieval.Proofs.Corpus.Manifest
import ScopedRetrieval.Proofs.Text.Decoding
import ScopedRetrieval.Proofs.Configuration.Partial
import ScopedRetrieval.Proofs.Configuration.RoundTrip
import ScopedRetrieval.Proofs.Volume.Way
import ScopedRetrieval.Proofs.Volume.Resolution
import ScopedRetrieval.Proofs.Volume.Change
import ScopedRetrieval.Proofs.Corpus.Directory
import ScopedRetrieval.Proofs.Pipeline.Sources
import ScopedRetrieval.Proofs.Policy.Validity
import ScopedRetrieval.Proofs.Retrieval.RuleOrder
import ScopedRetrieval.Proofs.Volume.Components
import ScopedRetrieval.Proofs.Volume.Footprint
import ScopedRetrieval.Proofs.Corpus.Identifier
import ScopedRetrieval.Proofs.Document.AttributeLine
import ScopedRetrieval.Proofs.Prompt.Selection
import ScopedRetrieval.Proofs.Prompt.Budget
import ScopedRetrieval.Proofs.Prompt.Text
import ScopedRetrieval.Proofs.Loader.Classification
import ScopedRetrieval.Proofs.Text.Cutting
import ScopedRetrieval.Proofs.Requester.Reading
import ScopedRetrieval.Proofs.Requester.RoundTrip
import ScopedRetrieval.Proofs.Corpus.Acceptance
import ScopedRetrieval.Proofs.Volume.Rewriting
import ScopedRetrieval.Proofs.Corpus.Writing
import ScopedRetrieval.Proofs.Number.Nearest
import ScopedRetrieval.Proofs.Embedding.Hash
import ScopedRetrieval.Proofs.Embedding.Fnv
import ScopedRetrieval.Proofs.Embedding.Remote
import ScopedRetrieval.Proofs.CommandLine.Spelling
import ScopedRetrieval.Proofs.CommandLine.Scanning
import ScopedRetrieval.Proofs.CommandLine.Consistency
