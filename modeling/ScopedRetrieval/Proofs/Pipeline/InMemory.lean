/-
Pipelines over corpora in memory, from the configuration to the answer. With the embedder by hashes
no document can fail and none is degraded, whatever the settings: answers that are there at once
come in time also where no time is given, nothing to be loaded side by side still means one after
the other, and the embedder promises the length that it returns (`serves_documents`).
-/
import ScopedRetrieval.Proofs.Corpus.Memory
import ScopedRetrieval.Proofs.Embedding.Hash
import ScopedRetrieval.Proofs.Loader.Whole
import ScopedRetrieval.Proofs.Policy.Admission
import ScopedRetrieval.Proofs.Retrieval.Partition

namespace ScopedRetrieval

/-! ## Loading a corpus in memory -/

theorem Reply.gives_now {α : Type} (a : α) (timeoutMs : UInt64) :
    (Reply.now (.ok a)).Gives timeoutMs a :=
  ⟨Nat.zero_le _, rfl⟩

namespace MemoryCorpus

/-- A loader over a corpus in memory gets every document of it, whatever the settings are. -/
theorem supplies {c : MemoryCorpus} (hc : c.Filed) (e : HashEmbedder) (s : LoaderSettings) :
    (Loader.mk c.toProvider e.toProvider s).Supplies c.toList := by
  constructor
  case listing =>
    rw [map_id_toList hc]
    exact (Reply.bounded_outcome_eq_ok_iff ..).2 (Reply.gives_now c.ids _)
  case whole =>
    intro d hd
    have hlookup := lookup_of_mem_toList hc hd
    have hcontent : c.content d.id = .ok d.content := by
      unfold content
      rw [hlookup]
      rfl
    have hattributes : c.attributes d.id = .ok d.attributes := by
      unfold attributes
      rw [hlookup]
      rfl
    refine ⟨e.embed d.content d.attributes, (Loader.loadDocument_eq_ok_none_iff ..).2 ?_⟩
    have hgives : (c.toProvider.attributes d.id).Gives s.providerTimeoutMs d.attributes := by
      refine ⟨Nat.zero_le _, hattributes⟩
    exact ⟨⟨rfl, ⟨Nat.zero_le _, hcontent⟩, .inl hgives, Reply.gives_now _ _,
      e.dimension_embed d.content d.attributes⟩, hgives⟩
  case ascending => exact toList_ascending hc

end MemoryCorpus

/-! ## Answers -/

/-- The answer to a request has the last of the given documents for each identifier, each either
admitted or withheld as the filter decides, and the prompt made of the admitted ones. -/
structure Answer.Decides (a : Answer) (documents : List Document) (f : Filter) (s : PromptSettings)
    (query : String) (requester : Requester) : Prop where
  admitted_ascending : a.outcome.admittedIds.Pairwise (fun x y => Text.utf8 x < Text.utf8 y)
  mem_admitted : ∀ d, d ∈ a.outcome.admitted ↔
    MemoryCorpus.LastGiven documents d ∧ f.admits d.attributes requester = true
  denied_ascending : (a.outcome.denied.map (·.id)).Pairwise (fun x y => Text.utf8 x < Text.utf8 y)
  /-- What is withheld is the rest, each with the denial that the filter decides on. -/
  mem_denied : ∀ r, r ∈ a.outcome.denied ↔ ∃ d, MemoryCorpus.LastGiven documents d ∧ d.id = r.id ∧
    f.admits d.attributes requester = false ∧
    (f.evaluate d.attributes requester).deniedBy = some r.denial
  prompt : a.prompt = .build s query a.outcome.admitted

theorem Index.decides_record {i : Index} (hi : i.Filed) {documents : List Document}
    (hdocuments : i.documents = (MemoryCorpus.ofDocuments documents).toList) (f : Filter)
    (s : PromptSettings) (query : String) (requester : Requester) :
    (Answer.mk (i.record f query requester)
      (.build s query (i.record f query requester).admitted)).Decides documents f s query
        requester := by
  have hpartitions := Index.record_partitions hi f query requester
  have hholds : ∀ d, i.Holds d ↔ MemoryCorpus.LastGiven documents d := fun d => by
    rw [← Index.mem_documents_iff hi, hdocuments, MemoryCorpus.mem_toList_ofDocuments_iff]
  constructor
  case admitted_ascending => exact hpartitions.admitted_ascending
  case mem_admitted =>
    intro d
    rw [← hholds]
    exact hpartitions.mem_admitted d
  case denied_ascending => exact hpartitions.denied_ascending
  case mem_denied =>
    intro r
    refine (hpartitions.mem_denied r).trans (exists_congr fun d => ?_)
    rw [hholds, ← f.isAdmitted_evaluate, Decision.isAdmitted]
    refine and_congr_right fun _ => and_congr_right fun _ => ?_
    constructor
    · intro h
      rw [h]
      exact ⟨rfl, rfl⟩
    · exact fun h => h.2
  case prompt => rfl

namespace Pipeline

/-- The pipeline has loaded the documents without a fault, and each of its answers decides on just
these. -/
structure Serves (p : Pipeline) (documents : List Document) (f : Filter) (s : PromptSettings)
    (report : LoadReport) : Prop where
  clean : report.isClean = true
  indexed_perm : report.indexed.Perm (documents.map (·.id)).dedup
  indexed_ascending : report.indexed.Pairwise (fun x y => Text.utf8 x < Text.utf8 y)
  /-- A number of 64 bits. -/
  generation : report.generation.toNat = (documents.map (·.id)).dedup.length % UInt64.size
  answers : ∀ query requester, ∃ a, p.execute query requester = .ok a ∧
    a.outcome.generation = report.generation ∧ a.Decides documents f s query requester

/-- With the embedder by hashes and a valid policy, whatever the other settings and the network are,
the pipeline that a configuration describes loads any documents from memory, answers every request
by the last one given for each identifier, and is left by a load in place of all as it is but for
one generation more. -/
theorem serves_documents {c : Configuration} (hbackend : c.embedding.backend = .hash)
    (hpolicy : c.policy.validate = .ok ()) (network : Network) (documents : List Document) :
    ∃ p f loaded report,
      ofConfiguration network c (MemoryCorpus.ofDocuments documents).toProvider = .ok p ∧
      Filter.ofSettings c.policy = .ok f ∧
      p.load = (loaded, .ok report) ∧ loaded.Serves documents f c.prompt report ∧
      loaded.reload =
        ({ loaded with
            index := { loaded.index with generation := loaded.index.generation + 1 } },
          .ok { report with generation := report.generation + 1 }) := by
  have hfiled := MemoryCorpus.filed_ofDocuments documents
  have hfilter := Filter.ofSettings_of_validate hpolicy
  generalize hcorpus : MemoryCorpus.ofDocuments documents = corpus at hfiled
  let e := HashEmbedder.ofDimension c.embedding.dimension.toNat
  let l : Loader := ⟨corpus.toProvider, e.toProvider, c.loader⟩
  let p : Pipeline := ⟨l, .ofSettingsUnchecked c.policy, c.prompt, .empty⟩
  have hembedder : c.embedding.provider network = .ok e.toProvider := by
    unfold EmbeddingSettings.provider
    rw [hbackend]
  have hp : ofConfiguration network c corpus.toProvider = .ok p :=
    ofConfiguration_of_ok hfilter hembedder corpus.toProvider
  have hsupplies : l.Supplies corpus.toList := MemoryCorpus.supplies hfiled e c.loader
  obtain ⟨i, hload, hdocuments, hloaded, hgeneration⟩ := Loader.loadAll_of_supplies hsupplies
  have hi : i.Filed := by
    have hreachable : (Index.run .empty [.loadAll l]).Reachable := ⟨_, rfl⟩
    have heq : Index.run .empty [.loadAll l] = i := congrArg Prod.fst hload
    exact heq ▸ hreachable.filed
  let report : LoadReport :=
    ⟨corpus.toList.map (·.id), [], [], .ofNat corpus.toList.length⟩
  have hids : report.indexed = ((documents.map (·.id)).mergeSort (· ≤ ·)).dedup := by
    rw [← MemoryCorpus.ids_ofDocuments, hcorpus]
    exact MemoryCorpus.map_id_toList hfiled
  have hperm : report.indexed.Perm (documents.map (·.id)).dedup := by
    rw [hids]
    exact (List.mergeSort_perm ..).dedup
  have hload' : p.load = ({ p with index := i }, .ok report) := by
    show (({ p with index := (l.loadAll .empty).1 } : Pipeline), (l.loadAll .empty).2) = _
    rw [hload]
  have hreload : l.rebuildAll i = _ := Loader.rebuildAll_of_supplies hsupplies hload
  refine ⟨p, .ofSettingsUnchecked c.policy, { p with index := i }, report, hp, hfilter, hload', ?_,
    ?_⟩
  · constructor
    case clean => rfl
    case indexed_perm => exact hperm
    case indexed_ascending =>
      rw [hids]
      exact (mergeSort_dedup_ascending _).imp fun hlt => (Text.utf8_lt_utf8_iff _ _).2 hlt
    case generation =>
      rw [← hperm.length_eq]
      show (UInt64.ofNat corpus.toList.length).toNat = (corpus.toList.map _).length % _
      rw [List.length_map]
      exact UInt64.toNat_ofNat'
    case answers =>
      intro query requester
      refine ⟨⟨_, _⟩, ?_, hgeneration, Index.decides_record hi (hcorpus ▸ hdocuments) _ _ _ _⟩
      unfold execute
      rw [Index.retrieve_of_loaded hloaded]
      rfl
  · show (({ p with index := (l.rebuildAll i).1 } : Pipeline), (l.rebuildAll i).2) = _
    rw [hreload]

/-- A document that is given twice, with no time for any call, nothing to be loaded side by side,
vectors without a component and no client to be had. -/
theorem serves_documents_given_twice :
    let c : Configuration :=
      { policy := { missing := .deny, rules := [⟨"team", "owner", some "team", none⟩] }
        embedding := { dimension := 0 }, loader := ⟨0, 0⟩, prompt := ⟨0, true⟩ }
    let network : Network := ⟨fun _ => .error { message := "builder error" }⟩
    let documents : List Document :=
      [{ id := "b", content := "draft" }, { id := "a", content := "plan" },
        { id := "b", content := "news", attributes := .ofList [("owner", "infra")] }]
    c.embedding.backend = .hash ∧ c.policy.validate = .ok () ∧ c.validate ≠ .ok () ∧
      ∃ p f loaded report,
        ofConfiguration network c (MemoryCorpus.ofDocuments documents).toProvider = .ok p ∧
        Filter.ofSettings c.policy = .ok f ∧
        p.load = (loaded, .ok report) ∧ loaded.Serves documents f c.prompt report ∧
        loaded.reload =
          ({ loaded with
              index := { loaded.index with generation := loaded.index.generation + 1 } },
            .ok { report with generation := report.generation + 1 }) := by
  intro c network documents
  have hbackend : c.embedding.backend = .hash := rfl
  have hpolicy : c.policy.validate = .ok () := by decide
  exact ⟨hbackend, hpolicy, by decide, serves_documents hbackend hpolicy network documents⟩

end Pipeline

end ScopedRetrieval
