/-
What decides on the load of one document, told by its three calls, each held against the same time.
The first call to decide is that of the content, and the next that of the embedding; a call of the
attributes that fails decides nothing, but leaves the embedder to work on a document that has none
and is on record with the document, should it load. So of all that may go wrong together, just one
failure comes out (`load_decided_by_first_failing_call`).
-/
import ScopedRetrieval.Proofs.Loader.Account
import ScopedRetrieval.Proofs.Loader.Listing

namespace ScopedRetrieval

/-! ## Calls that fail -/

/-- A call fails exactly when it gives nothing. -/
theorem Reply.exists_fails_iff {α : Type} (r : Reply α) (timeoutMs : UInt64) :
    (∃ error, r.Fails timeoutMs error) ↔ ¬∃ a, r.Gives timeoutMs a := by
  simp only [← bounded_outcome_eq_error_iff, ← bounded_outcome_eq_ok_iff]
  cases (r.bounded timeoutMs).outcome with
  | ok a => simp
  | error e => simp

/-- The vector has another length than the embedder declares, and the error says so. -/
structure EmbeddingProvider.Mismatch (p : EmbeddingProvider) (e : Embedding)
    (error : ProviderError) : Prop where
  differs : e.dimension ≠ p.dimension
  error_eq : error = .wrongDimension p.name e.dimension p.dimension
  message : error.message = "Embedding failed: " ++ (p.name ++ " returned " ++
    toString e.dimension ++ " dimensions, expected " ++ toString p.dimension)

theorem EmbeddingProvider.checkDimension_eq_error_iff (p : EmbeddingProvider) (e : Embedding)
    (error : ProviderError) : p.checkDimension e = .error error ↔ p.Mismatch e error := by
  unfold checkDimension
  by_cases h : e.dimension = p.dimension
  · rw [if_pos h]
    exact iff_of_false nofun fun hm => hm.differs h
  · rw [if_neg h]
    constructor
    · intro herror
      cases herror
      exact ⟨h, rfl, rfl⟩
    · intro hm
      rw [hm.error_eq]

namespace Loader

variable (l : Loader) (id : String)

/-- The attributes that the load goes on with: those of the provider, or none where its call
fails. -/
def GoesOnWith (attributes : Attributes) : Prop :=
  (l.metadata.attributes id).Gives l.settings.providerTimeoutMs attributes ∨
    attributes = .empty ∧
      ∃ error, (l.metadata.attributes id).Fails l.settings.providerTimeoutMs error

/-- The embedding of this content with these attributes cannot be used: its call fails, or it has
the wrong length. -/
def EmbeddingFails (content : String) (attributes : Attributes) (error : ProviderError) : Prop :=
  (l.embedder.embed content attributes).Fails l.settings.providerTimeoutMs error ∨
    ∃ e, (l.embedder.embed content attributes).Gives l.settings.providerTimeoutMs e ∧
      l.embedder.Mismatch e error

/-- The content is there in time, and what there is cannot be embedded. -/
def FailsByEmbedding (error : ProviderError) : Prop :=
  ∃ content attributes,
    (l.metadata.content id).Gives l.settings.providerTimeoutMs content ∧
      l.GoesOnWith id attributes ∧ l.EmbeddingFails content attributes error

theorem goesOnWith_iff (attributes : Attributes) :
    l.GoesOnWith id attributes ↔ (l.readAttributes id).1 = attributes := by
  unfold GoesOnWith
  rw [readAttributes_eq_iff, Reply.exists_fails_iff]

theorem embeddingFails_iff (content : String) (attributes : Attributes) (error : ProviderError) :
    l.EmbeddingFails content attributes error ↔
      (l.embeddingReply content attributes).outcome.bind l.embedder.checkDimension =
        .error error := by
  unfold EmbeddingFails
  simp only [← Reply.bounded_outcome_eq_error_iff, ← Reply.bounded_outcome_eq_ok_iff,
    ← EmbeddingProvider.checkDimension_eq_error_iff]
  show (l.embeddingReply content attributes).outcome = .error error ∨
    (∃ e, (l.embeddingReply content attributes).outcome = .ok e ∧
      l.embedder.checkDimension e = .error error) ↔ _
  cases (l.embeddingReply content attributes).outcome with
  | ok e => simp [Except.bind]
  | error e => simp [Except.bind]

/-- The failure on record beside the attributes is that of their call. -/
theorem readAttributes_snd_eq_some_iff (f : LoadFailure) :
    (l.readAttributes id).2 = some f ↔
      ∃ error, (l.metadata.attributes id).Fails l.settings.providerTimeoutMs error ∧
        f = ⟨id, .attributes, error⟩ := by
  simp only [← Reply.bounded_outcome_eq_error_iff]
  show _ ↔ ∃ error, (l.attributesReply id).outcome = .error error ∧ f = ⟨id, .attributes, error⟩
  unfold readAttributes
  cases (l.attributesReply id).outcome with
  | ok a => simp
  | error e => simp [eq_comm]

/-! ## The deciding call -/

/-- How the calls for a document decide on its load. -/
structure DecidedByCalls (r : LoadResult) : Prop where
  content_iff : ∀ error, r = .error ⟨id, .content, error⟩ ↔
    (l.metadata.content id).Fails l.settings.providerTimeoutMs error
  embedding_iff : ∀ error, r = .error ⟨id, .embedding, error⟩ ↔ l.FailsByEmbedding id error
  /-- Nothing else is a failure. -/
  failure : ∀ f, r = .error f → f.id = id ∧ (f.stage = .content ∨ f.stage = .embedding)
  otherwise : (¬∃ error, (l.metadata.content id).Fails l.settings.providerTimeoutMs error) →
    (¬∃ error, l.FailsByEmbedding id error) → ∃ d, r = .ok d
  /-- It loads as what its calls gave, degraded by the call of its attributes if that failed. -/
  loaded_iff : ∀ d, r = .ok d ↔ l.Builds id d.entry ∧
    ∀ f, d.degraded = some f ↔
      ∃ error, (l.metadata.attributes id).Fails l.settings.providerTimeoutMs error ∧
        f = ⟨id, .attributes, error⟩

theorem loadDocument_eq_content_error_iff (error : ProviderError) :
    l.loadDocument id = .error ⟨id, .content, error⟩ ↔
      (l.metadata.content id).Fails l.settings.providerTimeoutMs error := by
  rw [loadDocument_eq_error_iff, ← Reply.bounded_outcome_eq_error_iff]
  constructor
  · rintro (⟨error', hc, hf⟩ | ⟨_, _, -, -, hf⟩)
    · cases hf
      exact hc
    · cases hf
  · intro hc
    exact .inl ⟨error, hc, rfl⟩

theorem loadDocument_eq_embedding_error_iff (error : ProviderError) :
    l.loadDocument id = .error ⟨id, .embedding, error⟩ ↔ l.FailsByEmbedding id error := by
  unfold FailsByEmbedding
  rw [loadDocument_eq_error_iff]
  simp only [goesOnWith_iff, embeddingFails_iff, ← Reply.bounded_outcome_eq_ok_iff]
  constructor
  · rintro (⟨_, -, hf⟩ | ⟨content, error', hc, he, hf⟩)
    · cases hf
    · cases hf
      exact ⟨content, _, hc, rfl, he⟩
  · rintro ⟨content, _, hc, rfl, he⟩
    exact .inr ⟨content, error, hc, he, rfl⟩

theorem exists_loadDocument_eq_ok
    (hc : ¬∃ error, (l.metadata.content id).Fails l.settings.providerTimeoutMs error)
    (he : ¬∃ error, l.FailsByEmbedding id error) : ∃ d, l.loadDocument id = .ok d := by
  cases h : l.loadDocument id with
  | ok d => exact ⟨d, rfl⟩
  | error f =>
    rcases (l.loadDocument_eq_error_iff id f).1 h with ⟨error, -, rfl⟩ | ⟨_, error, -, -, rfl⟩
    · exact absurd ⟨error, (l.loadDocument_eq_content_error_iff id error).1 h⟩ hc
    · exact absurd ⟨error, (l.loadDocument_eq_embedding_error_iff id error).1 h⟩ he

/-- A document that loads has on record as degrading it just what its attributes were lost by. -/
theorem loadDocument_eq_ok_iff_builds (d : LoadedDocument) :
    l.loadDocument id = .ok d ↔ l.Builds id d.entry ∧
      ∀ f, d.degraded = some f ↔
        ∃ error, (l.metadata.attributes id).Fails l.settings.providerTimeoutMs error ∧
          f = ⟨id, .attributes, error⟩ := by
  simp only [← readAttributes_snd_eq_some_iff]
  rw [builds_iff]
  have hdegraded : ∀ d', l.loadDocument id = .ok d' → d'.degraded = (l.readAttributes id).2 := by
    intro d' h
    obtain ⟨_, _, -, -, -, rfl⟩ := (l.loadDocument_eq_ok_iff id d').1 h
    rfl
  constructor
  · intro h
    refine ⟨⟨d, h, rfl⟩, fun f => ?_⟩
    rw [hdegraded d h]
  · rintro ⟨⟨d', h, hentry⟩, hd⟩
    -- the entry and what degraded it are all that there is to a loaded document
    have hd : d.degraded = d'.degraded := by
      rw [hdegraded d' h]
      exact Option.ext hd
    rw [h]
    obtain ⟨entry, degraded⟩ := d
    obtain ⟨entry', degraded'⟩ := d'
    cases hentry
    cases hd
    rfl

/-- Every load of a document, with whatever answers and delays, is decided by its first call to do
so. It fails by its content exactly when the call of the content is an error or too late, with that
error. Else it fails by its embedding exactly when the call of the embedder on the content and the
attributes, or none where their call fails, is an error, too late, or a vector of the wrong length.
Else it loads, degraded exactly when the call of its attributes is an error or too late. -/
theorem load_decided_by_first_failing_call (l : Loader) (id : String) :
    l.DecidedByCalls id (l.loadDocument id) := by
  constructor
  case content_iff => exact l.loadDocument_eq_content_error_iff id
  case embedding_iff => exact l.loadDocument_eq_embedding_error_iff id
  case failure =>
    intro f h
    rcases (l.loadDocument_eq_error_iff id f).1 h with ⟨_, -, rfl⟩ | ⟨_, _, -, -, rfl⟩
    · exact ⟨rfl, .inl rfl⟩
    · exact ⟨rfl, .inr rfl⟩
  case otherwise => exact l.exists_loadDocument_eq_ok id
  case loaded_iff => exact l.loadDocument_eq_ok_iff_builds id

/-- Content after just the time there is and attributes one millisecond later. The embedder, which
returns a component for each attribute, is left without any and fails the document. It loads where
there is a millisecond more, and where no component is what the embedder declares. -/
theorem load_decided_by_first_failing_call_late_attributes :
    let source : MetadataProvider :=
      { list := .now (.ok ["a"])
        content := fun _ => ⟨200, .ok "news"⟩
        attributes := fun _ => ⟨201, .ok (KeyMap.empty.insert "team" "press")⟩ }
    let counting : EmbeddingProvider :=
      ⟨"counting", 1, fun _ attributes => ⟨200, .ok ⟨attributes.toList.map fun _ => default⟩⟩⟩
    let hasty : Loader := ⟨source, counting, ⟨1, 200⟩⟩
    let patient : Loader := ⟨source, counting, ⟨1, 201⟩⟩
    let lenient : Loader := ⟨source, { counting with dimension := 0 }, ⟨1, 200⟩⟩
    let whole : Entry :=
      ⟨⟨"a", "news", KeyMap.empty.insert "team" "press"⟩, ⟨[default]⟩⟩
    let bare : Entry := ⟨⟨"a", "news", .empty⟩, ⟨[]⟩⟩
    hasty.loadDocument "a" = .error ⟨"a", .embedding, .wrongDimension "counting" 0 1⟩ ∧
      patient.loadDocument "a" = .ok ⟨whole, none⟩ ∧
      lenient.loadDocument "a" = .ok ⟨bare, some ⟨"a", .attributes, .timeout 200⟩⟩ ∧
      hasty.DecidedByCalls "a" (hasty.loadDocument "a") ∧
      patient.DecidedByCalls "a" (patient.loadDocument "a") ∧
      lenient.DecidedByCalls "a" (lenient.loadDocument "a") := by
  intro source counting hasty patient lenient whole bare
  have hfails : hasty.loadDocument "a" =
      .error ⟨"a", .embedding, .wrongDimension "counting" 0 1⟩ := by decide +kernel
  have hloads : patient.loadDocument "a" = .ok ⟨whole, none⟩ := by decide +kernel
  have hdegraded : lenient.loadDocument "a" =
      .ok ⟨bare, some ⟨"a", .attributes, .timeout 200⟩⟩ := by decide +kernel
  exact ⟨hfails, hloads, hdegraded, hasty.load_decided_by_first_failing_call "a",
    patient.load_decided_by_first_failing_call "a", lenient.load_decided_by_first_failing_call "a"⟩

end Loader

end ScopedRetrieval
